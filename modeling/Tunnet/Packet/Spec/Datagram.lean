import Tunnet.Packet.Parse
import Tunnet.Packet.Spec.Sighting

/-!
# Datagrams and their fragments

A TCP or UDP datagram, sent whole (`Datagram.whole`) or in pieces (`Split.fragments`), as the parser
sees it. `etherparse` reads the transport header of the whole datagram itself and leaves that of a
first fragment to be guessed; a `Coherent` one reads the same header from the start of a datagram as
from all of it, if it can read it at all. `Datagram.reading` is what is remembered of a first
fragment: the header, or only the protocol number (`reading_of_readable`,
`reading_of_not_readable`).
-/

namespace Tunnet

open List Parse

/-- From the start of a datagram the crate reads the header that it reads from all of it. -/
structure Etherparse.Coherent (E : Etherparse) : Prop where
  tcp : ∀ bytes n s s', E.tcpFromSlice (bytes.take n) = some s → E.tcpFromSlice bytes = some s' →
    { s with payloadLen := s'.payloadLen } = s'
  udp : ∀ bytes n s s', E.udpFromSlice (bytes.take n) = some s → E.udpFromSlice bytes = some s' →
    { s with payloadLen := s'.payloadLen } = s'

section

variable (E : Etherparse) (raw : List UInt8) (t : Option TransportSlice) {v4 : Ipv4Slice}
  {bytes : List UInt8} {fragmented c : Bool}

theorem Parse.parseIpv4_later (h : v4.fragmentsOffset ≠ 0) : (parseIpv4 E raw v4 t).fragmentation =
        .later v4.identification.toUInt32 v4.fragmentsOffset v4.moreFragments ∧
      (parseIpv4 E raw v4 t).transport.isLaterFragment := by
  unfold parseIpv4
  dsimp only
  rw [if_neg (fun hnone => h hnone.1), if_neg h]
  exact ⟨rfl, rfl⟩

theorem Parse.parseIpv4_unfragmented (hoffset : v4.fragmentsOffset = 0)
    (hmore : v4.moreFragments = false) : (parseIpv4 E raw v4 t).transport =
      decodeTransport v4.payload (t.or (guessTransport E v4.payload)) := by
  have hnone : v4.fragmentsOffset = 0 ∧ v4.moreFragments = false := ⟨hoffset, hmore⟩
  unfold parseIpv4
  dsimp only
  rw [if_pos hnone]
  rfl

theorem exists_of_isSome_ite {α β : Type} {o : Option α} {f : α → β}
    (h : (if c then none else o.map f).isSome) :
    ∃ a, o = some a ∧ (if c then none else o.map f) = some (f a) := by
  cases c with
  | true => cases h
  | false =>
    rw [if_neg Bool.false_ne_true, Option.isSome_map] at h
    obtain ⟨a, ha⟩ := Option.isSome_iff_exists.1 h
    exact ⟨a, ha, by rw [if_neg Bool.false_ne_true, ha, Option.map_some]⟩

theorem Parse.guessTransport_tcp (h : (guessTransport E ⟨6, fragmented, bytes⟩).isSome) :
    ∃ s, E.tcpFromSlice bytes = some s ∧
      guessTransport E ⟨6, fragmented, bytes⟩ = some (.tcp s) :=
  exists_of_isSome_ite h

theorem Parse.guessTransport_udp (h : (guessTransport E ⟨17, fragmented, bytes⟩).isSome) :
    ∃ s, E.udpFromSlice bytes = some s ∧
      guessTransport E ⟨17, fragmented, bytes⟩ = some (.udp s) :=
  exists_of_isSome_ite h

end

structure Datagram where
  src : Ipv4Addr
  dst : Ipv4Addr
  protocol : UInt8
  identification : UInt16
  ihl : UInt8
  ttl : UInt8
  payload : List UInt8
  transport : protocol = 6 ∨ protocol = 17
  size : payload.length ≤ 65515

namespace Datagram

variable (E : Etherparse) (wire : Ipv4Slice → List UInt8) (d : Datagram)

/-- The packet that carries some bytes of the payload. -/
def slice (offset : Nat) (more : Bool) (bytes : List UInt8) : Ipv4Slice where
  totalLen := UInt16.ofNat (d.ihl.toNat * 4 + bytes.length)
  identification := d.identification
  fragmentsOffset := UInt16.ofNat (offset / 8)
  moreFragments := more
  ihl := d.ihl
  ttl := d.ttl
  sourceAddr := d.src
  destinationAddr := d.dst
  payload := ⟨d.protocol, offset ≠ 0 || more, bytes⟩

/-- The datagram sent whole; the crate reads the transport header itself. -/
def whole : Packet :=
  let v4 := d.slice 0 false d.payload
  parseIpv4 E (wire v4) v4 (guessTransport E v4.payload)

/-- A fragment; the crate leaves its transport header alone. -/
def fragment (offset : Nat) (more : Bool) (bytes : List UInt8) : Packet :=
  let v4 := d.slice offset more bytes
  parseIpv4 E (wire v4) v4 none

/-- Under what the fragments of the datagram are known. -/
def fragKey : FragKey := ⟨.v4 d.src, .v4 d.dst, d.protocol, d.identification.toUInt32⟩

/-- The transport header can be read from these bytes. -/
def Readable (bytes : List UInt8) : Prop := (guessTransport E ⟨d.protocol, true, bytes⟩).isSome

/-- What the start of the payload is taken for. -/
def reading (bytes : List UInt8) : CachedTransport :=
  let payload : IpPayloadSlice := ⟨d.protocol, true, bytes⟩
  (CachedTransport.fromTransport (decodeTransport payload (guessTransport E payload))).getD
    (.other d.protocol)

/-! ### What the parser makes of the packets -/

theorem exists_fromTransport (payload : IpPayloadSlice) (t : Option TransportSlice) :
    ∃ c, CachedTransport.fromTransport (decodeTransport payload t) = some c := by
  rcases t with _ | (_ | _ | _ | _ | _)
  all_goals exact ⟨_, rfl⟩

variable {E d}

theorem fromTransport_eq_reading (bytes : List UInt8) (fragmented : Bool) :
    CachedTransport.fromTransport (decodeTransport ⟨d.protocol, fragmented, bytes⟩
      (guessTransport E ⟨d.protocol, fragmented, bytes⟩)) = some (d.reading E bytes) := by
  have hsame (t) :
      decodeTransport ⟨d.protocol, fragmented, bytes⟩ t =
        decodeTransport ⟨d.protocol, true, bytes⟩ t := by
    rcases t with _ | (_ | _ | _ | _ | _)
    all_goals rfl
  have hguess : guessTransport E ⟨d.protocol, fragmented, bytes⟩ =
      guessTransport E ⟨d.protocol, true, bytes⟩ := rfl
  obtain ⟨c, hc⟩ := exists_fromTransport ⟨d.protocol, true, bytes⟩
    (guessTransport E ⟨d.protocol, true, bytes⟩)
  rw [hsame, hguess, reading, hc, Option.getD_some]

variable {bytes : List UInt8}

theorem reading_of_not_readable (h : ¬d.Readable E bytes) :
    d.reading E bytes = .other d.protocol := by
  rw [Readable, Option.not_isSome_iff_eq_none] at h
  rw [reading, h]
  rfl

theorem number_reading (bytes : List UInt8) : (d.reading E bytes).number = d.protocol := by
  by_cases hreadable : d.Readable E bytes
  · unfold Readable at hreadable
    unfold reading
    dsimp only
    rcases d.transport with hproto | hproto
    · rw [hproto] at hreadable ⊢
      obtain ⟨s, -, hguess⟩ := guessTransport_tcp E hreadable
      rw [hguess]
      rfl
    · rw [hproto] at hreadable ⊢
      obtain ⟨s, -, hguess⟩ := guessTransport_udp E hreadable
      rw [hguess]
      rfl
  · rw [reading_of_not_readable hreadable]
    rfl

theorem reading_of_readable (hE : E.Coherent) {n : Nat} (hwhole : d.Readable E d.payload)
    (hstart : d.Readable E (d.payload.take n)) :
    d.reading E (d.payload.take n) = d.reading E d.payload := by
  unfold Readable at hwhole hstart
  unfold reading
  dsimp only
  rcases d.transport with hproto | hproto
  · rw [hproto] at hwhole hstart ⊢
    obtain ⟨s, hs, hguess⟩ := guessTransport_tcp E hstart
    obtain ⟨s', hs', hguess'⟩ := guessTransport_tcp E hwhole
    rw [hguess, hguess', ← hE.tcp _ n s s' hs hs']
    rfl
  · rw [hproto] at hwhole hstart ⊢
    obtain ⟨s, hs, hguess⟩ := guessTransport_udp E hstart
    obtain ⟨s', hs', hguess'⟩ := guessTransport_udp E hwhole
    rw [hguess, hguess', ← hE.udp _ n s s' hs hs']
    rfl

/-- A fragment after the first one of a datagram. -/
structure IsLater (d : Datagram) (packet : Packet) : Prop where
  src : packet.ip.v4Src = some d.src
  dst : packet.ip.v4Dst = some d.dst
  later : packet.transport.isLaterFragment
  key : FragmentTable.keyFor packet = some d.fragKey

/-- A first fragment of a datagram, read as `c`. -/
structure IsFirst (d : Datagram) (c : CachedTransport) (packet : Packet) : Prop where
  src : packet.ip.v4Src = some d.src
  dst : packet.ip.v4Dst = some d.dst
  first : packet.fragmentation.isFirst
  key : FragmentTable.keyFor packet = some d.fragKey
  transport : CachedTransport.fromTransport packet.transport = some c

variable {offset : Nat}

theorem isLater_fragment {wire : Ipv4Slice → List UInt8} (more : Bool)
    (bytes : List UInt8) (hpos : 8 ≤ offset) (hle : offset ≤ 65515) :
    d.IsLater (d.fragment E wire offset more bytes) := by
  have hne : (d.slice offset more bytes).fragmentsOffset ≠ 0 := by
    intro h
    have hval := congrArg UInt16.toNat h
    rw [slice, UInt16.toNat_ofNat', UInt16.toNat_zero] at hval
    omega
  obtain ⟨hfrag, hlater⟩ := parseIpv4_later E (wire (d.slice offset more bytes)) none hne
  refine ⟨rfl, rfl, hlater, ?_⟩
  rw [FragmentTable.keyFor, fragment, hfrag]
  rfl

theorem isFirst_fragment {wire : Ipv4Slice → List UInt8} (bytes : List UInt8) :
    d.IsFirst (d.reading E bytes) (d.fragment E wire 0 true bytes) := by
  refine ⟨rfl, rfl, ?_, ?_, ?_⟩
  · rfl
  · rfl
  · exact fromTransport_eq_reading bytes _

theorem fromTransport_whole {wire : Ipv4Slice → List UInt8} :
    CachedTransport.fromTransport (d.whole E wire).transport = some (d.reading E d.payload) := by
  rw [whole, parseIpv4_unfragmented E _ _ rfl rfl, Option.or_self]
  exact fromTransport_eq_reading d.payload _

end Datagram

/-- A datagram's payload cut at 8-byte boundaries into two or more pieces. -/
structure Split (payload : List UInt8) where
  first : List UInt8
  rest : List (List UInt8)
  flatten : first ++ rest.flatten = payload
  several : rest ≠ []
  nonempty : ∀ piece ∈ first :: rest, piece ≠ []
  aligned : ∀ piece ∈ (first :: rest).dropLast, 8 ∣ piece.length

namespace Split

variable (E : Etherparse) (wire : Ipv4Slice → List UInt8) (d : Datagram)

/-- The fragments after the first one. -/
def later : Nat → List (List UInt8) → List Packet
  | _, [] => []
  | offset, piece :: rest =>
    d.fragment E wire offset (!rest.isEmpty) piece :: later (offset + piece.length) rest

variable {d} in
def firstFragment (split : Split d.payload) : Packet := d.fragment E wire 0 true split.first

variable {d} in
def laterFragments (split : Split d.payload) : List Packet :=
  later E wire d split.first.length split.rest

variable {E wire d} {offset : Nat} {packet : Packet}

theorem isLater_later {pieces : List (List UInt8)} (hpos : 8 ≤ offset)
    (hle : offset + pieces.flatten.length ≤ 65515)
    (h : packet ∈ later E wire d offset pieces) : d.IsLater packet := by
  induction pieces generalizing offset with
  | nil => cases h
  | cons piece rest ih =>
    rw [flatten_cons, length_append] at hle
    rcases mem_cons.1 h with rfl | h
    · exact Datagram.isLater_fragment _ piece hpos (by omega)
    · exact ih (by omega) (by omega) h

variable (split : Split d.payload)

theorem eight_le_first : 8 ≤ split.first.length := by
  have hne : split.first ≠ [] := split.nonempty _ mem_cons_self
  have hmem : split.first ∈ (split.first :: split.rest).dropLast := by
    rw [dropLast_cons_of_ne_nil split.several]
    exact mem_cons_self
  have hpos := length_pos_iff.2 hne
  obtain ⟨k, hk⟩ := split.aligned _ hmem
  omega

theorem isLater_laterFragments (h : packet ∈ split.laterFragments E wire) : d.IsLater packet := by
  refine isLater_later split.eight_le_first ?_ h
  have hlength := congrArg length split.flatten
  rw [length_append] at hlength
  rw [hlength]
  exact d.size

theorem laterFragments_ne_nil : split.laterFragments E wire ≠ [] := by
  unfold laterFragments
  cases hrest : split.rest with
  | nil => exact absurd hrest split.several
  | cons => simp [later]

theorem first_eq_take : d.payload.take split.first.length = split.first := by
  have htake := congrArg (take split.first.length) split.flatten
  rwa [take_left, eq_comm] at htake

end Split

end Tunnet

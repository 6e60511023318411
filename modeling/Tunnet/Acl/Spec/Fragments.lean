import Tunnet.Acl.Spec.Flows
import Tunnet.Packet.Spec.Datagram

/-!
# Fragmentation and port rules

A datagram that is denied when sent whole must not get through in fragments. What decides is the
first fragment: if its transport header can be read, the rules see the same ports and deny it
whenever it comes. A first fragment too short for the header has no ports, rules with ports do not
match it, and once it is let through it speaks for the fragments that follow.

The other way in is a header remembered from another datagram with the same identification:
fragments sent before the first one go by it, and can open the flow that the first one then belongs
to.
`Blocked` excludes both, and `fragments_denied_iff` says that it is what decides.
-/

namespace Tunnet.Acl

open Datagram List Sighting
open Policy (Direction PolicyBundle EvalVerdict)
open Routing (Tables)

namespace AclEngine

variable (routes : Tables) (peerHex : String) (direction : Direction)

/-- Show packets to the engine, one after the other. -/
def send : List (Clock × Packet) → AclEngine → AclEngine × List EvalVerdict
  | [], a => (a, [])
  | (clock, packet) :: sends, a =>
    let out := a.evaluatePacket routes clock peerHex direction packet
    let rest := send sends out.1
    (rest.1, out.2 :: rest.2)

/-- Every fragment is sent once, in any order, at times that do not run backwards. -/
structure Sending (now : Instant) (fragments : List Packet) (sends : List (Clock × Packet)) :
    Prop where
  perm : (sends.map (·.2)).Perm fragments
  clock : (sends.map (·.1.now)).Pairwise (· ≤ ·)
  start : ∀ s ∈ sends, now ≤ s.1.now

variable {clock later : Clock} {a : AclEngine} {p q : Sighting} {packet first : Packet}
  {d : Datagram} {c x : CachedTransport} {packets fragments order : List Packet}

theorem ruling_clock (clock later : Clock) (src dst : Ipv4Addr) (l4 : ResolvedL4) :
    a.ruling routes later peerHex src dst direction l4 =
      a.ruling routes clock peerHex src dst direction l4 := by
  unfold ruling evaluateFlow
  dsimp only
  split_ifs <;> rfl

theorem passes_of_le (hle : clock.now ≤ later.now) (h : a.passes routes later peerHex direction p) :
    a.passes routes clock peerHex direction p := by
  unfold passes at *
  rw [ruling_clock routes peerHex direction clock later] at h
  rw [Bool.or_eq_true_iff] at *
  exact h.imp (Conntrack.Keying.live_of_le hle) id

/-! ### One fragment -/

theorem resolve_later (h : d.IsLater packet) (t : FragmentTable) (now : Instant) :
    t.resolve now packet =
      (t.evictExpired now, (t.cached d.fragKey now).map CachedTransport.toResolved) := by
  rw [FragmentTable.resolve, if_pos h.later, FragmentTable.lookup_eq h.key]
  rfl

theorem sees_later (h : d.IsLater packet)
    (hcached : a.fragments.cached d.fragKey clock.now = some c) :
    a.Sees clock packet ⟨d.src, d.dst, c⟩ := by
  refine ⟨h.src, h.dst, ?_⟩
  rw [resolve_later h, hcached]
  rfl

theorem sees_first (clock : Clock) (h : d.IsFirst x packet) :
    a.Sees clock packet ⟨d.src, d.dst, x⟩ := by
  refine ⟨h.src, h.dst, ?_⟩
  rw [resolve_of_fromTransport h.transport]
  rfl

theorem evaluatePacket_later (hready : a.Ready) (h : d.IsLater packet)
    (hcached : a.fragments.cached d.fragKey clock.now = some c) :
    let out := a.evaluatePacket routes clock peerHex direction packet
    (out.2.action = .allow ↔ a.passes routes clock peerHex direction ⟨d.src, d.dst, c⟩) ∧
      out.1.ruled = a.ruled ∧ out.1.Ready ∧
      ∀ later, clock.now ≤ later →
        out.1.fragments.cached d.fragKey later = a.fragments.cached d.fragKey later := by
  obtain ⟨hallow, hruled, hfragments⟩ :=
    evaluatePacket_passes routes clock peerHex direction hready (sees_later h hcached)
  refine ⟨hallow, hruled, hready.evaluatePacket routes clock peerHex direction packet, ?_⟩
  intro later hle
  rw [hfragments, resolve_later h]
  exact FragmentTable.cached_evictExpired hle

theorem evaluatePacket_orphan (h : d.IsLater packet)
    (hcached : a.fragments.cached d.fragKey clock.now = none) :
    (a.evaluatePacket routes clock peerHex direction packet).2.action = .deny := by
  unfold evaluatePacket
  rw [h.src, h.dst]
  rw [resolve_later h, hcached]
  rfl

theorem evaluatePacket_first (clock : Clock) (hready : a.Ready) (h : d.IsFirst x packet) :
    let out := a.evaluatePacket routes clock peerHex direction packet
    (out.2.action = .allow ↔ a.passes routes clock peerHex direction ⟨d.src, d.dst, x⟩) ∧
      out.1.ruled = a.ruled ∧ out.1.Ready ∧
      out.1.fragments.cached d.fragKey clock.now = some x := by
  obtain ⟨hallow, hruled, hfragments⟩ :=
    evaluatePacket_passes routes clock peerHex direction hready (sees_first clock h)
  refine ⟨hallow, hruled, hready.evaluatePacket routes clock peerHex direction packet, ?_⟩
  rw [hfragments, resolve_of_fromTransport h.transport]
  exact hready.fragments.cached_remember h.first h.key h.transport

/-! ### When a fragment is denied -/

variable {routes peerHex direction}

/-- A first fragment read as `x` is denied, and stays denied whatever a remembered header lets
through. -/
structure Blocked (routes : Tables) (clock : Clock) (peerHex : String) (direction : Direction)
    (d : Datagram) (x : CachedTransport) (a : AclEngine) : Prop where
  denied : a.passes routes clock peerHex direction ⟨d.src, d.dst, x⟩ = false
  apart : ∀ c, a.fragments.cached d.fragKey clock.now = some c →
    a.passes routes clock peerHex direction ⟨d.src, d.dst, c⟩ →
    Sighting.flow ⟨d.src, d.dst, c⟩ ≠ Sighting.flow ⟨d.src, d.dst, x⟩

/-- Nothing but a first fragment's own flow can let it through. -/
theorem passes_of_ne (hready : a.Ready) (hsees : a.Sees clock packet p) (hne : q.flow ≠ p.flow) :
    (a.evaluatePacket routes clock peerHex direction packet).1.passes routes clock peerHex direction
      q = a.passes routes clock peerHex direction q := by
  obtain ⟨-, hruled, -⟩ := evaluatePacket_passes routes clock peerHex direction hready hsees
  unfold passes
  rw [live_evaluatePacket_of_ne routes clock peerHex direction hready hsees hne,
    ruling_of_ruled routes clock hruled]

theorem Blocked.evaluatePacket (hblocked : a.Blocked routes clock peerHex direction d x)
    (hready : a.Ready) (hle : clock.now ≤ later.now) (h : d.IsLater packet)
    (hcached : a.fragments.cached d.fragKey later.now = some c)
    (hpasses : a.passes routes later peerHex direction ⟨d.src, d.dst, c⟩) :
    (a.evaluatePacket routes later peerHex direction packet).1.Blocked routes later peerHex
      direction d x := by
  have hne : flow ⟨d.src, d.dst, c⟩ ≠ flow ⟨d.src, d.dst, x⟩ :=
    hblocked.apart c (FragmentTable.cached_of_le hle hcached)
      (passes_of_le routes peerHex direction hle hpasses)
  constructor
  · rw [passes_of_ne hready (sees_later h hcached) hne.symm]
    have hdenied := hblocked.denied
    rw [← Bool.not_eq_true] at hdenied ⊢
    exact fun hpasses => hdenied (passes_of_le routes peerHex direction hle hpasses)
  · intro c' hcached' _
    obtain ⟨-, -, -, hsame⟩ := evaluatePacket_later routes peerHex direction hready h hcached
    rw [hsame later.now le_rfl, hcached] at hcached'
    cases hcached'
    exact hne

theorem Blocked.exists_denied (hblocked : a.Blocked routes clock peerHex direction d x)
    (hready : a.Ready) {sends : List (Clock × Packet)} (hfirst : ∃ s ∈ sends, d.IsFirst x s.2)
    (hall : ∀ s ∈ sends, d.IsFirst x s.2 ∨ d.IsLater s.2)
    (hclock : (sends.map (·.1.now)).Pairwise (· ≤ ·)) (hstart : ∀ s ∈ sends, clock.now ≤ s.1.now) :
    ∃ v ∈ (a.send routes peerHex direction sends).2, v.action = .deny := by
  induction sends generalizing a clock with
  | nil =>
    obtain ⟨s, hs, -⟩ := hfirst
    cases hs
  | cons s sends ih =>
    obtain ⟨now, packet⟩ := s
    have hle : clock.now ≤ now.now := hstart _ mem_cons_self
    rcases hall _ mem_cons_self with hpacket | hpacket
    · obtain ⟨hallow, -⟩ := evaluatePacket_first routes peerHex direction now hready hpacket
      have hdenied := hblocked.denied
      rw [← Bool.not_eq_true] at hdenied
      refine ⟨_, mem_cons_self, (action_eq_deny_iff _).2 fun haction => hdenied ?_⟩
      exact passes_of_le routes peerHex direction hle (hallow.1 haction)
    · cases hcached : a.fragments.cached d.fragKey now.now with
      | none =>
        exact ⟨_, mem_cons_self, evaluatePacket_orphan routes peerHex direction hpacket hcached⟩
      | some =>
        obtain ⟨hallow, -, hready', -⟩ :=
          evaluatePacket_later routes peerHex direction hready hpacket hcached
        by_cases haction :
            (a.evaluatePacket routes now peerHex direction packet).2.action = .allow
        · rw [map_cons, pairwise_cons] at hclock
          have hfirst' : ∃ s ∈ sends, d.IsFirst x s.2 := by
            obtain ⟨s, hs, hx⟩ := hfirst
            rcases mem_cons.1 hs with rfl | hs
            · exact absurd hpacket.later (CachedTransport.not_laterFragment hx.transport)
            · exact ⟨s, hs, hx⟩
          obtain ⟨v, hv, hdeny⟩ := ih (hblocked.evaluatePacket hready hle
            hpacket hcached (hallow.1 haction)) hready' hfirst'
            (fun s hs => hall s (mem_cons_of_mem _ hs)) hclock.2
            (fun s hs => hclock.1 _ (mem_map_of_mem hs))
          exact ⟨v, mem_cons_of_mem _ hv, hdeny⟩
        · exact ⟨_, mem_cons_self, (action_eq_deny_iff _).2 haction⟩

/-! ### When all fragments get through -/

theorem passes_evaluatePacket (hready : a.Ready) (hsees : a.Sees clock packet p)
    (hpasses : a.passes routes clock peerHex direction p) :
    (a.evaluatePacket routes clock peerHex direction packet).1.passes routes clock peerHex direction
      p := by
  obtain ⟨-, hruled, -⟩ := evaluatePacket_passes routes clock peerHex direction hready hsees
  obtain ⟨⟨log, hout⟩, -⟩ :=
    a.evaluatePacket_track routes clock peerHex direction hsees.src hsees.dst hsees.l4
  unfold passes at *
  rw [ruling_of_ruled routes clock hruled, hout, tracking_eq]
  rw [Bool.or_eq_true_iff] at *
  refine hpasses.imp (fun hlive => ?_) id
  exact hready.tidy.live_track p p clock.now direction _ _ _ rfl (.inl hlive)

/-- A header is remembered for the datagram, and what has this header is let through. -/
structure Open (routes : Tables) (clock : Clock) (peerHex : String) (direction : Direction)
    (d : Datagram) (c : CachedTransport) (a : AclEngine) : Prop where
  ready : a.Ready
  cached : a.fragments.cached d.fragKey clock.now = some c
  passes : a.passes routes clock peerHex direction ⟨d.src, d.dst, c⟩

variable (hopen : a.Open routes clock peerHex direction d c)

include hopen

theorem Open.evaluatePacket (h : d.IsLater packet) :
    let out := a.evaluatePacket routes clock peerHex direction packet
    out.1.Open routes clock peerHex direction d c ∧ out.2.action = .allow := by
  obtain ⟨hready, hcached, hpasses⟩ := hopen
  obtain ⟨hallow, -, hready', hsame⟩ :=
    evaluatePacket_later routes peerHex direction hready h hcached
  refine ⟨⟨hready', (hsame clock.now le_rfl).trans hcached, ?_⟩, hallow.2 hpasses⟩
  exact passes_evaluatePacket hready (sees_later h hcached) hpasses

theorem Open.live (h : d.IsLater packet)
    (hopens : ∀ flags, (Conntrack.openingPhase c.toResolved.protocol flags).isSome)
    (hflow : q.flow = flow ⟨d.src, d.dst, c⟩) : aclKeying.live q clock.now
      (a.evaluatePacket routes clock peerHex direction packet).1.conntrack :=
  live_evaluatePacket routes clock peerHex direction hopen.ready (sees_later h hopen.cached) hflow
    hopen.passes hopens

theorem Open.send (hall : ∀ packet ∈ packets, d.IsLater packet) :
    let out := a.send routes peerHex direction (packets.map (clock, ·))
    out.1.Open routes clock peerHex direction d c ∧ ∀ v ∈ out.2, v.action = .allow := by
  induction packets generalizing a with
  | nil => exact ⟨hopen, by simp [send]⟩
  | cons packet packets ih =>
    obtain ⟨hpacket, hpackets⟩ := forall_mem_cons.1 hall
    obtain ⟨hnext, haction⟩ := hopen.evaluatePacket hpacket
    obtain ⟨hlast, hactions⟩ := ih hnext hpackets
    exact ⟨hlast, forall_mem_cons.2 ⟨haction, hactions⟩⟩

omit hopen

theorem send_append (l₁ l₂ : List (Clock × Packet)) (a : AclEngine) :
    a.send routes peerHex direction (l₁ ++ l₂) =
      let out := a.send routes peerHex direction l₁
      let rest := out.1.send routes peerHex direction l₂
      (rest.1, out.2 ++ rest.2) := by
  induction l₁ generalizing a with
  | nil => rfl
  | cons s l₁ ih => simp [send, ih]

theorem first_then_later (hready : a.Ready)
    (hfirst : d.IsFirst x first) (hall : ∀ packet ∈ packets, d.IsLater packet)
    (hpasses : a.passes routes clock peerHex direction ⟨d.src, d.dst, x⟩) :
    ∀ v ∈ (a.send routes peerHex direction ((first :: packets).map (clock, ·))).2,
      v.action = .allow := by
  obtain ⟨hallow, -, hready', hcached⟩ :=
    evaluatePacket_first routes peerHex direction clock hready hfirst
  have hopen : (a.evaluatePacket routes clock peerHex direction first).1.Open routes clock peerHex
      direction d x :=
    ⟨hready', hcached, passes_evaluatePacket hready (sees_first clock hfirst) hpasses⟩
  exact forall_mem_cons.2 ⟨hallow.2 hpasses, (hopen.send hall).2⟩

/-- A remembered header of the same flow takes the first fragment through behind the others. -/
theorem later_then_first (hopen : a.Open routes clock peerHex direction d c)
    (hopens : ∀ flags, (Conntrack.openingPhase c.toResolved.protocol flags).isSome)
    (hfirst : d.IsFirst x first) (hall : ∀ packet ∈ packets, d.IsLater packet) (hne : packets ≠ [])
    (hflow : flow ⟨d.src, d.dst, x⟩ = flow ⟨d.src, d.dst, c⟩) :
    ∀ v ∈ (a.send routes peerHex direction ((packets ++ [first]).map (clock, ·))).2,
      v.action = .allow := by
  obtain ⟨before, last, rfl⟩ := (eq_nil_or_concat packets).resolve_left hne
  rw [concat_eq_append] at hall ⊢
  have hlast : d.IsLater last := hall last (by simp)
  obtain ⟨hopen', hbefore⟩ := hopen.send
    (fun packet hpacket => hall packet (mem_append_left _ hpacket))
  obtain ⟨hopen'', haction⟩ := hopen'.evaluatePacket hlast
  have hlive := hopen'.live hlast hopens hflow
  obtain ⟨hallow, -⟩ := evaluatePacket_first routes peerHex direction clock hopen''.ready hfirst
  rw [append_assoc, map_append, send_append]
  refine forall_mem_append.2 ⟨hbefore, forall_mem_cons.2 ⟨haction, ?_⟩⟩
  refine forall_mem_cons.2 ⟨hallow.2 ?_, by simp [send]⟩
  rw [passes, hlive, Bool.true_or]

/-! ### Datagrams -/

theorem sending_map (h : order.Perm fragments) (clock : Clock) :
    Sending clock.now fragments (order.map (clock, ·)) where
  perm := by simpa using h
  clock := by
    rw [map_map]
    exact pairwise_map.2 (pairwise_of_forall fun _ _ => le_rfl)
  start s hs := by
    obtain ⟨packet, -, rfl⟩ := mem_map.1 hs
    exact le_rfl

theorem opens_of_number (h : c.number = 6 ∨ c.number = 17) (flags : UInt8) :
    (Conntrack.openingPhase c.toResolved.protocol flags).isSome := by
  rw [c.protocol_toResolved]
  rcases h with h | h
  · rw [h]
    unfold Conntrack.openingPhase
    split_ifs <;> rfl
  · rw [h]
    rfl

variable {E : Etherparse} {wire : Ipv4Slice → List UInt8}

theorem evaluatePacket_whole (hready : a.Ready) (clock : Clock) :
    (a.evaluatePacket routes clock peerHex direction (d.whole E wire)).2.action = .allow ↔
      a.passes routes clock peerHex direction ⟨d.src, d.dst, d.reading E d.payload⟩ := by
  refine (evaluatePacket_passes routes clock peerHex direction hready ⟨rfl, rfl, ?_⟩).1
  rw [resolve_of_fromTransport fromTransport_whole]
  rfl

/-- All orders and times of sending end with a denial exactly when the first fragment is blocked. -/
theorem blocked_iff (hready : a.Ready)
    (hfirst : d.IsFirst x first) (hall : ∀ packet ∈ packets, d.IsLater packet) (hne : packets ≠ [])
    (hnumber : x.number = 6 ∨ x.number = 17) :
    (∀ sends, Sending clock.now (first :: packets) sends →
      ∃ v ∈ (a.send routes peerHex direction sends).2, v.action = .deny) ↔
    a.Blocked routes clock peerHex direction d x := by
  -- an order in which everything is let through
  have hnot {order : List Packet} (hperm : order.Perm (first :: packets))
      (hdenied : ∀ sends, Sending clock.now (first :: packets) sends →
        ∃ v ∈ (a.send routes peerHex direction sends).2, v.action = .deny) :
      ¬∀ v ∈ (a.send routes peerHex direction (order.map (clock, ·))).2, v.action = .allow := by
    intro hallowed
    obtain ⟨v, hv, hdeny⟩ := hdenied _ (sending_map hperm clock)
    exact absurd (hallowed v hv) (by rw [hdeny]; decide)
  constructor
  · intro hdenied
    constructor
    · rw [← Bool.not_eq_true]
      intro hpasses
      exact hnot (Perm.refl _) hdenied (first_then_later hready hfirst hall hpasses)
    · intro c hcached hpasses hflow
      have hc : c.number = x.number := number_of_flow_eq hflow
      refine hnot (perm_append_singleton first packets) hdenied ?_
      exact later_then_first ⟨hready, hcached, hpasses⟩
        (opens_of_number (by rwa [hc])) hfirst hall hne hflow.symm
  · intro hblocked sends hsending
    refine hblocked.exists_denied hready ?_ ?_ hsending.clock hsending.start
    · have hmem : first ∈ sends.map (·.2) := hsending.perm.mem_iff.2 mem_cons_self
      obtain ⟨s, hs, rfl⟩ := mem_map.1 hmem
      exact ⟨s, hs, hfirst⟩
    · intro s hs
      have hmem : s.2 ∈ first :: packets := hsending.perm.mem_iff.1 (mem_map_of_mem hs)
      rcases mem_cons.1 hmem with heq | hmem
      · exact .inl (heq ▸ hfirst)
      · exact .inr (hall s.2 hmem)

end AclEngine

open AclEngine

/-- When fragmentation cannot carry a denied datagram through: for every order and timing of its
fragments some fragment is denied, exactly when the transport header can be read from the first
fragment or packets of the protocol without ports are denied too, and no header remembered for the
same identification is let through that belongs to the flow of the first fragment. -/
theorem fragments_denied_iff {E : Etherparse} (hE : E.Coherent) (wire : Ipv4Slice → List UInt8)
    {selfId : SelfIdentity} {bundle : PolicyBundle} {ok : Bool} {h : List (Call × Reply)}
    {a : AclEngine} (hrun : Run step (fun _ _ _ => True) (withPostureFlag selfId bundle ok) h a)
    (routes : Tables) (clock : Clock) (peerHex : String) (direction : Direction) (d : Datagram)
    (hreadable : d.Readable E d.payload)
    (hdenied : (a.evaluatePacket routes clock peerHex direction (d.whole E wire)).2.action = .deny)
    (split : Split d.payload) :
    (∀ sends, Sending clock.now (split.firstFragment E wire :: split.laterFragments E wire) sends →
      ∃ v ∈ (a.send routes peerHex direction sends).2, v.action = .deny) ↔
    (d.Readable E split.first ∨
      a.passes routes clock peerHex direction ⟨d.src, d.dst, .other d.protocol⟩ = false) ∧
    ∀ c, a.fragments.cached d.fragKey clock.now = some c →
      a.passes routes clock peerHex direction ⟨d.src, d.dst, c⟩ →
      Sighting.flow ⟨d.src, d.dst, c⟩ ≠ Sighting.flow ⟨d.src, d.dst, d.reading E split.first⟩ := by
  have hready := ready_of_run hrun
  have hwhole : a.passes routes clock peerHex direction ⟨d.src, d.dst, d.reading E d.payload⟩ =
      false := by
    rw [← Bool.not_eq_true, ← evaluatePacket_whole hready clock, hdenied]
    decide
  have hnumber : (d.reading E split.first).number = 6 ∨ (d.reading E split.first).number = 17 := by
    rw [number_reading]
    exact d.transport
  refine (blocked_iff hready (isFirst_fragment split.first)
    (fun _ => split.isLater_laterFragments) split.laterFragments_ne_nil hnumber).trans ?_
  constructor
  · rintro ⟨hblocked, hapart⟩
    refine ⟨or_iff_not_imp_left.2 fun hnot => ?_, hapart⟩
    rwa [reading_of_not_readable hnot] at hblocked
  · rintro ⟨hfirst, hapart⟩
    refine ⟨?_, hapart⟩
    by_cases hread : d.Readable E split.first
    · have hread' : d.Readable E (d.payload.take split.first.length) := by
        rwa [split.first_eq_take]
      have hsame := reading_of_readable hE hreadable hread'
      rw [split.first_eq_take] at hsame
      rwa [hsame]
    · rw [reading_of_not_readable hread]
      exact hfirst.resolve_left hread

namespace Demo

variable (bytes : List UInt8)

/-- Two bytes in network order. -/
def word (i : Nat) : UInt16 :=
  (bytes.getD i 0).toUInt16 <<< 8 ||| (bytes.getD (i + 1) 0).toUInt16

def doubleWord (i : Nat) : UInt32 :=
  (word bytes i).toUInt32 <<< 16 ||| (word bytes (i + 2)).toUInt32

/-- A strict reader of TCP and UDP headers. -/
def strict : Etherparse where
  fromIp _ := .error .other
  tcpFromSlice bytes := let headerLen := (bytes.getD 12 0 >>> 4).toNat * 4
    let flag (bit : UInt8) : Bool := bytes.getD 13 0 &&& bit != 0
    if bytes.length < 20 ∨ headerLen < 20 ∨ bytes.length < headerLen then none
    else some ⟨word bytes 0, word bytes 2, doubleWord bytes 4, doubleWord bytes 8,
      flag TcpFlags.FIN, flag TcpFlags.SYN, flag TcpFlags.RST, flag TcpFlags.PSH, flag TcpFlags.ACK,
      flag TcpFlags.URG, headerLen, bytes.length - headerLen⟩
  udpFromSlice bytes := let length := (word bytes 4).toNat
    if bytes.length < 8 ∨ length < 8 ∨ bytes.length < length then none
    else some ⟨word bytes 0, word bytes 2, length - 8⟩
  icmpv4FromSlice _ := none
  icmpv6FromSlice _ := none

theorem getD_take (n i : Nat) (h : i < (bytes.take n).length) :
    (bytes.take n).getD i 0 = bytes.getD i 0 := by
  have hn : i < n := lt_of_lt_of_le h (length_take_le n bytes)
  rw [getD_eq_getElem?_getD, getD_eq_getElem?_getD, getElem?_take_of_lt hn]

theorem word_take (n i : Nat) (h : i + 1 < (bytes.take n).length) :
    word (bytes.take n) i = word bytes i := by
  rw [word, word, getD_take bytes n i (by omega), getD_take bytes n (i + 1) h]

theorem doubleWord_take (n i : Nat) (h : i + 3 < (bytes.take n).length) :
    doubleWord (bytes.take n) i = doubleWord bytes i := by
  rw [doubleWord, doubleWord, word_take bytes n i (by omega), word_take bytes n (i + 2) (by omega)]

theorem strict_coherent : strict.Coherent := by
  constructor
  · intro bytes n s s' hs hs'
    simp only [strict] at hs hs'
    split_ifs at hs hs'
    cases hs
    cases hs'
    rw [word_take bytes n 0 (by omega), word_take bytes n 2 (by omega),
      doubleWord_take bytes n 4 (by omega), doubleWord_take bytes n 8 (by omega),
      getD_take bytes n 12 (by omega), getD_take bytes n 13 (by omega)]
  · intro bytes n s s' hs hs'
    simp only [strict] at hs hs'
    split_ifs at hs hs'
    cases hs
    cases hs'
    rw [word_take bytes n 0 (by omega), word_take bytes n 2 (by omega)]

/-- Everything but connections to port 22 is allowed. -/
def noSsh : PolicyBundle :=
  { PolicyBundle.default with
    rules := [⟨.any, .any, .deny, [⟨22, 22⟩], some .tcp, 0, 0, .network, true, none, []⟩] }

def noSshEngine : AclEngine := withPostureFlag ⟨"aa", 1, [], "prod"⟩ noSsh true

/-- A segment to port 22. -/
def sshSegment : Datagram where
  src := 2
  dst := 1
  protocol := 6
  identification := 7
  ihl := 5
  ttl := 64
  payload := [0x9c, 0x40, 0, 22, 0, 0, 0, 0, 0, 0, 0, 0, 0x50, 0x02, 0, 0, 0, 0, 0, 0,
    0, 0, 0, 0, 0, 0, 0, 0, 0, 0, 0, 0]
  transport := .inl rfl
  size := by decide

/-- The segment cut in two behind its first `n` bytes. -/
def cut (n : Nat) (h : n = 8 ∨ n = 24) : Split sshSegment.payload where
  first := sshSegment.payload.take n
  rest := [sshSegment.payload.drop n]
  flatten := by simp
  several := by simp
  nonempty := by rcases h with rfl | rfl <;> decide
  aligned := by rcases h with rfl | rfl <;> decide

theorem fragments_denied_iff_long : ∃ v ∈ (noSshEngine.send .empty "bb" .inbound
      (((cut 24 (.inr rfl)).firstFragment strict (fun _ => []) ::
        (cut 24 (.inr rfl)).laterFragments strict (fun _ => [])).map (⟨0, 0⟩, ·))).2,
      v.action = .deny := by
  have hdenied : (noSshEngine.evaluatePacket .empty ⟨0, 0⟩ "bb" .inbound
      (sshSegment.whole strict fun _ => [])).2.action = .deny := by
    decide
  refine (fragments_denied_iff strict_coherent (fun _ => []) .start .empty ⟨0, 0⟩ "bb" .inbound
    sshSegment (by unfold Readable; decide) hdenied (cut 24 (.inr rfl))).2
    ⟨.inl (by unfold Readable; decide), ?_⟩ _
    (sending_map (Perm.refl _) ⟨0, 0⟩)
  intro c hcached
  cases hcached

/-- With only eight bytes in the first fragment it does: both fragments are allowed. -/
theorem short_fragment_gets_through :
    Run step (fun _ _ _ => True) (withPostureFlag ⟨"aa", 1, [], "prod"⟩ noSsh true) [] noSshEngine ∧
    (noSshEngine.evaluatePacket .empty ⟨0, 0⟩ "bb" .inbound
      (sshSegment.whole strict fun _ => [])).2.action = .deny ∧
    ∃ sends, Sending 0 ((cut 8 (.inl rfl)).firstFragment strict (fun _ => []) ::
      (cut 8 (.inl rfl)).laterFragments strict (fun _ => [])) sends ∧
      ∀ v ∈ (noSshEngine.send .empty "bb" .inbound sends).2, v.action = .allow := by
  refine ⟨.start, by decide, _, sending_map (Perm.refl _) ⟨0, 0⟩, ?_⟩
  decide

end Demo

end Tunnet.Acl

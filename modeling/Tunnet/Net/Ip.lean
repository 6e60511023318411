import Mathlib.Data.BitVec

/-!
# IP addresses, prefixes and times

An address of `w` bits is a `BitVec w`. `IpPrefix w` is the prefix type of the `ipnet` crate: an
address, whose host bits are kept as written, and a length that cannot exceed `w`.
-/

namespace Tunnet

open BitVec

/-- `std::net::Ipv4Addr`. -/
abbrev Ipv4Addr := BitVec 32

/-- `std::net::Ipv6Addr`. -/
abbrev Ipv6Addr := BitVec 128

/-- `std::net::IpAddr`. -/
inductive IpAddr
  | v4 (ip : Ipv4Addr)
  | v6 (ip : Ipv6Addr)
deriving DecidableEq

namespace Ipv4Addr

/-- `Ipv4Addr::new`. -/
def new (a b c d : BitVec 8) : Ipv4Addr := a ++ b ++ c ++ d

theorem toNat_new (a b c d : BitVec 8) : (new a b c d).toNat =
    ((a.toNat * 256 + b.toNat) * 256 + c.toNat) * 256 + d.toNat := by
  have happend {w : Nat} (x : BitVec w) (y : BitVec 8) :
      (x ++ y).toNat = x.toNat * 256 + y.toNat := by
    rw [toNat_append, ← Nat.shiftLeft_add_eq_or_of_lt y.isLt, Nat.shiftLeft_eq]
  rw [new, happend, happend, happend]

variable (ip : Ipv4Addr)

/-- The `i`-th octet, counted from the most significant one. -/
def octet (i : Nat) : Nat := (ip >>> (8 * (3 - i))).toNat % 256

def isUnspecified : Bool := ip == 0#32

/-- 127.0.0.0/8 -/
def isLoopback : Bool := octet ip 0 == 127

/-- 169.254.0.0/16 -/
def isLinkLocal : Bool := octet ip 0 == 169 && octet ip 1 == 254

/-- 224.0.0.0/4 -/
def isMulticast : Bool := 224 ≤ octet ip 0 && octet ip 0 ≤ 239

def isBroadcast : Bool := ip == BitVec.allOnes 32

/-- The address is loopback, link-local, unspecified, multicast or broadcast. -/
def isSpecial : Bool :=
  isLoopback ip || isLinkLocal ip || isUnspecified ip || isMulticast ip || isBroadcast ip

/-- One octet of an address in text: decimal, without leading zeros. -/
def parseOctet (digits : List Char) : Option (BitVec 8) :=
  let n := digits.foldl (fun n c => n * 10 + (c.toNat - 48)) 0
  if digits.all (fun c => 48 ≤ c.toNat && c.toNat ≤ 57) ∧ 1 ≤ digits.length ∧ digits.length ≤ 3 ∧
      (digits.head? = some '0' → digits.length = 1) ∧ n ≤ 255 then
    some (BitVec.ofNat 8 n)
  else none

/-- `Ipv4Addr::from_str`. -/
def parse (s : String) : Option Ipv4Addr :=
  match s.toList.splitOn '.' with
  | [a, b, c, d] => do
    let a ← parseOctet a
    let b ← parseOctet b
    let c ← parseOctet c
    let d ← parseOctet d
    some (new a b c d)
  | _ => none

/-- `Ord::min`; addresses are ordered as numbers. -/
def min (a b : Ipv4Addr) : Ipv4Addr := if a ≤ b then a else b

/-- `Ord::max`. -/
def max (a b : Ipv4Addr) : Ipv4Addr := if a ≤ b then b else a

end Ipv4Addr

/-- An address with a prefix length. -/
structure IpPrefix (w : Nat) where
  addr : BitVec w
  prefixLen : Nat
  prefixLen_le : prefixLen ≤ w
deriving DecidableEq

/-- `ipnet::Ipv4Net`. -/
abbrev Ipv4Net := IpPrefix 32

/-- `ipnet::Ipv6Net`. -/
abbrev Ipv6Net := IpPrefix 128

namespace Ipv4Net

/-! Lengths that the sources write down. -/

theorem length_zero : 0 ≤ 32 := by decide
theorem length_eight : 8 ≤ 32 := by decide
theorem length_twelve : 12 ≤ 32 := by decide
theorem length_sixteen : 16 ≤ 32 := by decide
theorem length_twentyFour : 24 ≤ 32 := by decide

end Ipv4Net

namespace IpPrefix

variable {w : Nat} (net : IpPrefix w)

/-- The mask of the prefix bits. -/
def netmask : BitVec w := BitVec.allOnes w <<< (w - net.prefixLen)

/-- The first address of the prefix. -/
def network : BitVec w := net.addr &&& net.netmask

/-- The last address of the prefix. -/
def broadcast : BitVec w := net.addr ||| ~~~net.netmask

/-- `contains`: between the first and the last address. -/
def contains (ip : BitVec w) : Bool := net.network ≤ ip && ip ≤ net.broadcast

theorem contains_iff {ip : BitVec w} : net.contains ip ↔
    net.network.toNat ≤ ip.toNat ∧ ip.toNat ≤ net.broadcast.toNat := by
  rw [contains, Bool.and_eq_true, decide_eq_true_iff, decide_eq_true_iff, le_def, le_def]

theorem broadcast_eq : net.broadcast = net.network ||| ~~~net.netmask := by
  unfold broadcast network
  ext i hi
  simp only [getElem_or, getElem_and, getElem_not]
  cases net.netmask[i] <;> simp

theorem toNat_network : net.network.toNat =
    net.addr.toNat / 2 ^ (w - net.prefixLen) * 2 ^ (w - net.prefixLen) := by
  have hshift : net.network = net.addr >>> (w - net.prefixLen) <<< (w - net.prefixLen) := by
    unfold network netmask
    ext i hi
    by_cases h : i < w - net.prefixLen
    · simp [h]
    · simp [h, Nat.add_sub_cancel' (not_lt.1 h), hi]
  rw [hshift, toNat_shiftLeft, toNat_ushiftRight, Nat.shiftRight_eq_div_pow,
    Nat.shiftLeft_eq, Nat.mod_eq_of_lt]
  exact (Nat.div_mul_le_self _ _).trans_lt net.addr.isLt

theorem toNat_broadcast :
    net.broadcast.toNat = net.network.toNat + (2 ^ (w - net.prefixLen) - 1) := by
  have hand : net.network &&& ~~~net.netmask = 0#w := by
    unfold network
    rw [BitVec.and_assoc]
    simp
  have hmask : ~~~net.netmask = BitVec.ofNat w (2 ^ (w - net.prefixLen) - 1) := by
    unfold netmask
    ext i hi
    rw [← getLsbD_eq_getElem, ← getLsbD_eq_getElem, getLsbD_ofNat]
    simp [hi]
  have hle := Nat.pow_le_pow_right (n := 2) (by decide) (Nat.sub_le w net.prefixLen)
  have hpos := Nat.two_pow_pos w
  rw [broadcast_eq, ← add_eq_or_of_and_eq_zero _ _ hand,
    toNat_add_of_and_eq_zero hand, hmask, toNat_ofNat, Nat.mod_eq_of_lt (by omega)]

/-- Two prefixes share an address exactly if one holds the first or the last one of the other. -/
theorem overlaps_iff {a b : IpPrefix w} : (a.contains b.network || a.contains b.broadcast ||
    b.contains a.network || b.contains a.broadcast) ↔
      ∃ ip, a.contains ip ∧ b.contains ip := by
  have ha := a.toNat_broadcast
  have hb := b.toNat_broadcast
  simp only [Bool.or_eq_true, contains_iff]
  constructor
  · rintro (((h | h) | h) | h)
    · exact ⟨_, h, by omega⟩
    · exact ⟨_, h, by omega⟩
    · exact ⟨_, by omega, h⟩
    · exact ⟨_, by omega, h⟩
  · rintro ⟨ip, hip, hip'⟩
    omega

end IpPrefix

/-- `ipnet::IpNet`. -/
inductive IpNet
  | v4 (net : Ipv4Net)
  | v6 (net : Ipv6Net)

/-- `IpNet::contains`: a prefix holds no address of the other family. -/
def IpNet.contains : IpNet → IpAddr → Bool
  | .v4 net, .v4 ip => net.contains ip
  | .v6 net, .v6 ip => net.contains ip
  | _, _ => false

/-- A 128-bit identifier (`uuid::Uuid`). -/
abbrev Uuid := BitVec 128

/-- A reading of the monotonic clock, in nanoseconds. -/
abbrev Instant := Nat

/-- `jiff::Timestamp`, in nanoseconds since the Unix epoch. -/
abbrev Timestamp := Int

namespace Timestamp

variable {t : Timestamp} {micros : Int}

def minValue : Timestamp := -377705023201 * 1000000000

def maxValue : Timestamp := 253402207200 * 1000000000 + 999999999

/-- `Timestamp::checked_add`: fails outside the representable range. -/
def checkedAdd (t d : Timestamp) : Option Timestamp :=
  if minValue ≤ t + d ∧ t + d ≤ maxValue then some (t + d) else none

/-- `Timestamp::from_microsecond`. -/
def fromMicrosecond (micros : Int) : Option Timestamp :=
  if Timestamp.minValue ≤ micros * 1000 ∧ micros * 1000 ≤ Timestamp.maxValue then
    some (micros * 1000)
  else none

/-- `Timestamp::as_microsecond`. -/
def asMicrosecond (t : Timestamp) : Int := t.tdiv 1000

/-- `t`, with the part after the second cut off. -/
def wholeSecond (t : Timestamp) : Timestamp := Int.tdiv t 1000000000 * 1000000000

theorem inRange_wholeSecond (h : minValue ≤ t ∧ t ≤ maxValue) :
    minValue ≤ wholeSecond t ∧ wholeSecond t ≤ maxValue := by
  have hcut (n : Int)
      (h : -377705023201 * 1000000000 ≤ n ∧ n ≤ 253402207200 * 1000000000 + 999999999) :
      -377705023201 * 1000000000 ≤ n.tdiv 1000000000 * 1000000000 ∧
        n.tdiv 1000000000 * 1000000000 ≤ 253402207200 * 1000000000 + 999999999 := by
    obtain ⟨m, rfl | rfl⟩ := n.eq_nat_or_neg
    · rw [Int.tdiv_eq_ediv_of_nonneg (Int.natCast_nonneg m)]
      omega
    · rw [Int.neg_tdiv, Int.tdiv_eq_ediv_of_nonneg (Int.natCast_nonneg m)]
      omega
  exact hcut t h

theorem wholeSecond_of_dvd (h : 1000000000 ∣ t) : wholeSecond t = t := Int.tdiv_mul_cancel h

theorem dvd_wholeSecond (t : Timestamp) : 1000000000 ∣ wholeSecond t := Dvd.intro_left _ rfl

theorem inRange_of_fromMicrosecond
    (h : fromMicrosecond micros = some t) : minValue ≤ t ∧ t ≤ maxValue := by
  unfold fromMicrosecond at h
  split_ifs at h
  rwa [← Option.some.inj h]

end Timestamp

/-- A representable timestamp. -/
abbrev RangedTimestamp := {t : Timestamp // Timestamp.minValue ≤ t ∧ t ≤ Timestamp.maxValue}

namespace RangedTimestamp

/-- `Timestamp::from_second(t.as_second())`. -/
def wholeSecond (t : RangedTimestamp) : RangedTimestamp :=
  ⟨Timestamp.wholeSecond t.1, Timestamp.inRange_wholeSecond t.2⟩

/-- `Timestamp::from_microsecond`. -/
def fromMicrosecond (micros : Int) : Option RangedTimestamp :=
  (Timestamp.fromMicrosecond micros).pmap Subtype.mk fun _ => Timestamp.inRange_of_fromMicrosecond

variable {micros : Int}

theorem val_of_fromMicrosecond {t : RangedTimestamp}
    (h : fromMicrosecond micros = some t) : t.1 = micros * 1000 := by
  obtain ⟨s, hs, hmicros, rfl⟩ := Option.pmap_eq_some_iff.1 h
  unfold Timestamp.fromMicrosecond at hmicros
  split_ifs at hmicros
  exact (Option.some.inj hmicros).symm

theorem fromMicrosecond_wholeSecond (t : RangedTimestamp) :
    fromMicrosecond (Timestamp.asMicrosecond t.wholeSecond.1) = some t.wholeSecond := by
  have hdvd : (1000 : Int) ∣ t.wholeSecond.1 :=
    dvd_trans (by decide) (Timestamp.dvd_wholeSecond t.1)
  have hback : Timestamp.asMicrosecond t.wholeSecond.1 * 1000 = t.wholeSecond.1 :=
    Int.tdiv_mul_cancel hdvd
  refine Option.pmap_eq_some_iff.2 ⟨t.wholeSecond.1, t.wholeSecond.2, ?_, rfl⟩
  unfold Timestamp.fromMicrosecond
  rw [hback, if_pos t.wholeSecond.2]

theorem wholeSecond_wholeSecond (t : RangedTimestamp) : t.wholeSecond.wholeSecond = t.wholeSecond :=
  Subtype.ext (Timestamp.wholeSecond_of_dvd (Timestamp.dvd_wholeSecond t.1))

end RangedTimestamp

end Tunnet

import Mathlib.Data.Sym.Sym2
import Tunnet.Packet.Spec.Conntrack

/-!
# The flow of a packet

What a packet is taken for has one of the protocol numbers' own protocols (`protocol_of_resolve`),
so the number in a flow key says which protocol it is of. A flow is a protocol with the identifier
of an ICMP exchange and the two ends, in no order (`Sighting.flow`), and there are two ways to make
keys that stand for flows: with the addresses in order (`flow_eq_iff_ordered`), or as in the packet
and looked for in both directions (`flow_eq_iff_directed`).
-/

namespace Tunnet

open Policy (Protocol)
open Conntrack (FlowKey)

variable {c : CachedTransport} {packet : Packet} {t : FragmentTable} {now : Instant}

/-! ### What packets are taken for -/

theorem resolve_toResolved {l4 : ResolvedL4}
    (h : (t.resolve now packet).2 = some l4) : ∃ c : CachedTransport, c.toResolved = l4 := by
  unfold FragmentTable.resolve at h
  split_ifs at h
  · obtain ⟨c, -, hc⟩ := Option.map_eq_some_iff.1 h
    exact ⟨c, hc⟩
  · obtain ⟨c, -, hc⟩ := Option.map_eq_some_iff.1 h
    exact ⟨c, hc⟩

theorem CachedTransport.not_laterFragment {t : Transport}
    (h : fromTransport t = some c) : ¬t.isLaterFragment := by
  intro hlater
  cases t <;> cases hlater
  cases h

theorem resolve_of_fromTransport
    (h : CachedTransport.fromTransport packet.transport = some c) (now : Instant)
    (t : FragmentTable) : t.resolve now packet = (t.remember now packet, some c.toResolved) := by
  rw [FragmentTable.resolve, if_neg (CachedTransport.not_laterFragment h),
    ResolvedL4.fromTransport, h, Option.map_some]

theorem Policy.Protocol.ipNumber_fromIpNumber (n : UInt8) : (fromIpNumber n).ipNumber = some n := by
  unfold fromIpNumber
  split_ifs with h6 h17 h1 h58
  · rw [h6]; rfl
  · rw [h17]; rfl
  · rw [h1]; rfl
  · rw [h58]; rfl
  · rfl

/-- The protocol number of a transport header. -/
def CachedTransport.number : CachedTransport → UInt8
  | tcp .. => 6
  | udp .. => 17
  | icmpv4 .. => 1
  | icmpv6 .. => 58
  | other n => n

theorem CachedTransport.protocol_toResolved (c : CachedTransport) :
    c.toResolved.protocol = .fromIpNumber c.number := by
  cases c <;> rfl

theorem protocol_of_resolve {l4 : ResolvedL4}
    (h : (t.resolve now packet).2 = some l4) : ∃ n, l4.protocol = .fromIpNumber n := by
  obtain ⟨c, rfl⟩ := resolve_toResolved h
  exact ⟨c.number, c.protocol_toResolved⟩

/-! ### Flows -/

theorem Ipv4Addr.min_comm (a b : Ipv4Addr) : min a b = min b a := by
  unfold min
  split_ifs <;> bv_omega

theorem Ipv4Addr.max_comm (a b : Ipv4Addr) : max a b = max b a := by
  unfold max
  split_ifs <;> bv_omega

theorem Ipv4Addr.min_le_max (a b : Ipv4Addr) : min a b ≤ max a b := by
  unfold min max
  split_ifs <;> bv_omega

theorem Ipv4Addr.pair_eq_iff (a b c d : Ipv4Addr) :
    s(a, b) = s(c, d) ↔ min a b = min c d ∧ max a b = max c d := by
  have hpair (x) (y) : s(x, y) = s(min x y, max x y) := by
    unfold min max
    split_ifs
    · rfl
    · exact Sym2.eq_swap
  constructor
  · intro h
    rcases Sym2.eq_iff.1 h with ⟨rfl, rfl⟩ | ⟨rfl, rfl⟩
    · exact ⟨rfl, rfl⟩
    · exact ⟨min_comm a b, max_comm a b⟩
  · rintro ⟨hmin, hmax⟩
    rw [hpair a b, hpair c d, hmin, hmax]

theorem CachedTransport.srcPort_icmp (h : c.number = 1) :
    c.toResolved.srcPort = c.toResolved.icmpId := by
  cases c with
  | tcp | udp => cases h
  | icmpv4 => rfl
  | icmpv6 => cases h
  | other => rfl

theorem CachedTransport.ports_icmpv6 (h : c.number = 58) :
    c.toResolved.srcPort = none ∧ c.toResolved.dstPort = none ∧ c.toResolved.icmpId = none := by
  cases c with
  | tcp | udp | icmpv4 => cases h
  | icmpv6 | other => exact ⟨rfl, rfl, rfl⟩

/-- What a tracker sees of a packet. -/
structure Sighting where
  src : Ipv4Addr
  dst : Ipv4Addr
  transport : CachedTransport

namespace Sighting

variable (p q : Sighting)

def l4 : ResolvedL4 := p.transport.toResolved

def number : UInt8 := p.transport.number

/-- The flow of a packet: its protocol, the identifier of an ICMP exchange, and the two ends, in no
order. -/
def flow : UInt8 × UInt16 × Sym2 (Ipv4Addr × UInt16) :=
  if p.number = 1 ∨ p.number = 58 then (p.number, p.l4.icmpId.getD 0, s((p.src, 0), (p.dst, 0)))
  else (p.number, 0, s((p.src, p.l4.srcPort.getD 0), (p.dst, p.l4.dstPort.getD 0)))

/-- The key with the addresses in order. -/
def ordered : FlowKey :=
  ⟨p.number, Ipv4Addr.min p.src p.dst, p.l4.icmpId.getD 0, Ipv4Addr.max p.src p.dst, 0⟩

/-- The key with the addresses as in the packet. -/
def directed : FlowKey :=
  ⟨p.number, p.src, p.l4.srcPort.getD 0, p.dst, p.l4.dstPort.getD 0⟩

variable {p q}

theorem number_of_flow_eq (h : p.flow = q.flow) : p.number = q.number := by
  have hfst (r : Sighting) : r.flow.1 = r.number := by
    unfold flow
    split_ifs <;> rfl
  rw [← hfst p, h, hfst q]

theorem flow_eq_iff_of_ne (hne : p.number ≠ q.number) {key fwd rev : FlowKey}
    (hkey : key.proto = q.number) (hfwd : fwd.proto = p.number) (hrev : rev.proto = p.number) :
    p.flow = q.flow ↔ key = fwd ∨ key = rev := by
  constructor
  · intro h
    exact absurd (number_of_flow_eq h) hne
  · rintro (rfl | rfl)
    · exact absurd (hfwd.symm.trans hkey) hne
    · exact absurd (hrev.symm.trans hkey) hne

theorem flow_eq_iff_ordered (hp : p.number = 1 ∨ p.number = 58) (hnumber : p.number = q.number) :
    p.flow = q.flow ↔ q.ordered = p.ordered := by
  have hq : q.number = 1 ∨ q.number = 58 := by rwa [← hnumber]
  have hends : s((p.src, (0 : UInt16)), (p.dst, (0 : UInt16))) = s((q.src, 0), (q.dst, 0)) ↔
      s(p.src, p.dst) = s(q.src, q.dst) := by
    simp
  rw [flow, flow, if_pos hp, if_pos hq, Prod.mk.injEq, Prod.mk.injEq, hends, Ipv4Addr.pair_eq_iff]
  rw [ordered, FlowKey.mk.injEq]
  tauto

theorem flow_of_ne (hp : p.number ≠ 1) : p.flow =
    (p.number, 0, s((p.src, p.l4.srcPort.getD 0), (p.dst, p.l4.dstPort.getD 0))) := by
  unfold flow
  split_ifs with hicmp
  · obtain ⟨hsrc, hdst, hid⟩ := CachedTransport.ports_icmpv6 (hicmp.resolve_left hp)
    unfold l4
    rw [hsrc, hdst, hid]
    rfl
  · rfl

theorem flow_eq_iff_directed (hp : p.number ≠ 1) (hnumber : p.number = q.number) :
    p.flow = q.flow ↔ q.directed = p.directed ∨ q.directed = p.directed.swap := by
  have hq : q.number ≠ 1 := by rwa [← hnumber]
  rw [flow_of_ne hp, flow_of_ne hq]
  simp only [directed, FlowKey.swap]
  grind

theorem ordered_eq_of_swap (h : q.ordered = p.ordered.swap) : q.ordered = p.ordered := by
  simp only [ordered, FlowKey.swap, FlowKey.mk.injEq] at h ⊢
  obtain ⟨hnumber, hmin, hid, hmax, hid'⟩ := h
  have hp := Ipv4Addr.min_le_max p.src p.dst
  have hq := Ipv4Addr.min_le_max q.src q.dst
  -- the addresses are equal, and so are the identifiers
  have hsame : Ipv4Addr.min p.src p.dst = Ipv4Addr.max p.src p.dst := by bv_omega
  exact ⟨hnumber, hmin.trans hsame.symm, hid.trans hid', hmax.trans hsame, trivial⟩

end Sighting

end Tunnet

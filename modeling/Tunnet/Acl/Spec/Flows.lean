import Tunnet.Acl.Spec.Tracking
import Tunnet.Packet.Spec.Flows
import Tunnet.Packet.Spec.FragmentTable
import Tunnet.Packet.Spec.Sighting

/-!
# The flows the access-control engine tracks

The engine's keys stand for flows (`aclKeying`), and it looks for every packet under them
(`acl_keys`). Its tables stay in order (`Ready`), so a packet is allowed exactly when its flow is
live or the rules allow it (`evaluatePacket_passes`), and touches no other flow.
-/

namespace Tunnet

open Policy (Protocol Direction PolicyBundle)
open Conntrack (FlowKey FlowState Keying Tidy track)
open Routing (Tables)

open Sighting in
/-- The keys of the access-control engine. -/
def aclKeying : Keying Sighting (UInt8 × UInt16 × Sym2 (Ipv4Addr × UInt16)) where
  fwd p := if p.number = 1 then p.ordered else p.directed
  rev p := (if p.number = 1 then p.ordered else p.directed).swap
  flow := flow
  flow_eq_iff p q := by
    by_cases hnumber : p.number = q.number
    · rw [← hnumber]
      split_ifs with hp
      · rw [flow_eq_iff_ordered (.inl hp) hnumber]
        exact ⟨.inl, fun h => h.elim id ordered_eq_of_swap⟩
      · exact flow_eq_iff_directed hp hnumber
    · apply flow_eq_iff_of_ne hnumber
      all_goals split_ifs <;> rfl

theorem Acl.protoNum_eq (proto : Protocol) : protoNum proto = proto.ipNumber := by
  cases proto <;> rfl

theorem acl_keys (p : Sighting) : Acl.AclEngine.keys p.src p.dst p.l4 =
    some (aclKeying.fwd p, aclKeying.rev p) := by
  have hproto : p.l4.protocol = .fromIpNumber p.number := p.transport.protocol_toResolved
  unfold Acl.AclEngine.keys Acl.flowKey
  rw [hproto, Acl.protoNum_eq, Protocol.ipNumber_fromIpNumber, Option.map_some]
  unfold aclKeying
  dsimp only
  split_ifs with hp
  · have hport : p.l4.srcPort = p.l4.icmpId := CachedTransport.srcPort_icmp hp
    rw [hport]
    rfl
  · rfl

namespace Acl.AclEngine

/-- The tables of an engine are in order. -/
structure Ready (a : AclEngine) : Prop where
  tidy : Tidy aclKeying a.conntrack
  fragments : a.fragments.Sound

/-- What the engine takes a packet for. -/
structure Sees (a : AclEngine) (clock : Clock) (packet : Packet) (p : Sighting) : Prop where
  src : packet.ip.v4Src = some p.src
  dst : packet.ip.v4Dst = some p.dst
  l4 : (a.fragments.resolve clock.now packet).2 = some p.l4

variable (routes : Tables) (clock : Clock) (peerHex : String) (direction : Direction)

theorem tracking_eq (p : Sighting) (a : AclEngine) :
    a.tracking routes clock peerHex p.src p.dst direction p.l4 =
      track clock.now direction (some (aclKeying.fwd p, aclKeying.rev p)) p.l4.protocol
        ((p.l4.tcpFlags.map (·.bits)).getD 0)
        ((a.ruling routes clock peerHex p.src p.dst direction p.l4).action = .allow)
        a.conntrack := by
  rw [tracking, acl_keys]

/-- A packet is let through: its flow is live, or the rules allow it. -/
def passes (p : Sighting) (a : AclEngine) : Bool :=
  aclKeying.live p clock.now a.conntrack ||
    (a.ruling routes clock peerHex p.src p.dst direction p.l4).action = .allow

section

variable {a : AclEngine} {packet : Packet} {p q : Sighting}

variable (hready : a.Ready)

include hready

theorem Ready.evaluatePacket (packet : Packet) :
    (a.evaluatePacket routes clock peerHex direction packet).1.Ready := by
  have hfragments : (a.fragments.resolve clock.now packet).1.Sound :=
    hready.fragments.resolve packet
  rcases a.evaluatePacket_cases routes clock peerHex direction packet with
    ⟨-, hout | hout⟩ | ⟨src, dst, l4, -, -, hl4, ⟨log, hout⟩, -⟩
  · rwa [hout]
  · rw [hout]
    exact ⟨hready.tidy, hfragments⟩
  · obtain ⟨c, rfl⟩ := resolve_toResolved hl4
    have htracking : a.tracking routes clock peerHex src dst direction c.toResolved = _ :=
      tracking_eq routes clock peerHex direction ⟨src, dst, c⟩ a
    rw [hout, htracking]
    exact ⟨hready.tidy.track _ clock.now direction _ _ _, hfragments⟩

variable (hsees : a.Sees clock packet p)

include hsees

/-- What a resolved packet does: it is let through as `passes` says, and only its own flow
changes. -/
theorem evaluatePacket_passes : let out := a.evaluatePacket routes clock peerHex direction packet
    (out.2.action = .allow ↔ a.passes routes clock peerHex direction p) ∧
      out.1.ruled = a.ruled ∧ out.1.fragments = (a.fragments.resolve clock.now packet).1 := by
  obtain ⟨⟨log, hout⟩, hallow⟩ :=
    a.evaluatePacket_track routes clock peerHex direction hsees.src hsees.dst hsees.l4
  rw [tracking_eq, hready.tidy.track_snd] at hallow
  refine ⟨hallow, ?_⟩
  rw [hout]
  exact ⟨rfl, rfl⟩

theorem live_evaluatePacket_of_ne
    (hne : q.flow ≠ p.flow) : aclKeying.live q clock.now
        (a.evaluatePacket routes clock peerHex direction packet).1.conntrack =
      aclKeying.live q clock.now a.conntrack := by
  obtain ⟨⟨log, hout⟩, -⟩ :=
    a.evaluatePacket_track routes clock peerHex direction hsees.src hsees.dst hsees.l4
  rw [hout, tracking_eq]
  exact hready.tidy.live_track_of_ne p q clock.now direction _ _ _ hne

theorem live_evaluatePacket
    (hflow : q.flow = p.flow) (hpasses : a.passes routes clock peerHex direction p)
    (hopens : ∀ flags, (Conntrack.openingPhase p.l4.protocol flags).isSome) :
    aclKeying.live q clock.now
      (a.evaluatePacket routes clock peerHex direction packet).1.conntrack := by
  obtain ⟨⟨log, hout⟩, -⟩ :=
    a.evaluatePacket_track routes clock peerHex direction hsees.src hsees.dst hsees.l4
  rw [hout, tracking_eq]
  refine hready.tidy.live_track p q clock.now direction _ _ _ hflow ?_
  exact (Bool.or_eq_true_iff.1 hpasses).imp id fun h => ⟨h, hopens _⟩

end

/-! ### Runs -/

theorem ready_of_run {selfId : SelfIdentity} {bundle : PolicyBundle} {ok : Bool}
    {h : List (Call × Reply)} {a : AclEngine}
    (hrun : Run step (fun _ _ _ => True) (withPostureFlag selfId bundle ok) h a) : a.Ready := by
  refine Run.invariant (I := fun _ a => a.Ready) ⟨.empty, .default⟩ ?_ hrun
  intro h a call hready _
  cases call with
  | packet routes clock peerHex direction packet =>
    exact hready.evaluatePacket routes clock peerHex direction packet
  | replaceBundle => exact ⟨.empty, hready.fragments.clear⟩
  | collect =>
    refine ⟨hready.tidy.of_sub fun key st hlookup => ?_, hready.fragments⟩
    rw [step, collect, Map.lookup_retain, Option.filter_eq_some_iff] at hlookup
    exact ⟨st, hlookup.1⟩

end Acl.AclEngine

end Tunnet

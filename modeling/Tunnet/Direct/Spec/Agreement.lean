import Tunnet.Acl.Spec.Flows
import Tunnet.Direct.Spec.Tracking

/-!
# The two connection trackers agree

The access-control engine and the direct firewall make their keys differently: only the firewall has
one key for both directions of an ICMPv6 exchange, and the engine looks for an ICMP flow under a
second key that never is in the table. Both ways stand for the same flows (`aclKeying`,
`firewallKeying`), so both refine one tracker on flows and give the same verdicts to any sequence of
packets for which their rules give the same ones.
-/

namespace Tunnet

open Direct.Firewall
open Policy (Protocol Direction PolicyBundle EvalVerdict)
open Conntrack (FlowKey Keying Refines)
open Routing (Tables)

open Sighting in
/-- The keys of the firewall. -/
def firewallKeying : Keying Sighting (UInt8 × UInt16 × Sym2 (Ipv4Addr × UInt16)) where
  fwd p := if p.number = 1 ∨ p.number = 58 then p.ordered else p.directed
  rev p := if p.number = 1 ∨ p.number = 58 then p.ordered else p.directed.swap
  flow := flow
  flow_eq_iff p q := by
    by_cases hnumber : p.number = q.number
    · rw [← hnumber]
      split_ifs with hp
      · rw [flow_eq_iff_ordered hp hnumber, or_self]
      · exact flow_eq_iff_directed (fun h => hp (.inl h)) hnumber
    · apply flow_eq_iff_of_ne hnumber
      all_goals split_ifs <;> rfl

theorem Policy.Protocol.isIcmp_fromIpNumber (n : UInt8) :
    (fromIpNumber n).isIcmp = true ↔ n = 1 ∨ n = 58 := by
  unfold fromIpNumber
  split_ifs with h6 h17 h1 h58
  · simp [h6, isIcmp]
  · simp [h17, isIcmp]
  · simp [h1, isIcmp]
  · simp [h58, isIcmp]
  · simp [h1, h58, isIcmp]

theorem firewall_keys (p : Sighting) : keys p.src p.dst p.l4 =
    some (firewallKeying.fwd p, firewallKeying.rev p) := by
  have hproto : p.l4.protocol = .fromIpNumber p.number := p.transport.protocol_toResolved
  rw [keys_eq_some]
  unfold reverse forward firewallKeying
  rw [hproto, Protocol.ipNumber_fromIpNumber]
  simp only [Protocol.isIcmp_fromIpNumber]
  split_ifs
  · exact ⟨rfl, rfl⟩
  · exact ⟨rfl, rfl⟩

/-! ### Both at once -/

/-- The two engines, and the time of the last call. -/
structure Trackers where
  acl : Acl.AclEngine
  firewall : Direct.FirewallEngine
  now : Instant

namespace Trackers

open Acl (AclEngine Clock)
open Direct (FirewallEngine FirewallText FirewallConfig PeerContext EvalResult)

inductive Call
  | packet (routes : Tables) (clock : Clock) (peerHex : String) (peer : PeerContext)
      (direction : Direction) (packet : Packet)
  | collectAcl (now : Instant)
  | collectFirewall (now : Instant)

inductive Reply
  | verdicts (acl : EvalVerdict) (firewall : EvalResult)
  | done

variable (text : FirewallText)

def step (s : Trackers) : Call → Trackers × Reply
  | .packet routes clock peerHex peer direction packet =>
    let acl := s.acl.evaluatePacket routes clock peerHex direction packet
    let firewall := s.firewall.evaluate text clock.now direction packet peer.endpointHex
      peer.hostname peer.networkId
    (⟨acl.1, firewall.1, clock.now⟩, .verdicts acl.2 firewall.2)
  | .collectAcl now => (⟨s.acl.collect now, s.firewall, now⟩, .done)
  | .collectFirewall now => (⟨s.acl, s.firewall.collect now, now⟩, .done)

/-- The verdict of the firewall without its table; it lets everything through while disabled. -/
def firewallBase (direction : Direction) (l4 : ResolvedL4) (peer : PeerContext)
    (f : FirewallEngine) : Bool :=
  !f.enabled || f.ruling text direction l4 peer = .allow

/-- The clock does not run backwards, packets are unfragmented IPv4 ones, and the rules of both
engines give a packet the same verdict. -/
def Alike (_ : List (Call × Reply)) (s : Trackers) : Call → Prop
  | .packet routes clock peerHex peer direction packet =>
    s.now ≤ clock.now ∧ packet.fragmentation = .none ∧
      ∃ src dst l4, packet.ip.v4Src = some src ∧ packet.ip.v4Dst = some dst ∧
        ResolvedL4.fromTransport packet.transport = some l4 ∧
        ((s.acl.ruling routes clock peerHex src dst direction l4).action = .allow ↔
          firewallBase text direction l4 peer s.firewall)
  | .collectAcl now => s.now ≤ now
  | .collectFirewall now => s.now ≤ now

/-- An engine of each kind, as they start. -/
def start (selfId : Acl.SelfIdentity) (bundle : PolicyBundle) (srcPostureOk : Bool)
    (cfg : FirewallConfig) : Trackers :=
  ⟨.withPostureFlag selfId bundle srcPostureOk, .fromConfig cfg, 0⟩

/-- Both tables know the same flows. -/
def Synced (s : Trackers) : Prop :=
  ∃ flows, Refines aclKeying s.acl.conntrack flows s.now ∧
    Refines firewallKeying s.firewall.conntrack flows s.now

/-- A packet was let through by both engines or by none. -/
def Agree (event : Call × Reply) : Prop :=
  ∀ acl firewall, event.2 = .verdicts acl firewall → (acl.action = .allow ↔ firewall = .allow)

variable {text} {now : Instant} {s : Trackers}

theorem resolve_unfragmented {packet : Packet} {l4 : ResolvedL4}
    (hl4 : ResolvedL4.fromTransport packet.transport = some l4) (now : Instant)
    (t : FragmentTable) :
    (t.resolve now packet).2 = some l4 := by
  obtain ⟨c, hc, rfl⟩ := Option.map_eq_some_iff.1 hl4
  rw [resolve_of_fromTransport hc]

section

variable {h : List (Call × Reply)} {routes : Tables} {clock : Clock} {peerHex : String}
  {peer : PeerContext} {direction : Direction} {packet : Packet}

theorem synced_packet (hsynced : s.Synced) (henabled : s.firewall.enabled)
    (hok : Alike text h s (.packet routes clock peerHex peer direction packet)) :
    (step text s (.packet routes clock peerHex peer direction packet)).1.Synced ∧
      Agree (.packet routes clock peerHex peer direction packet,
        (step text s (.packet routes clock peerHex peer direction packet)).2) := by
  obtain ⟨flows, hacl, hfirewall⟩ := hsynced
  obtain ⟨hle, -, src, dst, l4, hsrc, hdst, hl4, hbase⟩ := hok
  obtain ⟨c, -, rfl⟩ := Option.map_eq_some_iff.1 hl4
  obtain ⟨⟨log, hout⟩, hallow⟩ := s.acl.evaluatePacket_track routes clock peerHex direction hsrc
    hdst (resolve_unfragmented hl4 clock.now s.acl.fragments)
  have htable : _ = (s.acl.tracking routes clock peerHex src dst direction c.toResolved).1 :=
    congrArg AclEngine.conntrack hout
  obtain ⟨-, htable', hallow'⟩ := FirewallEngine.evaluate_track text clock.now henabled direction
    peer hsrc hdst (resolve_unfragmented hl4 clock.now s.firewall.fragments)
  -- both track the packet with the same base verdict
  have hsame : decide (s.firewall.ruling text direction c.toResolved peer = .allow) =
      decide ((s.acl.ruling routes clock peerHex src dst direction c.toResolved).action =
        .allow) := by
    rw [firewallBase, henabled, Bool.not_true, Bool.false_or, decide_eq_true_iff] at hbase
    exact decide_eq_decide.2 hbase.symm
  have hkeys : AclEngine.keys src dst c.toResolved = _ := acl_keys ⟨src, dst, c⟩
  have hkeys' : keys src dst c.toResolved = _ := firewall_keys ⟨src, dst, c⟩
  unfold AclEngine.tracking at htable hallow
  unfold FirewallEngine.tracking tcpFlags at htable' hallow'
  rw [hkeys] at htable hallow
  rw [hkeys', hsame] at htable' hallow'
  obtain ⟨hverdict, href⟩ := hacl.track hle ⟨src, dst, c⟩ direction c.toResolved.protocol
    ((c.toResolved.tcpFlags.map (·.bits)).getD 0)
    ((s.acl.ruling routes clock peerHex src dst direction c.toResolved).action = .allow)
  obtain ⟨hverdict', href'⟩ := hfirewall.track hle ⟨src, dst, c⟩ direction c.toResolved.protocol
    ((c.toResolved.tcpFlags.map (·.bits)).getD 0)
    ((s.acl.ruling routes clock peerHex src dst direction c.toResolved).action = .allow)
  rw [← htable] at href
  rw [← htable'] at href'
  refine ⟨⟨_, href, href'⟩, ?_⟩
  rintro acl firewall heq
  cases heq
  rw [hallow, hallow', hverdict, hverdict']
  rfl

theorem agree_disabled (hdisabled : s.firewall.enabled = false)
    (hok : Alike text h s (.packet routes clock peerHex peer direction packet)) :
    Agree (.packet routes clock peerHex peer direction packet,
      (step text s (.packet routes clock peerHex peer direction packet)).2) := by
  obtain ⟨-, -, src, dst, l4, hsrc, hdst, hl4, hbase⟩ := hok
  obtain ⟨-, hallow⟩ := s.acl.evaluatePacket_track routes clock peerHex direction hsrc hdst
    (resolve_unfragmented hl4 clock.now s.acl.fragments)
  rw [firewallBase, hdisabled] at hbase
  have hpass : (s.acl.tracking routes clock peerHex src dst direction l4).2 := by
    unfold AclEngine.tracking
    rw [decide_eq_true (hbase.2 rfl)]
    exact Conntrack.track_allowed _
  rintro acl firewall heq
  rw [step, FirewallEngine.evaluate_disabled text clock.now hdisabled] at heq
  cases heq
  exact ⟨fun _ => rfl, fun _ => hallow.2 hpass⟩

theorem enabled_step (call : Call) :
    (step text s call).1.firewall.enabled = s.firewall.enabled := by
  cases call with
  | packet routes clock peerHex peer direction packet =>
    exact congrArg Prod.fst (FirewallEngine.settings_evaluate text clock.now direction packet peer)
  | collectAcl | collectFirewall => rfl

end

/-- Flows are forgotten when they have expired, which neither engine notices. -/
theorem Synced.collectAcl (hsynced : s.Synced) (hle : s.now ≤ now) :
    Synced ⟨s.acl.collect now, s.firewall, now⟩ := by
  obtain ⟨flows, hacl, hfirewall⟩ := hsynced
  exact ⟨flows, hacl.retain hle, hfirewall.mono hle⟩

theorem Synced.collectFirewall (hsynced : s.Synced)
    (hle : s.now ≤ now) : Synced ⟨s.acl, s.firewall.collect now, now⟩ := by
  obtain ⟨flows, hacl, hfirewall⟩ := hsynced
  exact ⟨flows, hacl.mono hle, hfirewall.retain hle⟩

end Trackers

open Trackers

/-- The two connection trackers agree: whatever sequence of unfragmented IPv4 packets is shown
to both engines, with a clock that does not run backwards and rules that judge each packet alike,
both let through the same packets, whenever either collects its expired flows. -/
theorem trackers_agree (text : Direct.FirewallText) {selfId : Acl.SelfIdentity}
    {bundle : PolicyBundle} {srcPostureOk : Bool} {cfg : Direct.FirewallConfig}
    {h : List (Call × Reply)} {s : Trackers}
    (hrun : Run (step text) (Alike text) (start selfId bundle srcPostureOk cfg) h s) :
    ∀ event ∈ h, Agree event := by
  suffices hinv : (s.firewall.enabled → s.Synced) ∧ ∀ event ∈ h, Agree event from hinv.2
  refine Run.invariant (I := fun h s => (s.firewall.enabled → s.Synced) ∧
    ∀ event ∈ h, Agree event) ?_ ?_ hrun
  · refine ⟨fun _ => ⟨fun _ => none, .empty, .empty⟩, ?_⟩
    intro event hevent
    cases hevent
  · rintro h s call ⟨hsynced, hagree⟩ hok
    rw [enabled_step, List.forall_mem_cons]
    cases call with
    | packet =>
      cases henabled : s.firewall.enabled with
      | false => exact ⟨by simp, agree_disabled henabled hok, hagree⟩
      | true =>
        obtain ⟨hnext, hevent⟩ := synced_packet (hsynced henabled) henabled hok
        exact ⟨fun _ => hnext, hevent, hagree⟩
    | collectAcl =>
      refine ⟨fun henabled => (hsynced henabled).collectAcl hok, ?_, hagree⟩
      intro acl firewall heq
      cases heq
    | collectFirewall =>
      refine ⟨fun henabled => (hsynced henabled).collectFirewall hok, ?_, hagree⟩
      intro acl firewall heq
      cases heq

namespace Trackers.Demo

open Acl.Demo (queriesOnly datagram)

def text : Direct.FirewallText := ⟨fun _ => "", fun _ => none, fun _ => none⟩

/-- Nothing is allowed in. -/
def outOnly : Direct.FirewallConfig := ⟨true, [⟨.in, .deny, .any, [], .any⟩], 1⟩

def calls : List Call :=
  [.packet .empty ⟨0, 0⟩ "bb" ⟨some "bb", none, none⟩ .outbound (datagram 1 2 40000 53),
    .packet .empty ⟨1, 0⟩ "bb" ⟨some "bb", none, none⟩ .inbound (datagram 2 1 53 40000)]

def asked : List (Call × Reply) × Trackers :=
  exec (step text) [] (start ⟨"aa", 1, [], "prod"⟩ queriesOnly true outOnly) calls

/-- A query and its answer, which no rule allows, pass both engines. -/
theorem trackers_agree_asked : (∀ event ∈ asked.1, Agree event) ∧
      ∀ event ∈ asked.1, ∃ acl firewall, event.2 = .verdicts acl firewall ∧
        acl.action = .allow := by
  have hmeets : Meets (step text) (Alike text) []
      (start ⟨"aa", 1, [], "prod"⟩ queriesOnly true outOnly) calls := by
    refine ⟨⟨by decide, rfl, 1, 2, _, rfl, rfl, rfl, ?_⟩,
      ⟨by decide, rfl, 2, 1, _, rfl, rfl, rfl, ?_⟩, trivial⟩
    · decide
    · decide
  refine ⟨trackers_agree text (run_exec hmeets), ?_⟩
  intro event hevent
  simp only [asked, calls, exec, List.mem_cons, List.not_mem_nil, or_false] at hevent
  rcases hevent with rfl | rfl
  · exact ⟨_, _, rfl, by decide⟩
  · exact ⟨_, _, rfl, by decide⟩

end Trackers.Demo

end Tunnet

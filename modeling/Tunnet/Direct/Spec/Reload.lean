import Tunnet.Direct.Spec.Tracking
import Tunnet.Packet.Spec.Sighting
import Tunnet.Util.Run

/-!
# Tighter rules and live flows

Reloading the local rules or taking over suggested ones leaves the tracked flows alone, so a flow
that the new rules deny in both directions goes on as long as it is tracked. The rules take effect
at once in runs that are `Orderly`: they are changed only while no tracked flow would be denied by
the new ones, and the packets of a flow come with the same peer.

The invariant (`Permitted`) says that the rules in force deny no tracked flow outright for a peer it
was seen with.
-/

namespace Tunnet.Direct

open Policy (Protocol Direction)
open Conntrack (FlowKey FlowState track_cases)

namespace Firewall

/-- A packet belongs to the flow with this key, in one direction or the other. -/
def SameFlow (key : FlowKey) (src dst : Ipv4Addr) (l4 : ResolvedL4) : Prop :=
  l4.protocol = .fromIpNumber key.proto ∧
    (forward src dst l4 = some key ∨ reverse src dst l4 = some key)

variable {src dst src' dst' : Ipv4Addr} {l4 l4' : ResolvedL4} {key fwd rev key' : FlowKey}
  {n : UInt8}

variable (hproto : l4.protocol = .fromIpNumber n)

include hproto

theorem proto_forward (hkey : forward src dst l4 = some key) : key.proto = n := by
  unfold forward at hkey
  rw [hproto, Protocol.ipNumber_fromIpNumber] at hkey
  cases hkey
  split_ifs <;> rfl

theorem proto_reverse (hkey : reverse src dst l4 = some key) : key.proto = n := by
  unfold reverse at hkey
  split_ifs at hkey
  · exact proto_forward hproto hkey
  · rw [hproto, Protocol.ipNumber_fromIpNumber] at hkey
    cases hkey
    rfl

theorem sameFlow_of_keys (hkeys : keys src dst l4 = some (fwd, rev)) :
    SameFlow fwd src dst l4 ∧ SameFlow rev src dst l4 := by
  obtain ⟨hforward, hreverse⟩ := keys_eq_some.1 hkeys
  constructor
  · exact ⟨by rw [hproto, proto_forward hproto hforward], .inl hforward⟩
  · exact ⟨by rw [hproto, proto_reverse hproto hreverse], .inr hreverse⟩

theorem sameFlow_iff (hkeys : keys src dst l4 = some (fwd, rev)) :
    SameFlow fwd src' dst' l4' ↔ SameFlow rev src' dst' l4' := by
  obtain ⟨hforward, hreverse⟩ := keys_eq_some.1 hkeys
  have hfwd := proto_forward hproto hforward
  have hrev := proto_reverse hproto hreverse
  unfold SameFlow
  rw [hfwd, hrev, ← hproto]
  refine and_congr_right fun hsame => ?_
  by_cases hicmp : l4.protocol.isIcmp
  · rw [reverse_icmp hicmp, hforward] at hreverse
    cases hreverse
    rfl
  · rw [reverse_swap hicmp, hforward] at hreverse
    cases hreverse
    have hicmp' : ¬l4'.protocol.isIcmp := by rwa [hsame]
    rw [reverse_swap hicmp']
    cases forward src' dst' l4' with
    | none => simp
    | some =>
      simp only [Option.map_some, Option.some.injEq, FlowKey.swap_eq_iff]
      exact or_comm

omit hproto

theorem SameFlow.subset (hkey : SameFlow key src dst l4)
    (hkey' : SameFlow key' src dst l4) (h : SameFlow key src' dst' l4') :
    SameFlow key' src' dst' l4' := by
  rcases hkey.2, hkey'.2 with ⟨hfwd | hrev, hfwd' | hrev'⟩
  · cases hfwd.symm.trans hfwd'
    exact h
  · exact (sameFlow_iff hkey.1 (keys_eq_some.2 ⟨hfwd, hrev'⟩)).1 h
  · exact (sameFlow_iff hkey.1 (keys_eq_some.2 ⟨hfwd', hrev⟩)).2 h
  · cases hrev.symm.trans hrev'
    exact h

end Firewall

namespace FirewallEngine

open Firewall

variable (text : FirewallText)

variable (key : FlowKey) (peer : PeerContext) (f : FirewallEngine)

/-- The rules in force refuse every packet of a flow with a peer, in both directions. -/
def Denies : Prop :=
  f.enabled ∧ ∀ direction src dst l4, SameFlow key src dst l4 →
    f.ruling text direction l4 peer ≠ .allow

theorem Denies.of_settings {f f' : FirewallEngine} {key : FlowKey} {peer : PeerContext}
    (h : f.settings = f'.settings) (hdenies : f.Denies text key peer) :
    f'.Denies text key peer := by
  refine ⟨(congrArg Prod.fst h).symm.trans hdenies.1, fun direction src dst l4 hflow => ?_⟩
  rw [← ruling_of_settings text h]
  exact hdenies.2 direction src dst l4 hflow

/-! ### Runs -/

inductive Call
  | packet (now : Instant) (direction : Direction) (packet : Packet) (peer : PeerContext)
  | reloadLocal (cfg : FirewallConfig)
  | setSuggested (rules : List FirewallRule)
  | clearSuggested
  | flushConntrack
  | collect (now : Instant)

inductive Reply
  /-- What a packet was taken for, if the firewall looked at it, and what became of it. -/
  | verdict (l4 : Option ResolvedL4) (result : EvalResult)
  | done

def step : Call → FirewallEngine × Reply
  | .packet now direction packet peer =>
    let out := f.evaluate text now direction packet peer.endpointHex peer.hostname peer.networkId
    (out.1, .verdict (if f.enabled then (f.fragments.resolve now packet).2 else none) out.2)
  | .reloadLocal cfg => (f.reloadLocal cfg, .done)
  | .setSuggested rules => (f.setSuggested rules, .done)
  | .clearSuggested => (f.clearSuggested, .done)
  | .flushConntrack => (f.flushConntrack, .done)
  | .collect now => (f.collect now, .done)

/-- An event is a packet of the flow with this peer. -/
def IsPacketOf (event : Call × Reply) : Prop :=
  ∃ now direction packet src dst l4 result,
    event = (.packet now direction packet peer, .verdict (some l4) result) ∧
      packet.ip.v4Src = some src ∧ packet.ip.v4Dst = some dst ∧ SameFlow key src dst l4

variable (h : List (Call × Reply))

/-- A packet of the flow was seen with this peer. -/
def Seen (key : FlowKey) (peer : PeerContext) : Prop :=
  ∃ event ∈ h, IsPacketOf key peer event

/-- No tracked flow would be denied under the settings of `f'`. -/
def NoneDenied (f f' : FirewallEngine) : Prop :=
  ∀ key st peer, f.conntrack.lookup key = some st → Seen h key peer → ¬f'.Denies text key peer

/-- The packets of a flow come with one peer, and the rules change only while no tracked flow would
be denied by the new ones. -/
def Orderly (f : FirewallEngine) : Call → Prop
  | .packet now _ packet peer => ∀ src dst l4 key peer', f.enabled →
      packet.ip.v4Src = some src → packet.ip.v4Dst = some dst →
      (f.fragments.resolve now packet).2 = some l4 → SameFlow key src dst l4 →
      Seen h key peer' → peer' = peer
  | .reloadLocal cfg => NoneDenied text h f (f.reloadLocal cfg)
  | .setSuggested rules => NoneDenied text h f (f.setSuggested rules)
  | .clearSuggested => NoneDenied text h f f.clearSuggested
  | .flushConntrack => True
  | .collect _ => True

/-! ### The invariant -/

/-- Every tracked flow was seen with a peer, and the rules in force deny none with a peer it was
seen with. -/
structure Permitted (h : List (Call × Reply)) (f : FirewallEngine) : Prop where
  seen : ∀ key st, f.conntrack.lookup key = some st → ∃ peer, Seen h key peer
  permitted : NoneDenied text h f f

section

variable {h f key peer} {text} {f' : FirewallEngine} {peer' seenPeer : PeerContext}
  {event : Call × Reply} {direction : Direction} {now : Instant}

theorem seen_cons : Seen (event :: h) key peer ↔ IsPacketOf key peer event ∨ Seen h key peer := by
  simp [Seen]

theorem not_isPacketOf_done (call : Call) : ¬IsPacketOf key peer (call, .done) := by
  rintro ⟨now, direction, packet, src, dst, l4, result, heq, -⟩
  cases heq

theorem Permitted.noneDenied (hperm : Permitted text h f) (hsettings : f'.settings = f.settings) :
    NoneDenied text h f f' :=
  fun key st peer hlookup hseen hdenies =>
    hperm.permitted key st peer hlookup hseen (hdenies.of_settings text hsettings)

/-- An event keeps the invariant: it is a packet of a tracked flow only with a peer the flow was
seen with, and a flow that is not tracked yet is one it is a packet of and the rules do not deny. -/
theorem Permitted.extend (hperm : Permitted text h f) (hnone : NoneDenied text h f f')
    (hpeers : ∀ key st peer, f.conntrack.lookup key = some st → IsPacketOf key peer event →
      Seen h key peer) (hsub : ∀ key st, f'.conntrack.lookup key = some st →
      (∃ st', f.conntrack.lookup key = some st') ∨ (∃ peer, IsPacketOf key peer event) ∧
        ∀ peer, Seen (event :: h) key peer → ¬f'.Denies text key peer) :
    Permitted text (event :: h) f' where
  seen key st hlookup := by
    rcases hsub key st hlookup with ⟨st', hold⟩ | ⟨⟨peer, hpacket⟩, -⟩
    · obtain ⟨peer, hseen⟩ := hperm.seen key st' hold
      exact ⟨peer, seen_cons.2 (.inr hseen)⟩
    · exact ⟨peer, seen_cons.2 (.inl hpacket)⟩
  permitted key st peer hlookup hseen := by
    rcases hsub key st hlookup with ⟨st', hold⟩ | ⟨-, hnew⟩
    · exact hnone key st' peer hold ((seen_cons.1 hseen).elim (hpeers key st' peer hold) id)
    · exact hnew peer hseen

/-- A packet that the firewall looks at was not seen with another peer. -/
theorem Orderly.isPacketOf {packet : Packet}
    (hok : Orderly text h f (.packet now direction packet peer))
    (hpacket : IsPacketOf key peer' (.packet now direction packet peer,
      (step text f (.packet now direction packet peer)).2))
    (hseen : Seen h key seenPeer) : seenPeer = peer' := by
  obtain ⟨_, _, _, src, dst, l4, result, heq, hsrc, hdst, hflow⟩ := hpacket
  rw [step, Prod.mk.injEq, Reply.verdict.injEq] at heq
  obtain ⟨⟨rfl, rfl, rfl, rfl⟩, hl4, -⟩ := heq
  cases henabled : f.enabled with
  | false =>
    rw [henabled] at hl4
    cases hl4
  | true =>
    rw [henabled] at hl4
    exact hok src dst l4 key seenPeer henabled hsrc hdst hl4 hflow hseen

theorem Permitted.packet {packet : Packet}
    (hperm : Permitted text h f) (hok : Orderly text h f (.packet now direction packet peer)) :
    Permitted text ((.packet now direction packet peer,
      (step text f (.packet now direction packet peer)).2) :: h)
      (step text f (.packet now direction packet peer)).1 := by
  have hsettings := f.settings_evaluate text now direction packet peer
  refine hperm.extend (hperm.noneDenied hsettings) (fun key st peer' hlookup hpacket => ?_)
    fun key st hlookup => ?_
  · obtain ⟨seenPeer, hold⟩ := hperm.seen key st hlookup
    rwa [← hok.isPacketOf hpacket hold]
  cases henabled : f.enabled with
  | false =>
    rw [step, evaluate_disabled text now henabled] at hlookup
    exact .inl ⟨st, hlookup⟩
  | true =>
    obtain ⟨-, ⟨-, htable⟩ | ⟨src, dst, l4, hsrc, hdst, hl4, htable, -⟩⟩ :=
      evaluate_cases text now henabled direction packet peer
    · rw [step, htable] at hlookup
      exact .inl ⟨st, hlookup⟩
    obtain ⟨n, hproto⟩ := protocol_of_resolve hl4
    rw [step, htable] at hlookup
    unfold tracking at hlookup
    rcases track_cases (keys src dst l4) with ⟨fwd, rev, k, st', -, -, hst, -, htrack⟩ | ⟨-, hsub⟩
    · rw [htrack, Map.lookup_insert_eq] at hlookup
      split_ifs at hlookup with hk
      · exact .inl ⟨st', hk ▸ hst⟩
      · exact .inl ⟨st, hlookup⟩
    rcases hsub key st hlookup with hold | ⟨hallowed, -, rev, hkeys⟩
    · exact .inl ⟨st, hold⟩
    have hflow := (sameFlow_of_keys hproto hkeys).1
    have hhead : IsPacketOf key peer (.packet now direction packet peer,
        (step text f (.packet now direction packet peer)).2) := by
      refine ⟨now, direction, packet, src, dst, l4,
        (f.evaluate text now direction packet peer.endpointHex peer.hostname peer.networkId).2, ?_,
        hsrc, hdst, hflow⟩
      rw [step, henabled, if_pos rfl, hl4]
    refine .inr ⟨⟨peer, hhead⟩, fun peer' hseen hdenies => ?_⟩
    -- the only peer of this flow is the one the rules allowed it for
    have hpeer : peer' = peer := by
      rcases seen_cons.1 hseen with ⟨_, _, _, _, _, _, _, heq, -⟩ | hold
      · rw [Prod.mk.injEq, Call.packet.injEq] at heq
        exact heq.1.2.2.2.symm
      · exact hok.isPacketOf hhead hold
    subst hpeer
    exact (hdenies.of_settings text hsettings).2 direction src dst l4 hflow
      (decide_eq_true_iff.1 hallowed)

end

theorem permitted_of_run {cfg : FirewallConfig} {h : List (Call × Reply)} {f : FirewallEngine}
    (hrun : Run (step text) (Orderly text) (fromConfig cfg) h f) : Permitted text h f := by
  refine Run.invariant ?_ ?_ hrun
  · constructor
    · intro key st hlookup
      cases hlookup
    · intro key st peer hlookup
      cases hlookup
  · intro h f call hperm hok
    cases call with
    | packet => exact hperm.packet hok
    | reloadLocal | setSuggested | clearSuggested =>
      exact hperm.extend hok (fun _ _ _ _ h => absurd h (not_isPacketOf_done _))
        fun key st hlookup => .inl ⟨st, hlookup⟩
    | flushConntrack =>
      refine hperm.extend (hperm.noneDenied rfl)
        (fun _ _ _ _ h => absurd h (not_isPacketOf_done _)) fun key st hlookup => ?_
      cases hlookup
    | collect =>
      refine hperm.extend (hperm.noneDenied rfl)
        (fun _ _ _ _ h => absurd h (not_isPacketOf_done _)) fun key st hlookup => .inl ⟨st, ?_⟩
      rw [step, collect, Map.lookup_retain, Option.filter_eq_some_iff] at hlookup
      exact hlookup.1

end FirewallEngine

open Firewall FirewallEngine

/-- Tighter rules take effect on live flows in orderly runs: when the rules in force deny both
directions of a flow for a peer, no packet of the flow with this peer is allowed. -/
theorem tightening_takes_effect (text : FirewallText) {cfg : FirewallConfig}
    {h : List (Call × Reply)} {f : FirewallEngine}
    (hrun : Run (step text) (Orderly text) (fromConfig cfg) h f) (now : Instant)
    (direction : Direction) (packet : Packet) (peer : PeerContext)
    (hok : Orderly text h f (.packet now direction packet peer)) {src dst : Ipv4Addr}
    {l4 : ResolvedL4} {key : FlowKey} (hsrc : packet.ip.v4Src = some src)
    (hdst : packet.ip.v4Dst = some dst) (hl4 : (f.fragments.resolve now packet).2 = some l4)
    (hflow : SameFlow key src dst l4) (hdenies : f.Denies text key peer) :
    (f.evaluate text now direction packet peer.endpointHex peer.hostname peer.networkId).2 ≠
      .allow := by
  have hperm := permitted_of_run text hrun
  have henabled := hdenies.1
  obtain ⟨-, ⟨hdeny, -⟩ | ⟨src', dst', l4', hsrc', hdst', hl4', -, hallow⟩⟩ :=
    evaluate_cases text now henabled direction packet peer
  · rw [hdeny]
    simp
  cases hsrc.symm.trans hsrc'
  cases hdst.symm.trans hdst'
  cases hl4.symm.trans hl4'
  rw [Ne, hallow]
  obtain ⟨n, hproto⟩ := protocol_of_resolve hl4
  unfold tracking
  rcases track_cases (keys src dst l4) with
    ⟨fwd, rev, tracked, st, hkeys, hside, hst, -, -⟩ | ⟨hbase, -⟩
  · -- the flow was seen with this peer, and the rules in force do not deny it
    have htracked : SameFlow tracked src dst l4 := by
      rcases hside with rfl | rfl
      · exact (sameFlow_of_keys hproto hkeys).1
      · exact (sameFlow_of_keys hproto hkeys).2
    obtain ⟨seenPeer, hseen⟩ := hperm.seen tracked st hst
    cases hok src dst l4 tracked seenPeer henabled hsrc hdst hl4 htracked hseen
    refine absurd ⟨henabled, ?_⟩ (hperm.permitted tracked st peer hst hseen)
    intro direction' src' dst' l4' hflow'
    exact hdenies.2 direction' src' dst' l4' (htracked.subset hflow hflow')
  · rw [hbase, decide_eq_true_iff]
    exact hdenies.2 direction src dst l4 hflow

namespace Demo

def text : FirewallText := ⟨fun _ => "", fun _ => none, fun _ => none⟩

/-- Nothing in and nothing out. -/
def lockdown : FirewallConfig :=
  ⟨true, [⟨.in, .deny, .any, [], .any⟩, ⟨.out, .deny, .any, [], .any⟩], 2⟩

theorem lockdown_denies {f : FirewallEngine} (h : f.settings = (true, lockdown.rules, []))
    (key : FlowKey) (peer : PeerContext) : f.Denies text key peer := by
  simp only [settings, Prod.mk.injEq] at h
  refine ⟨h.1, fun direction src dst l4 _ => ?_⟩
  cases direction <;>
    simp [ruling, chooseAction, h.2.1, lockdown, matchRules, ruleMatches, wantDirection,
      portMatches, peerMatches, Protocol.matchesRule]

def peer : PeerContext := ⟨some "bb", none, none⟩

/-- A segment to port 22 of the peer. -/
def segment (flags : UInt8) : Packet :=
  ⟨[], 40, .v4 1 2 6 0 20 64, .none, .tcp 40000 22 ⟨flags⟩ 0 0 20 0⟩

def connect : Call := .packet 0 .outbound (segment TcpFlags.SYN) peer

/-- A connection opened before the lockdown. -/
def locked : List (Call × Reply) × FirewallEngine :=
  exec (step text) [] (fromConfig defaultFirewall) [connect, .reloadLocal lockdown]

/-- The same, with the tracked flows flushed in between. -/
def flushed : List (Call × Reply) × FirewallEngine :=
  exec (step text) [] (fromConfig defaultFirewall) [connect, .flushConntrack, .reloadLocal lockdown]

theorem tightening_takes_effect_flushed :
    (flushed.2.evaluate text 1 .outbound (segment TcpFlags.ACK) peer.endpointHex peer.hostname
      peer.networkId).2 ≠ .allow := by
  have hseen {key : FlowKey} {other : PeerContext} (h : Seen flushed.1 key other) :
      other = peer := by
    obtain ⟨event, hmem, now, direction, packet, src, dst, l4, result, heq, -⟩ := h
    simp only [flushed, exec, List.mem_cons, List.not_mem_nil, or_false] at hmem
    rcases hmem with rfl | rfl | rfl
    · cases heq
    · cases heq
    · rw [connect, Prod.mk.injEq, Call.packet.injEq] at heq
      exact heq.1.2.2.2.symm
  have hmeets : Meets (step text) (Orderly text) [] (fromConfig defaultFirewall)
      [connect, .flushConntrack, .reloadLocal lockdown] := by
    refine ⟨?_, trivial, ?_, trivial⟩
    · rintro src dst l4 key other - - - - - ⟨event, hmem, -⟩
      cases hmem
    · intro key st other hlookup
      cases hlookup
  exact tightening_takes_effect text (run_exec hmeets) 1 .outbound (segment TcpFlags.ACK) peer
    (fun _ _ _ _ _ _ _ _ _ _ h => hseen h) rfl rfl rfl ⟨rfl, .inl rfl⟩ (lockdown_denies rfl _ peer)

/-- The lockdown denies every flow, and still the next segment of the connection passes. -/
theorem lockdown_ignored :
    Run (step text) (fun _ _ _ => True) (fromConfig defaultFirewall) locked.1 locked.2 ∧
      (∀ key, locked.2.Denies text key peer) ∧
      (locked.2.evaluate text 1 .outbound (segment TcpFlags.ACK) peer.endpointHex peer.hostname
        peer.networkId).2 = .allow :=
  ⟨run_exec (meets_true _), fun key => lockdown_denies rfl key peer, by decide⟩

end Demo

end Tunnet.Direct

import Tunnet.Direct.Firewall
import Tunnet.Packet.Spec.Conntrack

/-!
# How the firewall tracks packets

An enabled firewall treats a packet as `Conntrack.track` says, with the action of its rules
(`evaluate_cases`).
-/

namespace Tunnet.Direct

open Policy (Protocol Direction)
open Conntrack (FlowKey track)

/-- Who a packet comes from or goes to, as far as it is known. -/
structure PeerContext where
  endpointHex : Option String
  hostname : Option String
  networkId : Option Uuid

variable {src dst : Ipv4Addr} {l4 : ResolvedL4}

namespace Firewall

/-- The keys of the two directions of a packet's flow. -/
def keys (src dst : Ipv4Addr) (l4 : ResolvedL4) : Option (FlowKey × FlowKey) :=
  match forward src dst l4, reverse src dst l4 with
  | some fwd, some rev => some (fwd, rev)
  | _, _ => none

variable {fwd rev : FlowKey}

theorem keys_eq_some : keys src dst l4 = some (fwd, rev) ↔
    forward src dst l4 = some fwd ∧ reverse src dst l4 = some rev := by
  unfold keys
  cases forward src dst l4 <;> cases reverse src dst l4 <;> simp

theorem isSome_reverse (src dst : Ipv4Addr) (l4 : ResolvedL4) :
    (reverse src dst l4).isSome = (forward src dst l4).isSome := by
  unfold reverse forward
  split_ifs <;> simp

theorem reverse_icmp (hicmp : l4.protocol.isIcmp) : reverse src dst l4 = forward src dst l4 := by
  rw [reverse, if_pos hicmp]

theorem reverse_swap (hicmp : ¬l4.protocol.isIcmp) :
    reverse src dst l4 = (forward src dst l4).map FlowKey.swap := by
  unfold reverse forward
  rw [Option.map_map]
  simp only [if_neg hicmp]
  rfl

end Firewall

namespace FirewallEngine

open Firewall

variable (text : FirewallText) (now : Instant)

/-- What the rules do with a packet of no tracked flow. -/
def ruling (direction : Direction) (l4 : ResolvedL4) (peer : PeerContext) (f : FirewallEngine) :
    FirewallAction :=
  f.chooseAction text direction l4 peer.endpointHex peer.hostname peer.networkId

/-- How the firewall tracks a packet. -/
def tracking (direction : Direction) (src dst : Ipv4Addr) (l4 : ResolvedL4) (peer : PeerContext)
    (f : FirewallEngine) : Conntrack.Table × Bool :=
  track now direction (keys src dst l4) l4.protocol (tcpFlags l4)
    (f.ruling text direction l4 peer = .allow) f.conntrack

/-- What decides, apart from the tracked flows. -/
def settings (f : FirewallEngine) : Bool × List FirewallRule × List FirewallRule :=
  (f.enabled, f.localRules, f.suggestedRules)

variable {direction : Direction} {peer : PeerContext} {f f' : FirewallEngine}

theorem ruling_of_settings (h : f.settings = f'.settings) :
    f.ruling text direction l4 peer = f'.ruling text direction l4 peer := by
  simp only [settings, Prod.mk.injEq] at h
  obtain ⟨-, hlocal, hsuggested⟩ := h
  unfold ruling chooseAction
  rw [hlocal, hsuggested]

theorem settings_openOrRefreshFlow :
    (f.openOrRefreshFlow now src dst l4).settings = f.settings := by
  unfold openOrRefreshFlow
  split <;> rfl

theorem conntrack_openOrRefreshFlow : (f.openOrRefreshFlow now src dst l4).conntrack =
    match forward src dst l4 with
    | none => f.conntrack
    | some key => Conntrack.openOrRefresh now key l4.protocol (tcpFlags l4) f.conntrack := by
  unfold openOrRefreshFlow
  cases forward src dst l4 <;> rfl

theorem applyAction_spec (action : FirewallAction) (packet : Packet) (src dst : Ipv4Addr)
    (l4 : ResolvedL4) (f : FirewallEngine) :
    let out := f.applyAction text now action packet src dst l4
    out.1.settings = f.settings ∧ (out.2 = .allow ↔ action = .allow) ∧
      out.1.conntrack = if action = .allow then (f.openOrRefreshFlow now src dst l4).conntrack
        else f.conntrack := by
  cases action with
  | allow =>
    refine ⟨settings_openOrRefreshFlow now, ?_, rfl⟩
    simp [applyAction]
  | deny | reject =>
    refine ⟨rfl, ?_, rfl⟩
    simp [applyAction]

variable (direction) (packet : Packet)

theorem tracked_spec (src dst : Ipv4Addr)
    (l4 : ResolvedL4) (peer : PeerContext) (f : FirewallEngine) :
    let tracked := f.conntrackAllows now direction src dst l4
    let out := if tracked.2 then
        ({ tracked.1 with allowed := tracked.1.allowed + 1 }, EvalResult.allow)
      else tracked.1.applyAction text now
        (tracked.1.ruling text direction l4 peer) packet src dst l4
    out.1.settings = f.settings ∧
    out.1.conntrack = (f.tracking text now direction src dst l4 peer).1 ∧
      (out.2 = .allow ↔ (f.tracking text now direction src dst l4 peer).2) := by
  have hreverse := isSome_reverse src dst l4
  unfold conntrackAllows tracking keys track
  cases hforward : forward src dst l4 with
  | none =>
    obtain ⟨hsettings, hallow, htable⟩ :=
      applyAction_spec text now (f.ruling text direction l4 peer) packet src dst l4 f
    rw [conntrack_openOrRefreshFlow, hforward] at htable
    exact ⟨hsettings, htable.trans (ite_self _), hallow.trans decide_eq_true_iff.symm⟩
  | some fwd =>
    rw [hforward, Option.isSome_some, Option.isSome_iff_exists] at hreverse
    obtain ⟨rev, hrev⟩ := hreverse
    rw [hrev]
    dsimp only
    generalize Conntrack.allows now direction fwd rev (tcpFlags l4) f.conntrack = out
    obtain ⟨table, passes⟩ := out
    cases passes with
    | true => exact ⟨rfl, rfl, ⟨fun _ => rfl, fun _ => rfl⟩⟩
    | false =>
      obtain ⟨hsettings, hallow, htable⟩ := applyAction_spec text now
        (f.ruling text direction l4 peer) packet src dst l4 { f with conntrack := table }
      rw [conntrack_openOrRefreshFlow, hforward] at htable
      refine ⟨hsettings, htable.trans ?_, hallow.trans ?_⟩
      · by_cases hrules : f.ruling text direction l4 peer = .allow <;> simp [hrules]
      · by_cases hrules : f.ruling text direction l4 peer = .allow <;> simp [hrules]

theorem evaluate_track (henabled : f.enabled) (direction : Direction) {packet : Packet}
    (peer : PeerContext) (hsrc : packet.ip.v4Src = some src) (hdst : packet.ip.v4Dst = some dst)
    (hl4 : (f.fragments.resolve now packet).2 = some l4) :
    let out := f.evaluate text now direction packet peer.endpointHex peer.hostname peer.networkId
    out.1.settings = f.settings ∧
      out.1.conntrack = (f.tracking text now direction src dst l4 peer).1 ∧
      (out.2 = .allow ↔ (f.tracking text now direction src dst l4 peer).2) := by
  unfold evaluate
  rw [if_neg (by simp [henabled]), hsrc, hdst]
  dsimp only
  rw [hl4]
  exact tracked_spec text now direction packet src dst l4 peer
    { f with fragments := (f.fragments.resolve now packet).1 }

/-- What happens to a packet at an enabled firewall: it is refused without a trace, or it is
tracked. -/
theorem evaluate_cases (henabled : f.enabled) (direction : Direction) (packet : Packet)
    (peer : PeerContext) :
    let out := f.evaluate text now direction packet peer.endpointHex peer.hostname peer.networkId
    out.1.settings = f.settings ∧
      (out.2 = .deny ∧ out.1.conntrack = f.conntrack ∨
        ∃ src dst l4, packet.ip.v4Src = some src ∧ packet.ip.v4Dst = some dst ∧
          (f.fragments.resolve now packet).2 = some l4 ∧
          out.1.conntrack = (f.tracking text now direction src dst l4 peer).1 ∧
          (out.2 = .allow ↔ (f.tracking text now direction src dst l4 peer).2)) := by
  unfold evaluate
  rw [if_neg (by simp [henabled])]
  cases packet.ip.v4Src with
  | none => exact ⟨rfl, .inl ⟨rfl, rfl⟩⟩
  | some src =>
    cases packet.ip.v4Dst with
    | none => exact ⟨rfl, .inl ⟨rfl, rfl⟩⟩
    | some dst =>
      dsimp only
      cases (f.fragments.resolve now packet).2 with
      | none => exact ⟨rfl, .inl ⟨rfl, rfl⟩⟩
      | some l4 =>
        obtain ⟨hsettings, htable, hallow⟩ := tracked_spec text now direction packet src dst l4 peer
          { f with fragments := (f.fragments.resolve now packet).1 }
        exact ⟨hsettings, .inr ⟨src, dst, l4, rfl, rfl, rfl, htable, hallow⟩⟩

theorem evaluate_disabled (hdisabled : f.enabled = false) (direction : Direction) (packet : Packet)
    (peer : PeerContext) :
    f.evaluate text now direction packet peer.endpointHex peer.hostname peer.networkId =
      ({ f with allowed := f.allowed + 1 }, .allow) := by
  rw [evaluate, if_pos (by simp [hdisabled])]

theorem settings_evaluate (peer : PeerContext) :
    (f.evaluate text now direction packet peer.endpointHex peer.hostname
      peer.networkId).1.settings = f.settings := by
  cases henabled : f.enabled with
  | false =>
    rw [evaluate_disabled text now henabled]
    rfl
  | true => exact (evaluate_cases text now henabled direction packet peer).1

end FirewallEngine

end Tunnet.Direct

import Tunnet.Acl.Engine
import Tunnet.Policy.SignBundle

/-!
# The signature covers what decides traffic

The signed bytes leave out the postures of a bundle, its default posture and how postures are
enforced. The engine does read the default posture, to decide whether the device's posture counts,
but this matters only for rules that ask for a posture, and one such rule alone makes it count.
-/

namespace Tunnet.Policy

/-- What a bundle's verdicts depend on. -/
def PolicyBundle.deciding (b : PolicyBundle) : List PolicyRule × DefaultAction × IcmpPolicy :=
  (b.rules, b.defaultAction, b.icmpPolicy)

section

variable {b b' : PolicyBundle} {matcher : PolicyRule → Bool} {ok ok' : Bool}

theorem deciding_of_signTuple (h : b.signTuple = b'.signTuple) : b.deciding = b'.deciding := by
  simp only [PolicyBundle.signTuple, Prod.mk.injEq] at h
  obtain ⟨hrules, -, -, hdefault, hicmp⟩ := h
  rw [PolicyBundle.deciding, PolicyBundle.deciding, hrules, hdefault, hicmp]

theorem evaluateFlow_of_deciding (h : b.deciding = b'.deciding) (flow : FlowContext) :
    evaluateFlow b flow = evaluateFlow b' flow := by
  simp only [PolicyBundle.deciding, Prod.mk.injEq] at h
  obtain ⟨hrules, hdefault, hicmp⟩ := h
  unfold evaluateFlow icmpGate evaluatePhases
  rw [hrules, hdefault, hicmp]

/-- Without a rule that asks for a posture the posture does not count. -/
theorem firstApplicable_of_no_posture {l : List PolicyRule}
    (h : ∀ r ∈ l, r.srcPosture.isEmpty) (skip : Option PolicyRule) :
    firstApplicable matcher ok l skip = firstApplicable matcher ok' l skip := by
  induction l generalizing skip with
  | nil => rfl
  | cons r l ih =>
    have hl := ih fun s hs => h s (List.mem_cons_of_mem r hs)
    rw [firstApplicable, firstApplicable, h r List.mem_cons_self, hl]
    rfl

variable (h : ∀ r ∈ b.rules, r.srcPosture.isEmpty)

include h

theorem evaluatePhases_of_no_posture :
    evaluatePhases b matcher ok = evaluatePhases b matcher ok' := by
  have hphase (scope) (action) (skip) :
      firstMatchingInPhase b.rules scope action matcher ok skip =
        firstMatchingInPhase b.rules scope action matcher ok' skip := by
    apply firstApplicable_of_no_posture
    intro r hr
    exact h r (List.mem_of_mem_filter ((List.mem_insertionSort phaseLE).1 hr))
  unfold evaluatePhases
  simp [hphase]

theorem evaluateFlow_of_no_posture
    (flow : FlowContext) : evaluateFlow b { flow with srcPostureOk := ok } =
      evaluateFlow b { flow with srcPostureOk := ok' } := by
  unfold evaluateFlow
  cases icmpGate b flow.protocol with
  | some => rfl
  | none => exact evaluatePhases_of_no_posture h

end

end Tunnet.Policy

namespace Tunnet.Acl

open Policy
open Routing (Tables)

namespace AclEngine

variable {b b' : PolicyBundle} (routes : Tables) (clock : Clock)

/-- The posture bit that the engine evaluates a flow with. -/
def postureOk (b : PolicyBundle) (ok : Bool) : Bool :=
  if !b.defaultSrcPosture.isEmpty || b.rules.any fun r => !r.srcPosture.isEmpty then ok else true

theorem evaluateFlow_posture (h : b.deciding = b'.deciding) (flow : FlowContext) :
    Policy.evaluateFlow b { flow with srcPostureOk := postureOk b flow.srcPostureOk } =
      Policy.evaluateFlow b' { flow with srcPostureOk := postureOk b' flow.srcPostureOk } := by
  have hrules : b.rules = b'.rules := congrArg Prod.fst h
  rw [evaluateFlow_of_deciding h]
  cases hany : b'.rules.any fun r => !r.srcPosture.isEmpty with
  | true =>
    have hsame : postureOk b flow.srcPostureOk = postureOk b' flow.srcPostureOk := by
      unfold postureOk
      rw [hrules, hany, Bool.or_true, Bool.or_true]
    rw [hsame]
  | false =>
    apply evaluateFlow_of_no_posture
    intro r hr
    simpa using List.any_eq_false.1 hany r hr

theorem evaluateFlow_of_deciding (h : b.deciding = b'.deciding)
    (a : AclEngine) (flow : FlowContext) (peerHex : String) :
    (evaluateFlow clock flow peerHex { a with bundle := b }).2 =
      (evaluateFlow clock flow peerHex { a with bundle := b' }).2 := by
  have hverdict := evaluateFlow_posture h flow
  have hopen : failsOpen { a with bundle := b } = failsOpen { a with bundle := b' } := by
    simp only [PolicyBundle.deciding, Prod.mk.injEq] at h
    unfold failsOpen
    rw [h.1, h.2.1]
  unfold postureOk at hverdict
  unfold evaluateFlow
  dsimp only
  rw [hverdict, hopen]
  split_ifs <;> rfl

theorem conntrackAllows_bundle (b : PolicyBundle) (a : AclEngine) (direction : Direction)
    (key : Option Conntrack.FlowKey) (flags : UInt8) :
    conntrackAllows clock direction key flags { a with bundle := b } =
      ({ (conntrackAllows clock direction key flags a).1 with bundle := b },
        (conntrackAllows clock direction key flags a).2) := by
  cases key with
  | none | some => rfl

/-- The verdict on a packet is that on its flow, unless the flow is tracked. -/
theorem check_snd (a : AclEngine) (peerHex : String) (src dst : Ipv4Addr) (direction : Direction)
    (l4 : ResolvedL4) : (check routes clock peerHex src dst direction l4 a).2 =
      let tracked := a.conntrackAllows clock direction
        (flowKey l4.protocol src dst l4.srcPort l4.dstPort) ((l4.tcpFlags.map (·.bits)).getD 0)
      if tracked.2 then verdict .allow .defaultAllow
      else (tracked.1.evaluateFlow clock
        (tracked.1.packetFlow routes peerHex src dst direction l4) peerHex).2 := by
  unfold check
  dsimp only
  split_ifs <;> rfl

theorem check_of_deciding (h : b.deciding = b'.deciding) (a : AclEngine)
    (peerHex : String) (src dst : Ipv4Addr) (direction : Direction) (l4 : ResolvedL4) :
    (check routes clock peerHex src dst direction l4 { a with bundle := b }).2 =
      (check routes clock peerHex src dst direction l4 { a with bundle := b' }).2 := by
  rw [check_snd, check_snd, conntrackAllows_bundle clock b, conntrackAllows_bundle clock b']
  dsimp only
  split_ifs
  · rfl
  · exact evaluateFlow_of_deciding clock h _ _ peerHex

theorem evaluatePacket_of_deciding (h : b.deciding = b'.deciding)
    (a : AclEngine) (peerHex : String) (direction : Direction) (packet : Packet) :
    (evaluatePacket routes clock peerHex direction packet { a with bundle := b }).2 =
      (evaluatePacket routes clock peerHex direction packet { a with bundle := b' }).2 := by
  unfold evaluatePacket
  dsimp only
  split
  · cases (a.fragments.resolve clock.now packet).2 with
    | none => rfl
    | some l4 =>
      exact check_of_deciding routes clock h
        { a with fragments := (a.fragments.resolve clock.now packet).1 } peerHex _ _ direction l4
  · rfl

end AclEngine

/-- The signature covers everything that decides traffic: two bundles with the same signed bytes
give the same verdicts in the same engine. -/
theorem signBytes_cover_verdicts {ε Bytes : Type} (toVec : SignTuple → Except ε Bytes)
    (hinj : Function.Injective toVec) (b b' : PolicyBundle)
    (h : policyBundleSignBytes toVec b = policyBundleSignBytes toVec b') (a : AclEngine) :
    (∀ clock flow peerHex,
      (AclEngine.evaluateFlow clock flow peerHex { a with bundle := b }).2 =
        (AclEngine.evaluateFlow clock flow peerHex { a with bundle := b' }).2) ∧
    ∀ routes clock peerHex direction packet,
      (AclEngine.evaluatePacket routes clock peerHex direction packet { a with bundle := b }).2 =
        (AclEngine.evaluatePacket routes clock peerHex direction packet
          { a with bundle := b' }).2 := by
  have hdeciding := deciding_of_signTuple (hinj h)
  constructor
  · intro clock flow peerHex
    exact AclEngine.evaluateFlow_of_deciding clock hdeciding a flow peerHex
  · intro routes clock peerHex direction packet
    exact AclEngine.evaluatePacket_of_deciding routes clock hdeciding a peerHex direction packet

namespace Demo

/-- An engine without a policy. -/
def engine : AclEngine where
  selfId := ⟨"aa", 1, [], "prod"⟩
  bundle := .default
  stale := false
  srcPostureOk := false
  denyLog := []
  conntrack := ∅
  fragments := .default

/-- A bundle that differs from the default one in what is not signed. -/
def asking : PolicyBundle := { PolicyBundle.default with defaultSrcPosture := ["managed"] }

/-- A device that fails its posture check gets the same verdicts under both bundles. -/
theorem signBytes_cover_verdicts_asking :
    PolicyBundle.default.defaultSrcPosture ≠ asking.defaultSrcPosture ∧
    ∀ clock flow peerHex,
      (AclEngine.evaluateFlow clock flow peerHex { engine with bundle := .default }).2 =
        (AclEngine.evaluateFlow clock flow peerHex { engine with bundle := asking }).2 := by
  have hinj : Function.Injective (Except.ok : SignTuple → Except Empty SignTuple) :=
    fun _ _ h => Except.ok.inj h
  exact ⟨by decide, (signBytes_cover_verdicts Except.ok hinj .default asking rfl engine).1⟩

end Demo

end Tunnet.Acl

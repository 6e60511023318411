import Tunnet.Policy.Evaluate
import Tunnet.Policy.SignBundle

/-!
# What a failed posture changes

A phase depends on the order of its rules only through the rule it reports: whether it finds one
is the order-free `phaseHit`. From this follows when a flow is allowed (`evaluatePhases_allow_iff`)
and, by comparing the two values of `src_posture_ok`, exactly when failing the posture check turns
a denied flow into an allowed one.
-/

namespace Tunnet.Policy

open EvalVerdict

variable {b : PolicyBundle} {flow : FlowContext} {action : Action} {r : PolicyRule}

/-! ### One phase -/

/-- The rule matches and its posture requirement, if any, is met. -/
def applicable (matcher : PolicyRule → Bool) (srcPostureOk : Bool) (r : PolicyRule) : Bool :=
  matcher r && (r.srcPosture.isEmpty || srcPostureOk)

/-- Some enabled rule of the scope and action is applicable. -/
def phaseHit (rules : List PolicyRule) (scope : RuleScope) (action : Action)
    (matcher : PolicyRule → Bool) (srcPostureOk : Bool) : Prop :=
  ∃ r ∈ rules, r.enabled ∧ r.scope = scope ∧ r.action = action ∧
    applicable matcher srcPostureOk r

theorem mem_phaseCandidates {rules : List PolicyRule}
    {scope : RuleScope} : r ∈ phaseCandidates rules scope action ↔
      r ∈ rules ∧ r.enabled ∧ r.scope = scope ∧ r.action = action := by
  simp [phaseCandidates, and_assoc]

theorem firstApplicable_fst (matcher : PolicyRule → Bool) (ok : Bool) (l : List PolicyRule)
    (skip : Option PolicyRule) :
    (firstApplicable matcher ok l skip).1 = l.find? (applicable matcher ok) := by
  induction l generalizing skip with
  | nil => rfl
  | cons r l ih =>
    have happ : applicable matcher ok r = (matcher r && (r.srcPosture.isEmpty || ok)) := rfl
    rw [List.find?_cons, happ, firstApplicable]
    cases matcher r with
    | false => simp [ih]
    | true => cases r.srcPosture.isEmpty <;> cases ok <;> simp [ih]

theorem firstMatchingInPhase_fst_isSome (rules : List PolicyRule) (scope : RuleScope)
    (action : Action) (matcher : PolicyRule → Bool) (ok : Bool) (skip : Option PolicyRule) :
    (firstMatchingInPhase rules scope action matcher ok skip).1.isSome ↔
      phaseHit rules scope action matcher ok := by
  unfold firstMatchingInPhase phaseHit
  rw [firstApplicable_fst, List.find?_isSome]
  simp [mem_phaseCandidates, and_assoc]

/-! ### The phases together -/

variable (b) (matcher : PolicyRule → Bool) (ok : Bool)

theorem evaluatePhases_allow_iff_phaseHit : (evaluatePhases b matcher ok).action = .allow ↔
      ¬ phaseHit b.rules .organization .deny matcher ok ∧
      ¬ phaseHit b.rules .network .deny matcher ok ∧
      (phaseHit b.rules .network .allow matcher ok ∨ b.defaultAction = .allow) := by
  unfold evaluatePhases
  have h₁ := firstMatchingInPhase_fst_isSome b.rules .organization .deny matcher ok none
  rcases e₁ : firstMatchingInPhase b.rules .organization .deny matcher ok none with
    ⟨_ | r₁, s₁⟩ <;> rw [e₁] at h₁
  case some => simp [rule, ← h₁]
  have h₂ := firstMatchingInPhase_fst_isSome b.rules .network .deny matcher ok s₁
  rcases e₂ : firstMatchingInPhase b.rules .network .deny matcher ok s₁ with
    ⟨_ | r₂, s₂⟩ <;> rw [e₂] at h₂
  case some => simp [rule, e₂, ← h₂]
  have h₃ := firstMatchingInPhase_fst_isSome b.rules .network .allow matcher ok s₂
  rcases e₃ : firstMatchingInPhase b.rules .network .allow matcher ok s₂ with
    ⟨_ | r₃, s₃⟩ <;> rw [e₃] at h₃
  case some => simp [rule, e₂, e₃, ← h₁, ← h₂, ← h₃]
  -- no phase found a rule: the verdict is the default, whatever was skipped on the way
  cases s₃ <;> cases b.defaultAction <;>
    simp [rule, defaultAction, DefaultAction.toAction, e₂, e₃, ← h₁, ← h₂, ← h₃]

theorem evaluatePhases_allow_iff : (evaluatePhases b matcher ok).action = .allow ↔
      (∀ r ∈ b.rules, r.enabled → r.action = .deny → applicable matcher ok r = false) ∧
      (b.defaultAction = .allow ∨ ∃ r ∈ b.rules, r.enabled ∧ r.scope = .network ∧
        r.action = .allow ∧ applicable matcher ok r) := by
  rw [evaluatePhases_allow_iff_phaseHit, ← and_assoc, or_comm]
  refine and_congr_left' ?_
  constructor
  · rintro ⟨horg, hnet⟩ r hr he ha
    rw [Bool.eq_false_iff]
    intro happ
    cases hs : r.scope with
    | organization => exact horg ⟨r, hr, he, hs, ha, happ⟩
    | network => exact hnet ⟨r, hr, he, hs, ha, happ⟩
  · intro h
    constructor <;>
    · rintro ⟨r, hr, he, -, ha, happ⟩
      exact absurd happ (by simp [h r hr he ha])

/-! ### Failing against meeting the posture -/

/-- The enabled rules of an action that match a flow. -/
def matchingRules (flow : FlowContext) (action : Action) : List PolicyRule :=
  b.rules.filter fun r => r.enabled && r.action == action && ruleMatchesFlow r flow

variable {b}

theorem mem_matchingRules : r ∈ matchingRules b flow action ↔
      r ∈ b.rules ∧ r.enabled ∧ r.action = action ∧ ruleMatchesFlow r flow := by
  simp [matchingRules, and_assoc]

variable (hg : icmpGate b flow.protocol = none)

include hg

theorem evaluateFlow_of_icmpGate_eq_none (ok : Bool) :
    evaluateFlow b { flow with srcPostureOk := ok } =
      evaluatePhases b (ruleMatchesFlow · flow) ok := by
  unfold evaluateFlow
  rw [hg]
  rfl

theorem evaluateFlow_posture_true_allow_iff :
    (evaluateFlow b { flow with srcPostureOk := true }).action = .allow ↔
      matchingRules b flow .deny = [] ∧ (b.defaultAction = .allow ∨
        ∃ r ∈ matchingRules b flow .allow, r.scope = .network) := by
  rw [evaluateFlow_of_icmpGate_eq_none hg, evaluatePhases_allow_iff, List.eq_nil_iff_forall_not_mem]
  simp only [mem_matchingRules, applicable]
  grind

theorem evaluateFlow_posture_false_allow_iff :
    (evaluateFlow b { flow with srcPostureOk := false }).action = .allow ↔
      (∀ r ∈ matchingRules b flow .deny, r.srcPosture ≠ []) ∧ (b.defaultAction = .allow ∨
        ∃ r ∈ matchingRules b flow .allow, r.scope = .network ∧ r.srcPosture = []) := by
  rw [evaluateFlow_of_icmpGate_eq_none hg, evaluatePhases_allow_iff]
  simp only [mem_matchingRules, applicable]
  grind

omit hg

/-! ### Bundles with a default posture -/

/-- The bundle is one that `sign_bundle` builds when a default source posture is set. -/
def BuiltWithDefaultPosture (b : PolicyBundle) : Prop :=
  ∃ (ε : Type) (signer : BundleSigner ε) (rows : List Row) (sshRows : List SshRow)
    (version : UInt64) (scope : RuleScope) (defaultAction : DefaultAction)
    (icmpPolicy : IcmpPolicy) (postures : Map String (List String))
    (defaultSrcPosture : List String) (enforcement : Option PostureEnforcementConfig),
    defaultSrcPosture ≠ [] ∧ signBundle signer rows sshRows version scope defaultAction icmpPolicy
      postures defaultSrcPosture enforcement = .ok b

theorem BuiltWithDefaultPosture.srcPosture_ne_nil
    (hb : BuiltWithDefaultPosture b) : ∀ r ∈ b.rules, r.srcPosture ≠ [] := by
  obtain ⟨ε, signer, rows, _, _, _, _, _, _, _, _, hd, hb⟩ := hb
  unfold signBundle at hb
  dsimp only at hb
  split at hb
  · cases hb
  · injection hb with hb
    subst hb
    intro r hr
    obtain ⟨row, -, rfl⟩ := List.mem_map.1 hr
    exact row.toRule_srcPosture_ne_nil hd

theorem BuiltWithDefaultPosture.matchingRules_srcPosture_ne_nil (hb : BuiltWithDefaultPosture b)
    (hr : r ∈ matchingRules b flow action) : r.srcPosture ≠ [] :=
  hb.srcPosture_ne_nil r (mem_matchingRules.1 hr).1

/-- When a failed posture check gives no more access. In general: exactly when the ICMP gate
decides, no deny rule matches, a deny rule that asks for no posture matches, or neither the default
nor an allow rule without posture would let the flow through. In a bundle with a default posture
every rule asks for one, so what is left is: the gate decides, no deny rule matches, or the default
is deny. -/
theorem evaluateFlow_failing_posture (b : PolicyBundle) (flow : FlowContext) :
    (((evaluateFlow b { flow with srcPostureOk := false }).action = .allow →
      (evaluateFlow b { flow with srcPostureOk := true }).action = .allow) ↔
    (icmpGate b flow.protocol).isSome ∨ matchingRules b flow .deny = [] ∨
      (∃ r ∈ matchingRules b flow .deny, r.srcPosture = []) ∨
      (b.defaultAction = .deny ∧
        ∀ r ∈ matchingRules b flow .allow, r.scope = .network → r.srcPosture ≠ [])) ∧
    (BuiltWithDefaultPosture b →
      (((evaluateFlow b { flow with srcPostureOk := false }).action = .allow →
        (evaluateFlow b { flow with srcPostureOk := true }).action = .allow) ↔
      (icmpGate b flow.protocol).isSome ∨ matchingRules b flow .deny = [] ∨
        b.defaultAction = .deny)) := by
  -- The second part is the first one for such a bundle.
  refine (fun hiff => ⟨hiff, fun hb => ?_⟩) ?_
  · cases hg : icmpGate b flow.protocol with
    | some => simp [evaluateFlow, hg]
    | none =>
      rw [evaluateFlow_posture_true_allow_iff hg, evaluateFlow_posture_false_allow_iff hg]
      have hdef : b.defaultAction = .allow ∨ b.defaultAction = .deny := by
        cases b.defaultAction <;> simp
      constructor
      · by_contra hcon
        grind
      · grind
  · rw [hiff]
    have hdeny : ¬ ∃ r ∈ matchingRules b flow .deny, r.srcPosture = [] := by
      rintro ⟨r, hr, hnil⟩
      exact hb.matchingRules_srcPosture_ne_nil hr hnil
    have hallow : ∀ r ∈ matchingRules b flow .allow, r.scope = .network → r.srcPosture ≠ [] :=
      fun r hr _ => hb.matchingRules_srcPosture_ne_nil hr
    rw [and_iff_left hallow]
    simp [hdeny]

/-! ### A bundle that opens up to devices that fail the posture check -/

/-- A signer that serializes and signs nothing. -/
def blankSigner : BundleSigner Empty := ⟨fun _ => .ok [], id, fun _ => ""⟩

/-- An open network with one deny rule, which takes over the default posture `managed`. -/
def guardedBundle : PolicyBundle where
  rules := [
    { src := .any, dst := .tag "db", action := .deny, ports := [], protocol := none, priority := 0,
      orderIndex := 0, scope := .network, enabled := true, slug := some "no-db",
      srcPosture := ["managed"] }]
  sshRules := []
  version := 1
  signature := ""
  defaultAction := .allow
  icmpPolicy := .allow
  postures := ∅
  defaultSrcPosture := ["managed"]
  postureEnforcement := none

theorem builtWithDefaultPosture_guardedBundle : BuiltWithDefaultPosture guardedBundle :=
  ⟨Empty, blankSigner,
    [{ srcSelector := .any, dstSelector := .tag "db", action := "deny", ports := [],
       protocol := none, priority := 0, orderIndex := 0, enabled := true, slug := some "no-db",
       srcPosture := none }],
    [], 1, .network, .allow, .allow, ∅, ["managed"], none, by decide, rfl⟩

/-- A TCP connection from a laptop to a database host. -/
def dbFlow : FlowContext where
  src := ⟨"aa", [], "prod", none⟩
  dst := ⟨"bb", ["db"], "prod", none⟩
  protocol := .tcp
  dstPort := some 5432
  srcPostureOk := true

/-- A device that meets the posture is denied, one that fails it is let through. -/
theorem guardedBundle_widens : BuiltWithDefaultPosture guardedBundle ∧
    (evaluateFlow guardedBundle { dbFlow with srcPostureOk := false }).action = .allow ∧
    (evaluateFlow guardedBundle { dbFlow with srcPostureOk := true }).action = .deny :=
  ⟨builtWithDefaultPosture_guardedBundle, by decide, by decide⟩

theorem evaluateFlow_failing_posture_guardedBundle : BuiltWithDefaultPosture guardedBundle ∧
    (((evaluateFlow guardedBundle { dbFlow with srcPostureOk := false }).action = .allow →
        (evaluateFlow guardedBundle { dbFlow with srcPostureOk := true }).action = .allow) ↔
      (icmpGate guardedBundle dbFlow.protocol).isSome ∨
        matchingRules guardedBundle dbFlow .deny = [] ∨ guardedBundle.defaultAction = .deny) :=
  ⟨builtWithDefaultPosture_guardedBundle,
    (evaluateFlow_failing_posture guardedBundle dbFlow).2 builtWithDefaultPosture_guardedBundle⟩

end Tunnet.Policy

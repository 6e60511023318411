import Mathlib.Data.Prod.Lex
import Tunnet.Policy.Spec.Posture
import Tunnet.Util.StableSort

/-!
# The order-free meaning of the phases

Each phase sorts its rules and takes the first one that applies. What the evaluation decides and
why depends only on which phases have an applicable rule, and for the default on whether some rule
was skipped for its posture (`meaning`); the order of the rules only chooses the rule that is
reported, the least one by `order_index`, `priority` and position (`outcome_evaluatePhases`).
-/

namespace Tunnet.Policy

/-- The phases that look for a rule. -/
inductive Phase
  | orgDeny
  | networkDeny
  | networkAllow

namespace Phase

def scope : Phase → RuleScope
  | orgDeny => .organization
  | networkDeny => .network
  | networkAllow => .network

def action : Phase → Action
  | orgDeny => .deny
  | networkDeny => .deny
  | networkAllow => .allow

def reason : Phase → EvalReason
  | orgDeny => .orgDeny
  | networkDeny => .networkDeny
  | networkAllow => .networkAllow

/-- The rule is enabled and one of the phase. -/
def candidate (φ : Phase) (r : PolicyRule) : Bool :=
  r.enabled && r.scope == φ.scope && r.action == φ.action

end Phase

section

variable (rules : List PolicyRule) (matcher : PolicyRule → Bool) (ok : Bool)

/-- The rule matches but its posture requirement is not met. -/
def skipped (r : PolicyRule) : Bool := matcher r && (!r.srcPosture.isEmpty && !ok)

/-- The phase has an applicable rule. -/
def Hit (φ : Phase) : Prop := ∃ r ∈ rules, φ.candidate r ∧ applicable matcher ok r

/-- The phase has a rule that is skipped for its posture. -/
def Skip (φ : Phase) : Prop := ∃ r ∈ rules, φ.candidate r ∧ skipped matcher ok r

instance (φ : Phase) : Decidable (Hit rules matcher ok φ) :=
  inferInstanceAs (Decidable (∃ r ∈ rules, _))

instance (φ : Phase) : Decidable (Skip rules matcher ok φ) :=
  inferInstanceAs (Decidable (∃ r ∈ rules, _))

/-- The first phase with an applicable rule. -/
def Deciding : Phase → Prop
  | .orgDeny => Hit rules matcher ok .orgDeny
  | .networkDeny => ¬ Hit rules matcher ok .orgDeny ∧ Hit rules matcher ok .networkDeny
  | .networkAllow => ¬ Hit rules matcher ok .orgDeny ∧ ¬ Hit rules matcher ok .networkDeny ∧
      Hit rules matcher ok .networkAllow

/-- Action and reason, from which phases have applicable and skipped rules. -/
def meaning (d : DefaultAction) : Action × EvalReason :=
  if Hit rules matcher ok .orgDeny then (.deny, .orgDeny)
  else if Hit rules matcher ok .networkDeny then (.deny, .networkDeny)
  else if Hit rules matcher ok .networkAllow then (.allow, .networkAllow)
  else if ∃ φ ∈ [Phase.orgDeny, .networkDeny, .networkAllow], Skip rules matcher ok φ then
    (d.toAction, .postureSkip)
  else ((EvalVerdict.defaultAction d).action, (EvalVerdict.defaultAction d).reason)

end

/-- `order_index`, `priority` and position of a rule, in lexicographic order. -/
def rank (r : PolicyRule) (i : ℕ) : ℤ ×ₗ ℤ ×ₗ ℕ := toLex (r.orderIndex, toLex (r.priority, i))

/-! ### One phase -/

section

variable {rules l : List PolicyRule} {matcher : PolicyRule → Bool} {ok : Bool} {φ : Phase}
  {skip skip' : Option PolicyRule} {r s : PolicyRule}

theorem phaseLE_trans (a b c : PolicyRule) (hab : phaseLE a b) (hbc : phaseLE b c) :
    phaseLE a c := by
  unfold phaseLE at *
  omega

theorem phaseLE_total (a b : PolicyRule) : phaseLE a b ∨ phaseLE b a := by
  unfold phaseLE
  omega

theorem rank_le_of_phaseLE {i j : ℕ} (hle : phaseLE r s)
    (hfirst : phaseLE s r → i ≤ j) : rank r i ≤ rank s j := by
  unfold rank
  rw [Prod.Lex.toLex_le_toLex, Prod.Lex.toLex_le_toLex]
  unfold phaseLE at *
  omega

theorem firstMatchingInPhase_some
    (h : firstMatchingInPhase rules φ.scope φ.action matcher ok skip = (some r, skip')) :
    ∃ i, rules[i]? = some r ∧ (φ.candidate r && applicable matcher ok r) ∧
      ∀ j s, rules[j]? = some s → (φ.candidate s && applicable matcher ok s) →
        rank r i ≤ rank s j := by
  have hfind := firstApplicable_fst matcher ok (phaseCandidates rules φ.scope φ.action) skip
  rw [show firstApplicable matcher ok (phaseCandidates rules φ.scope φ.action) skip = _ from h]
    at hfind
  obtain ⟨i, hi⟩ := StableSort.find?_insertionSort_filter phaseLE_trans phaseLE_total hfind.symm
  refine ⟨i, hi.get, hi.holds, ?_⟩
  intro j s hs hsapp
  obtain ⟨hle, hfirst⟩ := hi.least j s hs hsapp
  exact rank_le_of_phaseLE hle hfirst

theorem firstApplicable_none
    (h : firstApplicable matcher ok l skip = (none, skip')) :
    skip' = skip.or (l.find? (skipped matcher ok)) := by
  induction l generalizing skip with
  | nil =>
    cases h
    exact Option.or_none.symm
  | cons r l ih =>
    rw [firstApplicable] at h
    rw [List.find?_cons, skipped]
    cases hm : matcher r with
    | false =>
      rw [hm] at h
      simpa using ih h
    | true =>
      cases hs : !r.srcPosture.isEmpty && !ok with
      | false => simp [hm, hs] at h
      | true =>
        rw [hm, hs] at h
        rw [ih h]
        cases skip <;> simp

theorem hit_iff_phaseHit : Hit rules matcher ok φ ↔ phaseHit rules φ.scope φ.action matcher ok := by
  simp [Hit, phaseHit, Phase.candidate, and_assoc]

theorem firstMatchingInPhase_none
    (h : firstMatchingInPhase rules φ.scope φ.action matcher ok skip = (none, skip')) :
    ¬ Hit rules matcher ok φ ∧ (skip'.isSome ↔ skip.isSome ∨ Skip rules matcher ok φ) := by
  constructor
  · rw [hit_iff_phaseHit, ← firstMatchingInPhase_fst_isSome _ _ _ _ _ skip, h]
    exact Bool.false_ne_true
  · rw [firstApplicable_none h, Option.isSome_or, Bool.or_eq_true, List.find?_isSome]
    simp [mem_phaseCandidates, Skip, Phase.candidate, and_assoc]

end

/-! ### The phases together -/

/-- How a verdict comes about. -/
inductive Outcome (b : PolicyBundle) (matcher : PolicyRule → Bool) (ok : Bool) :
    EvalVerdict → Prop
  /-- A phase decides, and reports its least applicable rule. -/
  | decided (φ : Phase) (i : ℕ) (r : PolicyRule) :
      Deciding b.rules matcher ok φ → b.rules[i]? = some r →
      (φ.candidate r && applicable matcher ok r) →
      (∀ j s, b.rules[j]? = some s → (φ.candidate s && applicable matcher ok s) →
        rank r i ≤ rank s j) →
      Outcome b matcher ok (.rule φ.action φ.reason r)
  /-- No phase decides, and some rule was skipped. -/
  | skip (r : PolicyRule) : (∀ φ, ¬ Hit b.rules matcher ok φ) →
      (∃ φ ∈ [Phase.orgDeny, .networkDeny, .networkAllow], Skip b.rules matcher ok φ) →
      Outcome b matcher ok (.rule b.defaultAction.toAction .postureSkip r)
  /-- No phase decides, and no rule was skipped. -/
  | default : (∀ φ, ¬ Hit b.rules matcher ok φ) →
      (¬ ∃ φ ∈ [Phase.orgDeny, .networkDeny, .networkAllow], Skip b.rules matcher ok φ) →
      Outcome b matcher ok (.defaultAction b.defaultAction)

variable {b : PolicyBundle} {φ ψ : Phase}

section

variable {matcher : PolicyRule → Bool} {ok : Bool}

theorem outcome_evaluatePhases : Outcome b matcher ok (evaluatePhases b matcher ok) := by
  unfold evaluatePhases
  rcases e₁ : firstMatchingInPhase b.rules .organization .deny matcher ok none with ⟨_ | r, s₁⟩
  case some =>
    obtain ⟨i, hget, happ, hleast⟩ := firstMatchingInPhase_some (φ := .orgDeny) e₁
    have hhit : Hit b.rules matcher ok .orgDeny :=
      ⟨r, List.mem_of_getElem? hget, Bool.and_eq_true_iff.1 happ⟩
    exact .decided .orgDeny i r hhit hget happ hleast
  obtain ⟨h₁, hs₁⟩ := firstMatchingInPhase_none (φ := .orgDeny) e₁
  dsimp only
  rcases e₂ : firstMatchingInPhase b.rules .network .deny matcher ok s₁ with ⟨_ | r, s₂⟩
  case some =>
    obtain ⟨i, hget, happ, hleast⟩ := firstMatchingInPhase_some (φ := .networkDeny) e₂
    have hhit : Hit b.rules matcher ok .networkDeny :=
      ⟨r, List.mem_of_getElem? hget, Bool.and_eq_true_iff.1 happ⟩
    exact .decided .networkDeny i r ⟨h₁, hhit⟩ hget happ hleast
  obtain ⟨h₂, hs₂⟩ := firstMatchingInPhase_none (φ := .networkDeny) e₂
  dsimp only
  rcases e₃ : firstMatchingInPhase b.rules .network .allow matcher ok s₂ with ⟨_ | r, s₃⟩
  case some =>
    obtain ⟨i, hget, happ, hleast⟩ := firstMatchingInPhase_some (φ := .networkAllow) e₃
    have hhit : Hit b.rules matcher ok .networkAllow :=
      ⟨r, List.mem_of_getElem? hget, Bool.and_eq_true_iff.1 happ⟩
    exact .decided .networkAllow i r ⟨h₁, h₂, hhit⟩ hget happ hleast
  obtain ⟨h₃, hs₃⟩ := firstMatchingInPhase_none (φ := .networkAllow) e₃
  -- no phase has found a rule
  have hnone : ∀ φ, ¬ Hit b.rules matcher ok φ := by
    intro φ
    cases φ with
    | orgDeny => exact h₁
    | networkDeny => exact h₂
    | networkAllow => exact h₃
  have hskip : s₃.isSome ↔
      ∃ φ ∈ [Phase.orgDeny, .networkDeny, .networkAllow], Skip b.rules matcher ok φ := by
    rw [hs₃, hs₂, hs₁]
    simp [or_assoc]
  cases s₃ with
  | none => exact .default hnone (hskip.not.1 (by simp))
  | some r => exact .skip r hnone (hskip.1 rfl)

theorem Outcome.meaning_eq {v : EvalVerdict} (h : Outcome b matcher ok v) :
    (v.action, v.reason) = meaning b.rules matcher ok b.defaultAction := by
  unfold meaning
  cases h with
  | decided φ i r hdec =>
    cases φ with
    | orgDeny =>
      rw [if_pos (show Hit b.rules matcher ok .orgDeny from hdec)]
      rfl
    | networkDeny =>
      obtain ⟨h₁, h₂⟩ := hdec
      rw [if_neg h₁, if_pos h₂]
      rfl
    | networkAllow =>
      obtain ⟨h₁, h₂, h₃⟩ := hdec
      rw [if_neg h₁, if_neg h₂, if_pos h₃]
      rfl
  | skip r hnone hskip =>
    rw [if_neg (hnone _), if_neg (hnone _), if_neg (hnone _), if_pos hskip]
    rfl
  | default hnone hskip => rw [if_neg (hnone _), if_neg (hnone _), if_neg (hnone _), if_neg hskip]

variable {rules rules' : List PolicyRule}

/-- At most one phase decides. -/
theorem Deciding.unique
    (hφ : Deciding rules matcher ok φ) (hψ : Deciding rules matcher ok ψ) : φ = ψ := by
  cases φ <;> cases ψ <;> simp_all [Deciding]

theorem meaning_perm (hperm : rules.Perm rules')
    (d : DefaultAction) : meaning rules matcher ok d = meaning rules' matcher ok d := by
  have hhit (φ) : Hit rules matcher ok φ ↔ Hit rules' matcher ok φ := by
    simp [Hit, hperm.mem_iff]
  have hskip (φ) : Skip rules matcher ok φ ↔ Skip rules' matcher ok φ := by
    simp [Skip, hperm.mem_iff]
  unfold meaning
  simp [hhit, hskip]

end

/-! ### Flows -/

/-- The rule is enabled, matches the flow and meets its posture requirement. -/
def Eligible (flow : FlowContext) (r : PolicyRule) : Prop :=
  r.enabled ∧ ruleMatchesFlow r flow ∧
    (r.srcPosture.isEmpty ∨ flow.srcPostureOk)

instance (flow : FlowContext) (r : PolicyRule) : Decidable (Eligible flow r) :=
  inferInstanceAs (Decidable (_ ∧ _ ∧ (_ ∨ _)))

section

variable {flow : FlowContext}

theorem candidate_applicable_iff {r : PolicyRule} :
    (φ.candidate r && applicable (ruleMatchesFlow · flow) flow.srcPostureOk r) ↔
      r.scope = φ.scope ∧ r.action = φ.action ∧ Eligible flow r := by
  simp only [Phase.candidate, applicable, Eligible, Bool.and_eq_true, beq_iff_eq, Bool.or_eq_true]
  tauto

theorem hit_iff : Hit b.rules (ruleMatchesFlow · flow) flow.srcPostureOk φ ↔
    ∃ r ∈ b.rules, r.scope = φ.scope ∧ r.action = φ.action ∧ Eligible flow r := by
  simp only [Hit, ← Bool.and_eq_true_iff, candidate_applicable_iff]

theorem hit_deny_iff : (Hit b.rules (ruleMatchesFlow · flow) flow.srcPostureOk .orgDeny ∨
      Hit b.rules (ruleMatchesFlow · flow) flow.srcPostureOk .networkDeny) ↔
    ∃ r ∈ b.rules, r.action = .deny ∧ Eligible flow r := by
  rw [hit_iff, hit_iff]
  constructor
  · rintro (⟨r, hr, -, h⟩ | ⟨r, hr, -, h⟩)
    · exact ⟨r, hr, h⟩
    · exact ⟨r, hr, h⟩
  · rintro ⟨r, hr, h⟩
    cases hscope : r.scope with
    | organization => exact .inl ⟨r, hr, hscope, h⟩
    | network => exact .inr ⟨r, hr, hscope, h⟩

theorem outcome_evaluateFlow (hgate : icmpGate b flow.protocol = none) :
    Outcome b (ruleMatchesFlow · flow) flow.srcPostureOk (evaluateFlow b flow) := by
  have heq := evaluateFlow_of_icmpGate_eq_none hgate flow.srcPostureOk
  rw [show evaluateFlow b flow = _ from heq]
  exact outcome_evaluatePhases

theorem evaluateFlow_action (hgate : icmpGate b flow.protocol = none) :
    (evaluateFlow b flow).action =
      if ∃ r ∈ b.rules, r.action = .deny ∧ Eligible flow r then .deny
      else if ∃ r ∈ b.rules, r.scope = .network ∧ r.action = .allow ∧ Eligible flow r then .allow
      else b.defaultAction.toAction := by
  have hout := outcome_evaluateFlow hgate
  generalize evaluateFlow b flow = v at hout ⊢
  have hnotAllow : ¬ Hit b.rules (ruleMatchesFlow · flow) flow.srcPostureOk .networkAllow →
      ¬ ∃ r ∈ b.rules, r.scope = .network ∧ r.action = .allow ∧ Eligible flow r :=
    mt (hit_iff (φ := .networkAllow)).2
  cases hout with
  | decided φ i r hdec =>
    cases φ with
    | orgDeny =>
      rw [if_pos (hit_deny_iff.1 (.inl hdec))]
      rfl
    | networkDeny =>
      rw [if_pos (hit_deny_iff.1 (.inr hdec.2))]
      rfl
    | networkAllow =>
      obtain ⟨horg, hnetwork, hallow⟩ := hdec
      rw [if_neg (mt hit_deny_iff.2 (not_or.2 ⟨horg, hnetwork⟩))]
      exact (if_pos (hit_iff.1 hallow)).symm
  | skip r hnone =>
    rw [if_neg (mt hit_deny_iff.2 (not_or.2 ⟨hnone _, hnone _⟩)), if_neg (hnotAllow (hnone _))]
    rfl
  | default hnone =>
    rw [if_neg (mt hit_deny_iff.2 (not_or.2 ⟨hnone _, hnone _⟩)), if_neg (hnotAllow (hnone _))]
    cases b.defaultAction with
    | allow | deny => rfl

/-- Phased evaluation has an order-free meaning. Outside the ICMP gate, the action is given by
the existence of eligible rules; action and reason do not change when the rules are permuted; and
the phase that decides reports the eligible rule that is least in `order_index`, `priority` and
position. -/
theorem evaluateFlow_order_free (b : PolicyBundle) (flow : FlowContext)
    (hgate : icmpGate b flow.protocol = none) : ((evaluateFlow b flow).action =
      if ∃ r ∈ b.rules, r.action = .deny ∧ Eligible flow r then .deny
      else if ∃ r ∈ b.rules, r.scope = .network ∧ r.action = .allow ∧ Eligible flow r then .allow
      else b.defaultAction.toAction) ∧
    (∀ rules : List PolicyRule, rules.Perm b.rules →
      (evaluateFlow { b with rules } flow).action = (evaluateFlow b flow).action ∧
      (evaluateFlow { b with rules } flow).reason = (evaluateFlow b flow).reason) ∧
    (∀ φ, Deciding b.rules (ruleMatchesFlow · flow) flow.srcPostureOk φ → ∃ i r,
      b.rules[i]? = some r ∧ r.scope = φ.scope ∧ r.action = φ.action ∧ Eligible flow r ∧
      (∀ j s, b.rules[j]? = some s → s.scope = φ.scope → s.action = φ.action → Eligible flow s →
        rank r i ≤ rank s j) ∧
      evaluateFlow b flow = .rule φ.action φ.reason r) := by
  refine ⟨evaluateFlow_action hgate, ?_, ?_⟩
  · intro rules hperm
    have hgate' : icmpGate { b with rules } flow.protocol = none := hgate
    have hmeaning := (outcome_evaluateFlow hgate').meaning_eq
    rw [meaning_perm hperm, ← (outcome_evaluateFlow hgate).meaning_eq] at hmeaning
    exact Prod.mk.inj hmeaning
  · intro φ hφ
    have hout := outcome_evaluateFlow hgate
    generalize evaluateFlow b flow = v at hout ⊢
    have hhit : Hit b.rules (ruleMatchesFlow · flow) flow.srcPostureOk φ := by
      cases φ with
      | orgDeny => exact hφ
      | networkDeny => exact hφ.2
      | networkAllow => exact hφ.2.2
    cases hout with
    | decided ψ i r hψ hget happ hleast =>
      obtain rfl := hφ.unique hψ
      obtain ⟨hscope, haction, heligible⟩ := candidate_applicable_iff.1 happ
      refine ⟨i, r, hget, hscope, haction, heligible, ?_, rfl⟩
      intro j s hs hscope' haction' heligible'
      exact hleast j s hs (candidate_applicable_iff.2 ⟨hscope', haction', heligible'⟩)
    | skip r hnone | default hnone => exact absurd hhit (hnone φ)

end

/-- A rule that allows what the rule of `guardedBundle` denies. -/
def openDb : PolicyRule where
  src := .any
  dst := .tag "db"
  action := .allow
  ports := []
  protocol := none
  priority := 0
  orderIndex := 0
  scope := .network
  enabled := true
  slug := some "db"
  srcPosture := []

/-- Whichever rule comes first, the one that denies decides. -/
theorem evaluateFlow_order_free_openDb :
    let b := { guardedBundle with rules := guardedBundle.rules ++ [openDb] }
    let b' := { guardedBundle with rules := openDb :: guardedBundle.rules }
    (evaluateFlow b dbFlow).action = .deny ∧
      (evaluateFlow b' dbFlow).action = (evaluateFlow b dbFlow).action ∧
      (evaluateFlow b' dbFlow).reason = (evaluateFlow b dbFlow).reason := by
  intro b b'
  obtain ⟨haction, hperm, -⟩ := evaluateFlow_order_free b dbFlow (by decide)
  exact ⟨haction.trans (by decide), hperm b'.rules (List.perm_append_singleton ..).symm⟩

/-! ### Packets -/

namespace EvalCtx

variable (ctx : EvalCtx)

def self : FlowEndpoint :=
  ⟨ctx.selfEndpointHex, ctx.selfTags, ctx.selfNetwork, some ctx.selfIp⟩

def peer : FlowEndpoint := ⟨ctx.peerEndpointHex, ctx.peerTags, ctx.peerNetwork, ctx.peerIp⟩

/-- The side that sends the packet. -/
def sender : Direction → FlowEndpoint
  | .inbound => ctx.peer
  | .outbound => ctx.self

/-- The side that receives the packet. -/
def receiver : Direction → FlowEndpoint
  | .inbound => ctx.self
  | .outbound => ctx.peer

/-- The flow from the sender to the receiver. -/
def flow (direction : Direction) : FlowContext :=
  ⟨ctx.sender direction, ctx.receiver direction, ctx.protocol, ctx.dstPort, ctx.srcPostureOk⟩

end EvalCtx

theorem ruleMatchesV4_eq_ruleMatchesFlow (r : PolicyRule) (ctx : EvalCtx) (direction : Direction) :
    ruleMatchesV4 r ctx direction = ruleMatchesFlow r (ctx.flow direction) := by
  cases direction with
  | inbound | outbound => rfl

/-- The packet evaluator and the flow evaluator agree. -/
theorem evaluateDetailed_eq_evaluateFlow (b : PolicyBundle) (ctx : EvalCtx)
    (direction : Direction) :
    evaluateDetailed b ctx direction = evaluateFlow b (ctx.flow direction) := by
  have hmatch : (ruleMatchesV4 · ctx direction) = (ruleMatchesFlow · (ctx.flow direction)) :=
    funext fun r => ruleMatchesV4_eq_ruleMatchesFlow r ctx direction
  unfold evaluateDetailed
  rw [hmatch]
  rfl

/-! ## What merging an organization's bundle into a network's changes

The rules of the organization only deny, so they can only take access away. But the merge also
gives every rule of the network bundle the network's scope, and an allow rule of organization scope,
which is without effect in the network bundle alone, then allows. Apart from these rules the
organization only restricts (`merged_restricts_iff`). -/

section

variable {org network : PolicyBundle} {flow : FlowContext}

theorem denies_merged_iff :
    (∃ r ∈ (mergePolicyBundles org network).rules, r.action = .deny ∧ Eligible flow r) ↔
      (∃ r ∈ org.rules, r.action = .deny ∧ Eligible flow r) ∨
        ∃ r ∈ network.rules, r.action = .deny ∧ Eligible flow r := by
  unfold mergePolicyBundles
  simp only [List.mem_append, List.mem_map, or_and_right, exists_or, exists_exists_and_eq_and]
  rfl

theorem allows_merged_iff : (∃ r ∈ (mergePolicyBundles org network).rules,
      r.scope = .network ∧ r.action = .allow ∧ Eligible flow r) ↔
      ∃ r ∈ network.rules, r.action = .allow ∧ Eligible flow r := by
  constructor
  · rintro ⟨r, hr, hscope, hallow, heligible⟩
    rcases List.mem_append.1 hr with hr | hr
    · -- the rules of the organization have its scope
      obtain ⟨s, _, rfl⟩ := List.mem_map.1 hr
      cases hscope
    · obtain ⟨s, hs, rfl⟩ := List.mem_map.1 hr
      exact ⟨s, hs, hallow, heligible⟩
  · rintro ⟨r, hr, hallow, heligible⟩
    exact ⟨{ r with scope := .network }, List.mem_append_right _ (List.mem_map_of_mem hr), rfl,
      hallow, heligible⟩

theorem evaluateFlow_allow_iff (hgate : icmpGate b flow.protocol = none) :
    (evaluateFlow b flow).action = .allow ↔
      (¬ ∃ r ∈ b.rules, r.action = .deny ∧ Eligible flow r) ∧
      ((∃ r ∈ b.rules, r.scope = .network ∧ r.action = .allow ∧ Eligible flow r) ∨
        b.defaultAction = .allow) := by
  rw [evaluateFlow_action hgate]
  split_ifs with hdeny hallow
  · simp [hdeny]
  · simp [hdeny, hallow]
  · simp only [hdeny, hallow]
    cases b.defaultAction with
    | allow | deny => simp [DefaultAction.toAction]

theorem merged_denies (hgate : icmpGate network flow.protocol = none)
    (hdeny : ∃ r ∈ org.rules, r.action = .deny ∧ Eligible flow r) :
    (evaluateFlow (mergePolicyBundles org network) flow).action = .deny := by
  have hgate' : icmpGate (mergePolicyBundles org network) flow.protocol = none := hgate
  rw [evaluateFlow_action hgate', if_pos (denies_merged_iff.2 (.inl hdeny))]

end

/-- When an organization's policy only restricts. Outside the ICMP gate, a deny rule of the
organization always denies; and what the merged bundle allows the network bundle alone allows
exactly when a rule of either bundle denies, the network is open, or the network bundle has an
eligible allow rule of network scope if it has one at all. -/
theorem merged_restricts_iff (org network : PolicyBundle) (flow : FlowContext)
    (hgate : icmpGate network flow.protocol = none) :
    (((evaluateFlow (mergePolicyBundles org network) flow).action = .allow →
        (evaluateFlow network flow).action = .allow) ↔
      (∃ r ∈ org.rules, r.action = .deny ∧ Eligible flow r) ∨
      (∃ r ∈ network.rules, r.action = .deny ∧ Eligible flow r) ∨
      network.defaultAction = .allow ∨
      ((∃ r ∈ network.rules, r.action = .allow ∧ Eligible flow r) →
        ∃ r ∈ network.rules, r.scope = .network ∧ r.action = .allow ∧ Eligible flow r)) ∧
    ((∃ r ∈ org.rules, r.action = .deny ∧ Eligible flow r) →
      (evaluateFlow (mergePolicyBundles org network) flow).action = .deny) := by
  refine ⟨?_, merged_denies hgate⟩
  have hgate' : icmpGate (mergePolicyBundles org network) flow.protocol = none := hgate
  rw [evaluateFlow_allow_iff hgate, evaluateFlow_allow_iff hgate', denies_merged_iff,
    allows_merged_iff]
  -- what is left is propositional
  generalize (∃ r ∈ org.rules, r.action = .deny ∧ Eligible flow r) = orgDenies
  generalize (∃ r ∈ network.rules, r.action = .deny ∧ Eligible flow r) = networkDenies
  generalize (∃ r ∈ network.rules, r.scope = .network ∧ r.action = .allow ∧ Eligible flow r) =
    networkAllows
  generalize (∃ r ∈ network.rules, r.action = .allow ∧ Eligible flow r) = anyAllows
  tauto

namespace Demo

/-- An allow rule for everything, with a scope. -/
def allowAny (scope : RuleScope) : PolicyRule where
  src := .any
  dst := .any
  action := .allow
  ports := []
  protocol := none
  priority := 0
  orderIndex := 0
  scope := scope
  enabled := true
  slug := none
  srcPosture := []

/-- A restricted network with one allow rule. -/
def restricted (scope : RuleScope) : PolicyBundle :=
  { PolicyBundle.default with rules := [allowAny scope], defaultAction := .deny }

theorem merged_restricts_network : icmpGate (restricted .network) dbFlow.protocol = none ∧
    ((evaluateFlow (mergePolicyBundles guardedBundle (restricted .network)) dbFlow).action =
        .allow →
      (evaluateFlow (restricted .network) dbFlow).action = .allow) :=
  ⟨by decide, (merged_restricts_iff guardedBundle (restricted .network) dbFlow (by decide)).1.2
    (by decide)⟩

/-- An allow rule of organization scope in the network bundle allows only after the merge. -/
theorem merged_widens : icmpGate (restricted .organization) dbFlow.protocol = none ∧
    (evaluateFlow (mergePolicyBundles .default (restricted .organization)) dbFlow).action = .allow ∧
    (evaluateFlow (restricted .organization) dbFlow).action = .deny := by
  decide

end Demo

end Tunnet.Policy

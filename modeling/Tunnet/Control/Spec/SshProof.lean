import Tunnet.Control.SshAuth
import Tunnet.Util.Run

/-!
# The proof of an SSH re-authentication

A user completes a challenge of the agent they connect to and is given a proof token, which the
agent verifies. The lookup of the proof and its consumption are separate statements, between which
other requests can run.

* `acceptances`: how often the history has accepted a proof.
* `ProofInv`: rows, requests in progress and history fit together.
* `proof_once`: a proof is accepted once, and for its destination, in every run in which requests
  are `Exclusive`.
-/

namespace Tunnet.Control

open Function List SshAuth SshTask

/-! ### Proofs in the history -/

/-- The proof token was issued for a challenge of the destination. -/
def Issued (proof dst : String) (h : List (SshEvent × SshOutput)) : Prop :=
  ∃ i, (i, SshOutput.completed proof dst) ∈ h

/-- The output accepts the proof. -/
def SshOutput.accepts (proof : String) : SshOutput → Bool
  | .response _ (some token) .okProof => token == proof
  | _ => false

/-- How often the proof was accepted. -/
def acceptances (proof : String) (h : List (SshEvent × SshOutput)) : Nat :=
  h.countP fun x => x.2.accepts proof

/-- Requests with a proof that is good do not overlap, come from the destination of the proof's
challenge, and consume it; and a proof token is not issued twice. -/
def SshAuth.Exclusive (h : List (SshEvent × SshOutput)) (s : SshAuth) : SshEvent → Prop
  | .run t a =>
    match s.tasks t with
    | some (.verifyProof r token) =>
      ∀ c ∈ s.challenges, c.proofToken = some token → c.accepts r.peerEndpointId a.now →
        (∀ u r', s.tasks u ≠ some (.verifyConsume r' token)) ∧ c.dstEndpointId = r.dst
    | some (.verifyConsume _ _) => a.db = .ok ()
    | _ => True
  | .complete _ proof _ => ∀ dst, ¬ Issued proof dst h
  | _ => True

variable {h : List (SshEvent × SshOutput)} {i : SshEvent} {o : SshOutput}

section

variable {proof dst : String}

theorem Issued.cons (hissued : Issued proof dst h) (x : SshEvent × SshOutput) :
    Issued proof dst (x :: h) := by
  obtain ⟨i, hi⟩ := hissued
  exact ⟨i, mem_cons_of_mem _ hi⟩

theorem issued_iff : Issued proof dst h ↔ SshOutput.completed proof dst ∈ h.map (·.2) := by
  constructor
  · rintro ⟨i, hi⟩
    exact mem_map.2 ⟨_, hi, rfl⟩
  · intro hmem
    obtain ⟨⟨i, o⟩, hi, rfl⟩ := mem_map.1 hmem
    exact ⟨i, hi⟩

theorem acceptances_cons : acceptances proof ((i, o) :: h) =
    acceptances proof h + if o.accepts proof then 1 else 0 :=
  countP_cons

theorem acceptances_cons_of_false (ho : o.accepts proof = false) :
    acceptances proof ((i, o) :: h) = acceptances proof h := by
  rw [acceptances_cons, ho]
  rfl

end

/-! ### What a statement does about proofs -/

/-- A statement that has nothing to do with consuming proofs. -/
structure SshEnd.Plain (s : SshAuth) (e : SshEnd) : Prop where
  write : e.write = .none ∨ ∃ c, e.write = .insert c ∧ c.proofToken = none ∧
    c.token ∉ s.challenges.map (·.token)
  next : ∀ r token, e.next ≠ some (.verifyConsume r token)
  checking : ∀ r token, e.next = some (.verifyProof r token) → r.authToken = some token
  output : ∀ p, e.output.accepts p = false

variable {s s' : SshAuth} {r : VerifyRequest} {c c₀ : Challenge} {e challenge : String}
  {f : Challenge → Challenge} {task : SshTask}

section

variable {a : SshAnswers} {dst peer : String} {token : Option String}

theorem plain_answer {body : SshBody}
    (hbody : body ≠ .okProof) : (SshEnd.answer dst token body).Plain s := by
  refine ⟨.inl rfl, nofun, nofun, fun p => ?_⟩
  unfold SshOutput.accepts
  split
  · rename_i hresponse
    exact absurd (SshOutput.response.inj hresponse).2.2 hbody
  · rfl

theorem plain_dbError : (SshEnd.dbError dst token e).Plain s := plain_answer nofun

theorem plain_goOn (hnext : ∀ r token, task ≠ .verifyConsume r token)
    (hchecking : ∀ r token, task = .verifyProof r token → r.authToken = some token) :
    (SshEnd.goOn task).Plain s :=
  ⟨.inl rfl, fun r token heq => hnext r token (Option.some.inj heq),
    fun r token heq => hchecking r token (Option.some.inj heq), fun _ => rfl⟩

/-- The token that is looked up is the one that was sent. -/
theorem afterSharing_eq :
    (∃ token, r.authToken = some token ∧ r.afterSharing = .verifyProof r token) ∨
      r.afterSharing = .verifyLastAuth r := by
  unfold VerifyRequest.afterSharing
  cases htoken : r.authToken.filter (· ≠ "") with
  | none => exact .inr rfl
  | some token => exact .inl ⟨token, (Option.filter_eq_some_iff.1 htoken).1, rfl⟩

theorem plain_afterSharing : (SshEnd.goOn r.afterSharing).Plain s := by
  rcases afterSharing_eq with ⟨token, htoken, heq⟩ | heq
  · rw [heq]
    refine plain_goOn nofun fun r' token' h => ?_
    obtain ⟨rfl, rfl⟩ := verifyProof.inj h
    exact htoken
  · rw [heq]
    exact plain_goOn nofun nofun

theorem plain_lastAuth : ((verifyLastAuth r).run s a).Plain s := by
  unfold run
  cases a.db with
  | error => exact plain_dbError
  | ok =>
    dsimp only
    split
    · exact plain_answer nofun
    · split
      · exact plain_answer nofun
      · split_ifs
        · exact plain_answer nofun
        · exact plain_answer nofun

theorem plain_evaluateLastAuth {period : Nat} :
    ((evaluateLastAuth dst peer period).run s a).Plain s := by
  unfold run
  cases a.db with
  | error => exact plain_dbError
  | ok =>
    dsimp only
    split
    · exact plain_goOn nofun nofun
    · split
      · exact plain_answer nofun
      · split_ifs
        · exact plain_answer nofun
        · exact plain_goOn nofun nofun

theorem plain_evaluateInsert : ((evaluateInsert dst peer).run s a).Plain s := by
  unfold run
  cases a.db with
  | error => exact plain_dbError
  | ok =>
    dsimp only
    split_ifs with hany
    · exact plain_dbError
    · refine ⟨.inr ⟨_, rfl, rfl, fun hmem => hany ?_⟩, nofun, nofun, fun _ => rfl⟩
      obtain ⟨c, hc, heq⟩ := mem_map.1 hmem
      exact any_eq_true.2 ⟨c, hc, beq_iff_eq.2 heq⟩

theorem accepts_unconsumed {now : Timestamp}
    (haccepts : c.accepts peer now) : c.proofConsumedAt = none := by
  unfold Challenge.accepts at haccepts
  rw [Bool.and_eq_true, Bool.and_eq_true, Option.isNone_iff_eq_none] at haccepts
  exact haccepts.1.2

/-- What a statement does about proofs. -/
theorem run_cases (s : SshAuth) (a : SshAnswers) (task : SshTask) : (task.run s a).Plain s ∨
    (∃ r token, ∃ c ∈ s.challenges, task = .verifyProof r token ∧ c.proofToken = some token ∧
      c.accepts r.peerEndpointId a.now ∧ task.run s a = .goOn (.verifyConsume r token)) ∨
    ∃ r token, task = .verifyConsume r token ∧ (a.db = .ok () → task.run s a =
      ⟨.consume token (Timestamp.asMicrosecond a.now), none,
        .response r.dst r.authToken .okProof⟩) := by
  cases task with
  | evaluateSharing =>
    left
    unfold run
    cases a.db with
    | error => exact plain_dbError
    | ok =>
      dsimp only
      split_ifs
      · exact plain_goOn nofun nofun
      · exact plain_answer nofun
  | evaluateLastAuth => exact .inl plain_evaluateLastAuth
  | evaluateInsert => exact .inl plain_evaluateInsert
  | verifySharing =>
    left
    unfold run
    cases a.db with
    | error => exact plain_dbError
    | ok =>
      dsimp only
      split_ifs
      · exact plain_afterSharing
      · exact plain_answer nofun
  | verifyProof r token =>
    unfold run
    cases a.db with
    | error => exact .inl plain_dbError
    | ok =>
      dsimp only
      cases hfind : s.challenges.find? (·.proofToken == some token) with
      | none => exact .inl (plain_goOn nofun nofun)
      | some c =>
        dsimp only
        have htoken := find?_some hfind
        split_ifs with haccepts
        · exact .inr (.inl ⟨r, token, c, mem_of_find?_eq_some hfind, rfl,
            beq_iff_eq.1 htoken, haccepts, rfl⟩)
        · exact .inl (plain_goOn nofun nofun)
  | verifyConsume r token =>
    refine .inr (.inr ⟨r, token, rfl, fun hdb => ?_⟩)
    unfold run
    rw [hdb]
  | verifyLastAuth => exact .inl plain_lastAuth

end

/-! ### What holds in every state -/

/-- The proof of a row was issued for the destination of the row, and is marked once it was
accepted. -/
def Challenge.Recorded (h : List (SshEvent × SshOutput)) (c : Challenge) : Prop :=
  ∀ p, c.proofToken = some p →
    Issued p c.dstEndpointId h ∧ (acceptances p h ≠ 0 → c.proofConsumedAt ≠ none)

/-- What the rows, the requests and the history have to do with each other. -/
structure ProofInv (h : List (SshEvent × SshOutput)) (s : SshAuth) : Prop where
  unique : (s.challenges.map (·.token)).Nodup
  recorded : ∀ c ∈ s.challenges, c.Recorded h
  checking : ∀ t r p, s.tasks t = some (.verifyProof r p) → r.authToken = some p
  /-- A request that is about to consume a proof is the only one, and the first. -/
  consuming : ∀ t r p, s.tasks t = some (.verifyConsume r p) →
    r.authToken = some p ∧ Issued p r.dst h ∧ acceptances p h = 0 ∧
      ∀ u r', s.tasks u = some (.verifyConsume r' p) → u = t
  once : ∀ p, acceptances p h ≤ 1
  bound : ∀ i dst p, (i, SshOutput.response dst (some p) .okProof) ∈ h → Issued p dst h

section

variable {t u : Nat} {e : SshEnd}

theorem Challenge.Recorded.cons (hc : c.Recorded h)
    (ho : ∀ p, o.accepts p = false) : c.Recorded ((i, o) :: h) := by
  intro p hp
  rw [acceptances_cons_of_false (ho p)]
  exact ⟨(hc p hp).1.cons _, (hc p hp).2⟩

/-- Nothing is accepted and the requests stay: only the rows have to be looked at. -/
theorem ProofInv.of_rows (hinv : ProofInv h s) (htasks : s'.tasks = s.tasks)
    (ho : ∀ p, o.accepts p = false) (hunique : (s'.challenges.map (·.token)).Nodup)
    (hrecorded : ∀ c ∈ s'.challenges, c.Recorded ((i, o) :: h)) : ProofInv ((i, o) :: h) s' := by
  refine ⟨hunique, hrecorded, ?_, fun t r p ht => ?_, fun p => ?_, fun j dst p hj => ?_⟩
  · rw [htasks]
    exact hinv.checking
  · rw [htasks] at ht ⊢
    obtain ⟨htoken, hiss, hzero, honly⟩ := hinv.consuming t r p ht
    exact ⟨htoken, hiss.cons _, (acceptances_cons_of_false (ho p)).trans hzero, honly⟩
  · rw [acceptances_cons_of_false (ho p)]
    exact hinv.once p
  · rcases mem_cons.1 hj with heq | hj
    · obtain ⟨rfl, rfl⟩ := Prod.mk.inj heq
      have hself := ho p
      exact nomatch hself.symm.trans (beq_self_eq_true p)
    · exact (hinv.bound j dst p hj).cons _

theorem ProofInv.same (hinv : ProofInv h s) (ho : ∀ p, o.accepts p = false) :
    ProofInv ((i, o) :: h) s :=
  hinv.of_rows rfl ho hinv.unique fun c hc => (hinv.recorded c hc).cons ho

theorem map_token (hf : ∀ c, (f c).token = c.token)
    (l : List Challenge) : (l.map f).map (·.token) = l.map (·.token) := by
  rw [map_map]
  exact map_congr_left fun c _ => hf c

variable (hinv : ProofInv h s)

include hinv

theorem ProofInv.update (ho : ∀ p, o.accepts p = false) (hf : ∀ c, (f c).token = c.token)
    (hrecorded : ∀ c ∈ s.challenges, c.token = challenge → (f c).Recorded ((i, o) :: h))
    (checks : Map String Int) :
    ProofInv ((i, o) :: h) { s.update challenge f with checks := checks } := by
  refine hinv.of_rows rfl ho ?_ fun c hc => ?_
  · unfold SshAuth.update
    rw [map_token fun c => ?_]
    · exact hinv.unique
    · split_ifs
      · exact hf c
      · rfl
  · obtain ⟨c', hc', rfl⟩ := mem_map.1 hc
    split_ifs with htoken
    · exact hrecorded c' hc' htoken
    · exact (hinv.recorded c' hc').cons ho

theorem ProofInv.purge (keep : Challenge → Bool) :
    ProofInv ((i, .none) :: h) { s with challenges := s.challenges.filter keep } :=
  hinv.of_rows rfl (fun _ => rfl) (hinv.unique.sublist (filter_sublist.map _)) fun c hc =>
    (hinv.recorded c (mem_of_mem_filter hc)).cons fun _ => rfl

variable {p : String} {now : Int}

/-- A new proof has not been accepted yet. -/
theorem ProofInv.acceptances_eq_zero (hfresh : ∀ dst, ¬ Issued p dst h) : acceptances p h = 0 := by
  unfold acceptances
  rw [countP_eq_zero]
  rintro ⟨j, o⟩ hj haccepts
  unfold SshOutput.accepts at haccepts
  split at haccepts
  · rename_i dst token heq
    obtain rfl := beq_iff_eq.1 haccepts
    subst heq
    exact hfresh dst (hinv.bound j dst token hj)
  · cases haccepts

theorem ProofInv.complete
    (hfind : s.challenges.find? (·.token == challenge) = some c₀)
    (hfresh : ∀ dst, ¬ Issued p dst h) (checks : Map String Int) :
    ProofInv ((i, .completed p c₀.dstEndpointId) :: h)
      { s.update challenge fun c =>
          { c with status := .completed, proofToken := some p, proofExpiresAt := some now } with
        checks := checks } := by
  have hfound := find?_some hfind
  refine hinv.update ?_ ?_ (fun c hc htoken q hq => ?_) checks
  · exact fun _ => rfl
  · exact fun _ => rfl
  obtain rfl : p = q := Option.some.inj hq
  -- The row is the one whose destination is reported.
  obtain rfl : c = c₀ := inj_on_of_nodup_map hinv.unique hc (mem_of_find?_eq_some hfind)
    (htoken.trans (beq_iff_eq.1 hfound).symm)
  exact ⟨⟨i, mem_cons_self⟩, absurd (hinv.acceptances_eq_zero hfresh)⟩

omit hinv

theorem update_eq_some {tasks : Nat → Option SshTask} {next : Option SshTask}
    (hu : update tasks t next u = some task) :
    u = t ∧ next = some task ∨ u ≠ t ∧ tasks u = some task := by
  by_cases hut : u = t
  · subst hut
    rw [update_self] at hu
    exact .inl ⟨rfl, hu⟩
  · rw [update_of_ne hut] at hu
    exact .inr ⟨hut, hu⟩

include hinv

theorem ProofInv.setTask (t : Nat) (next : Option SshTask)
    (hchecking : ∀ r p, next = some (.verifyProof r p) → r.authToken = some p)
    (hconsuming : ∀ r p, next = some (.verifyConsume r p) →
      r.authToken = some p ∧ Issued p r.dst h ∧ acceptances p h = 0 ∧
        ∀ u r', s.tasks u ≠ some (.verifyConsume r' p)) :
    ProofInv h { s with tasks := Function.update s.tasks t next } := by
  refine ⟨hinv.unique, hinv.recorded, fun u r p hu => ?_, fun u r p hu => ?_, hinv.once, hinv.bound⟩
  · rcases update_eq_some hu with ⟨-, hu⟩ | ⟨-, hu⟩
    · exact hchecking r p hu
    · exact hinv.checking u r p hu
  · rcases update_eq_some hu with ⟨rfl, hnext⟩ | ⟨-, hu⟩
    · obtain ⟨htoken, hissued, hzero, halone⟩ := hconsuming r p hnext
      refine ⟨htoken, hissued, hzero, fun v r' hv => ?_⟩
      rcases update_eq_some hv with ⟨rfl, -⟩ | ⟨-, hv⟩
      · rfl
      · exact absurd hv (halone v r')
    · obtain ⟨htoken, hissued, hzero, honly⟩ := hinv.consuming u r p hu
      refine ⟨htoken, hissued, hzero, fun v r' hv => ?_⟩
      rcases update_eq_some hv with ⟨-, hv⟩ | ⟨-, hv⟩
      · exact absurd hu ((hconsuming r' p hv).2.2.2 u r)
      · exact honly v r' hv

theorem ProofInv.plain (he : e.Plain s) : ProofInv ((i, e.output) :: h) (s.finish t e).1 := by
  have htask := hinv.setTask t e.next he.checking fun r p hnext => absurd hnext (he.next r p)
  unfold finish
  rcases he.write with hwrite | ⟨c, hwrite, hproof, hnew⟩
  · rw [hwrite]
    exact htask.same he.output
  · rw [hwrite]
    refine htask.of_rows rfl he.output ?_ fun c' hc' => ?_
    · unfold write
      rw [map_append, nodup_append]
      refine ⟨hinv.unique, nodup_singleton _, fun x hx y hy => ?_⟩
      rw [mem_singleton.1 hy]
      rintro rfl
      exact hnew hx
    · rcases mem_append.1 hc' with hc' | hc'
      · exact (hinv.recorded c' hc').cons he.output
      · obtain rfl := mem_singleton.1 hc'
        exact fun p hp => nomatch hproof.symm.trans hp

theorem ProofInv.check
    (ht : s.tasks t = some (.verifyProof r p)) (hc : c ∈ s.challenges) (hp : c.proofToken = some p)
    (hmark : c.proofConsumedAt = none) (hdst : c.dstEndpointId = r.dst)
    (halone : ∀ u r', s.tasks u ≠ some (.verifyConsume r' p)) :
    ProofInv ((i, .none) :: h) (s.finish t (.goOn (.verifyConsume r p))).1 := by
  obtain ⟨hissued, hconsumed⟩ := hinv.recorded c hc p hp
  have hzero : acceptances p h = 0 := by
    by_contra hne
    exact hconsumed hne hmark
  refine (hinv.setTask t (some (.verifyConsume r p)) nofun fun r' q hnext => ?_).same fun _ => rfl
  obtain ⟨rfl, rfl⟩ := verifyConsume.inj (Option.some.inj hnext)
  exact ⟨hinv.checking t r p ht, hdst ▸ hissued, hzero, halone⟩

theorem ProofInv.consume
    (ht : s.tasks t = some (.verifyConsume r p)) :
    ProofInv ((i, .response r.dst r.authToken .okProof) :: h)
      (s.finish t ⟨.consume p now, none, .response r.dst r.authToken .okProof⟩).1 := by
  obtain ⟨htoken, hissued, hzero, honly⟩ := hinv.consuming t r p ht
  have htask := hinv.setTask t none nofun nofun
  rw [htoken]
  have hother (q) (hq : q ≠ p) :
      acceptances q ((i, .response r.dst (some p) .okProof) :: h) = acceptances q h :=
    acceptances_cons_of_false (beq_eq_false_iff_ne.2 hq.symm)
  refine ⟨?_, fun c hc q hq => ?_, htask.checking, fun u r' q hu => ?_, fun q => ?_,
    fun j dst q hj => ?_⟩
  · have htokens :=
      map_token (f := fun c => if c.proofToken = some p ∧ c.proofConsumedAt = none then
      { c with proofConsumedAt := some now } else c) (fun c => by split_ifs <;> rfl) s.challenges
    exact htokens ▸ hinv.unique
  · obtain ⟨c', hc', rfl⟩ := mem_map.1 hc
    split_ifs at hq ⊢ with hmark
    · exact ⟨(hinv.recorded c' hc' q hq).1.cons _, fun _ => nofun⟩
    · obtain ⟨hiss, hconsumed⟩ := hinv.recorded c' hc' q hq
      refine ⟨hiss.cons _, fun hne => ?_⟩
      by_cases hqp : q = p
      · exact fun hnone => hmark ⟨hqp ▸ hq, hnone⟩
      · rw [hother q hqp] at hne
        exact hconsumed hne
  · obtain ⟨htoken', hissued', hzero', honly'⟩ := htask.consuming u r' q hu
    -- Only `t` was about to consume this proof.
    have hqp : q ≠ p := by
      rintro rfl
      rcases update_eq_some hu with ⟨-, hu⟩ | ⟨hut, hu⟩
      · cases hu
      · exact hut (honly u r' hu)
    exact ⟨htoken', hissued'.cons _, (hother q hqp).trans hzero', honly'⟩
  · by_cases hqp : q = p
    · rw [acceptances_cons, hqp, hzero]
      split_ifs
      · exact le_rfl
      · exact Nat.zero_le _
    · rw [hother q hqp]
      exact hinv.once q
  · rcases mem_cons.1 hj with heq | hj
    · obtain ⟨-, heq⟩ := Prod.mk.inj heq
      obtain ⟨rfl, hq, -⟩ := SshOutput.response.inj heq
      cases hq
      exact hissued.cons _
    · exact (hinv.bound j dst q hj).cons _

omit hinv

/-! ### Every step keeps it -/

theorem plain_start (hstart : start i = some (t, e)) : e.Plain s := by
  unfold start at hstart
  split at hstart
  · split_ifs at hstart <;> obtain ⟨rfl, rfl⟩ := Prod.mk.inj (Option.some.inj hstart)
    · exact plain_answer nofun
    · exact plain_goOn nofun nofun
    · exact plain_answer nofun
  · split_ifs at hstart <;> obtain ⟨rfl, rfl⟩ := Prod.mk.inj (Option.some.inj hstart)
    · exact plain_goOn nofun nofun
    · exact plain_answer nofun
  · cases hstart

theorem ProofInv.started (hinv : ProofInv h s) (j : SshEvent) :
    let next : SshAuth × SshOutput := match start j with
      | some (t, e) => if (s.tasks t).isSome then (s, .none) else s.finish t e
      | none => (s, .none)
    ProofInv ((i, next.2) :: h) next.1 := by
  cases hstart : start j with
  | none => exact hinv.same fun _ => rfl
  | some =>
    dsimp only
    split_ifs
    · exact hinv.same fun _ => rfl
    · exact hinv.plain (plain_start hstart)

theorem ProofInv.run (hinv : ProofInv h s) {a : SshAnswers} (hok : s.Exclusive h (.run t a)) :
    ProofInv ((.run t a, (s.step (.run t a)).2) :: h) (s.step (.run t a)).1 := by
  unfold Exclusive at hok
  cases ht : s.tasks t with
  | none =>
    rw [step, ht]
    exact hinv.same fun _ => rfl
  | some task =>
    simp only [ht] at hok
    simp only [step, ht]
    rcases run_cases s a task with hplain | ⟨r, p, c, hc, rfl, hp, haccepts, heq⟩ |
      ⟨r, p, rfl, hconsume⟩
    · exact hinv.plain hplain
    · obtain ⟨halone, hdst⟩ := hok c hc hp haccepts
      rw [heq]
      exact hinv.check ht hc hp (accepts_unconsumed haccepts) hdst halone
    · rw [hconsume hok]
      exact hinv.consume ht

theorem ProofInv.step (hinv : ProofInv h s) (hok : s.Exclusive h i) :
    ProofInv ((i, (s.step i).2) :: h) (s.step i).1 := by
  cases i with
  | evaluate t dst peer period => exact hinv.started (.evaluate t dst peer period)
  | verify t r => exact hinv.started (.verify t r)
  | run => exact hinv.run hok
  | complete challenge =>
    cases hfind : s.challenges.find? (·.token == challenge) with
    | none =>
      rw [step, hfind]
      exact hinv.same fun _ => rfl
    | some =>
      rw [step, hfind]
      exact hinv.complete hfind hok _
  | expire =>
    refine hinv.update (fun _ => rfl) (fun c => ?_) (fun c hc _ => ?_) s.checks
    · split_ifs <;> rfl
    · split_ifs <;> exact (hinv.recorded c hc).cons fun _ => rfl
  | mark =>
    refine hinv.update (fun _ => rfl) ?_ (fun c hc _ => ?_) s.checks
    · exact fun _ => rfl
    · exact (hinv.recorded c hc).cons fun _ => rfl
  | purge => exact hinv.purge _

theorem proofInv_initial : ProofInv [] .initial :=
  ⟨nodup_nil, nofun, nofun, nofun, fun _ => Nat.zero_le _, nofun⟩

end

/-- A proof is accepted once, and for its destination, if requests with the proof do not overlap,
come from that destination, and their update succeeds. -/
theorem proof_once {h : List (SshEvent × SshOutput)} {s : SshAuth}
    (hrun : Run SshAuth.step (fun h s i => s.Exclusive h i) .initial h s) (p : String) :
    acceptances p h ≤ 1 ∧
      ∀ i dst, (i, SshOutput.response dst (some p) .okProof) ∈ h → Issued p dst h := by
  have hinv : ProofInv h s := hrun.invariant proofInv_initial fun h s i hinv hok => hinv.step hok
  exact ⟨hinv.once p, fun i dst hi => hinv.bound i dst p hi⟩

namespace Demo

/-- The endpoint of the user who connects. -/
def sshPeer : String := "aaaaaaaaaaaaaaaaaaaaaaaaaaaaaaaaaaaaaaaaaaaaaaaaaaaaaaaaaaaaaaaa"

/-- The database answers, at the second `now`. -/
def sshAnswers (now : Int) : SshAnswers := ⟨now * 1000000000, .ok (), true, "challenge"⟩

/-- The request `t` runs its next statement. -/
def sshRun (t : Nat) : SshEvent := .run t (sshAnswers 1)

/-- The agent `dd` is given a challenge, which the user completes. -/
def issue : List SshEvent :=
  [.evaluate 0 "dd" sshPeer 60, sshRun 0, sshRun 0, sshRun 0, .complete "challenge" "proof" 1000000]

def sshVerify (t : Nat) (dst : String) : SshEvent := .verify t ⟨dst, sshPeer, 60, some "proof"⟩

/-- The proof is verified, and once more when it has been consumed. -/
theorem proof_once_issue : let calls := issue ++ [sshVerify 1 "dd", sshRun 1, sshRun 1, sshRun 1,
      sshVerify 2 "dd", sshRun 2, sshRun 2, sshRun 2]
    acceptances "proof" (exec step [] .initial calls).1 = 1 ∧
      acceptances "proof" (exec step [] .initial calls).1 ≤ 1 := by
  intro calls
  have hmeets : Meets step (fun h s i => s.Exclusive h i) [] .initial calls := by
    refine ⟨trivial, trivial, trivial, trivial, ?_, trivial, trivial, ?_, rfl, trivial, trivial, ?_,
      trivial, trivial⟩
    · intro dst hissued
      have houtputs : ((exec step [] .initial (issue.take 4)).1.map (·.2)).all
          (fun o => o matches .none | .response _ _ _) := by decide
      exact nomatch all_eq_true.1 houtputs _ (issued_iff.1 hissued)
    · intro c hc hp haccepts
      refine ⟨fun u r' hu => ?_, ?_⟩
      · rcases u with _ | _ | u
        · cases hu
        · cases hu
        · cases hu
      · obtain rfl := mem_singleton.1 hc
        rfl
    · intro c hc _ haccepts
      obtain rfl := mem_singleton.1 hc
      cases haccepts
  exact ⟨by decide, (proof_once (run_exec hmeets) "proof").1⟩

/-- Two requests of `dd` look the proof up before either consumes it; and the agent `ee` is told
that the proof for `dd` is good. -/
theorem proof_accepted_twice : let both := issue ++
    [sshVerify 1 "dd", sshVerify 2 "dd", sshRun 1, sshRun 2, sshRun 1, sshRun 2, sshRun 1, sshRun 2]
    let other := issue ++ [sshVerify 1 "ee", sshRun 1, sshRun 1, sshRun 1]
    acceptances "proof" (exec step [] .initial both).1 = 2 ∧
      SshOutput.response "ee" (some "proof") .okProof ∈ (exec step [] .initial other).1.map (·.2) ∧
      ¬ Issued "proof" "ee" (exec step [] .initial other).1 := by
  intro both other
  rw [issued_iff]
  decide

end Demo

end Tunnet.Control

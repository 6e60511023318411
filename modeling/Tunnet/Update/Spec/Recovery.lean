import Mathlib.Tactic.Simproc.ExistsAndEq
import Tunnet.Update.Core

/-!
# What the next start puts right

Whatever becomes of the steps, what is installed follows from the step at which the replacement of a
binary ended.

* `replace_end`: one binary, put in its place by two renames.
* `replaceUnit_end`: the unit, one binary after the other.
* `Whole`: both old binaries or both new ones.
* `nextStart_whole_iff`: the next start finds a whole unit, or it rolls back to what was saved.
-/

namespace Tunnet.Update

open CoreDisk Faulty

variable {cut : Leftover} {d t : CoreDisk} {n m : UnitName} {b : Bytes} {fate : UpdateStep → Fate}
  {a : UnitName → Bytes}

/-- What each name is installed as. -/
def CoreDisk.unit (d : CoreDisk) (n : UnitName) : Option Bytes := (d.install n).dest

/-- The files are those of the unit. -/
abbrev Has (files : UnitName → Option Bytes) (a : UnitName → Bytes) : Prop :=
  ∀ n, files n = some (a n)

/-! ### A binary -/

/-- The replacement ends at the step. That a file could not be removed is ignored. -/
def ReplaceStep.Ends (fate : ReplaceStep → Fate) (s : ReplaceStep) : Prop :=
  fate s = .stopped ∨ fate s = .failed ∧ s ∈ [.copy, .renameAway, .renameIn]

instance (fate : ReplaceStep → Fate) (s : ReplaceStep) : Decidable (s.Ends fate) :=
  inferInstanceAs (Decidable (_ ∨ _))

/-- The step at which replacing `x` ends early. Where nothing is installed nothing makes way. -/
def cutAt (fate : ReplaceStep → Fate) (x : Option Bytes) : Option ReplaceStep :=
  ([.removeStaged, .removeRejected, .copy, .renameAway, .renameIn, .cleanup] :
    List ReplaceStep).find? fun s => s.Ends fate ∧ (s = .renameAway → x.isSome)

/-- What is installed when replacing `x` by `b` ends at a step, or at none. -/
def destAt (x : Option Bytes) (b : Bytes) : Option ReplaceStep → Option Bytes
  | some .renameIn => none
  | some .cleanup | none => some b
  | some _ => x

theorem ne_done_of_cutAt {fate : ReplaceStep → Fate} {x : Option Bytes} {s : ReplaceStep}
    (h : cutAt fate x = some s) : fate s ≠ .done := by
  have hends := List.find?_some h
  intro hdone
  simp [ReplaceStep.Ends, hdone] at hends

theorem cutAt_done (x : Option Bytes) : cutAt (fun _ => .done) x = none := by
  simp [cutAt, ReplaceStep.Ends]

section

variable {step : ReplaceStep → UpdateStep}

@[simp] theorem setSlot_install (slot : Slot) : (d.setSlot n slot).install n = slot := by
  simp [setSlot]

@[simp] theorem setSlot_setSlot (slot slot' : Slot) :
    (d.setSlot n slot).setSlot n slot' = d.setSlot n slot' := by
  simp [setSlot]

theorem setSlot_self : d.setSlot n (d.install n) = d := by
  simp [setSlot]

theorem removeLeft_end (step : ReplaceStep → UpdateStep) (n : UnitName) (fate : UpdateStep → Fate)
    (d : CoreDisk) : ∃ slot, removeLeft step n fate d =
      (if fate (step .removeStaged) = .stopped ∨ fate (step .removeRejected) = .stopped then
        .stopped else .ok (), d.setSlot n slot) ∧ slot.dest = d.unit n := by
  have hself : d = d.setSlot n (d.install n) := setSlot_self.symm
  cases hstaged : fate (step .removeStaged) <;> cases hrejected : fate (step .removeRejected) <;>
    simp [removeLeft, bind, Faulty.bind, attempt, act, hstaged, hrejected]
  case failed.failed | failed.stopped | stopped.done | stopped.failed | stopped.stopped =>
    exact ⟨_, hself, rfl⟩
  all_goals exact ⟨_, rfl, rfl⟩

/-- How a replacement ends, and what it leaves. -/
theorem replace_end (cut : Leftover) (step : ReplaceStep → UpdateStep) (b : Bytes) (n : UnitName)
    (fate : UpdateStep → Fate) (d : CoreDisk) :
    ∃ e slot, replaceInstallFile cut step (some b) n fate d =
      (((cutAt (fun s => fate (step s)) (d.unit n)).elim .done fun s => fate (step s)).outcome () e,
        d.setSlot n slot) ∧
      slot.dest = destAt (d.unit n) b (cutAt (fun s => fate (step s)) (d.unit n)) := by
  obtain ⟨slot, heq, hdest⟩ := removeLeft_end step n fate d
  rw [replaceInstallFile, ← hdest]
  by_cases hleft : fate (step .removeStaged) = .stopped ∨ fate (step .removeRejected) = .stopped
  · rw [if_pos hleft] at heq
    rw [bind_stopped heq]
    refine ⟨"", slot, ?_⟩
    by_cases hstaged : fate (step .removeStaged) = .stopped
    · simp [cutAt, ReplaceStep.Ends, hstaged, Fate.outcome, destAt]
    · simp [cutAt, ReplaceStep.Ends, hstaged, hleft.resolve_left hstaged, Fate.outcome, destAt]
  rw [if_neg hleft] at heq
  rw [bind_ok heq]
  have hcut : cutAt (fun s => fate (step s)) slot.dest =
      ([.copy, .renameAway, .renameIn, .cleanup] : List ReplaceStep).find?
        fun s => s.Ends (fun s => fate (step s)) ∧ (s = .renameAway → slot.dest.isSome) := by
    obtain ⟨hstaged, hrejected⟩ := not_or.1 hleft
    simp [cutAt, ReplaceStep.Ends, hstaged, hrejected]
  rw [hcut]
  clear hcut heq hdest
  -- Each step that follows is done, or it is the last one.
  cases hcopy : fate (step .copy)
  case done =>
    cases hout : slot.dest
    case' some => cases haway : fate (step .renameAway)
    case' none | some.done => cases hin : fate (step .renameIn)
    case' none.done | some.done.done => cases hcleanup : fate (step .cleanup)
    all_goals
      simp [*, copyFile, renameAway, bind, Faulty.bind, act, attempt, ReplaceStep.Ends,
        Fate.outcome, destAt]
    all_goals exact ⟨_, rfl, rfl⟩
  all_goals
    simp [*, copyFile, bind, Faulty.bind, act, ReplaceStep.Ends, Fate.outcome, destAt]
  all_goals exact ⟨_, rfl, rfl⟩

/-! ### The unit -/

theorem unit_setSlot (m : UnitName) (slot : Slot) :
    (d.setSlot n slot).unit m = if m = n then slot.dest else d.unit m := by
  by_cases h : m = n
  · subst h
    simp [unit]
  · simp [unit, setSlot, h]

/-- A disk that differs in the installation only. -/
structure SameRest (d d' : CoreDisk) : Prop where
  previous : d'.previous = d.previous
  payload : d'.payload = d.payload
  pending : d'.pending = d.pending

instance : Std.Refl SameRest := ⟨fun _ => ⟨rfl, rfl, rfl⟩⟩

instance : Trans SameRest SameRest SameRest :=
  ⟨fun h h' => ⟨h'.1.trans h.1, h'.2.trans h.2, h'.3.trans h.3⟩⟩

theorem SameRest.has {d d' : CoreDisk} (h : SameRest d d') (hfiles : Has d.previousFile a) :
    Has d'.previousFile a := by
  unfold previousFile
  rw [h.previous]
  exact hfiles

theorem keeps_setSlot {i : UpdateStep} {e : String} (slot : CoreDisk → Slot) :
    (act i e fun d => d.setSlot n (slot d)).Keeps SameRest :=
  keeps_act (fun _ => ⟨rfl, rfl, rfl⟩) Std.Refl.refl

theorem replace_keeps (cut : Leftover) (step : ReplaceStep → UpdateStep) (src : Option Bytes)
    (n : UnitName) : (replaceInstallFile cut step src n).Keeps SameRest := by
  have hcopy : (copyFile cut (step .copy) src fun b d =>
      d.setSlot n { d.install n with staged := some b }).Keeps SameRest := by
    cases src with
    | none => exact keeps_raise _
    | some => exact keeps_act (fun _ => ⟨rfl, rfl, rfl⟩) fun _ => ⟨rfl, rfl, rfl⟩
  have hleft : (removeLeft step n).Keeps SameRest :=
    (keeps_setSlot _).attempt.bind fun _ => (keeps_setSlot _).attempt.bind fun _ => keeps_pure _
  refine hleft.bind fun _ => ?_
  refine hcopy.bind fun _ => ?_
  refine Keeps.bind ?_ fun _ => ?_
  · refine keeps_get.bind fun now => ?_
    split_ifs
    · exact keeps_setSlot _
    · exact keeps_pure _
  refine (keeps_setSlot _).bind fun _ => ?_
  exact (keeps_setSlot _).attempt.bind fun _ => keeps_pure _

theorem replace_sameRest {src : Option Bytes} {o : Outcome String Unit}
    (h : replaceInstallFile cut step src n fate d = (o, t)) : SameRest d t := by
  have hkeeps := replace_keeps cut step src n fate d
  rw [h] at hkeeps
  exact hkeeps

/-- The name and the step at which replacing the unit `u`, one name after the other, ends early. -/
def unitCut (fate : UnitName → ReplaceStep → Fate) (u : UnitName → Option Bytes) :
    Option (UnitName × ReplaceStep) :=
  unitNames.findSome? fun n => (cutAt (fate n) (u n)).map (n, ·)

theorem ne_done_of_unitCut {fate : UnitName → ReplaceStep → Fate} {u : UnitName → Option Bytes}
    {s : ReplaceStep} (h : unitCut fate u = some (n, s)) : fate n s ≠ .done := by
  obtain ⟨m, -, hm⟩ := List.exists_of_findSome?_eq_some h
  obtain ⟨s', hs', heq⟩ := Option.map_eq_some_iff.1 hm
  obtain ⟨rfl, rfl⟩ := Prod.mk.inj heq
  exact ne_done_of_cutAt hs'

/-- What the unit is when replacing `u` by `c` ends there. -/
def replacing (u : UnitName → Option Bytes) (c : UnitName → Bytes) :
    Option (UnitName × ReplaceStep) → UnitName → Option Bytes
  | none, n => some (c n)
  | some (m, s), n =>
    if n = m then destAt (u n) (c n) (some s) else if m = .tunnet then u n else some (c n)

end

section

variable {c : UnitName → Bytes} {step : UnitName → ReplaceStep → UpdateStep}

/-- One name after the other. -/
def replaceUnit (cut : Leftover) (step : UnitName → ReplaceStep → UpdateStep)
    (c : UnitName → Bytes) : Upd Unit := do
  replaceInstallFile cut (step .tunnet) (some (c .tunnet)) .tunnet
  replaceInstallFile cut (step .tunnetd) (some (c .tunnetd)) .tunnetd

theorem restoreUnit_eq (h : Has d.previousFile c) :
    restoreUnit cut unitNames fate d = replaceUnit cut .restore c fate d := by
  have hfile (n) (t) (ht : t.previousFile n = some (c n)) :
      restoreFile cut n fate t = replaceInstallFile cut (.restore n) (some (c n)) n fate t := by
    rw [restoreFile, bind_ok get_apply, ht]
  refine bind_congr (hfile .tunnet d (h .tunnet)) fun _ t ht => ?_
  exact (bind_pure_unit _).trans (hfile .tunnetd t ((replace_sameRest ht).has h .tunnetd))

theorem replaceAll_eq (h : Has d.payload c) :
    replaceAll cut unitNames fate d = replaceUnit cut .activate c fate d := by
  have hfile (n) (t) (ht : t.payload n = some (c n)) :
      activateFile cut n fate t = replaceInstallFile cut (.activate n) (some (c n)) n fate t := by
    rw [activateFile, bind_ok get_apply, ht]
  refine bind_congr (hfile .tunnet d (h .tunnet)) fun _ t ht => ?_
  have hpayload := (congrFun (replace_sameRest ht).payload .tunnetd).trans (h .tunnetd)
  exact (bind_pure_unit _).trans (hfile .tunnetd t hpayload)

variable (cut c)

/-- How replacing the unit ends, and what it leaves. -/
theorem replaceUnit_end (step : UnitName → ReplaceStep → UpdateStep) (fate : UpdateStep → Fate)
    (d : CoreDisk) : ∃ e d', replaceUnit cut step c fate d =
      (((unitCut (fun n s => fate (step n s)) d.unit).elim .done fun p =>
        fate (step p.1 p.2)).outcome () e, d') ∧ SameRest d d' ∧
      d'.unit = replacing d.unit c (unitCut (fun n s => fate (step n s)) d.unit) := by
  obtain ⟨e, slot, heq, hslot⟩ := replace_end cut (step .tunnet) (c .tunnet) .tunnet fate d
  obtain ⟨e', slot', heq', hslot'⟩ :=
    replace_end cut (step .tunnetd) (c .tunnetd) .tunnetd fate (d.setSlot .tunnet slot)
  have hnext : (d.setSlot .tunnet slot).unit .tunnetd = d.unit .tunnetd := by
    simp [unit_setSlot]
  rw [hnext] at heq' hslot'
  rw [replaceUnit]
  cases hfirst : cutAt (fun s => fate (step .tunnet s)) (d.unit .tunnet) with
  | some s =>
    have hcut : unitCut (fun n s => fate (step n s)) d.unit = some (.tunnet, s) := by
      simp [unitCut, unitNames, hfirst]
    rw [hfirst] at heq hslot
    rw [hcut, bind_outcome heq (ne_done_of_cutAt hfirst) ()]
    refine ⟨_, _, rfl, ⟨rfl, rfl, rfl⟩, funext fun n => ?_⟩
    cases n <;> simp [unit_setSlot, replacing, hslot]
  | none =>
    have hcut : unitCut (fun n s => fate (step n s)) d.unit =
        (cutAt (fun s => fate (step .tunnetd s)) (d.unit .tunnetd)).map (.tunnetd, ·) := by
      cases hsecond : cutAt (fun s => fate (step .tunnetd s)) (d.unit .tunnetd) <;>
        simp [unitCut, unitNames, hfirst, hsecond]
    rw [hfirst] at heq hslot
    rw [hcut, bind_ok heq, heq']
    cases hsecond : cutAt (fun s => fate (step .tunnetd s)) (d.unit .tunnetd) with
    | some s =>
      rw [hsecond] at hslot'
      refine ⟨_, _, rfl, ⟨rfl, rfl, rfl⟩, funext fun n => ?_⟩
      cases n <;> simp [unit_setSlot, replacing, hslot, hslot', destAt]
    | none =>
      rw [hsecond] at hslot'
      refine ⟨_, _, rfl, ⟨rfl, rfl, rfl⟩, funext fun n => ?_⟩
      cases n <;> simp [unit_setSlot, replacing, hslot, hslot', destAt]

end

/-- The machine: its kind, and what a binary of the daemon was built as, if it runs. -/
structure Host where
  windows : Bool
  identify : Bytes → Option Build

/-- Both old binaries or both new ones. -/
def Whole (old new : UnitName → Bytes) (u : UnitName → Option Bytes) : Prop :=
  (∀ n, u n = some (old n)) ∨ ∀ n, u n = some (new n)

/-- A start that puts the previous unit back. -/
def RollsBack (q : PendingUpdate) (running : Build) (now : ℤ) : Prop :=
  q.Mismatch running ∨ 1 < q.boot.boots ∧ q.elapsed now < q.window

/-- The unit is whole, or its daemon starts and rolls back. -/
def Recovers (host : Host) (old new : UnitName → Bytes) (now : ℤ) (u : UnitName → Option Bytes)
    (marker : Option PendingUpdate) : Prop :=
  Whole old new u ∨ ∃ q running, marker = some q ∧ (u .tunnetd).bind host.identify = some running ∧
    RollsBack q running now

/-- The previous unit is complete; or the old unit is installed, and what is left of the previous
unit is of it. -/
def Backed (old : UnitName → Bytes) (d : CoreDisk) : Prop :=
  (∀ n, d.previousFile n = some (old n)) ∨
    (∀ n, d.unit n = some (old n)) ∧ ∀ n b, d.previousFile n = some b → b = old n

/-- What the unit is after a rollback. On Windows there is none without the previous daemon. -/
def rolledBack (windows : Bool) (previous : Option (UnitName → Option Bytes))
    (u : UnitName → Option Bytes) (n : UnitName) : Option Bytes :=
  if windows ∧ previous.bind (· .tunnetd) = none then u n
  else (previous.bind (· n)).or (u n)

/-- The next start of the agent, if the daemon runs. -/
def nextStart (host : Host) (cut : Leftover) (now : ℤ) (d : CoreDisk) : CoreDisk :=
  match (d.unit .tunnetd).bind host.identify with
  | none => d
  | some running => (onAgentStart host.windows cut running now (fun _ => .done) d).2

section

variable {host : Host} {windows : Bool} {old new : UnitName → Bytes}

/-! ### Rolling back -/

theorem restoreFile_done (cut : Leftover) (n : UnitName) (d : CoreDisk) :
    ∃ d', restoreFile cut n (fun _ => .done) d = (.ok (), d') ∧ SameRest d d' ∧
      ∀ m, d'.unit m = if m = n then (d.previousFile n).or (d.unit n) else d.unit m := by
  rw [restoreFile, bind_ok get_apply]
  cases d.previousFile n with
  | none =>
    refine ⟨d, rfl, refl d, fun m => ?_⟩
    by_cases h : m = n <;> simp [h]
  | some b =>
    obtain ⟨e, slot, heq, hslot⟩ := replace_end cut (.restore n) b n (fun _ => .done) d
    rw [cutAt_done] at heq hslot
    refine ⟨_, heq, ⟨rfl, rfl, rfl⟩, fun m => ?_⟩
    rw [unit_setSlot, hslot]
    rfl

theorem restoreUnit_done (cut : Leftover) (d : CoreDisk) :
    ∃ d', restoreUnit cut unitNames (fun _ => .done) d = (.ok (), d') ∧ SameRest d d' ∧
      ∀ n, d'.unit n = (d.previousFile n).or (d.unit n) := by
  obtain ⟨d₁, heq₁, hrest₁, hunit₁⟩ := restoreFile_done cut .tunnet d
  obtain ⟨d₂, heq₂, hrest₂, hunit₂⟩ := restoreFile_done cut .tunnetd d₁
  refine ⟨d₂, ?_, Trans.trans hrest₁ hrest₂, fun n => ?_⟩
  · rw [unitNames, restoreUnit, bind_ok heq₁]
    exact bind_ok heq₂
  · have hprevious (n) : d₁.previousFile n = d.previousFile n := by
      rw [previousFile, hrest₁.previous]
      rfl
    cases n with
    | tunnet => simp [hunit₂, hunit₁]
    | tunnetd => simp [hunit₂, hunit₁, hprevious]

theorem revertToPrevious_done (cut : Leftover) (d : CoreDisk) (n : UnitName) :
    (revertToPrevious cut (fun _ => .done) d).2.unit n = (d.previousFile n).or (d.unit n) := by
  rw [revertToPrevious, bind_ok get_apply]
  cases hprevious : d.previous with
  | none =>
    have hnone : d.previousFile n = none := by
      rw [previousFile, hprevious]
      rfl
    rw [hnone]
    rfl
  | some =>
    obtain ⟨d', heq, -, hunit⟩ := restoreUnit_done cut d
    simp only [Option.isSome_some, ↓reduceIte]
    rw [bind_ok heq]
    exact hunit n

theorem rollback_done (windows : Bool) (cut : Leftover) (d : CoreDisk) :
    (rollback windows cut (fun _ => .done) d).2.unit = rolledBack windows d.previous d.unit := by
  funext n
  cases windows with
  | false => exact revertToPrevious_done cut d n
  | true =>
    have hworker : copyWorker cut (fun _ => .done) d =
        copyFile cut .copyWorker (d.previousFile .tunnetd) (fun _ d => d) (fun _ => .done) d := by
      rw [copyWorker, bind_ok get_apply]
    unfold rollback rolledBack
    rw [if_pos rfl]
    cases hfile : d.previousFile .tunnetd with
    | none =>
      have hbind : d.previous.bind (· .tunnetd) = none := hfile
      rw [hfile] at hworker
      rw [bind_error hworker, if_pos ⟨rfl, hbind⟩]
    | some =>
      have hbind : d.previous.bind (· .tunnetd) ≠ none := by
        rw [← previousFile, hfile]
        simp
      rw [hfile] at hworker
      rw [bind_ok hworker, if_neg fun h => hbind h.2]
      exact revertToPrevious_done cut d n

/-- A rollback puts the old unit back. -/
theorem Backed.rolledBack (h : Backed old d) (windows : Bool) (n : UnitName) :
    rolledBack windows d.previous d.unit n = some (old n) := by
  unfold Update.rolledBack
  rcases h with hfiles | ⟨hunit, hleft⟩
  · have hne : d.previous.bind (· .tunnetd) ≠ none := by
      rw [← previousFile, hfiles]
      simp
    rw [if_neg fun h => hne h.2, ← previousFile, hfiles]
    rfl
  · split_ifs
    · exact hunit n
    · cases hfile : d.previousFile n with
      | none =>
        rw [← previousFile, hfile]
        exact hunit n
      | some b =>
        rw [← previousFile, hfile, hleft n b hfile]
        rfl

/-! ### A start -/

section

variable {running : Build} {now : ℤ} {q : PendingUpdate}

theorem onAgentStart_of_none (h : d.pending = none) :
    onAgentStart windows cut running now fate d = (.ok none, d) := by
  rw [onAgentStart, bind_ok get_apply, h]
  rfl

theorem onAgentStart_of_some (h : d.pending = some q) (hread : fate .readPending = .done) :
    onAgentStart windows cut running now fate d =
      checkPending windows cut running now q fate d := by
  have hquery : query .readPending "read update pending" pending fate d = (.ok q, d) := by
    simp [hread, h]
  rw [onAgentStart, bind_ok get_apply, h]
  simp only [Option.isSome_some, ↓reduceIte]
  rw [bind_ok hquery]

theorem writePending_done (q : PendingUpdate) (hdir : fate .createUpdateDir = .done)
    (hwrite : fate .writePending = .done) :
    writePending q fate d = (.ok (), { d with pending := some q }) := by
  rw [writePending, bind_ok (act_done hdir), act_done hwrite]
  rfl

/-- The same unit is installed. -/
def SameUnit (d d' : CoreDisk) : Prop := d'.unit = d.unit

instance : Std.Refl SameUnit := ⟨fun _ => rfl⟩

instance : Trans SameUnit SameUnit SameUnit := ⟨fun h h' => Eq.trans h' h⟩

theorem keeps_removePending : removePending.Keeps SameUnit := keeps_act (fun _ => rfl) fun _ => rfl

theorem keeps_discardPrevious (cut : Leftover) : (discardPrevious cut).Keeps SameUnit :=
  keeps_act (fun _ => rfl) fun _ => rfl

theorem keeps_markUpdateSuccess (cut : Leftover) (q : PendingUpdate) :
    (markUpdateSuccess cut q).Keeps SameUnit := by
  refine keeps_get.bind fun t => ?_
  cases t.pending with
  | none => exact keeps_pure ()
  | some =>
    dsimp only
    split_ifs
    · refine keeps_removePending.attempt.bind fun _ => ?_
      refine (keeps_discardPrevious cut).attempt.bind fun _ => ?_
      exact keeps_pure ()
    · exact keeps_pure ()

theorem bind_pure_snd {α β : Type} (p : Upd α) (b : β) :
    ((p >>= fun _ => pure b) fate d).2 = (p fate d).2 := by
  rcases h : p fate d with ⟨o, t⟩
  cases o with
  | ok => rw [bind_ok h]; rfl
  | error => rw [bind_error h]
  | stopped => rw [bind_stopped h]

theorem onAgentStart_done (windows : Bool) (cut : Leftover) (running : Build) (now : ℤ)
    (hq : d.pending = some q) : (RollsBack q running now →
      (onAgentStart windows cut running now (fun _ => .done) d).2.unit =
        rolledBack windows d.previous d.unit) ∧
    (¬ RollsBack q running now →
      (onAgentStart windows cut running now (fun _ => .done) d).2.unit = d.unit) := by
  rw [onAgentStart_of_some hq rfl]
  unfold checkPending
  by_cases hmismatch : q.Mismatch running
  · rw [if_pos hmismatch, bind_pure_snd]
    exact ⟨fun _ => rollback_done windows cut d, fun h => absurd (.inl hmismatch) h⟩
  · rw [if_neg hmismatch, bind_ok (writePending_done q.boot rfl rfl)]
    by_cases hearly : 1 < q.boot.boots ∧ q.elapsed now < q.window
    · rw [if_pos hearly, bind_pure_snd]
      exact ⟨fun _ => rollback_done windows cut { d with pending := some q.boot },
        fun h => absurd (.inr hearly) h⟩
    · have hnot : ¬ (q.Mismatch running ∨ 1 < q.boot.boots ∧ q.elapsed now < q.window) :=
        not_or.2 ⟨hmismatch, hearly⟩
      refine ⟨fun h => absurd h hnot, fun _ => ?_⟩
      split_ifs
      · rw [bind_pure_snd]
        exact keeps_markUpdateSuccess cut q.boot _ _
      · rfl

/-- What the next start makes of the unit. -/
theorem nextStart_unit (host : Host) (cut : Leftover) (now : ℤ) (d : CoreDisk) :
    (∃ q running, d.pending = some q ∧ (d.unit .tunnetd).bind host.identify = some running ∧
      RollsBack q running now ∧
      (nextStart host cut now d).unit = rolledBack host.windows d.previous d.unit) ∨
    (∀ q running, d.pending = some q → (d.unit .tunnetd).bind host.identify = some running →
      ¬ RollsBack q running now) ∧ (nextStart host cut now d).unit = d.unit := by
  unfold nextStart
  cases hrunning : (d.unit .tunnetd).bind host.identify with
  | none => exact .inr ⟨by simp, rfl⟩
  | some running =>
    dsimp only
    cases hq : d.pending with
    | none =>
      rw [onAgentStart_of_none hq]
      exact .inr ⟨by simp, rfl⟩
    | some q =>
      obtain ⟨hback, hstay⟩ := onAgentStart_done host.windows cut running now hq
      by_cases hroll : RollsBack q running now
      · exact .inl ⟨q, running, rfl, rfl, hroll, hback hroll⟩
      · refine .inr ⟨fun q' running' hq' hrunning' => ?_, hstay hroll⟩
        obtain rfl := Option.some.inj hq'
        obtain rfl := Option.some.inj hrunning'
        exact hroll

/-- The next start puts right what it can roll back. -/
theorem nextStart_whole_iff (hbacked : Backed old d) :
    Whole old new (nextStart host cut now d).unit ↔ Recovers host old new now d.unit d.pending := by
  rcases nextStart_unit host cut now d with ⟨q, running, hq, hrunning, hroll, heq⟩ | ⟨hnot, heq⟩
  · rw [heq]
    exact ⟨fun _ => .inr ⟨q, running, hq, hrunning, hroll⟩,
      fun _ => .inl (hbacked.rolledBack host.windows)⟩
  · rw [heq]
    refine ⟨.inl, fun h => h.resolve_right ?_⟩
    rintro ⟨q, running, hq, hrunning, hroll⟩
    exact hnot q running hq hrunning hroll

end

end

end Tunnet.Update

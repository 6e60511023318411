import Tunnet.Update.Spec.Recovery

/-!
# All or nothing

An activation or a rollback is interrupted: any of its steps may fail, or be where the machine
stops.

* `prepare_end`, `activate_end`, `recover_end`: what is left of an activation, by the step at which
  each of its parts ended.
* `start_end`: what is left of a start that rolls back. It may itself follow one that was
  interrupted: all it needs is that the previous unit is complete.
* `core_update_all_or_nothing`: from what is left the next start comes to a whole unit, or not.
-/

namespace Tunnet.Update

open CoreDisk Faulty

section

variable {cut : Leftover} {fate : UpdateStep → Fate} {d d' : CoreDisk} {old new : UnitName → Bytes}
  {q : PendingUpdate} {n : UnitName}

/-! ### Saving the previous unit -/

/-- A disk that differs in the previous unit only. -/
structure SameInstall (d d' : CoreDisk) : Prop where
  install : d'.install = d.install
  payload : d'.payload = d.payload
  pending : d'.pending = d.pending

instance : Std.Refl SameInstall := ⟨fun _ => ⟨rfl, rfl, rfl⟩⟩

instance : Trans SameInstall SameInstall SameInstall :=
  ⟨fun h h' => ⟨h'.1.trans h.1, h'.2.trans h.2, h'.3.trans h.3⟩⟩

variable (cut)

theorem keeps_clearPrevious : (clearPrevious cut).Keeps SameInstall := by
  refine keeps_get.bind fun t => ?_
  split_ifs
  · exact keeps_act (fun _ => ⟨rfl, rfl, rfl⟩) fun _ => ⟨rfl, rfl, rfl⟩
  · exact keeps_pure ()

theorem keeps_backupFile (n : UnitName) : (backupFile cut n).Keeps SameInstall := by
  refine keeps_get.bind fun t => ?_
  cases (t.install n).dest with
  | none => exact keeps_pure ()
  | some => exact keeps_act (fun _ => ⟨rfl, rfl, rfl⟩) fun _ => ⟨rfl, rfl, rfl⟩

theorem keeps_prepare : (prepare cut).Keeps SameInstall := by
  refine (keeps_clearPrevious cut).bind fun _ => ?_
  refine (keeps_act (fun _ => ⟨rfl, rfl, rfl⟩) fun _ => ⟨rfl, rfl, rfl⟩).bind fun _ => ?_
  refine (keeps_backupFile cut .tunnet).bind fun _ => ?_
  exact (keeps_backupFile cut .tunnetd).bind fun _ => keeps_pure ()

/-- A copy in the directory of the previous unit. -/
def CoreDisk.putPrevious (d : CoreDisk) (n : UnitName) (b : Bytes) : CoreDisk :=
  { d with previous := d.previous.map fun files => Function.update files n (some b) }

/-- The step at which saving the old unit ends early. -/
def savingCut (fate : UpdateStep → Fate) (previous : Option (UnitName → Option Bytes)) :
    Option UpdateStep :=
  if previous.isSome ∧ fate .removePrevious ≠ .done then some .removePrevious
  else ([.createPrevious, .backup .tunnet, .backup .tunnetd] : List UpdateStep).find?
    (fate · ≠ .done)

/-- The directory of the previous unit when saving `old` ends at a step. -/
def savingAt (old : UnitName → Bytes)
    (previous : Option (UnitName → Option Bytes)) : UpdateStep → Option (UnitName → Option Bytes)
  | .removePrevious => previous.map cut.of
  | .backup .tunnet =>
    some (Function.update (fun _ => none) .tunnet (some ((old .tunnet).take cut.copied)))
  | .backup .tunnetd =>
    some (Function.update (Function.update (fun _ => none) .tunnet (some (old .tunnet)))
      .tunnetd (some ((old .tunnetd).take cut.copied)))
  | _ => none

theorem clearPrevious_end (fate : UpdateStep → Fate) (d : CoreDisk) :
    (∃ o, (d.previous.isSome ∧ fate .removePrevious ≠ .done) ∧
      clearPrevious cut fate d = (o, { d with previous := d.previous.map cut.of }) ∧
      ∀ u, o ≠ .ok u) ∨
    ¬ (d.previous.isSome ∧ fate .removePrevious ≠ .done) ∧
      clearPrevious cut fate d = (.ok (), { d with previous := none }) := by
  rw [clearPrevious, bind_ok get_apply]
  by_cases hsome : d.previous.isSome
  · rw [if_pos hsome]
    rcases act_cases .removePrevious "remove" (fun d : CoreDisk => { d with previous := none })
      (fun d => { d with previous := d.previous.map cut.of }) fate d with
      ⟨hcut, o, ho, hne⟩ | ⟨hdone, heq⟩
    · exact .inl ⟨o, ⟨hsome, hcut⟩, ho, hne⟩
    · exact .inr ⟨fun h => h.2 hdone, heq⟩
  · have hnone : d.previous = none := Option.not_isSome_iff_eq_none.1 hsome
    refine .inr ⟨fun h => hsome h.1, ?_⟩
    rw [if_neg hsome, ← hnone]
    rfl

theorem backupFile_end {b : Bytes} (h : d.unit n = some b) (fate : UpdateStep → Fate) :
    (fate (.backup n) ≠ .done ∧ ∃ o,
      backupFile cut n fate d = (o, d.putPrevious n (b.take cut.copied)) ∧ ∀ u, o ≠ .ok u) ∨
    fate (.backup n) = .done ∧ backupFile cut n fate d = (.ok (), d.putPrevious n b) := by
  have hfile : backupFile cut n fate d = act (.backup n) "copy" (·.putPrevious n b)
      (·.putPrevious n (b.take cut.copied)) fate d := by
    rw [backupFile, bind_ok get_apply]
    unfold unit at h
    rw [h]
    rfl
  rw [hfile]
  exact act_cases ..

theorem backup_end (hunit : Has d.unit old) (hprevious : d.previous = some fun _ => none)
    (fate : UpdateStep → Fate) (previous : Option (UnitName → Option Bytes)) :
    (∃ i o d₁, ([.backup .tunnet, .backup .tunnetd] : List UpdateStep).find? (fate · ≠ .done) =
        some i ∧ backup cut unitNames fate d = (o, d₁) ∧ (∀ u, o ≠ .ok u) ∧
      d₁.previous = savingAt cut old previous i) ∨
    ([.backup .tunnet, .backup .tunnetd] : List UpdateStep).find? (fate · ≠ .done) = none ∧
      ∃ d₁, backup cut unitNames fate d = (.ok (), d₁) ∧ Has d₁.previousFile old := by
  rw [unitNames, backup]
  rcases backupFile_end cut (hunit .tunnet) fate with ⟨hcut, o, heq, hne⟩ | ⟨hfirst, heq⟩
  · obtain ⟨o', ho', hne'⟩ := bind_not_ok heq hne
    refine .inl ⟨.backup .tunnet, o', _, by simp [hcut], ho', hne', ?_⟩
    simp [putPrevious, savingAt, hprevious]
  rw [bind_ok heq, backup]
  have hput : (d.putPrevious .tunnet (old .tunnet)).unit .tunnetd = some (old .tunnetd) :=
    hunit .tunnetd
  rcases backupFile_end cut hput fate with ⟨hcut, o, heq, hne⟩ | ⟨hsecond, heq⟩
  · obtain ⟨o', ho', hne'⟩ := bind_not_ok heq hne
    refine .inl ⟨.backup .tunnetd, o', _, by simp [hfirst, hcut], ho', hne', ?_⟩
    simp [putPrevious, savingAt, hprevious]
  · refine .inr ⟨by simp [hfirst, hsecond], _, bind_ok heq, fun n => ?_⟩
    cases n <;> simp [previousFile, putPrevious, hprevious]

/-- What is left of the previous unit while it is saved. -/
theorem prepare_end (hunit : Has d.unit old) (fate : UpdateStep → Fate) :
    (∃ i o d₁, savingCut fate d.previous = some i ∧ prepare cut fate d = (o, d₁) ∧
      (∀ u, o ≠ .ok u) ∧ d₁.previous = savingAt cut old d.previous i) ∨
    savingCut fate d.previous = none ∧ ∃ d₁, prepare cut fate d = (.ok (), d₁) ∧
      Has d₁.previousFile old := by
  unfold prepare savingCut
  rcases clearPrevious_end cut fate d with ⟨o, hcut, hclear, hne⟩ | ⟨hcut, hclear⟩
  · obtain ⟨o', ho', hne'⟩ := bind_not_ok hclear hne
    exact .inl ⟨_, o', _, if_pos hcut, ho', hne', rfl⟩
  rw [if_neg hcut, bind_ok hclear]
  by_cases hcreate : fate .createPrevious = .done
  · rw [bind_ok (act_done hcreate), List.find?_cons_of_neg (by simp [hcreate])]
    exact backup_end (d := { d with previous := some fun _ => none }) cut hunit rfl fate d.previous
  · obtain ⟨o, ho, hne⟩ := act_not_done hcreate
    obtain ⟨o', ho', hne'⟩ := bind_not_ok ho hne
    exact .inl ⟨.createPrevious, o', _, by simp [hcreate], ho', hne', rfl⟩

/-! ### Putting the old unit back -/

/-- The name and the step at which putting the previous unit back ends early. -/
def restoreCut (fate : UpdateStep → Fate) (u : UnitName → Option Bytes) :
    Option (UnitName × ReplaceStep) :=
  unitCut (fun n s => fate (.restore n s)) u

def restoreFate (fate : UpdateStep → Fate) (u : UnitName → Option Bytes) : Fate :=
  (restoreCut fate u).elim .done fun p => fate (.restore p.1 p.2)

theorem restore_end (hprevious : Has d.previousFile old) (fate : UpdateStep → Fate) :
    ∃ e d', restoreUnit cut unitNames fate d = ((restoreFate fate d.unit).outcome () e, d') ∧
      SameRest d d' ∧ d'.unit = replacing d.unit old (restoreCut fate d.unit) := by
  rw [restoreUnit_eq hprevious]
  exact replaceUnit_end cut old .restore fate d

/-- The unit `u` and the marker `q` are left, with what the next start needs to roll back. -/
def Leaves (old : UnitName → Bytes) (u : UnitName → Option Bytes) (q : Option PendingUpdate)
    (d : CoreDisk) : Prop :=
  d.unit = u ∧ (d.pending = q ∧ Has d.previousFile old ∨ Has u old ∧ Backed old d)

/-- The marker after the recovery from an activation that failed. -/
def recoveryMarker (fate : UpdateStep → Fate) (u : UnitName → Option Bytes)
    (q : Option PendingUpdate) : Option PendingUpdate :=
  if restoreFate fate u ≠ .stopped ∧ fate .removePending = .done then none else q

theorem recover_end (hprevious : Has d.previousFile old) (fate : UpdateStep → Fate) :
    Leaves old (replacing d.unit old (restoreCut fate d.unit))
      (recoveryMarker fate d.unit d.pending) (recover cut fate d).2 := by
  obtain ⟨e, d', heq, hrest, hunit⟩ := restore_end cut hprevious fate
  have hfiles := hrest.has hprevious
  unfold recover recoveryMarker
  by_cases hstop : restoreFate fate d.unit = .stopped
  · rw [hstop] at heq
    rw [bind_stopped (attempt_stopped heq), if_neg fun h => h.1 hstop]
    exact ⟨hunit, .inl ⟨hrest.pending, hfiles⟩⟩
  have hattempt : ∃ x, attempt (restoreUnit cut unitNames) fate d = (.ok x, d') := by
    cases hfate : restoreFate fate d.unit with
    | done =>
      rw [hfate] at heq
      exact ⟨_, attempt_ok heq⟩
    | failed =>
      rw [hfate] at heq
      exact ⟨_, attempt_error heq⟩
    | stopped => exact absurd hfate hstop
  obtain ⟨x, hx⟩ := hattempt
  rw [bind_ok hx]
  cases hremove : fate .removePending with
  | done =>
    rw [bind_ok (attempt_ok (act_done hremove)), if_pos ⟨hstop, rfl⟩]
    exact ⟨hunit, .inl ⟨rfl, hfiles⟩⟩
  | failed =>
    rw [bind_ok (attempt_error (act_failed hremove)), if_neg (by simp)]
    exact ⟨hunit, .inl ⟨hrest.pending, hfiles⟩⟩
  | stopped =>
    rw [bind_stopped (attempt_stopped (act_stopped hremove)), if_neg (by simp)]
    exact ⟨hunit, .inl ⟨hrest.pending, hfiles⟩⟩

/-! ### Activation -/

section

variable (now : ℤ) (running : String) (m : CoreManifest)

/-- The marker that an activation leaves. -/
def markerOf : PendingUpdate := newPending now running m.target m.apiVersion 30

/-- What is known when the previous unit is saved. -/
structure Saved (old new : UnitName → Bytes) (d : CoreDisk) : Prop where
  unit : ∀ n, d.unit n = some (old n)
  payload : ∀ n, d.payload n = some (new n)
  previous : ∀ n, d.previousFile n = some (old n)

/-- How the closure of an activation ends: what became of its last step, the unit that is installed
then, and the marker. The marker is that of an earlier update until the new unit is in its place. -/
def activationEnd (fate : UpdateStep → Fate) (old new : UnitName → Bytes)
    (earlier : Option PendingUpdate) : Fate × (UnitName → Option Bytes) × Option PendingUpdate :=
  match unitCut (fun n s => fate (.activate n s)) (some ∘ old) with
  | some (n, s) => (fate (.activate n s), replacing (some ∘ old) new (some (n, s)), earlier)
  | none =>
    let staged := fateOf fate [.stageDir, .createUpdateDir, .writePending]
    if staged = .done then (fate .reload, some ∘ new, some (markerOf now running m))
    else (staged, some ∘ new, earlier)

theorem writePending_end (q : PendingUpdate) (fate : UpdateStep → Fate) (d : CoreDisk) :
    ∃ e, writePending q fate d = ((fateOf fate [.createUpdateDir, .writePending]).outcome () e,
      if fateOf fate [.createUpdateDir, .writePending] = .done then { d with pending := some q }
      else d) := by
  cases hdir : fate .createUpdateDir
  case' done => cases hwrite : fate .writePending
  all_goals simp [*, writePending, bind, Faulty.bind, act, fateOf, Fate.outcome]

theorem stagePending_end (fate : UpdateStep → Fate) (d : CoreDisk) :
    ∃ e, stagePending now running m.target m.apiVersion 30 fate d =
      ((fateOf fate [.stageDir, .createUpdateDir, .writePending]).outcome () e,
        if fateOf fate [.stageDir, .createUpdateDir, .writePending] = .done then
          { d with pending := some (markerOf now running m) }
        else d) := by
  obtain ⟨e, heq⟩ := writePending_end (markerOf now running m) fate d
  have hfate : fateOf fate [.stageDir, .createUpdateDir, .writePending] =
      if fate .stageDir = .done then fateOf fate [.createUpdateDir, .writePending]
      else fate .stageDir := rfl
  rw [hfate, stagePending]
  cases hstage : fate .stageDir with
  | done => exact ⟨e, (bind_ok (act_done hstage)).trans heq⟩
  | failed => exact ⟨_, bind_error (act_failed hstage)⟩
  | stopped => exact ⟨e, bind_stopped (act_stopped hstage)⟩

/-- What is left of the closure of an activation. -/
theorem activate_end (hsaved : Saved old new d) (fate : UpdateStep → Fate) :
    ∃ e d', activate cut now running m fate d =
      ((activationEnd now running m fate old new d.pending).1.outcome () e, d') ∧
      d'.unit = (activationEnd now running m fate old new d.pending).2.1 ∧
      d'.pending = (activationEnd now running m fate old new d.pending).2.2 ∧
      Has d'.previousFile old := by
  have hold : d.unit = some ∘ old := funext hsaved.unit
  obtain ⟨e, d₁, heq, hrest, hunit⟩ := replaceUnit_end cut new .activate fate d
  rw [← replaceAll_eq hsaved.payload] at heq
  rw [hold] at heq hunit
  have hfiles := hrest.has hsaved.previous
  unfold activate activationEnd
  cases hcut : unitCut (fun n s => fate (.activate n s)) (some ∘ old) with
  | some p =>
    obtain ⟨n, s⟩ := p
    rw [hcut] at heq hunit
    have hne : fate (.activate n s) ≠ .done := ne_done_of_unitCut hcut
    exact ⟨e, d₁, bind_outcome heq hne (), hunit, hrest.pending, hfiles⟩
  | none =>
    rw [hcut] at heq hunit
    obtain ⟨e', hstage⟩ := stagePending_end now running m fate d₁
    rw [bind_ok heq]
    by_cases hdone : fateOf fate [.stageDir, .createUpdateDir, .writePending] = .done
    · rw [if_pos hdone, hdone] at hstage
      simp only [hdone, ↓reduceIte]
      rw [bind_ok hstage]
      refine ⟨"reload", { d₁ with pending := some (markerOf now running m) }, ?_, hunit,
        rfl, hfiles⟩
      cases hreload : fate .reload <;> simp [act, hreload, Fate.outcome]
    · rw [if_neg hdone] at hstage
      simp only [hdone, ↓reduceIte]
      exact ⟨e', d₁, bind_outcome hstage hdone (), hunit, hrest.pending, hfiles⟩

end

/-! ### A start -/

section

variable {windows : Bool} {r : Build} {now : ℤ}

theorem isSome_previous (h : Has d.previousFile old) : d.previous.isSome := by
  cases hprevious : d.previous with
  | none =>
    have hfile := h .tunnet
    rw [previousFile, hprevious] at hfile
    cases hfile
  | some => rfl

theorem copyWorker_eq (h : Has d.previousFile old) (fate : UpdateStep → Fate) :
    copyWorker cut fate d = act .copyWorker "copy" (fun d => d) (fun d => d) fate d := by
  rw [copyWorker, bind_ok get_apply, h .tunnetd]
  rfl

/-- The unit is the same, and what is left of the previous unit is of it. -/
structure Discards (d d' : CoreDisk) : Prop where
  unit : d'.unit = d.unit
  previous : ∀ n b, d'.previousFile n = some b → d.previousFile n = some b

instance : Std.Refl Discards := ⟨fun _ => ⟨rfl, fun _ _ => id⟩⟩

instance : Trans Discards Discards Discards :=
  ⟨fun h h' => ⟨h'.1.trans h.1, fun n b hb => h.2 n b (h'.2 n b hb)⟩⟩

theorem keeps_afterRestore : (afterRestore cut).Keeps Discards := by
  have hdiscard : (discardPrevious cut).Keeps Discards := by
    refine keeps_act (fun _ => ⟨rfl, nofun⟩) fun d => ⟨rfl, fun n b hb => ?_⟩
    unfold previousFile at hb ⊢
    cases hprevious : d.previous with
    | none => simp [hprevious] at hb
    | some =>
      by_cases hkept : cut.kept n
      · simpa [hprevious, Leftover.of, hkept] using hb
      · simp [hprevious, Leftover.of, hkept] at hb
  have hremove : removePending.Keeps Discards :=
    keeps_act (fun _ => ⟨rfl, fun _ _ => id⟩) Std.Refl.refl
  refine hdiscard.attempt.bind fun _ => ?_
  refine hremove.attempt.bind fun _ => ?_
  exact (keeps_act (fun _ => refl _) refl).attempt.bind fun _ => keeps_pure ()

theorem revert_end (hprevious : Has d.previousFile old) (fate : UpdateStep → Fate) :
    Leaves old (replacing d.unit old (restoreCut fate d.unit)) d.pending
      (revertToPrevious cut fate d).2 := by
  obtain ⟨e, d', heq, hrest, hunit⟩ := restore_end cut hprevious fate
  rw [revertToPrevious, bind_ok get_apply, if_pos (isSome_previous hprevious)]
  unfold restoreFate at heq
  cases hcut : restoreCut fate d.unit with
  | some p =>
    rw [hcut] at heq hunit
    rw [bind_outcome heq (ne_done_of_unitCut hcut) ()]
    exact ⟨hunit, .inl ⟨hrest.pending, hrest.has hprevious⟩⟩
  | none =>
    rw [hcut] at heq hunit
    rw [bind_ok heq]
    have hkept := keeps_afterRestore cut fate d'
    have hunit' : (afterRestore cut fate d').2.unit = some ∘ old := hkept.unit.trans hunit
    refine ⟨hunit', .inr ⟨fun _ => rfl, .inr ⟨congrFun hunit', fun n b hb => ?_⟩⟩⟩
    have hfile := hkept.previous n b hb
    rw [hrest.has hprevious] at hfile
    exact (Option.some.inj hfile).symm

/-- The steps of a rollback before the previous unit is put back. -/
def workerSteps (windows : Bool) : List UpdateStep := if windows then [.copyWorker] else []

theorem rollback_end (hprevious : Has d.previousFile old) (fate : UpdateStep → Fate) :
    Leaves old (if fateOf fate (workerSteps windows) = .done then
        replacing d.unit old (restoreCut fate d.unit)
      else d.unit) d.pending (rollback windows cut fate d).2 := by
  unfold rollback workerSteps
  cases windows with
  | false => exact revert_end cut hprevious fate
  | true =>
    have hworker := copyWorker_eq cut hprevious fate
    simp only [↓reduceIte]
    by_cases hdone : fate .copyWorker = .done
    · rw [act_done hdone] at hworker
      rw [bind_ok hworker, if_pos (fateOf_eq_done.2 (by simpa using hdone))]
      exact revert_end cut hprevious fate
    · obtain ⟨o, ho, hne⟩ := act_not_done hdone
      rw [ho] at hworker
      obtain ⟨o', ho', -⟩ := bind_not_ok hworker hne
      rw [ho', if_neg fun h => hdone (fateOf_eq_done.1 h _ List.mem_cons_self)]
      exact ⟨rfl, .inl ⟨rfl, hprevious⟩⟩

/-- The steps of a start that rolls back, before the previous unit is put back. -/
def startSteps (windows : Bool) (q : PendingUpdate) (r : Build) : List UpdateStep :=
  .readPending :: (if q.Mismatch r then [] else [.createUpdateDir, .writePending]) ++
    workerSteps windows

/-- The marker of a start that was interrupted. -/
def startMarker (fate : UpdateStep → Fate) (q : PendingUpdate) (r : Build) : PendingUpdate :=
  if ¬ q.Mismatch r ∧ fateOf fate [.readPending, .createUpdateDir, .writePending] = .done then
    q.boot
  else q

/-- The unit of a start that was interrupted. -/
def startUnit (windows : Bool) (fate : UpdateStep → Fate) (old : UnitName → Bytes)
    (q : PendingUpdate) (r : Build) (u : UnitName → Option Bytes) : UnitName → Option Bytes :=
  if fateOf fate (startSteps windows q r) = .done then replacing u old (restoreCut fate u) else u

/-- What is left of a start that rolls back. -/
theorem start_end (hq : d.pending = some q) (hprevious : Has d.previousFile old)
    (hroll : RollsBack q r now) (fate : UpdateStep → Fate) :
    Leaves old (startUnit windows fate old q r d.unit) (some (startMarker fate q r))
      (onAgentStart windows cut r now fate d).2 := by
  by_cases hread : fate .readPending = .done
  swap
  · -- The marker could not be read.
    obtain ⟨o, ho, hne⟩ : ∃ o, query .readPending "read update pending" pending fate d = (o, d) ∧
        ∀ q, o ≠ .ok q := by
      unfold query
      cases hfate : fate .readPending with
      | done => exact absurd hfate hread
      | failed | stopped => exact ⟨_, rfl, nofun⟩
    obtain ⟨o', ho', -⟩ := bind_not_ok (f := checkPending windows cut r now) ho hne
    rw [onAgentStart, bind_ok get_apply, hq]
    simp only [Option.isSome_some, ↓reduceIte]
    rw [ho', startUnit, if_neg fun h => hread (fateOf_eq_done.1 h _ (by simp [startSteps])),
      startMarker, if_neg fun h => hread (fateOf_eq_done.1 h.2 _ (by simp))]
    exact ⟨rfl, .inl ⟨hq, hprevious⟩⟩
  rw [onAgentStart_of_some hq hread, checkPending]
  by_cases hmismatch : q.Mismatch r
  · have hfate : fateOf fate (startSteps windows q r) = fateOf fate (workerSteps windows) := by
      simp [startSteps, fateOf, hread, hmismatch]
    have hmarker : startMarker fate q r = q := if_neg fun h => h.1 hmismatch
    rw [if_pos hmismatch, bind_pure_snd, startUnit, hfate, hmarker, ← hq]
    exact rollback_end cut hprevious fate
  rw [if_neg hmismatch]
  obtain ⟨e, hwrite⟩ := writePending_end q.boot fate d
  by_cases hdone : fateOf fate [.createUpdateDir, .writePending] = .done
  · have hfate : fateOf fate (startSteps windows q r) = fateOf fate (workerSteps windows) := by
      rw [fateOf_eq_done] at hdone
      simp [startSteps, fateOf, hread, hmismatch, hdone]
    have hmarker : startMarker fate q r = q.boot :=
      if_pos ⟨hmismatch, by simpa [fateOf, hread] using hdone⟩
    rw [hdone, if_pos rfl] at hwrite
    rw [bind_ok hwrite, if_pos (hroll.resolve_left hmismatch), bind_pure_snd, startUnit, hfate,
      hmarker]
    exact rollback_end (d := { d with pending := some q.boot }) cut hprevious fate
  · rw [if_neg hdone] at hwrite
    have hsteps : fateOf fate (startSteps windows q r) ≠ .done := by
      intro h
      refine hdone (fateOf_eq_done.2 fun i hi => fateOf_eq_done.1 h i ?_)
      rw [startSteps, if_neg hmismatch]
      exact List.mem_append_left _ (List.mem_cons_of_mem _ hi)
    have hmarker : startMarker fate q r = q :=
      if_neg fun h => hdone (by simpa [fateOf, hread] using h.2)
    rw [bind_outcome hwrite hdone none, startUnit, if_neg hsteps, hmarker]
    exact ⟨rfl, .inl ⟨hq, hprevious⟩⟩

end

end

/-! ### All or nothing -/

/-- What may be interrupted: an activation, or a start that rolls back. -/
inductive UpdateCall
  | activate (now : ℤ) (running : String) (m : CoreManifest)
  | start (now : ℤ)

/-- The disk when the machine has stopped, or the call has come to its end. -/
def UpdateCall.run (host : Host) (cut : Leftover) (fate : UpdateStep → Fate) (d : CoreDisk) :
    UpdateCall → CoreDisk
  | activate now running m => (activateVerified cut now running m fate d).2
  | start now =>
    match (d.unit .tunnetd).bind host.identify with
    | none => d
    | some running => (onAgentStart host.windows cut running now fate d).2

/-- Before an activation the old unit is installed and the new one is staged. Before a start that
rolls back the old one is saved; what is installed may be what an earlier stop has left. -/
def Begins (host : Host) (old new : UnitName → Bytes) (d : CoreDisk) : UpdateCall → Prop
  | .activate _ _ _ => (∀ n, d.unit n = some (old n)) ∧ ∀ n, d.payload n = some (new n)
  | .start now => (∀ n, d.previousFile n = some (old n)) ∧ ∃ q r, d.pending = some q ∧
      (d.unit .tunnetd).bind host.identify = some r ∧ RollsBack q r now

/-- The interruptions that tear no unit apart for good. One while the old unit is saved matters if
the next start rolls an earlier update back, from what is saved by then. After that, what is
installed and the marker are those of the step at which the activation ended; if it failed there,
those of the step at which putting the old unit back ended. The unit must be whole, or its daemon
must be there and roll back at its next start. So for a start that rolls back. -/
def NotTorn (host : Host) (old new : UnitName → Bytes) (cut : Leftover) (fate : UpdateStep → Fate)
    (next : ℤ) (d : CoreDisk) : UpdateCall → Prop
  | .activate now running m =>
    match savingCut fate d.previous with
    | some i => ∀ q r, d.pending = some q → host.identify (old .tunnetd) = some r →
        RollsBack q r next →
        Whole old new (rolledBack host.windows (savingAt cut old d.previous i) d.unit)
    | none =>
      match activationEnd now running m fate old new d.pending with
      | (.failed, u, q) => Recovers host old new next (replacing u old (restoreCut fate u))
          (recoveryMarker fate u q)
      | (_, u, q) => Recovers host old new next u q
  | .start _ => ∀ q r, d.pending = some q → (d.unit .tunnetd).bind host.identify = some r →
      Recovers host old new next (startUnit host.windows fate old q r d.unit)
        (some (startMarker fate q r))

section

variable {host : Host} {cut cut' : Leftover} {fate : UpdateStep → Fate} {now next : ℤ}
  {d d₁ : CoreDisk} {old new : UnitName → Bytes} {q : Option PendingUpdate}
  {u : UnitName → Option Bytes} {i : UpdateStep}

theorem Leaves.whole_iff (h : Leaves old u q d) :
    Whole old new (nextStart host cut next d).unit ↔ Recovers host old new next u q := by
  obtain ⟨rfl, ⟨rfl, hprevious⟩ | ⟨hold, hbacked⟩⟩ := h
  · exact nextStart_whole_iff (.inl hprevious)
  · rw [nextStart_whole_iff hbacked]
    exact iff_of_true (.inl (.inl hold)) (.inl (.inl hold))

theorem saving_whole_iff (hunit : Has d.unit old) (hsame : SameInstall d d₁)
    (hprevious : d₁.previous = savingAt cut old d.previous i) :
    Whole old new (nextStart host cut' next d₁).unit ↔
      ∀ q r, d.pending = some q → host.identify (old .tunnetd) = some r → RollsBack q r next →
        Whole old new (rolledBack host.windows (savingAt cut old d.previous i) d.unit) := by
  have hunit₁ : d₁.unit = d.unit := by
    unfold unit
    rw [hsame.install]
  have hrunning : (d₁.unit .tunnetd).bind host.identify = host.identify (old .tunnetd) := by
    rw [hunit₁, hunit]
    rfl
  rcases nextStart_unit host cut' next d₁ with ⟨q, r, hq, hr, hroll, heq⟩ | ⟨hnot, heq⟩
  · rw [heq, hprevious, hunit₁]
    rw [hsame.pending] at hq
    rw [hrunning] at hr
    exact ⟨fun hwhole _ _ _ _ _ => hwhole, fun h => h q r hq hr hroll⟩
  · rw [heq, hunit₁]
    refine ⟨fun _ q r hq hr hroll => ?_, fun _ => .inl hunit⟩
    exact absurd hroll (hnot q r (hsame.pending.trans hq) (hrunning.trans hr))

theorem activateOrRecover_whole_iff (running : String) (m : CoreManifest)
    (hsaved : Saved old new d) :
    Whole old new (nextStart host cut' next (activateOrRecover cut now running m fate d).2).unit ↔
      match activationEnd now running m fate old new d.pending with
      | (.failed, u, q) => Recovers host old new next (replacing u old (restoreCut fate u))
          (recoveryMarker fate u q)
      | (_, u, q) => Recovers host old new next u q := by
  obtain ⟨e, d', heq, hunit, hpending, hprevious⟩ := activate_end cut now running m hsaved fate
  rw [activateOrRecover]
  rcases hend : activationEnd now running m fate old new d.pending with ⟨f, u, q⟩
  rw [hend] at heq hunit hpending
  subst hunit hpending
  have hleaves : Leaves old d'.unit d'.pending d' := ⟨rfl, .inl ⟨rfl, hprevious⟩⟩
  cases f with
  | done =>
    rw [bind_ok (attempt_ok heq)]
    exact hleaves.whole_iff
  | stopped =>
    rw [bind_stopped (attempt_stopped heq)]
    exact hleaves.whole_iff
  | failed =>
    rw [bind_ok (attempt_error heq)]
    exact (recover_end cut hprevious fate).whole_iff

/-- An update is all or nothing exactly if its interruption tears no unit apart for good. -/
theorem core_update_all_or_nothing {call : UpdateCall} (hbegins : Begins host old new d call) :
    Whole old new (nextStart host cut' next (call.run host cut fate d)).unit ↔
      NotTorn host old new cut fate next d call := by
  cases call with
  | activate now running m =>
    obtain ⟨hunit, hpayload⟩ := hbegins
    have hsame := keeps_prepare cut fate d
    rw [UpdateCall.run, activateVerified, NotTorn]
    rcases prepare_end cut hunit fate with
      ⟨i, o, d₁, hcut, heq, hne, hprevious⟩ | ⟨hcut, d₁, heq, hprevious⟩
    · rw [heq] at hsame
      obtain ⟨o', ho', -⟩ := bind_not_ok heq hne
      rw [ho', hcut]
      exact saving_whole_iff hunit hsame hprevious
    · rw [heq] at hsame
      rw [bind_ok heq, hcut]
      have hunit₁ (n) : d₁.unit n = some (old n) := by
        rw [unit, hsame.install]
        exact hunit n
      have hsaved : Saved old new d₁ :=
        ⟨hunit₁, fun n => (congrFun hsame.payload n).trans (hpayload n), hprevious⟩
      rw [activateOrRecover_whole_iff running m hsaved, hsame.pending]
  | start now =>
    obtain ⟨hprevious, q, r, hq, hr, hroll⟩ := hbegins
    rw [UpdateCall.run, hr, NotTorn, (start_end cut hq hprevious hroll fate).whole_iff]
    refine ⟨fun h q' r' hq' hr' => ?_, fun h => h q r hq hr⟩
    obtain rfl := Option.some.inj (hq.symm.trans hq')
    obtain rfl := Option.some.inj (hr.symm.trans hr')
    exact h

end

/-! ### Two updates -/

namespace Demo

def old : UnitName → Bytes
  | .tunnet => [1]
  | .tunnetd => [2]

def new : UnitName → Bytes
  | .tunnet => [3]
  | .tunnetd => [4]

def host : Host where
  windows := false
  identify b := if b = [4] then some ⟨"2", 1⟩ else if b = [2] then some ⟨"1", 1⟩ else none

/-- The old unit is installed, and no update is pending. -/
def installed : CoreDisk where
  install n := ⟨some (old n), none, none⟩
  previous := none
  payload n := some (new n)
  pending := none

/-- The new unit has been started once. -/
def activated : CoreDisk where
  install n := ⟨some (new n), none, none⟩
  previous := some fun n => some (old n)
  payload n := some (new n)
  pending := some ⟨0, "1", "2", 1, 30, 1⟩

def update : UpdateCall := .activate 0 "1" ⟨"2", 1⟩

def stopAt (i : UpdateStep) : UpdateStep → Fate := fun j => if j = i then .stopped else .done

/-- The disk when a call is interrupted, and the unit when the agent starts at `next`. -/
def interrupted (call : UpdateCall) (fate : UpdateStep → Fate) (d : CoreDisk) : CoreDisk :=
  call.run host ⟨0, fun _ => false⟩ fate d

def unitAfter (next : ℤ) (call : UpdateCall) (fate : UpdateStep → Fate) (d : CoreDisk) :
    UnitName → Option Bytes :=
  (nextStart host ⟨0, fun _ => false⟩ next (interrupted call fate d)).unit

theorem begins_update : Begins host old new installed update := ⟨fun _ => rfl, fun _ => rfl⟩

/-- The new `tunnetd` cannot be copied, and the machine stops when the old one is put back. -/
def failedUpdate : UpdateStep → Fate
  | .activate .tunnetd .copy => .failed
  | i => stopAt (.restore .tunnetd .copy) i

/-- The rollback stops when `tunnetd` is copied. -/
def stoppedOnce : CoreDisk :=
  interrupted (.start 1000000000) (stopAt (.restore .tunnetd .copy)) activated

/-- A stop after a failed copy; and a stop in a rollback, that is repeated within the window, also
if it stops once more. -/
theorem core_update_all_or_nothing_stopped :
    Whole old new (unitAfter 0 update failedUpdate installed) ∧
    Whole old new
      (unitAfter 2000000000 (.start 1000000000) (stopAt (.restore .tunnetd .copy)) activated) ∧
    Whole old new
      (unitAfter 3000000000 (.start 2000000000)
        (stopAt (.restore .tunnetd .copy)) stoppedOnce) := by
  have hagain (r' : Build) (hr : host.identify (new .tunnetd) = some r') : r' = ⟨"2", 1⟩ := by
    exact (Option.some.inj hr).symm
  refine ⟨(core_update_all_or_nothing begins_update).2 ?_, (core_update_all_or_nothing ?_).2 ?_,
    (core_update_all_or_nothing ?_).2 ?_⟩
  · exact .inl (.inl fun n => by cases n <;> rfl)
  · exact ⟨fun _ => rfl, _, ⟨"2", 1⟩, rfl, rfl, .inr (by decide)⟩
  · intro q r hq hr
    obtain rfl := Option.some.inj hq
    obtain rfl := hagain r hr
    exact .inr ⟨_, ⟨"2", 1⟩, rfl, rfl, .inr (by decide)⟩
  · exact ⟨fun _ => rfl, _, ⟨"2", 1⟩, rfl, rfl, .inr (by decide)⟩
  · intro q r hq hr
    obtain rfl := Option.some.inj hq
    obtain rfl := hagain r hr
    exact .inr ⟨_, ⟨"2", 1⟩, rfl, rfl, .inr (by decide)⟩

theorem not_whole {u : UnitName → Option Bytes} (htunnet : u .tunnet ≠ some [3])
    (htunnetd : u .tunnetd ≠ some [2]) : ¬ Whole old new u := by
  rintro (h | h)
  · exact htunnetd (h .tunnetd)
  · exact htunnet (h .tunnet)

/-- The machine stops when the first binary is replaced and the second one is not. There is no
marker yet, so the next start leaves the new `tunnet` beside the old `tunnetd`. And the machine
stops in the middle of a rollback: once the window has passed, the next start confirms the old
`tunnet` beside the new `tunnetd`; between the two renames there is no `tunnetd` that could start.
-/
theorem core_update_torn : (Begins host old new installed update ∧
      ¬ Whole old new (unitAfter 0 update (stopAt (.activate .tunnetd .copy)) installed)) ∧
    Begins host old new activated (.start 1000000000) ∧
    ¬ Whole old new
      (unitAfter 31000000000 (.start 1000000000) (stopAt (.restore .tunnetd .copy)) activated) ∧
    ¬ Whole old new
      (unitAfter 2000000000 (.start 1000000000)
        (stopAt (.restore .tunnetd .renameIn)) activated) := by
  refine ⟨⟨begins_update, ?_⟩, ⟨fun _ => rfl, _, ⟨"2", 1⟩, rfl, rfl, .inr (by decide)⟩, ?_, ?_⟩
  · rintro (h | h)
    · exact absurd (h .tunnet) (by decide)
    · exact absurd (h .tunnetd) (by decide)
  · exact not_whole (by decide) (by decide)
  · exact not_whole (by decide) (by decide)

end Demo

end Tunnet.Update

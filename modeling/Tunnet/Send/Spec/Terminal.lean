import Tunnet.Send.Spec.Interference

/-!
# How an accepted transfer ends

`accept_offer_inner` marks a transfer as transferring and as completed or failed at the end. It
returns early, without another mark, when the decision cannot be written, when the hash of the offer
is invalid, and when the export fails.
-/

namespace Tunnet.Send

variable {m m' : SendManager} {id : String} {offer : TransferOffer} {peer : String}
  {caller : Caller} {as : List Answers}

/-- Run the pieces of a task with these answers, until `accept_offer_inner` returns. -/
def acceptOfferInner (m : SendManager) : Task → List Answers → Option SendManager
  | _, [] => none
  | task, a :: as =>
    let e := task.run m a
    match e.next with
    | none | some (.answering _) => some (m.access e.access)
    | some next => acceptOfferInner (m.access e.access) next as

def Download.isProgress : Download → Bool
  | .progress _ => true
  | .done | .failed _ => false

/-- The record has a status that is not terminal. -/
def Open (m : SendManager) (id : String) : Prop :=
  ∃ r, m.transfers.lookup id = some r ∧ r.status.isTerminal = false

/-- The record has a terminal status and a completion time. -/
def Finished (m : SendManager) (id : String) : Prop :=
  ∃ r, m.transfers.lookup id = some r ∧ r.status.isTerminal ∧ r.completedAt.isSome

theorem Open.not_finished (h : Open m id) : ¬ Finished m id := by
  rintro ⟨r, hr, hterminal, -⟩
  obtain ⟨r', hr', hopen⟩ := h
  obtain rfl := Option.some.inj (hr.symm.trans hr')
  exact nomatch hopen.symm.trans hterminal

theorem Open.modify (h : Open m id) {f : TransferRecord → TransferRecord}
    (hf : ∀ r, (f r).status = .transferring) :
    Open { m with transfers := m.transfers.modify id f } id := by
  obtain ⟨r, hr, -⟩ := h
  refine ⟨f r, ?_, by rw [hf]; rfl⟩
  rw [Map.lookup_modify_self, hr]
  rfl

theorem Open.updateStatus (h : Open m id) {status : TransferStatus} (hstatus : status.isTerminal)
    (error inbox : Option String) (now : Nat) :
    Finished (m.updateStatus id status error inbox now) id := by
  obtain ⟨r, hr, -⟩ := h
  refine ⟨r.withStatus status error inbox now, ?_, ?_⟩
  · unfold SendManager.updateStatus
    rw [Map.lookup_modify_self, hr]
    rfl
  · unfold TransferRecord.withStatus
    split_ifs <;> exact ⟨hstatus, rfl⟩

theorem finished_downloading (hopen : Open m offer.transferId)
    (h : acceptOfferInner m (.downloading offer peer caller) as = some m') :
    Finished m' offer.transferId ↔ ∀ d x rest,
      as.dropWhile (·.download.isProgress) = d :: x :: rest →
      d.download = .done → x.exported.isOk := by
  induction as generalizing m with
  | nil => cases h
  | cons a as ih =>
    cases hdownload : a.download with
    | progress =>
      rw [List.dropWhile_cons_of_pos (by rw [hdownload]; rfl)]
      rw [acceptOfferInner, Task.run, hdownload] at h
      refine ih (hopen.modify fun r => ?_) h
      unfold TransferRecord.withProgress
      split_ifs <;> rfl
    | failed =>
      rw [List.dropWhile_cons_of_neg (by rw [hdownload]; exact Bool.false_ne_true)]
      rw [acceptOfferInner, Task.run, hdownload] at h
      cases as with
      | nil => cases h
      | cons =>
        cases h
        refine iff_of_true (hopen.updateStatus rfl _ _ _) ?_
        rintro _ _ _ ⟨⟩ hdone
        exact nomatch hdownload.symm.trans hdone
    | done =>
      rw [List.dropWhile_cons_of_neg (by rw [hdownload]; exact Bool.false_ne_true)]
      rw [acceptOfferInner, Task.run, hdownload] at h
      cases as with
      | nil => cases h
      | cons x as =>
        simp only [List.cons.injEq]
        cases hexported : x.exported with
        | error =>
          simp only [acceptOfferInner, Task.run, hexported] at h
          cases h
          refine iff_of_false hopen.not_finished fun hok => ?_
          have := hok a x as ⟨rfl, rfl, rfl⟩ hdownload
          rw [hexported] at this
          cases this
        | ok =>
          simp only [acceptOfferInner, Task.run, hexported] at h
          refine iff_of_true ?_ ?_
          · cases as with
            | nil => cases h
            | cons => cases caller <;> cases h <;> exact hopen.updateStatus rfl _ _ _
          · rintro _ _ _ ⟨rfl, rfl, rfl⟩ -
            rw [hexported]
            rfl

/-- An accepted transfer ends with a terminal status exactly if the decision was written, the hash
is valid, and what was downloaded was exported. -/
theorem finished_iff {a : Answers} (hopen : Open m offer.transferId)
    (h : acceptOfferInner m (.accepting offer peer caller) (a :: as) = some m') :
    Finished m' offer.transferId ↔ a.write.isOk ∧ a.hash.isOk ∧
      ∀ d x rest, as.dropWhile (·.download.isProgress) = d :: x :: rest → d.download = .done →
        x.exported.isOk := by
  cases hwrite : a.write with
  | error =>
    rw [acceptOfferInner, Task.run, hwrite] at h
    cases h
    exact iff_of_false hopen.not_finished nofun
  | ok =>
    have hopen' := hopen.modify (f := fun r => r.withStatus .transferring none none a.now)
      fun r => rfl
    cases hhash : a.hash with
    | error =>
      rw [acceptOfferInner, Task.run, hwrite, hhash] at h
      cases h
      exact iff_of_false hopen'.not_finished nofun
    | ok =>
      rw [acceptOfferInner, Task.run, hwrite, hhash] at h
      rw [finished_downloading hopen' h]
      simp [Except.toBool]

namespace Demo

/-- An offer waits for the operator. -/
def waiting : SendManager := (after (queue 0 (offerOf "1" "a") "aa")).2

theorem open_waiting : Open waiting "1" :=
  ⟨inboundRecord (offerOf "1" "a") "aa" answers, by decide, rfl⟩

def accept (answers : List Answers) : Option SendManager :=
  acceptOfferInner waiting (.accepting (offerOf "1" "a") "aa" .operator) answers

theorem finished_if_exported : ∃ m', accept (List.replicate 4 answers) = some m' ∧
    Finished m' "1" := by
  have haccept : accept (List.replicate 4 answers) = some _ := rfl
  refine ⟨_, haccept, (finished_iff open_waiting haccept).2 ⟨rfl, rfl, ?_⟩⟩
  rintro _ _ _ ⟨⟩ -
  rfl

/-- With an invalid hash the transfer stays in progress. -/
theorem unfinished_if_invalid_hash : ∃ m',
    accept [{ answers with hash := .error "invalid" }] = some m' ∧ ¬ Finished m' "1" :=
  ⟨_, rfl, (open_waiting.modify fun _ => rfl).not_finished⟩

end Demo

end Tunnet.Send

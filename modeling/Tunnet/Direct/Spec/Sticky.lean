import Tunnet.Direct.Demo
import Tunnet.Util.Run

/-!
# Rebuilding a growing document

A replica rebuilds again and again while the document grows. Each rebuild computes the revoked set
and the minimum epoch from the blobs it can read at that moment and forgets what earlier ones saw.
As long as the epochs stay readable, and each applied revocation stays readable or is covered by a
readable epoch, both are sticky (`revocation_sticky`); with a blob missing again they are not
(`revocation_forgotten`).
-/

namespace Tunnet.Direct

open Replica

variable {β : Type} {c : Signing} {view : View β} {doc : Doc β}

/-! ### Runs of rebuilds -/

/-- One rebuild: the document and what can be read of it. -/
structure RebuildCall (β : Type) where
  doc : Doc β
  view : View β

variable {k x : String} (j : Serde β) (R : Replica c) (i : RebuildCall β)

def rebuildStep : Replica c × Except RebuildError Unit :=
  (R.next j i.view i.doc, (R.rebuild j i.view i.doc).2)

theorem rebuildStep_eq {j : Serde β} {R : Replica c}
    {o : Except RebuildError Unit} (h : (R.rebuild j view doc).2 = o) :
    rebuildStep j R ⟨doc, view⟩ = (R.next j view doc, o) := by
  rw [rebuildStep, h]

theorem rebuildStep_fst_state : (rebuildStep j R i).1.state = (R.rebuild j i.view i.doc).1 := rfl

/-- The calls of a history with their results. -/
abbrev RebuildHistory (β : Type) := List (RebuildCall β × Except RebuildError Unit)

/-- No entry of an earlier document is gone. -/
def Grows (h : RebuildHistory β) (i : RebuildCall β) : Prop := ∀ p ∈ h, p.1.doc ⊆ i.doc

/-- The rebuild reads this revocation, signed and under its own key. -/
structure Applies (c : Signing) (j : Serde β) (vk : List UInt8) (i : RebuildCall β)
    (e : DocEntry β) (r : Revocation) : Prop where
  mem : e ∈ i.doc
  key : e.key = revocationKey r.endpointId
  readable : i.view.readable e.content
  parses : j.revocation.fromSlice e.content = some r
  signed : (c.verifyRevocation vk r).isOk

/-- No record in the document has a signed grant for the revoked endpoint from the epoch of the
revocation or later. -/
def NoNewerGrant (c : Signing) (j : Serde β) (vk : List UInt8) (r : Revocation) (doc : Doc β) :
    Prop :=
  ∀ e ∈ doc, ∀ record, j.record.fromSlice e.content = some record →
    record.endpointId = r.endpointId →
    (c.verifySig vk (c.grantSignPayload record.grant) record.grant.sig).isOk →
    record.grant.networkEpoch < r.networkEpoch

/-- What has to stay readable: every signed epoch read before, and every applied revocation unless
an epoch that is at least as high as its own is read. -/
structure StaysReadable (c : Signing) (j : Serde β) (vk : List UInt8) (h : RebuildHistory β)
    (i : RebuildCall β) : Prop where
  epochs : ∀ p ∈ h, ∀ e ∈ p.1.doc, (epochOf c j p.1.view vk e).isSome →
    i.view.readable e.content
  revocations : ∀ i', (i', .ok ()) ∈ h → ∀ e r, Applies c j vk i' e r →
    i.view.readable e.content ∨ r.networkEpoch ≤ minEpochOf c j i.view vk i.doc

/-- Some member entry is that of `x`. -/
def IsMember (m : DocsMembership) (x : String) : Prop :=
  ∃ k e, m.members.lookup k = some e ∧ e.endpointId = x

/-! ### One rebuild -/

section Step

variable {j R i} {r : Revocation}

theorem Applies.mem_revokedIn {e : DocEntry β} (h : Applies c j R.vk i e r) :
    r.endpointId ∈ R.revokedIn j i.view i.doc :=
  Replica.mem_revokedIn.2 ⟨e, h.mem,
    revokedBy_eq_some_iff.2 ⟨h.key, h.readable, r, h.parses, h.signed⟩⟩

theorem exists_record_of_lookup {e : MembershipEntry}
    (h : (R.membersIn j view doc).lookup k = some e) :
    ∃ d ∈ doc, ∃ record, j.record.fromSlice d.content = some record ∧
      record.endpointId = e.endpointId ∧ record.endpointId ∉ R.revokedIn j view doc ∧
      (c.verifyMemberRecord R.vk record (R.epochIn j view doc) view.now).isOk := by
  have hmap := congrArg (Option.map fun m => { m with sshHostKey := none }) h
  rw [membersIn, memberMap, lookup_applyMetadata, lookup_recordMap, Option.map_map] at hmap
  obtain ⟨⟨n, m⟩, hmax, hm⟩ := Option.map_eq_some_iff.1 hmap
  obtain ⟨d, hd, hacc⟩ := List.mem_filterMap.1 (mem_valuesAt.1 (List.argmax_mem hmax))
  obtain ⟨-, -, -, record, hparse, hv, -, -, hrev, -, rfl⟩ := acceptRecord_eq_some_iff.1 hacc
  exact ⟨d, hd, record, hparse, congrArg MembershipEntry.endpointId hm, hrev, hv⟩

theorem not_isMember_of_mem_revokedIn (hok : (R.rebuild j i.view i.doc).2 = .ok ())
    (hx : x ∈ R.revokedIn j i.view i.doc) : ¬ IsMember (R.rebuild j i.view i.doc).1 x := by
  rintro ⟨k, e, hlookup, rfl⟩
  rw [rebuild_members_of_ok hok] at hlookup
  obtain ⟨_, _, record, _, hid, hrev, _⟩ := exists_record_of_lookup hlookup
  exact hrev (hid ▸ hx)

theorem not_isMember_of_epoch (hok : (R.rebuild j i.view i.doc).2 = .ok ())
    (hnew : NoNewerGrant c j R.vk r i.doc)
    (hepoch : r.networkEpoch ≤ minEpochOf c j i.view R.vk i.doc) :
    ¬ IsMember (R.rebuild j i.view i.doc).1 r.endpointId := by
  rintro ⟨k, e, hlookup, hid⟩
  rw [rebuild_members_of_ok hok] at hlookup
  obtain ⟨d, hd, record, hparse, hid', -, hv⟩ := exists_record_of_lookup hlookup
  have hgrant := Signing.verifyGrant_isOk_iff.1 (Signing.verifyMemberRecord_isOk_iff.1 hv).2.2.2.2.1
  have hlt := hnew d hd record hparse (hid'.trans hid) hgrant.2.2
  have hle : minEpochOf c j i.view R.vk i.doc ≤ record.grant.networkEpoch := hgrant.1
  omega

theorem minEpochOf_mono {h : RebuildHistory β} (hgrow : Grows h i)
    (hstay : StaysReadable c j R.vk h i) {p : RebuildCall β × Except RebuildError Unit}
    (hp : p ∈ h) : minEpochOf c j p.1.view R.vk p.1.doc ≤ minEpochOf c j i.view R.vk i.doc := by
  refine minEpochOf_le_iff.2 fun e he n hn => le_minEpochOf (hgrow p hp he) ?_
  obtain ⟨hkey, -, hacc⟩ := readAt_eq_some_iff.1 hn
  have hread := hstay.epochs p hp e he (by rw [hn]; rfl)
  exact readAt_eq_some_iff.2 ⟨hkey, hread, hacc⟩

end Step

/-! ### Whole runs -/

/-- The condition every call of a run meets. -/
def StickyOk (j : Serde β) (h : RebuildHistory β) (R : Replica c) (i : RebuildCall β) : Prop :=
  Grows h i ∧ StaysReadable c j R.vk h i

/-- What every run keeps: the key, and that nobody whose revocation was applied is a member while no
newer grant is around. -/
structure StickyInv (j : Serde β) (vk : List UInt8) (h : RebuildHistory β) (R : Replica c) :
    Prop where
  vk_eq : R.vk = vk
  gone : ∀ i, (i, .ok ()) ∈ h → ∀ e r, Applies c j vk i e r →
    (∀ p ∈ h, NoNewerGrant c j vk r p.1.doc) → ¬ IsMember R.state r.endpointId

section Run

variable {j R} {R₀ : Replica c} {h : RebuildHistory β}

theorem stickyInv_step (i : RebuildCall β) (hinv : StickyInv j R₀.vk h R) (hok : StickyOk j h R i) :
    StickyInv j R₀.vk ((i, (rebuildStep j R i).2) :: h) (rebuildStep j R i).1 := by
  obtain ⟨hvk, hgone⟩ := hinv
  obtain ⟨hgrow, hstay⟩ := hok
  rw [← hvk] at hgone ⊢
  refine ⟨rfl, fun i' hi' e r happ hnew => ?_⟩
  rw [rebuildStep_fst_state]
  have hnew_i : NoNewerGrant c j R.vk r i.doc := hnew _ List.mem_cons_self
  rw [List.mem_cons, Prod.mk.injEq] at hi'
  by_cases hres : (R.rebuild j i.view i.doc).2 = .ok ()
  · rcases hi' with ⟨rfl, -⟩ | hi'
    · -- the revocation is applied by this very call
      exact not_isMember_of_mem_revokedIn hres happ.mem_revokedIn
    · rcases hstay.revocations i' hi' e r happ with hread | hepoch
      · have happ' : Applies c j R.vk i e r :=
          ⟨hgrow _ hi' happ.mem, happ.key, hread, happ.parses, happ.signed⟩
        exact not_isMember_of_mem_revokedIn hres happ'.mem_revokedIn
      · exact not_isMember_of_epoch hres hnew_i hepoch
  · -- a failed rebuild keeps the members it had
    rcases hi' with ⟨-, hi'⟩ | hi'
    · exact absurd hi'.symm hres
    · have hbefore := hgone i' hi' e r happ fun p hp => hnew p (List.mem_cons_of_mem _ hp)
      rintro ⟨k, m, hlookup, hid⟩
      rw [rebuild_members_of_not_ok hres] at hlookup
      exact hbefore ⟨k, m, hlookup, hid⟩

theorem stickyRun_inv (hrun : Run (rebuildStep j) (StickyOk j) R₀ h R) : StickyInv j R₀.vk h R :=
  hrun.invariant ⟨rfl, by simp⟩ fun _ _ i hinv hok => stickyInv_step i hinv hok

/-- Sticky while readable. In every run on a growing document in which the signed epochs, and
the applied revocations that no epoch covers, stay readable, the minimum epoch never decreases, and
an endpoint whose signed revocation a successful rebuild applied is not a member as long as no newer
grant for it was issued. -/
theorem revocation_sticky (R₀ : Replica c) (j : Serde β)
    (hrun : Run (rebuildStep j) (StickyOk j) R₀ h R) :
    (∀ later i o earlier, h = later ++ (i, o) :: earlier → ∀ p ∈ earlier,
      minEpochOf c j p.1.view R₀.vk p.1.doc ≤ minEpochOf c j i.view R₀.vk i.doc) ∧
    ∀ i, (i, .ok ()) ∈ h → ∀ e r, Applies c j R₀.vk i e r →
      (∀ p ∈ h, NoNewerGrant c j R₀.vk r p.1.doc) → ¬ IsMember R.state r.endpointId := by
  refine ⟨hrun.forall_call (fun _ _ => stickyRun_inv) ?_, (stickyRun_inv hrun).gone⟩
  intro h R i hinv hok p hp
  rw [← hinv.vk_eq]
  exact minEpochOf_mono hok.1 hok.2 hp

end Run

/-- Whatever a replica is given to read, its members are those it began with, or those of one single
document: each has a record there that the coordinator signed and has not revoked, and no two have
the same address. -/
theorem members_vouched (calls : List (RebuildCall β)) :
    let m := (calls.foldl (fun R i => R.next j i.view i.doc) R).state.members
    m = R.state.members ∨ ∃ i ∈ calls, m.DistinctVals (·.ipv4) ∧ ∀ k e, m.lookup k = some e →
      ∃ d ∈ i.doc, ∃ record, j.record.fromSlice d.content = some record ∧
        record.endpointId = e.endpointId ∧ record.endpointId ∉ R.revokedIn j i.view i.doc ∧
        (c.verifyMemberRecord R.vk record (R.epochIn j i.view i.doc) i.view.now).isOk := by
  induction calls generalizing R with
  | nil => exact .inl rfl
  | cons i calls ih =>
    rcases ih (R.next j i.view i.doc) with hsame | ⟨i', hi', hmembers⟩
    · rw [next_state] at hsame
      by_cases hok : (R.rebuild j i.view i.doc).2 = .ok ()
      · rw [rebuild_members_of_ok hok] at hsame
        refine .inr ⟨i, List.mem_cons_self, ?_⟩
        rw [List.foldl_cons, hsame]
        exact ⟨(rebuild_ok_iff.1 hok).2, fun k e => exists_record_of_lookup⟩
      · -- a failed rebuild keeps the members
        exact .inl (hsame.trans (rebuild_members_of_not_ok hok))
    · exact .inr ⟨i', List.mem_cons_of_mem i hi', hmembers⟩

namespace Demo

/-- The document after `aa` was admitted and kicked. -/
def kickedDoc : Doc Blob :=
  [⟨0, epochKey, .epoch (coordinator.epochRecord 1)⟩,
    ⟨0, revocationKey "aa", .revocation (coordinator.revocation "aa" 1)⟩] ++
    [admission alpha].map (Issuance.docEntry coordinator serde)

/-- Everything but the member records is missing. -/
def onlyRecords : View Blob := ⟨fun | .record _ => true | _ => false, 0⟩

theorem rebuild_kickedDoc : (replica.rebuild serde (allBlobs 0) kickedDoc).2 = .ok () := by
  rw [rebuild_ok_iff]
  exact ⟨by decide, by decide +kernel⟩

/-- The replica after it applied the revocation. -/
def afterKick : Replica signing := replica.next serde (allBlobs 0) kickedDoc

theorem membersIn_onlyRecords :
    afterKick.membersIn serde onlyRecords kickedDoc = Finmap.singleton "aa" alpha := by
  decide +kernel

theorem rebuild_onlyRecords : (afterKick.rebuild serde onlyRecords kickedDoc).2 = .ok () := by
  rw [rebuild_ok_iff, membersIn_onlyRecords]
  exact ⟨by decide, by decide⟩

theorem applies_kickedDoc : Applies signing serde replica.vk ⟨kickedDoc, allBlobs 0⟩
    ⟨0, revocationKey "aa", .revocation (coordinator.revocation "aa" 1)⟩
    (coordinator.revocation "aa" 1) where
  mem := by simp [kickedDoc]
  key := rfl
  readable := rfl
  parses := rfl
  signed := isOk_unit_iff.2 (Signing.verifyRevocation_signRevocation ..)

theorem noNewerGrant_kickedDoc :
    NoNewerGrant signing serde replica.vk (coordinator.revocation "aa" 1) kickedDoc := by
  have hold : ∀ e ∈ kickedDoc,
      (serde.record.fromSlice e.content).all (·.grant.networkEpoch < 1) := by decide
  intro e he record hrecord _ _
  exact of_decide_eq_true ((Option.all_eq_true _ _).1 (hold e he) record hrecord)

/-- The rebuild that applied the revocation, with its result. -/
def firstRebuild : RebuildCall Blob × Except RebuildError Unit := (⟨kickedDoc, allBlobs 0⟩, .ok ())

theorem run_firstRebuild {ok : RebuildHistory Blob → Replica signing → RebuildCall Blob → Prop}
    (hok : ok [] replica ⟨kickedDoc, allBlobs 0⟩) :
    Run (rebuildStep serde) ok replica [firstRebuild] afterKick :=
  Run.start.call_eq hok (rebuildStep_eq rebuild_kickedDoc)

theorem grows_firstRebuild (view : View Blob) : Grows [firstRebuild] ⟨kickedDoc, view⟩ := by
  intro p hp
  rw [List.mem_singleton.1 hp]
  exact List.Subset.refl _

/-- With epoch and revocation missing again, the revoked `aa` is back and the epoch is lower. -/
theorem revocation_forgotten : ∃ (h : RebuildHistory Blob) (R : Replica signing),
      Run (rebuildStep serde) (fun h _ i => Grows h i) replica
        ((⟨kickedDoc, onlyRecords⟩, .ok ()) :: firstRebuild :: h) R ∧
      Applies signing serde replica.vk firstRebuild.1
        ⟨0, revocationKey "aa", .revocation (coordinator.revocation "aa" 1)⟩
        (coordinator.revocation "aa" 1) ∧
      NoNewerGrant signing serde replica.vk (coordinator.revocation "aa" 1) kickedDoc ∧
      IsMember R.state "aa" ∧
      minEpochOf signing serde onlyRecords replica.vk kickedDoc <
        minEpochOf signing serde (allBlobs 0) replica.vk kickedDoc := by
  have hfirst : Run (rebuildStep serde) (fun h _ i => Grows h i) replica [firstRebuild] afterKick :=
    run_firstRebuild fun _ hp => absurd hp (by simp)
  refine ⟨[], afterKick.next serde onlyRecords kickedDoc,
    hfirst.call_eq (grows_firstRebuild _) (rebuildStep_eq rebuild_onlyRecords), applies_kickedDoc,
    noNewerGrant_kickedDoc, ⟨"aa", alpha, ?_, rfl⟩, ?_⟩
  · rw [next_state, rebuild_members_of_ok rebuild_onlyRecords, membersIn_onlyRecords]
    decide
  · decide +kernel

/-- The revocations are missing. -/
def noRevocations : View Blob := ⟨fun | .revocation _ => false | _ => true, 0⟩

theorem rebuild_noRevocations : (afterKick.rebuild serde noRevocations kickedDoc).2 = .ok () := by
  have hmembers : afterKick.membersIn serde noRevocations kickedDoc = ∅ := by decide +kernel
  rw [rebuild_ok_iff, hmembers]
  exact ⟨by decide, by decide⟩

theorem staysReadable_noRevocations :
    StaysReadable signing serde replica.vk [firstRebuild] ⟨kickedDoc, noRevocations⟩ := by
  have hepochs : ∀ e ∈ kickedDoc, (epochOf signing serde (allBlobs 0) replica.vk e).isSome →
      noRevocations.readable e.content := by decide +kernel
  have hcovered : ∀ e ∈ kickedDoc, (serde.revocation.fromSlice e.content).all fun r =>
      r.networkEpoch ≤ minEpochOf signing serde noRevocations replica.vk kickedDoc := by
    decide +kernel
  constructor
  · intro p hp
    rw [List.mem_singleton.1 hp]
    exact hepochs
  · rintro i hi e r happ
    obtain rfl := congrArg Prod.fst (List.mem_singleton.1 hi)
    have hall := (Option.all_eq_true _ _).1 (hcovered e happ.mem) r happ.parses
    exact .inr (of_decide_eq_true hall)

/-- The second rebuild cannot read the revocation of `aa`, but the epoch covers it. -/
theorem revocation_sticky_secondRebuild : let R := afterKick.next serde noRevocations kickedDoc
    Run (rebuildStep serde) (StickyOk serde) replica
        [(⟨kickedDoc, noRevocations⟩, .ok ()), firstRebuild] R ∧
      "aa" ∉ R.state.revoked ∧ ¬ IsMember R.state "aa" := by
  intro R
  have hfirst : Run (rebuildStep serde) (StickyOk serde) replica [firstRebuild] afterKick :=
    run_firstRebuild ⟨fun _ hp => absurd hp (by simp), ⟨by simp, by simp⟩⟩
  have hrun := hfirst.call_eq ⟨grows_firstRebuild _, staysReadable_noRevocations⟩
    (rebuildStep_eq rebuild_noRevocations)
  have hrevoked : "aa" ∉ R.state.revoked := by
    rw [next_state, rebuild_revoked_of_not_bad (by decide)]
    decide
  refine ⟨hrun, hrevoked, (revocation_sticky replica serde hrun).2 _
    (List.mem_cons_of_mem _ (List.mem_singleton.2 rfl)) _ _ applies_kickedDoc fun p hp => ?_⟩
  simp only [List.mem_cons, List.not_mem_nil, or_false] at hp
  rcases hp with rfl | rfl
  · exact noNewerGrant_kickedDoc
  · exact noNewerGrant_kickedDoc

end Demo

end Tunnet.Direct

import Tunnet.Audit.Spec.Untampered

/-!
# Retention and the chain

The check of a chain starts at number 1, and the next batch takes the number after the highest one
that is stored. Neither goes with deleting rows.

* `Keeps`: a call that deletes no row of the organization, or stores events that come back as they
  were.
-/

namespace Tunnet.Audit

open AuditTable List

universe u

variable {ν : Type u} {lib : Crates ν} {db : Postgres ν} {hmacKey : List UInt8}
  {organizationId h : String} {s : AuditLog ν} {seq k now : Int}

/-- No row of the organization is older than its plan keeps it, and what is stored for it comes back
as it was. -/
def Keeps (db : Postgres ν) (organizationId : String) (s : AuditLog ν) : AuditCall ν → Prop
  | .flush batch => batch.organizationId = organizationId → ∀ e ∈ batch.events, Stable db e
  | .prune cloudBillingEnabled orgs now =>
    cloudBillingEnabled → ∀ org ∈ orgs, org.1 = organizationId →
      ∀ cutoff, auditRetentionCutoff org.2 now = some cutoff →
        ∀ row ∈ s.table.rowsOf organizationId, cutoff * 1000 ≤ row.timeMicros

/-! ### Deleting -/

section

variable {table : AuditTable ν} {cutoff : Int} {org : String × Option Nat}
  {acc : AuditTable ν × Nat} {orgs : List (String × Option Nat)} {cloudBillingEnabled : Bool}

theorem mem_rowsOf {row : AuditVerifyRow ν} : row ∈ table.rowsOf organizationId ↔
      ∃ r ∈ table, r.organizationId = organizationId ∧ r.columns = row := by
  simp [rowsOf, and_assoc]

theorem rowsOf_append (rows : List (StoredRow ν)) : rowsOf (table ++ rows) organizationId =
      table.rowsOf organizationId ++ rowsOf rows organizationId := by
  unfold rowsOf
  rw [filter_append, map_append]

theorem pruneOrg_sublist : (pruneOrg now acc org).1.Sublist acc.1 := by
  unfold pruneOrg
  cases auditRetentionCutoff org.2 now with
  | none => exact Sublist.refl _
  | some => exact filter_sublist

theorem rowsOf_pruneOrg (hkeeps : org.1 = organizationId → ∀ cutoff,
    auditRetentionCutoff org.2 now = some cutoff →
      ∀ row ∈ rowsOf acc.1 organizationId, cutoff * 1000 ≤ row.timeMicros) :
    rowsOf (pruneOrg now acc org).1 organizationId = rowsOf acc.1 organizationId := by
  unfold pruneOrg
  cases hcutoff : auditRetentionCutoff org.2 now with
  | none => rfl
  | some cutoff =>
    unfold rowsOf
    rw [filter_filter]
    refine congrArg (map _) (filter_congr fun row hrow => ?_)
    by_cases horg : row.organizationId = organizationId
    · have hage (heq : org.1 = organizationId) : cutoff * 1000 ≤ row.columns.timeMicros :=
        hkeeps heq cutoff hcutoff _ (mem_rowsOf.2 ⟨row, hrow, horg, rfl⟩)
      have hold : row.isBefore org.1 cutoff = false := by
        unfold StoredRow.isBefore
        by_cases heq : org.1 = organizationId
        · rw [decide_eq_false (by have := hage heq; omega), Bool.and_false]
        · rw [beq_eq_false_iff_ne.2 (horg ▸ symm heq), Bool.false_and]
      rw [hold, Bool.not_false, Bool.and_true]
    · rw [beq_eq_false_iff_ne.2 horg, Bool.false_and]

theorem foldl_pruneOrg_sublist (orgs : List (String × Option Nat)) (acc : AuditTable ν × Nat) :
    (orgs.foldl (pruneOrg now) acc).1.Sublist acc.1 := by
  induction orgs generalizing acc with
  | nil => exact Sublist.refl _
  | cons org orgs ih => exact (ih _).trans pruneOrg_sublist

theorem le_of_mem_foldl_pruneOrg (horg : org ∈ orgs) (heq : org.1 = organizationId)
    (hcutoff : auditRetentionCutoff org.2 now = some cutoff) (acc : AuditTable ν × Nat) :
    ∀ row ∈ rowsOf (orgs.foldl (pruneOrg now) acc).1 organizationId,
      cutoff * 1000 ≤ row.timeMicros := by
  induction orgs generalizing acc with
  | nil => exact absurd horg not_mem_nil
  | cons first orgs ih =>
    rcases mem_cons.1 horg with rfl | horg
    · intro row hrow
      obtain ⟨r, hr, hrorg, rfl⟩ := mem_rowsOf.1 hrow
      have hstays := (foldl_pruneOrg_sublist orgs _).subset hr
      unfold pruneOrg at hstays
      rw [hcutoff] at hstays
      have hnot := (mem_filter.1 hstays).2
      unfold StoredRow.isBefore at hnot
      rw [beq_iff_eq.2 (hrorg.trans heq.symm), Bool.true_and, Bool.not_eq_true',
        decide_eq_false_iff_not] at hnot
      omega
    · exact ih horg _

/-- Nothing of the organization is deleted. -/
theorem rowsOf_prune
    (hkeeps : Keeps db organizationId s (.prune cloudBillingEnabled orgs now)) :
    rowsOf (pruneAuditEventsBeyondRetention cloudBillingEnabled orgs now s.table).1
      organizationId = s.table.rowsOf organizationId := by
  cases cloudBillingEnabled with
  | false => rfl
  | true =>
    replace hkeeps := hkeeps rfl
    -- The rows of the organization stay the same along the loop, so they are never too old.
    suffices h : ∀ acc,
        rowsOf acc.1 organizationId = s.table.rowsOf organizationId →
        rowsOf (orgs.foldl (pruneOrg now) acc).1 organizationId =
          s.table.rowsOf organizationId from h (s.table, 0) rfl
    induction orgs with
    | nil => exact fun acc hacc => hacc
    | cons org orgs ih =>
      intro acc hacc
      refine ih (fun org' horg' => hkeeps org' (mem_cons_of_mem _ horg')) _ ?_
      rw [rowsOf_pruneOrg, hacc]
      rw [hacc]
      exact hkeeps org mem_cons_self

end

/-! ### The log -/

/-- The invariant of the log: what was written for the organization is stored, and its numbers are
those that were used. -/
structure Kept (lib : Crates ν) (db : Postgres ν) (hmacKey : List UInt8) (organizationId : String)
    (s : AuditLog ν) : Prop where
  stored : ∃ events, (∀ e ∈ events, Stable db e) ∧
    Stored lib db hmacKey s.table organizationId events
  numbers : s.numbersOf organizationId =
    (s.table.rowsOf organizationId).map (·.sequenceNumber)

theorem map_snd_filter_key (rows : List (StoredRow ν)) :
    ((rows.map StoredRow.key).filter (·.1 == organizationId)).map (·.2) =
      (rowsOf rows organizationId).map (·.sequenceNumber) := by
  unfold rowsOf
  rw [filter_map, map_map, map_map]
  rfl

variable {rows : AuditTable ν}

theorem step_flush {batch : OrgBatch ν}
    (hflush : flushOrgBatch lib db hmacKey s.table batch = some (s.table ++ rows)) :
    (s.step lib db hmacKey (.flush batch)).1.table = s.table ++ rows ∧
      (s.step lib db hmacKey (.flush batch)).1.numbersOf organizationId =
        s.numbersOf organizationId ++ (rowsOf rows organizationId).map (·.sequenceNumber) := by
  rw [AuditLog.step, hflush]
  refine ⟨rfl, ?_⟩
  simp [AuditLog.numbersOf, map_snd_filter_key]

theorem kept_init : Kept lib db hmacKey organizationId ({} : AuditLog ν) where
  stored := ⟨[], fun _ he => absurd he not_mem_nil, stored_nil⟩
  numbers := rfl

/-- A call that keeps the rows keeps the invariant. -/
theorem Kept.step (hkept : Kept lib db hmacKey organizationId s)
    {call : AuditCall ν} (hkeeps : Keeps db organizationId s call) :
    Kept lib db hmacKey organizationId (s.step lib db hmacKey call).1 := by
  obtain ⟨events, hstable, hstored⟩ := hkept.stored
  cases call with
  | flush batch =>
    cases hflush : flushOrgBatch lib db hmacKey s.table batch with
    | none =>
      rw [AuditLog.step, hflush]
      exact hkept
    | some =>
      obtain ⟨rows, rfl, -⟩ := flushOrgBatch_eq_some hflush
      obtain ⟨htable, hnumbers⟩ := step_flush hflush
      refine ⟨⟨_, fun e he => ?_, htable ▸ hstored.flush hflush⟩, ?_⟩
      · rcases mem_append.1 he with he | he
        · exact hstable e he
        · split_ifs at he with horg
          · exact hkeeps horg e he
          · exact absurd he not_mem_nil
      · rw [htable, hnumbers, hkept.numbers, ← map_append, rowsOf_append]
  | prune cloudBillingEnabled orgs now =>
    have hrows : rowsOf (s.step lib db hmacKey
        (.prune cloudBillingEnabled orgs now)).1.table organizationId =
        s.table.rowsOf organizationId := rowsOf_prune hkeeps
    refine ⟨⟨events, hstable, ?_, ?_⟩, ?_⟩
    · exact hrows ▸ hstored.numbered
    · exact hrows ▸ hstored.linked
    · rw [hrows]
      exact hkept.numbers

/-! ### A deleted row -/

theorem Numbered.mem_map {rows : List (AuditVerifyRow ν)} (hrows : Numbered seq rows)
    (hle : seq ≤ k) (hlt : k < seq + rows.length) : k ∈ rows.map (·.sequenceNumber) := by
  induction rows generalizing seq with
  | nil =>
    rw [length_nil] at hlt
    omega
  | cons row rows ih =>
    rw [map_cons, hrows.1]
    rw [length_cons] at hlt
    by_cases heq : k = seq
    · rw [heq]
      exact mem_cons_self
    · exact mem_cons_of_mem _ (ih hrows.2 (by omega) (by push_cast at hlt; omega))

theorem numbered_of_linked {rows : List (AuditVerifyRow ν)}
    (hlinked : lib.Linked hmacKey organizationId seq h rows) : Numbered seq rows := by
  induction rows generalizing seq h with
  | nil => trivial
  | cons row rows ih =>
    obtain ⟨⟨time, hpasses⟩, htail⟩ := hlinked
    exact ⟨hpasses.sequence, ih htail⟩

variable {cloudBillingEnabled : Bool}

theorem length_rowsOf_prune_lt {orgs : List (String × Option Nat)}
    (hnot : ¬ Keeps db organizationId s (.prune cloudBillingEnabled orgs now)) :
    (rowsOf (pruneAuditEventsBeyondRetention cloudBillingEnabled orgs now s.table).1
      organizationId).Sublist (s.table.rowsOf organizationId) ∧
    (rowsOf (pruneAuditEventsBeyondRetention cloudBillingEnabled orgs now s.table).1
      organizationId).length < (s.table.rowsOf organizationId).length := by
  unfold Keeps at hnot
  push Not at hnot
  obtain ⟨rfl, org, horg, heq, cutoff, hcutoff, row, hrow, hold⟩ := hnot
  have hsub : (rowsOf (orgs.foldl (pruneOrg now) (s.table, 0)).1 organizationId).Sublist
      (s.table.rowsOf organizationId) :=
    ((foldl_pruneOrg_sublist orgs (s.table, 0)).filter _).map _
  refine ⟨hsub, lt_of_le_of_ne hsub.length_le fun hlength => ?_⟩
  -- If none were deleted, the old row would still be there.
  have hrow' := hsub.eq_of_length hlength ▸ hrow
  have hle := le_of_mem_foldl_pruneOrg horg heq hcutoff (s.table, 0) row hrow'
  omega

variable {rows : List (StoredRow ν)}

theorem mem_rows_of_flush {table : AuditTable ν} {batch : OrgBatch ν}
    (horg : batch.organizationId = organizationId) (hevents : batch.events ≠ [])
    (hnumbered : Numbered 1 (table.rowsOf organizationId))
    (hrows : (lib.chainEvents hmacKey batch.events
      ((table.selectLast batch.organizationId).getD (0, genesisHash)).1
      ((table.selectLast batch.organizationId).getD (0, genesisHash)).2).mapM db.insert =
        some rows) : ((table.rowsOf organizationId).length + 1 : Int) ∈
      (rowsOf rows organizationId).map (·.sequenceNumber) := by
  subst horg
  rw [selectLast_eq hnumbered] at hrows
  obtain ⟨-, hrowsNumbered, hrowsOrg⟩ := linked_stored batch.single hrows
  have hrowsOf : rowsOf ([] ++ rows) batch.organizationId = rows.map (·.columns) :=
    rowsOf_append_of_eq hrowsOrg
  rw [nil_append] at hrowsOf
  obtain ⟨event, events, hcons⟩ := exists_cons_of_ne_nil hevents
  rw [hcons] at hrows
  obtain ⟨row, rest, -, -, rfl⟩ := mapM_cons_eq_some hrows
  rw [hrowsOf]
  exact hrowsNumbered.mem_map le_rfl (by simp)

/-- The chain verifies and no number is used twice, as long as no row of the organization is
deleted; after the first call that deletes one, the chain is broken or the next batch uses a number
again. -/
theorem retention_keeps_chain {h : List (AuditCall ν × AuditReply)} {s : AuditLog ν}
    (hrun : Run (AuditLog.step lib db hmacKey) (fun _ => Keeps db organizationId) {} h s) :
    NoBreak (lib.verifyOrgChain hmacKey organizationId (s.table.selectRows organizationId)) ∧
    (s.numbersOf organizationId).Nodup ∧
    ∀ cloudBillingEnabled orgs now,
      ¬ Keeps db organizationId s (.prune cloudBillingEnabled orgs now) →
      let s₁ := (s.step lib db hmacKey (.prune cloudBillingEnabled orgs now)).1
      NoBreak (lib.verifyOrgChain hmacKey organizationId (s₁.table.selectRows organizationId)) →
      ∀ batch, batch.organizationId = organizationId → batch.events ≠ [] →
        (flushOrgBatch lib db hmacKey s₁.table batch).isSome →
        ¬ ((s₁.step lib db hmacKey (.flush batch)).1.numbersOf organizationId).Nodup := by
  have hkept : Kept lib db hmacKey organizationId s :=
    hrun.invariant (I := fun _ => Kept lib db hmacKey organizationId) kept_init
      fun _ _ _ hkept hkeeps => hkept.step hkeeps
  obtain ⟨events, hstable, hstored⟩ := hkept.stored
  refine ⟨?_, ?_, ?_⟩
  · rw [selectRows_eq hstored.numbered, Crates.noBreak_verifyOrgChain]
    exact hstored.linked.1 hstable
  · rw [hkept.numbers]
    exact pairwise_map.2 (hstored.numbered.pairwise.imp ne_of_lt)
  · intro cloudBillingEnabled orgs now hnot s₁ hverify batch horg hevents hsome hnodup
    obtain ⟨hsub, hlt⟩ := length_rowsOf_prune_lt hnot
    change (s₁.table.rowsOf organizationId).length < _ at hlt
    -- What is left is in order, so the check reads it as it is and finds it numbered from 1.
    have hsorted : s₁.table.selectRows organizationId = s₁.table.rowsOf organizationId :=
      ((hstored.numbered.pairwise.sublist hsub).imp le_of_lt).insertionSort_eq
    rw [hsorted, Crates.noBreak_verifyOrgChain] at hverify
    obtain ⟨table, hflush⟩ := Option.isSome_iff_exists.1 hsome
    obtain ⟨rows, rfl, hrows⟩ := flushOrgBatch_eq_some hflush
    have hused := mem_rows_of_flush horg hevents (numbered_of_linked hverify) hrows
    have hbefore : ((s₁.table.rowsOf organizationId).length + 1 : Int) ∈
        s₁.numbersOf organizationId := by
      change _ ∈ s.numbersOf organizationId
      rw [hkept.numbers]
      exact hstored.numbered.mem_map (by omega) (by omega)
    rw [(step_flush hflush).2] at hnodup
    exact (nodup_append.1 hnodup).2.2 _ hbefore _ hused rfl

/-! ### A plan that keeps events for a day -/

namespace Demo

/-- Two events of `org`, the second one a day after the first. -/
def twoDays : OrgBatch Nat where
  organizationId := "org"
  events := [event "registered" "system",
    { event "removed" "system" with time := ⟨86400 * 1000000000, by decide⟩ }]
  single e he := by
    rcases List.mem_pair.1 he with rfl | rfl <;> rfl

/-- Two days of events, and a run of the retention `hours` after the first event. -/
def oneDayPlan (hours : Int) : List (AuditCall Nat) :=
  [.flush twoDays, .prune true [("org", some 24)] (hours * 60 * 60 * 1000)]

def after (calls : List (AuditCall Nat)) : AuditLog Nat :=
  (exec (AuditLog.step crates postgres []) [] {} calls).2

/-- After 24 hours nothing is too old. -/
theorem retention_keeps_chain_in_time :
    NoBreak (crates.verifyOrgChain [] "org" ((after (oneDayPlan 24)).table.selectRows "org")) := by
  have hmeets : Meets (AuditLog.step crates postgres []) (fun _ => Keeps postgres "org") [] {}
      (oneDayPlan 24) := by
    refine ⟨fun _ e he => ?_, fun _ org horg _ cutoff hcutoff row hrow => ?_, trivial⟩
    · refine ⟨fun s hs => ?_, fun s hs => ?_, fun m hm => ?_⟩
      · rcases mem_pair.1 he with rfl | rfl <;> exact nomatch hs
      · rcases mem_pair.1 he with rfl | rfl <;> exact nomatch hs
      · rw [Option.some.inj hm]
    · obtain rfl := mem_singleton.1 horg
      have hcutoff : (0 : Int) = cutoff := Option.some.inj hcutoff
      have htimes : ((after [.flush twoDays]).table.rowsOf "org").map (·.timeMicros) =
          [0, 86400000000] := by decide
      have htime := mem_map_of_mem (f := (·.timeMicros)) hrow
      rw [← hcutoff]
      rcases mem_pair.1 (htimes ▸ htime) with htime | htime <;> rw [htime] <;> decide
  exact (retention_keeps_chain (run_exec hmeets)).1

/-- After 25 hours the first event goes, and the chain does not start with number 1 any more; a log
whose events all went starts with number 1 again. -/
theorem retention_breaks_chain :
    ¬ NoBreak (crates.verifyOrgChain [] "org" ((after (oneDayPlan 25)).table.selectRows "org")) ∧
      (after [.flush (batch network), .prune true [("org", some 24)] 90000000,
        .flush (batch network)]).numbersOf "org" = [1, 2, 1, 2] := by
  constructor
  · rw [Crates.noBreak_verifyOrgChain]
    intro hlinked
    have hnumbers :
        ((after (oneDayPlan 25)).table.selectRows "org").map (·.sequenceNumber) = [2] := by
      decide
    have hlength := congrArg length hnumbers
    rw [length_map] at hlength
    have hone := (numbered_of_linked hlinked).mem_map le_rfl (by rw [hlength]; decide)
    exact absurd hone (by decide)
  · decide

end Demo

end Tunnet.Audit

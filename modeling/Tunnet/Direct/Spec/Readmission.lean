import Tunnet.Direct.Demo

/-!
# Re-admitting a peer

`admit_peer` numbers the record of a peer 1 when the peer is new and 2 when it is not, however often
it was admitted before. All records of a peer after its first one therefore tie, and a rebuild
keeps the one it happens to meet first. So replicas agree, and on the last record, exactly when the
records that can be kept all say what the last one says (`readmission_converges_iff`).

The coordinator's author has only the last record of each peer, but every member republishes the
record it was given under an author of its own, so the records of all admissions can be in the
document together, in any order.
-/

namespace Tunnet.Direct

open Issuance List Replica

/-- A call of `admit_peer`: who is admitted, and when. -/
structure Admission where
  entry : MembershipEntry
  issuedAt : Timestamp

variable {β α : Type} {ps ps' : List (AuthorId × SignedMemberRecord)} {as : List Admission}
  {x : String} {i : Issuance} {epoch n : Nat} {now : Timestamp} {e : DocEntry β} {a : Admission}

/-- The records that a sequence of `admit_peer` calls issues. A call that fails changes nothing. -/
def admitAll (c : Signing) (j : Serde β) (cfg : DocsConfig) :
    List Admission → DocsMembership × Doc β → List SignedMemberRecord
  | [], _ => []
  | a :: rest, s =>
    match admitPeer c j cfg a.issuedAt a.entry s.1 s.2 with
    | .error _ => admitAll c j cfg rest s
    | .ok (s', _, _, record) => record :: admitAll c j cfg rest s'

/-- A document that holds records, each written by some author. -/
def recordDoc (j : Serde β) (ps : List (AuthorId × SignedMemberRecord)) : Doc β :=
  ps.map fun p => ⟨p.1, recordKey p.2.endpointId, j.record.toVec p.2⟩

/-- The admissions of `x` that issue a record, in order. -/
def issuedTo (x : String) (as : List Admission) : List Admission :=
  as.filter fun a => (grantExpiry a.issuedAt).isSome && a.entry.endpointId == x

/-- A replica with the given address plan accepts the record of the admission at time `now`. -/
structure Admission.Acceptable (plan : AddressPlan) (now : Timestamp) (a : Admission) : Prop where
  noSlash : '/' ∉ a.entry.endpointId.toList
  usable : isUsableHost plan.peerCidr a.entry.ipv4
  notKicked : a.entry.status ≠ "kicked"
  unexpired : ∀ t ∈ grantExpiry a.issuedAt, now < t

instance (plan : AddressPlan) (now : Timestamp) (a : Admission) :
    Decidable (a.Acceptable plan now) :=
  decidable_of_iff ('/' ∉ a.entry.endpointId.toList ∧
      isUsableHost plan.peerCidr a.entry.ipv4 ∧ a.entry.status ≠ "kicked" ∧
      ∀ t ∈ grantExpiry a.issuedAt, now < t)
    ⟨fun ⟨h₁, h₂, h₃, h₄⟩ => ⟨h₁, h₂, h₃, h₄⟩, fun ⟨h₁, h₂, h₃, h₄⟩ => ⟨h₁, h₂, h₃, h₄⟩⟩

/-- Of the admissions of one peer, those whose record can be the one that is kept: the acceptable
re-admissions or, when there are none, the first admission. -/
def contenders (plan : AddressPlan) (now : Timestamp) (as : List Admission) : List Admission :=
  let later := as.tail.filter (·.Acceptable plan now)
  if later.isEmpty then as.head?.toList.filter (·.Acceptable plan now) else later

theorem mem_contenders_iff
    {plan : AddressPlan} : a ∈ contenders plan now as ↔ a.Acceptable plan now ∧
      (a ∈ as.tail ∨ a ∈ as.head? ∧ ∀ b ∈ as.tail, ¬ b.Acceptable plan now) := by
  unfold contenders
  dsimp only
  split_ifs with hlater
  · simp only [List.isEmpty_iff, filter_eq_nil_iff, decide_eq_true_eq] at hlater
    rw [mem_filter, Option.mem_toList, decide_eq_true_eq]
    constructor
    · rintro ⟨ha, hacc⟩
      exact ⟨hacc, .inr ⟨ha, hlater⟩⟩
    · rintro ⟨hacc, ha | ⟨ha, -⟩⟩
      · exact absurd hacc (hlater a ha)
      · exact ⟨ha, hacc⟩
  · simp only [List.isEmpty_iff, filter_eq_nil_iff, decide_eq_true_eq] at hlater
    rw [mem_filter, decide_eq_true_eq]
    constructor
    · rintro ⟨ha, hacc⟩
      exact ⟨hacc, .inl ha⟩
    · rintro ⟨hacc, ha | ⟨-, hnone⟩⟩
      · exact ⟨ha, hacc⟩
      · exact absurd hnone hlater

/-! ### The records of a run -/

/-- The record of an admission with the given sequence. -/
def Admission.issuance (epoch sequence : Nat) (a : Admission) : Issuance :=
  ⟨epoch, a.issuedAt, (grantExpiry a.issuedAt).getD a.issuedAt, a.entry, sequence⟩

/-- The admissions of one peer with the sequences of their records. -/
def numbered : List Admission → List (Nat × Admission)
  | [] => []
  | a :: rest => (1, a) :: rest.map (Prod.mk 2)

theorem mem_numbered_iff : (n, a) ∈ numbered as ↔ n = 1 ∧ a ∈ as.head? ∨ n = 2 ∧ a ∈ as.tail := by
  cases as <;> simp [numbered, eq_comm, and_comm]

theorem mem_of_mem_numbered {p : Nat × Admission} (hp : p ∈ numbered as) : p.2 ∈ as := by
  rcases mem_numbered_iff.1 hp with ⟨-, ha⟩ | ⟨-, ha⟩
  · exact mem_of_mem_head? ha
  · exact mem_of_mem_tail ha

/-- The records of the admissions when the peers in `seen` were admitted before. -/
def issuances (epoch : Nat) : Finset String → List Admission → List Issuance
  | _, [] => []
  | seen, a :: rest =>
    if (grantExpiry a.issuedAt).isSome then
      a.issuance epoch (if a.entry.endpointId ∈ seen then 2 else 1) ::
        issuances epoch (insert a.entry.endpointId seen) rest
    else issuances epoch seen rest

section Run

variable {c : Signing} {C : Coordinator c} {j : Serde β}

theorem admitAll_eq (as : List Admission) (seen : Finset String) (m : DocsMembership) (doc : Doc β)
    (hseen : ∀ x, (m.members.lookup x).isSome ↔ x ∈ seen) : admitAll c j C.cfg as (m, doc) =
      (issuances m.networkEpoch seen as).map (record C) := by
  induction as generalizing seen m doc with
  | nil => rfl
  | cons a rest ih =>
    have hseen' : ∀ x, ((m.members.insert a.entry.endpointId a.entry).lookup x).isSome ↔
        x ∈ insert a.entry.endpointId seen := by
      intro x
      rw [Map.lookup_insert_eq, Finset.mem_insert, ← hseen]
      split_ifs with hx <;> simp [hx]
    have hseq : Coordinator.nextSequence m a.entry.endpointId =
        if a.entry.endpointId ∈ seen then 2 else 1 := by
      simp [Coordinator.nextSequence, hseen]
    rw [admitAll, issuances, C.admitPeer_eq]
    cases hexp : grantExpiry a.issuedAt with
    | none => exact ih seen m doc hseen
    | some =>
      dsimp only
      rw [ih (insert a.entry.endpointId seen) _ _ hseen', hseq, Admission.issuance, hexp]
      rfl

theorem filter_issuances (x : String) (as : List Admission) (epoch : Nat) (seen : Finset String) :
    (issuances epoch seen as).filter (·.entry.endpointId = x) =
      if x ∈ seen then (issuedTo x as).map (·.issuance epoch 2)
      else (numbered (issuedTo x as)).map fun p => p.2.issuance epoch p.1 := by
  induction as generalizing seen with
  | nil => simp [issuances, issuedTo, numbered]
  | cons a rest ih =>
    rw [issuances, issuedTo, filter_cons]
    cases (grantExpiry a.issuedAt).isSome with
    | false => exact ih seen
    | true =>
      rw [if_pos rfl, filter_cons]
      by_cases hx : a.entry.endpointId = x
      · have hmem : x ∈ insert a.entry.endpointId seen := hx ▸ Finset.mem_insert_self _ _
        rw [ih, if_pos hmem]
        simp only [Admission.issuance, hx, decide_true, if_true, Bool.true_and, beq_self_eq_true]
        split_ifs
        · rfl
        · rw [numbered, map_cons, map_map]
          rfl
      · have hmem : x ∈ insert a.entry.endpointId seen ↔ x ∈ seen := by
          rw [Finset.mem_insert, or_iff_right (Ne.symm hx)]
        rw [ih]
        simp only [Admission.issuance, hx, hmem, beq_eq_false_iff_ne.2 hx]
        rfl

theorem mem_issuances_iff : i ∈ issuances epoch ∅ as ∧ i.entry.endpointId = x ↔
    ∃ p ∈ numbered (issuedTo x as), p.2.issuance epoch p.1 = i := by
  have hmem : i ∈ (issuances epoch ∅ as).filter (·.entry.endpointId = x) ↔
      i ∈ issuances epoch ∅ as ∧ i.entry.endpointId = x := by
    rw [mem_filter, decide_eq_true_eq]
  rw [← hmem, filter_issuances, if_neg (Finset.notMem_empty x), mem_map]

theorem valid_issuance_iff {plan : AddressPlan} (ha : a ∈ issuedTo x as) (epoch sequence : Nat) :
    (a.issuance epoch sequence).Valid plan now 0 ↔ a.Acceptable plan now := by
  have hsome : (grantExpiry a.issuedAt).isSome := by
    rw [issuedTo, mem_filter, Bool.and_eq_true] at ha
    exact ha.2.1
  obtain ⟨t, ht⟩ := Option.isSome_iff_exists.1 hsome
  have hexp : (a.issuance epoch sequence).expiresAt = t := by rw [Admission.issuance, ht]; rfl
  constructor
  · intro h
    refine ⟨h.noSlash, h.usable, h.notKicked, fun t' ht' => ?_⟩
    rw [ht] at ht'
    cases ht'
    exact hexp ▸ h.unexpired
  · intro h
    exact ⟨h.noSlash, h.usable, h.notKicked, hexp ▸ h.unexpired t ht, Nat.zero_le _⟩

/-! ### Documents of these records -/

section Document

variable {R : Replica c}

/-- What a replica takes from a document that holds just this record. -/
def Replica.takes (R : Replica c) (j : Serde β) (now : Timestamp) (r : SignedMemberRecord) :
    Option (String × Nat × MembershipEntry) :=
  acceptRecord c j (allBlobs now) R.vk R.genesis 0 ∅ ⟨0, recordKey r.endpointId, j.record.toVec r⟩

theorem key_of_mem_recordDoc (he : e ∈ recordDoc j ps) : ∃ x, e.key = recordKey x := by
  obtain ⟨p, -, rfl⟩ := mem_map.1 he
  exact ⟨p.2.endpointId, rfl⟩

theorem any_badRevocation_recordDoc (j : Serde β) (view : View β)
    (ps : List (AuthorId × SignedMemberRecord)) :
    (recordDoc j ps).any (badRevocation j view) = false := by
  rw [any_eq_false]
  intro e he hbad
  obtain ⟨x, hx⟩ := key_of_mem_recordDoc he
  obtain ⟨⟨y, hkey⟩, -⟩ := badRevocation_eq_true_iff.1 hbad
  exact recordKey_ne_revocationKey x y (hx.symm.trans hkey)

theorem readAt_recordDoc {view : View β} {f : β → Option α} (field : String)
    (he : e ∈ recordDoc j ps) : readAt view (metaKey field) f e = none := by
  obtain ⟨x, hx⟩ := key_of_mem_recordDoc he
  refine if_neg fun hand => metaKey_ne_recordKey_append field x "" ?_
  rw [← hand.1, hx, String.append_empty]

theorem membersIn_recordDoc (ps : List (AuthorId × SignedMemberRecord)) :
    R.membersIn j (allBlobs now) (recordDoc j ps) =
      (latest Prod.fst ((ps.map Prod.snd).filterMap (R.takes j now))).mapVal
        fun _ kept => kept.2 := by
  have hgenesis : R.genesisIn j (allBlobs now) (recordDoc j ps) = R.genesis := by
    have hnil : (recordDoc j ps).filterMap
        (genesisOf c j R.cfg (allBlobs now) R.vk R.state.genesis) = [] :=
      filterMap_eq_nil_iff.2 fun e he => readAt_recordDoc "genesis" he
    rw [genesisIn, hnil]
    rfl
  have hepoch : R.epochIn j (allBlobs now) (recordDoc j ps) = 0 := by
    refine Nat.le_zero.1 (minEpochOf_le_iff.2 fun e he k hk => ?_)
    have hnone : epochOf c j (allBlobs now) R.vk e = none := readAt_recordDoc "epoch" he
    rw [hnone] at hk
    cases hk
  have hrev : R.revokedIn j (allBlobs now) (recordDoc j ps) = ∅ := by
    refine Finset.eq_empty_of_forall_notMem fun x hx => ?_
    obtain ⟨e, he, hx⟩ := mem_revokedIn.1 hx
    obtain ⟨y, hy⟩ := key_of_mem_recordDoc he
    exact recordKey_ne_revocationKey y x (hy.symm.trans (revokedBy_eq_some_iff.1 hx).1)
  have hmetadata : ∀ e ∈ recordDoc j ps, ∀ x, peerField e.key ≠ some (x, "metadata") := by
    intro e he x
    obtain ⟨y, hy⟩ := key_of_mem_recordDoc he
    rw [hy]
    exact Coordinator.peerField_recordKey_ne_metadata y x
  rw [membersIn_of_no_metadata hmetadata, hgenesis, hepoch, hrev, recordDoc, filterMap_map,
    filterMap_map]
  rfl

theorem takes_record_iff (hvk : R.vk = C.vk) (hnet : R.cfg.networkId = C.cfg.networkId)
    {a : String × Nat × MembershipEntry} : R.takes j now (i.record C) = some a ↔
      i.Valid R.genesis.addressPlan now 0 ∧ i.arrival = a := by
  have hgenesis : R.genesis.networkId = C.cfg.networkId := R.networkId_eq.trans hnet
  have haccept : acceptRecord c j (allBlobs now) C.vk R.genesis 0 ∅ (docEntry C j (0, i)) =
      some a ↔ _ := acceptRecord_docEntry_iff hgenesis
  unfold takes
  rw [hvk]
  refine haccept.trans ⟨fun ⟨hv, _, _, ha⟩ => ⟨hv, ha⟩, fun ⟨hv, ha⟩ => ?_⟩
  exact ⟨hv, rfl, Finset.notMem_empty _, ha⟩

theorem mem_takes_iff (hvk : R.vk = C.vk) (hnet : R.cfg.networkId = C.cfg.networkId)
    {e : MembershipEntry} :
    (x, n, e) ∈ ((issuances epoch ∅ as).map (record C)).filterMap (R.takes j now) ↔
      ∃ a, (n, a) ∈ numbered (issuedTo x as) ∧ a.Acceptable R.genesis.addressPlan now ∧
        a.entry.active = e := by
  have hmem : (x, n, e) ∈ ((issuances epoch ∅ as).map (record C)).filterMap
      (R.takes j now) ↔ ∃ i, (i ∈ issuances epoch ∅ as ∧ i.entry.endpointId = x) ∧
        i.Valid R.genesis.addressPlan now 0 ∧ i.sequence = n ∧ i.entry.active = e := by
    rw [filterMap_map, mem_filterMap]
    refine exists_congr fun i => ?_
    rw [Function.comp_apply, takes_record_iff hvk hnet, Prod.mk.injEq, Prod.mk.injEq]
    tauto
  rw [hmem]
  constructor
  · rintro ⟨i, hi, hv, rfl, he⟩
    obtain ⟨p, hp, rfl⟩ := mem_issuances_iff.1 hi
    exact ⟨p.2, hp, (valid_issuance_iff (mem_of_mem_numbered hp) _ _).1 hv, he⟩
  · rintro ⟨a, ha, hacc, he⟩
    exact ⟨a.issuance epoch n, mem_issuances_iff.2 ⟨(n, a), ha, rfl⟩,
      (valid_issuance_iff (mem_of_mem_numbered ha) _ _).2 hacc, rfl, he⟩

theorem forall_maximal_iff (hvk : R.vk = C.vk) (hnet : R.cfg.networkId = C.cfg.networkId)
    {items : List (String × Nat × MembershipEntry)}
    (hitems : items = ((issuances epoch ∅ as).map (record C)).filterMap (R.takes j now))
    {P : MembershipEntry → Prop} :
    (∀ v, (x, v) ∈ items → (∀ w, (x, w) ∈ items → w.1 ≤ v.1) → P v.2) ↔
      ∀ a ∈ contenders R.genesis.addressPlan now (issuedTo x as), P a.entry.active := by
  have hmem (n) (e) : (x, n, e) ∈ items ↔ _ := hitems ▸ mem_takes_iff hvk hnet
  constructor
  · intro h a ha
    obtain ⟨hacc, htail | ⟨hhead, hnone⟩⟩ := mem_contenders_iff.1 ha
    · have ha := (hmem 2 _).2 ⟨a, mem_numbered_iff.2 (.inr ⟨rfl, htail⟩), hacc, rfl⟩
      refine h (2, _) ha fun w hw => ?_
      obtain ⟨b, hb, -⟩ := (hmem _ _).1 hw
      rcases mem_numbered_iff.1 hb with ⟨hn, -⟩ | ⟨hn, -⟩ <;> omega
    · have ha := (hmem 1 _).2 ⟨a, mem_numbered_iff.2 (.inl ⟨rfl, hhead⟩), hacc, rfl⟩
      refine h (1, _) ha fun w hw => ?_
      obtain ⟨b, hb, hb', -⟩ := (hmem _ _).1 hw
      rcases mem_numbered_iff.1 hb with ⟨hn, -⟩ | ⟨-, hb⟩
      · omega
      · exact absurd hb' (hnone b hb)
  · rintro h ⟨n, e⟩ hv hmax
    obtain ⟨a, ha, hacc, rfl⟩ := (hmem _ _).1 hv
    refine h a (mem_contenders_iff.2 ⟨hacc, ?_⟩)
    rcases mem_numbered_iff.1 ha with ⟨rfl, hhead⟩ | ⟨rfl, htail⟩
    · refine .inr ⟨hhead, fun b hb hb' => ?_⟩
      -- an acceptable re-admission would have the higher sequence
      have hle := hmax (2, _) ((hmem _ _).2 ⟨b, mem_numbered_iff.2 (.inr ⟨rfl, hb⟩), hb', rfl⟩)
      omega
    · exact .inl htail

theorem lookup_membersIn_eq_none_iff (R : Replica c) (j : Serde β) (now : Timestamp)
    (hperm : (ps.map Prod.snd).Perm (ps'.map Prod.snd)) (x : String) :
    (R.membersIn j (allBlobs now) (recordDoc j ps)).lookup x = none ↔
      (R.membersIn j (allBlobs now) (recordDoc j ps')).lookup x = none := by
  rw [membersIn_recordDoc, membersIn_recordDoc, Map.lookup_mapVal, Map.lookup_mapVal,
    Option.map_eq_none_iff, Option.map_eq_none_iff, lookup_latest_eq_none_iff,
    lookup_latest_eq_none_iff]
  exact forall_congr' fun v => not_congr (hperm.filterMap _).mem_iff

theorem forall_kept_iff (j : Serde β) (now : Timestamp) (hvk : R.vk = C.vk)
    (hnet : R.cfg.networkId = C.cfg.networkId) (as : List Admission) (epoch : Nat)
    {P : String → MembershipEntry → Prop} : (∀ ps,
      (ps.map Prod.snd).Perm ((issuances epoch ∅ as).map (record C)) → ∀ x e,
        (R.membersIn j (allBlobs now) (recordDoc j ps)).lookup x = some e → P x e) ↔
      ∀ x, ∀ a ∈ contenders R.genesis.addressPlan now (issuedTo x as), P x a.entry.active := by
  have hlatest := forall_perm_latest_iff (R.takes j now) Prod.fst
    ((issuances epoch ∅ as).map (record C)) (P := fun x v => P x v.2)
  refine trans ?_ (hlatest.trans (forall_congr' fun x => forall_maximal_iff hvk hnet rfl))
  constructor
  · intro h records hrecords x v hv
    -- write all records as one author
    refine h (records.map fun r => (0, r)) ?_ x v.2 ?_
    · rw [map_map]
      exact (map_id records).symm ▸ hrecords
    · rw [membersIn_recordDoc, Map.lookup_mapVal, map_map]
      exact Option.map_eq_some_iff.2 ⟨v, (map_id records).symm ▸ hv, rfl⟩
  · intro h ps hps x e he
    rw [membersIn_recordDoc, Map.lookup_mapVal, Option.map_eq_some_iff] at he
    obtain ⟨v, hv, rfl⟩ := he
    exact h _ hps x v hv

end Document

/-- When re-admission converges. Let a coordinator without members make any sequence of
admissions, and take the documents that hold the issued records under any authors and in any order.

* They all give the same members, and give each peer that is a member what its last admission asked
  for, exactly when all contenders of a peer ask for the same as its last admission.
* A rebuild then either succeeds with these members or reports a duplicate address among them. -/
theorem readmission_converges_iff (C : Coordinator c) (j : Serde β) (R : Replica c)
    (hvk : R.vk = C.vk) (hnet : R.cfg.networkId = C.cfg.networkId) {m : DocsMembership}
    (hm : m.members = ∅) (doc : Doc β) (as : List Admission) (now : Timestamp) :
    ((∀ ps ps' : List (AuthorId × SignedMemberRecord),
          (ps.map Prod.snd).Perm (admitAll c j C.cfg as (m, doc)) →
          (ps'.map Prod.snd).Perm (admitAll c j C.cfg as (m, doc)) →
          R.membersIn j (allBlobs now) (recordDoc j ps) =
            R.membersIn j (allBlobs now) (recordDoc j ps')) ∧
        (∀ ps : List (AuthorId × SignedMemberRecord),
          (ps.map Prod.snd).Perm (admitAll c j C.cfg as (m, doc)) → ∀ x e,
          (R.membersIn j (allBlobs now) (recordDoc j ps)).lookup x = some e →
            (issuedTo x as).getLast?.map (·.entry.active) = some e) ↔
      ∀ x, ∀ a ∈ contenders R.genesis.addressPlan now (issuedTo x as),
        (issuedTo x as).getLast?.map (·.entry.active) = some a.entry.active) ∧
    ∀ ps : List (AuthorId × SignedMemberRecord),
      ((R.rebuild j (allBlobs now) (recordDoc j ps)).2 = .ok () ∧
        (R.rebuild j (allBlobs now) (recordDoc j ps)).1.members =
          R.membersIn j (allBlobs now) (recordDoc j ps)) ∨
      ((R.rebuild j (allBlobs now) (recordDoc j ps)).2 = .error .duplicateAddress ∧
        ¬ (R.membersIn j (allBlobs now) (recordDoc j ps)).DistinctVals (·.ipv4)) := by
  rw [admitAll_eq as ∅ m doc (by simp [hm])]
  have hkept := forall_kept_iff j now hvk hnet as m.networkEpoch
    (P := fun x e => (issuedTo x as).getLast?.map (·.entry.active) = some e)
  refine ⟨⟨fun h => hkept.1 h.2, fun h => ⟨?_, hkept.2 h⟩⟩, ?_⟩
  · intro ps ps' hps hps'
    refine Finmap.ext_lookup fun x => ?_
    have hnone := lookup_membersIn_eq_none_iff R j now (hps.trans hps'.symm) x
    cases hlookup : (R.membersIn j (allBlobs now) (recordDoc j ps)).lookup x with
    | none => exact (hnone.1 hlookup).symm
    | some e =>
      cases hlookup' : (R.membersIn j (allBlobs now) (recordDoc j ps')).lookup x with
      | none =>
        rw [hnone.2 hlookup'] at hlookup
        cases hlookup
      | some e' =>
        exact (hkept.2 h ps hps x e hlookup).symm.trans (hkept.2 h ps' hps' x e' hlookup')
  · intro ps
    have hbad := any_badRevocation_recordDoc j (allBlobs now) ps
    rw [rebuild_eq, if_neg (by simp [hbad])]
    split_ifs with hd
    · exact .inl ⟨rfl, rfl⟩
    · exact .inr ⟨rfl, hd⟩

end Run

namespace Demo

/-- An admission of `aa` at time 0 under some host name. -/
def admitAs (hostname : String) : Admission := ⟨entry "aa" hostname (Ipv4Addr.new 10 7 0 2), 0⟩

/-- `aa` joins and is re-admitted twice under new names. -/
def renames : List Admission := [admitAs "one", admitAs "two", admitAs "three"]

/-- The records of `renames` in the order in which they were issued, each by another author. -/
def renameRecords : List (AuthorId × SignedMemberRecord) :=
  ((issuances 0 ∅ renames).map (·.record coordinator)).zipIdx.map Prod.swap

theorem membersIn_renameRecords :
    replica.membersIn serde (allBlobs 0) (recordDoc serde renameRecords) =
      Finmap.singleton "aa" (entry "aa" "two" (Ipv4Addr.new 10 7 0 2)) := by
  have hvalid : ∀ i ∈ issuances 0 ∅ renames, i.Valid plan 0 0 := by decide
  have htakes : (renameRecords.map Prod.snd).filterMap (replica.takes serde 0) =
      (issuances 0 ∅ renames).filterMap fun i => some i.arrival := by
    have hrecords : renameRecords.map Prod.snd =
        (issuances 0 ∅ renames).map (·.record coordinator) := rfl
    rw [hrecords, filterMap_map]
    exact filterMap_congr fun i hi => (takes_record_iff rfl rfl).2 ⟨hvalid i hi, rfl⟩
  rw [membersIn_recordDoc, htakes]
  decide

/-- After two re-admissions a replica that enumerates the records in the order of issue keeps the
middle one. -/
theorem renames_diverge : (renameRecords.map Prod.snd).Perm
      (admitAll signing serde coordinator.cfg renames (fresh, [])) ∧
    (replica.rebuild serde (allBlobs 0) (recordDoc serde renameRecords)).2 = .ok () ∧
    (replica.rebuild serde (allBlobs 0) (recordDoc serde renameRecords)).1.members.lookup "aa" =
      some (entry "aa" "two" (Ipv4Addr.new 10 7 0 2)) ∧
    (issuedTo "aa" renames).getLast?.map (·.entry.active) =
      some (entry "aa" "three" (Ipv4Addr.new 10 7 0 2)) := by
  have hok : (replica.rebuild serde (allBlobs 0) (recordDoc serde renameRecords)).2 = .ok () := by
    rw [rebuild_ok_iff, membersIn_renameRecords]
    exact ⟨any_badRevocation_recordDoc .., by decide⟩
  refine ⟨?_, hok, ?_, by decide⟩
  · rfl
  · rw [rebuild_members_of_ok hok, membersIn_renameRecords]
    decide

theorem readmission_converges_iff_renames : (∀ ps ps' : List (AuthorId × SignedMemberRecord),
        (ps.map Prod.snd).Perm (admitAll signing serde coordinator.cfg renames (fresh, [])) →
        (ps'.map Prod.snd).Perm (admitAll signing serde coordinator.cfg renames (fresh, [])) →
        replica.membersIn serde (allBlobs 0) (recordDoc serde ps) =
          replica.membersIn serde (allBlobs 0) (recordDoc serde ps')) ∧
      (∀ ps : List (AuthorId × SignedMemberRecord),
        (ps.map Prod.snd).Perm (admitAll signing serde coordinator.cfg renames (fresh, [])) →
        ∀ x e, (replica.membersIn serde (allBlobs 0) (recordDoc serde ps)).lookup x = some e →
          (issuedTo x renames).getLast?.map (·.entry.active) = some e) ↔
    ∀ x, ∀ a ∈ contenders plan 0 (issuedTo x renames),
      (issuedTo x renames).getLast?.map (·.entry.active) = some a.entry.active :=
  (readmission_converges_iff coordinator serde replica rfl rfl (rfl : fresh.members = ∅) [] renames
    0).1

end Demo

end Tunnet.Direct

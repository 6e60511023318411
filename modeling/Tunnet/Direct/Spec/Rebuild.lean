import Tunnet.Direct.Membership

/-!
# What a rebuild reads from a document

`rebuildFromDoc` goes through the document several times. Each pass looks at an entry on its own,
so the outcome depends on the document only through what each entry contributes to each pass:
`genesisOf`, `epochOf`, `revokedBy`, `badRevocation`, `acceptRecord` and `acceptMetadata`.
`Replica.rebuild_eq` writes the rebuild of a replica in these terms.
-/

namespace Tunnet.Direct

open List Option Str

variable {β α γ δ : Type} {vk : List UInt8} {x field key : String} {revoked : Finset String}
  {e : DocEntry β} {genesis g : Genesis} {map : Map String MembershipEntry} {minEpoch n a b : Nat}
  {doc : Doc β}

/-- Every blob can be read. -/
def allBlobs (now : Timestamp) : View β := ⟨fun _ => true, now⟩

/-! ### Keys

The three directories of a document do not overlap. -/

theorem epochKey_eq : epochKey = metaKey "epoch" := by decide

theorem metaKey_ne_revocationKey (field x : String) : metaKey field ≠ revocationKey x :=
  append_ne_append (by decide) (by decide) _ _

theorem metaKey_ne_recordKey_append (field x t : String) : metaKey field ≠ recordKey x ++ t := by
  rw [recordKey, String.append_assoc, String.append_assoc]
  exact append_ne_append (by decide) (by decide) _ _

theorem recordKey_ne_revocationKey (x y : String) : recordKey x ≠ revocationKey y := by
  rw [recordKey, String.append_assoc]
  exact append_ne_append (by decide) (by decide) _ _

theorem peerField_metaKey (field : String) : peerField (metaKey field) = none := by
  have hstrip : stripPrefix "peers/" (metaKey field) = none :=
    stripPrefix_eq_none_iff.2 fun _ => append_ne_append (by decide) (by decide) _ _
  rw [peerField, hstrip]
  rfl

theorem peerField_revocationKey (x : String) : peerField (revocationKey x) = none := by
  have hstrip : stripPrefix "peers/" (revocationKey x) = none :=
    stripPrefix_eq_none_iff.2 fun _ => append_ne_append (by decide) (by decide) _ _
  rw [peerField, hstrip]
  rfl

/-! ### What one entry contributes -/

section Entries

variable (c : Signing) (j : Serde β) (cfg : DocsConfig) (view : View β)

/-- What `f` finds in the blob of an entry with the given key. -/
def readAt {α : Type} (key : String) (f : β → Option α) (e : DocEntry β) : Option α :=
  if e.key = key ∧ view.readable e.content then f e.content else none

def genesisOf (vk : List UInt8) (localGenesis : Option Genesis) : DocEntry β → Option Genesis :=
  readAt view genesisKey (acceptGenesis c j cfg vk localGenesis)

def epochOf (vk : List UInt8) : DocEntry β → Option Nat :=
  readAt view epochKey (acceptEpoch c j vk)

/-- The endpoint under whose key an entry files a signed revocation. -/
def revokedBy (vk : List UInt8) (e : DocEntry β) : Option String :=
  (Str.stripPrefix "revocations/" e.key).bind fun endpointId =>
    if view.readable e.content ∧
        (j.revocation.fromSlice e.content).any (fun r => (c.verifyRevocation vk r).isOk) then
      some endpointId
    else none

/-- A readable entry among the revocations that is not the JSON of a revocation. -/
def badRevocation (e : DocEntry β) : Bool :=
  (Str.stripPrefix "revocations/" e.key).isSome && view.readable e.content &&
    (j.revocation.fromSlice e.content).isNone

variable {c j cfg view}

theorem readAt_eq_some_iff {f : β → Option α} {a : α} : readAt view key f e = some a ↔
      e.key = key ∧ view.readable e.content ∧ f e.content = some a := by
  unfold readAt
  split_ifs with h
  · simp [h]
  · rw [false_iff]
    exact fun h' => h ⟨h'.1, h'.2.1⟩

theorem acceptEpoch_eq_some_iff {b : β} :
    acceptEpoch c j vk b = some n ↔ ∃ epoch, j.epoch.fromSlice b = some epoch ∧
      (c.verifyEpoch vk epoch).isOk ∧ epoch.networkEpoch = n := by
  unfold acceptEpoch
  cases j.epoch.fromSlice b with
  | none | some => simp

theorem acceptGenesis_eq_some_iff {localGenesis : Option Genesis} {b : β} :
    acceptGenesis c j cfg vk localGenesis b = some g ↔
      j.genesis.fromSlice b = some g ∧ (c.verifyGenesis vk g).isOk ∧
        g.networkId = cfg.networkId ∧
        localGenesis.all (·.addressPlan == g.addressPlan) := by
  unfold acceptGenesis
  cases j.genesis.fromSlice b with
  | none => simp
  | some =>
    simp only [Bool.and_eq_true, beq_iff_eq, some.injEq, and_assoc, ite_none_right_eq_some]
    constructor
    · rintro ⟨h₁, h₂, h₃, rfl⟩
      exact ⟨rfl, h₁, h₂, h₃⟩
    · rintro ⟨rfl, h₁, h₂, h₃⟩
      exact ⟨h₁, h₂, h₃, rfl⟩

theorem revokedBy_eq_some_iff : revokedBy c j view vk e = some x ↔ e.key = revocationKey x ∧
      view.readable e.content ∧ ∃ r, j.revocation.fromSlice e.content = some r ∧
        (c.verifyRevocation vk r).isOk := by
  unfold revokedBy
  rw [bind_eq_some_iff]
  simp only [stripPrefix_eq_some_iff, ite_none_right_eq_some, some.injEq, Option.any_eq_true]
  constructor
  · rintro ⟨_, hkey, ⟨hread, r, hr, hv⟩, rfl⟩
    exact ⟨hkey, hread, r, hr, hv⟩
  · rintro ⟨hkey, hread, r, hr, hv⟩
    exact ⟨x, hkey, ⟨hread, r, hr, hv⟩, rfl⟩

theorem badRevocation_eq_true_iff : badRevocation j view e ↔
    (∃ x, e.key = revocationKey x) ∧ view.readable e.content ∧
      j.revocation.fromSlice e.content = none := by
  simp only [badRevocation, Bool.and_eq_true, isSome_iff_exists, isNone_iff_eq_none,
    stripPrefix_eq_some_iff, and_assoc]
  rfl

theorem peerField_eq_some_iff :
    peerField key = some (x, field) ↔ '/' ∉ x.toList ∧ key = "peers/" ++ x ++ "/" ++ field := by
  unfold peerField
  rw [bind_eq_some_iff]
  simp only [stripPrefix_eq_some_iff, splitOnce_eq_some_iff]
  constructor
  · rintro ⟨_, rfl, hx, rfl⟩
    exact ⟨hx, by simp [String.append_assoc]⟩
  · rintro ⟨hx, rfl⟩
    exact ⟨x ++ ("/" ++ field), by simp [String.append_assoc], hx, by simp [String.append_assoc]⟩

theorem epochOf_revokedBy_of_peerField (c : Signing) (j : Serde β) (view : View β)
    (vk : List UInt8) (h : peerField e.key = some (x, field)) :
    epochOf c j view vk e = none ∧ revokedBy c j view vk e = none := by
  constructor
  · refine if_neg fun hand => ?_
    rw [hand.1] at h
    cases h
  · by_contra hne
    obtain ⟨y, hy⟩ := ne_none_iff_exists'.1 hne
    rw [(revokedBy_eq_some_iff.1 hy).1, peerField_revocationKey] at h
    cases h

/-- What the member loop accepts, all checks at once. -/
theorem acceptRecord_eq_some_iff {entry : MembershipEntry} :
    acceptRecord c j view vk genesis minEpoch revoked e = some (x, n, entry) ↔
      peerField e.key = some (x, "record") ∧ x ∉ revoked ∧ view.readable e.content ∧
      ∃ r, j.record.fromSlice e.content = some r ∧
        (c.verifyMemberRecord vk r minEpoch view.now).isOk ∧
        (validateMemberAgainstGenesis genesis r).isOk ∧
        r.status ≠ "kicked" ∧ r.endpointId ∉ revoked ∧ r.sequence = n ∧ r.toEntry = entry := by
  unfold acceptRecord
  cases hk : peerField e.key with
  | none => simp
  | some xf =>
    obtain ⟨x', field⟩ := xf
    by_cases hf : field = "record"
    swap
    · simp [hf]
    by_cases hx : x' ∈ revoked
    · grind
    cases hr : view.readable e.content
    · simp [hx]
    cases hj : j.record.fromSlice e.content with
    | none => simp [hx]
    | some => grind

theorem acceptMetadata_eq_some {md : SignedMemberMetadata}
    (h : acceptMetadata c j cfg view revoked map e = some (x, md)) :
    peerField e.key = some (x, "metadata") ∧ view.readable e.content ∧
      j.metadata.fromSlice e.content = some md ∧ md.endpointId = x ∧
      (c.verifyMemberMetadata md).isOk := by
  unfold acceptMetadata at h
  cases hk : peerField e.key with
  | none => simp [hk] at h
  | some =>
    simp only [hk] at h
    split_ifs at h
    cases hj : j.metadata.fromSlice e.content with
    | none => simp [hj] at h
    | some =>
      simp only [hj] at h
      split_ifs at h
      grind

end Entries

/-! ### The passes -/

section Passes

variable {c : Signing} {j : Serde β} {cfg : DocsConfig} {view : View β}

theorem filterMap_getAllKeyBytes (f : β → Option α) (doc : Doc β) (key : String) :
    (getAllKeyBytes view doc key).filterMap f = doc.filterMap (readAt view key f) := by
  unfold getAllKeyBytes
  induction doc with
  | nil => rfl
  | cons e doc ih =>
    by_cases hk : e.key = key <;> cases hr : view.readable e.content <;>
      simp [filterMap_cons, readAt, hk, hr] at ih ⊢ <;> rw [ih]

theorem findSome?_acceptGenesis (vk : List UInt8) (g : Option Genesis) (doc : Doc β) :
    (getAllKeyBytes view doc genesisKey).findSome? (acceptGenesis c j cfg vk g) =
      (doc.filterMap (genesisOf c j cfg view vk g)).head? := by
  rw [← head?_filterMap, filterMap_getAllKeyBytes]
  rfl

theorem minEpochOf_eq (vk : List UInt8) (doc : Doc β) :
    minEpochOf c j view vk doc = (doc.filterMap (epochOf c j view vk)).foldl max 0 := by
  unfold minEpochOf
  rw [epochOf, ← filterMap_getAllKeyBytes, foldl_filterMap]
  congr 1
  funext n b
  cases acceptEpoch c j vk b <;> rfl

theorem foldl_max_le_iff {l : List Nat} : l.foldl max a ≤ b ↔ a ≤ b ∧ ∀ x ∈ l, x ≤ b := by
  induction l generalizing a with
  | nil => simp
  | cons x l ih => rw [foldl_cons, ih, max_le_iff, forall_mem_cons, and_assoc]

theorem minEpochOf_le_iff :
    minEpochOf c j view vk doc ≤ n ↔ ∀ e ∈ doc, ∀ k, epochOf c j view vk e = some k → k ≤ n := by
  rw [minEpochOf_eq, foldl_max_le_iff]
  simp only [zero_le, true_and, mem_filterMap]
  constructor
  · intro h e he k hk
    exact h k ⟨e, he, hk⟩
  · rintro h k ⟨e, he, hk⟩
    exact h e he k hk

theorem le_minEpochOf (he : e ∈ doc)
    (hn : epochOf c j view vk e = some n) : n ≤ minEpochOf c j view vk doc :=
  minEpochOf_le_iff.1 le_rfl e he n hn

theorem revocationStep_eq (vk : List UInt8) (S : Finset String) (e : DocEntry β) :
    revocationStep c j view vk S e =
      if badRevocation j view e then .error .revocationJson
      else .ok (((revokedBy c j view vk e).map (insert · S)).getD S) := by
  unfold revocationStep badRevocation revokedBy
  cases stripPrefix "revocations/" e.key with
  | none => simp
  | some =>
    cases view.readable e.content with
    | false => simp
    | true =>
      cases j.revocation.fromSlice e.content with
      | none => simp
      | some r => by_cases hv : (c.verifyRevocation vk r).isOk <;> simp [hv]

/-- The revocation loop fails on a bad entry and otherwise collects what the entries file. -/
theorem readRevocations_eq (vk : List UInt8) (doc : Doc β) : readRevocations c j view vk doc =
      if doc.any (badRevocation j view) then .error .revocationJson
      else .ok (doc.filterMap (revokedBy c j view vk)).toFinset := by
  have hfold : ∀ (doc : Doc β) S,
      doc.foldlM (revocationStep c j view vk) S =
        if doc.any (badRevocation j view) then .error .revocationJson
        else .ok (S ∪ (doc.filterMap (revokedBy c j view vk)).toFinset) := by
    intro doc
    induction doc with
    | nil => intro S; simp; rfl
    | cons e doc ih =>
      intro S
      rw [foldlM_cons, revocationStep_eq]
      cases hb : badRevocation j view e with
      | true =>
        rw [any_cons, hb]
        rfl
      | false =>
        simp only [Bool.false_eq_true, if_false, any_cons, hb]
        rw [show ∀ T, (Except.ok T >>= fun S' =>
          doc.foldlM (revocationStep c j view vk) S') =
          doc.foldlM (revocationStep c j view vk) T from fun _ => rfl, ih]
        cases hx : revokedBy c j view vk e with
        | none | some x => simp [hx]
  rw [readRevocations, hfold, Finset.empty_union]

theorem filterMap_filter_of_eq_none {f : γ → Option δ} {keep : γ → Bool} {l : List γ}
    (h : ∀ a ∈ l, keep a = false → f a = none) : (l.filter keep).filterMap f = l.filterMap f := by
  induction l with
  | nil => rfl
  | cons a l ih =>
    have ih := ih fun b hb => h b (mem_cons_of_mem _ hb)
    cases hk : keep a with
    | true => simp [filterMap_cons, hk, ih]
    | false => simp [hk, ih, h a mem_cons_self hk]

end Passes

/-! ### Replicas -/

/-- A replica that has been set up: it has the coordinator's key and a genesis of its network. -/
structure Replica (c : Signing) where
  cfg : DocsConfig
  vk : List UInt8
  verifyingKey_ok : c.verifyingKeyFromHex cfg.coordinatorVerifyingKey = .ok vk
  state : DocsMembership
  genesis : Genesis
  genesis_eq : state.genesis = some genesis
  networkId_eq : genesis.networkId = cfg.networkId

namespace Replica

variable {c : Signing} (R : Replica c) (j : Serde β) (view : View β) (doc : Doc β)

/-- What `rebuild_eq` describes; kept opaque to unification, which would run the model. -/
@[irreducible]
def rebuild : DocsMembership × Except RebuildError Unit :=
  rebuildFromDoc c j R.cfg view doc R.state

/-- The genesis a rebuild works with. -/
def genesisIn : Genesis :=
  (doc.filterMap (genesisOf c j R.cfg view R.vk R.state.genesis)).head?.getD R.genesis

/-- The minimum epoch a rebuild works with. -/
def epochIn : Nat := minEpochOf c j view R.vk doc

/-- The endpoints a rebuild takes to be revoked. -/
def revokedIn : Finset String := (doc.filterMap (revokedBy c j view R.vk)).toFinset

/-- The members a rebuild finds. -/
def membersIn : Map String MembershipEntry :=
  memberMap c j R.cfg view R.vk (R.genesisIn j view doc) (R.epochIn j view doc)
    (R.revokedIn j view doc) doc

/-- The state once genesis and epoch are stored. -/
def midState : DocsMembership :=
  { R.state with
    genesis := some (R.genesisIn j view doc)
    networkEpoch := if 0 < R.epochIn j view doc then R.epochIn j view doc
      else R.state.networkEpoch }

/-- The outcome of a rebuild, all three of its exits. -/
theorem rebuild_eq : R.rebuild j view doc =
    if doc.any (badRevocation j view) then (R.midState j view doc, .error .revocationJson)
    else if (R.membersIn j view doc).DistinctVals (·.ipv4) then
      ({ R.midState j view doc with
          revoked := R.revokedIn j view doc
          members := R.membersIn j view doc }, .ok ())
    else
      ({ R.midState j view doc with revoked := R.revokedIn j view doc },
        .error .duplicateAddress) := by
  have hgen : ((getAllKeyBytes view doc genesisKey).findSome?
      (acceptGenesis c j R.cfg R.vk R.state.genesis)).or R.state.genesis =
      some (R.genesisIn j view doc) := by
    rw [findSome?_acceptGenesis, genesisIn]
    cases (doc.filterMap (genesisOf c j R.cfg view R.vk R.state.genesis)).head? with
    | none => exact R.genesis_eq
    | some => rfl
  unfold rebuild rebuildFromDoc
  simp only [verifyingKey_ok, hgen, readRevocations_eq]
  by_cases hb : doc.any (badRevocation j view)
  · rw [hb]
    rfl
  · simp only [hb]
    rfl

theorem genesisIn_spec : (R.genesisIn j view doc).networkId = R.cfg.networkId ∧
    (R.genesisIn j view doc).addressPlan = R.genesis.addressPlan := by
  unfold genesisIn
  cases h : (doc.filterMap (genesisOf c j R.cfg view R.vk R.state.genesis)).head? with
  | none => exact ⟨R.networkId_eq, rfl⟩
  | some =>
    obtain ⟨e, -, he⟩ := mem_filterMap.1 (mem_of_mem_head? h)
    obtain ⟨-, -, hnet, hplan⟩ := acceptGenesis_eq_some_iff.1 (readAt_eq_some_iff.1 he).2.2
    rw [genesis_eq] at hplan
    exact ⟨hnet, by simpa using (beq_iff_eq.1 hplan).symm⟩

theorem genesisIn_networkId : (R.genesisIn j view doc).networkId = R.cfg.networkId :=
  (R.genesisIn_spec j view doc).1

theorem genesisIn_addressPlan :
    (R.genesisIn j view doc).addressPlan = R.genesis.addressPlan := (R.genesisIn_spec j view doc).2

/-- A rebuild leaves a replica that has been set up. -/
def next : Replica c where
  cfg := R.cfg
  vk := R.vk
  verifyingKey_ok := R.verifyingKey_ok
  state := (R.rebuild j view doc).1
  genesis := R.genesisIn j view doc
  genesis_eq := by
    rw [rebuild_eq]
    split_ifs <;> rfl
  networkId_eq := R.genesisIn_networkId j view doc

theorem next_state : (R.next j view doc).state = (R.rebuild j view doc).1 := rfl

variable {R j view doc}

theorem mem_revokedIn : x ∈ R.revokedIn j view doc ↔
    ∃ e ∈ doc, revokedBy c j view R.vk e = some x := by
  simp [revokedIn]

theorem rebuild_revoked_of_bad (hb : doc.any (badRevocation j view)) :
    (R.rebuild j view doc).1.revoked = R.state.revoked := by
  rw [rebuild_eq, if_pos hb]
  rfl

theorem rebuild_revoked_of_not_bad (hb : doc.any (badRevocation j view) = false) :
    (R.rebuild j view doc).1.revoked = R.revokedIn j view doc := by
  rw [rebuild_eq, if_neg (by simp [hb])]
  split_ifs <;> rfl

theorem rebuild_eq_revocationJson_iff :
    (R.rebuild j view doc).2 = .error .revocationJson ↔ doc.any (badRevocation j view) := by
  rw [rebuild_eq]
  split_ifs with hb <;> simp [hb]

theorem rebuild_ok_iff : (R.rebuild j view doc).2 = .ok () ↔
    doc.any (badRevocation j view) = false ∧ (R.membersIn j view doc).DistinctVals (·.ipv4) := by
  rw [rebuild_eq]
  split_ifs with hb hd <;> simp_all

theorem rebuild_members_of_ok (h : (R.rebuild j view doc).2 = .ok ()) :
    (R.rebuild j view doc).1.members = R.membersIn j view doc := by
  obtain ⟨hb, hd⟩ := rebuild_ok_iff.1 h
  rw [rebuild_eq, if_neg (by simp [hb]), if_pos hd]

theorem rebuild_members_of_not_ok (h : (R.rebuild j view doc).2 ≠ .ok ()) :
    (R.rebuild j view doc).1.members = R.state.members := by
  rw [Ne, rebuild_ok_iff] at h
  rw [rebuild_eq]
  split_ifs with hb hd
  · rfl
  · exact absurd ⟨by simpa using hb, hd⟩ h
  · rfl

/-! ### Members -/

theorem lookup_applyMetadata {cfg : DocsConfig} :
    ((applyMetadata c j cfg view revoked doc map).lookup x).map
      (fun m => { m with sshHostKey := none }) =
        (map.lookup x).map fun m => { m with sshHostKey := none } := by
  rw [applyMetadata, Map.lookup_mapVal]
  cases map.lookup x with
  | none => rfl
  | some => split <;> rfl

/-- Under each endpoint the first record of the highest sequence is kept. -/
theorem lookup_recordMap : (recordMap c j view vk genesis minEpoch revoked doc).lookup x =
      ((valuesAt x (doc.filterMap (acceptRecord c j view vk genesis minEpoch revoked))).argmax
        Prod.fst).map Prod.snd := by
  rw [recordMap, Map.lookup_mapVal, lookup_latest]

theorem lookup_recordMap_eq_none_iff :
    (recordMap c j view vk genesis minEpoch revoked doc).lookup x = none ↔
      ∀ e ∈ doc, ∀ v, acceptRecord c j view vk genesis minEpoch revoked e ≠ some (x, v) := by
  rw [lookup_recordMap, map_eq_none_iff, argmax_eq_none, eq_nil_iff_forall_not_mem]
  simp only [mem_valuesAt, mem_filterMap, not_exists, not_and]
  exact ⟨fun h e he v => h v e he, fun h v e he => h e he v⟩

theorem membersIn_eq_empty_of_none (hnone : ∀ e ∈ doc, acceptRecord c j view R.vk
    (R.genesisIn j view doc) (R.epochIn j view doc) (R.revokedIn j view doc) e = none) :
    R.membersIn j view doc = ∅ := by
  have hmap : recordMap c j view R.vk (R.genesisIn j view doc) (R.epochIn j view doc)
      (R.revokedIn j view doc) doc = ∅ := by
    refine Finmap.ext_lookup fun x => ?_
    rw [Finmap.lookup_empty, lookup_recordMap_eq_none_iff]
    intro e he v hacc
    rw [hnone e he] at hacc
    cases hacc
  rw [membersIn, memberMap, hmap]
  rfl

theorem membersIn_eq_empty (hold : ∀ e ∈ doc, ∀ x r, peerField e.key = some (x, "record") →
    j.record.fromSlice e.content = some r → r.grant.networkEpoch < R.epochIn j view doc) :
    R.membersIn j view doc = ∅ := by
  refine membersIn_eq_empty_of_none fun e he => eq_none_iff_forall_ne_some.2 ?_
  rintro ⟨x, n, m⟩ hacc
  obtain ⟨hkey, -, -, r, hparse, hv, -⟩ := acceptRecord_eq_some_iff.1 hacc
  have hgrant := (Signing.verifyMemberRecord_isOk_iff.1 hv).2.2.2.2.1
  have hle := (Signing.verifyGrant_isOk_iff.1 hgrant).1
  have hlt := hold e he x r hkey hparse
  omega

end Replica

end Tunnet.Direct

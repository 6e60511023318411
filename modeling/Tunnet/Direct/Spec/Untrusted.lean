import Tunnet.Direct.Demo

/-!
# What other authors can do to a rebuild

Every holder of the write ticket can add entries under any key. Two questions about such entries:

* Can they revoke somebody?  A signed revocation filed under the key of somebody else revokes
  the latter (`revoked_signed_iff`).
* Which entries that are not authentic change the outcome at all?  Exactly the ones `Disturbing`
  describes (`rebuild_inert_iff`).
-/

namespace Tunnet.Direct

open Option Replica

variable {β : Type} {c : Signing} {e : DocEntry β} {view : View β} {j : Serde β} {x : String}
  {vk : List UInt8} {doc : Doc β}

/-! ### Who is revoked -/

/-- Some entry carries a revocation of `x` signed by the coordinator. -/
def SignedRevocationOf (c : Signing) (j : Serde β) (vk : List UInt8) (doc : Doc β) (x : String) :
    Prop :=
  ∃ e ∈ doc, ∃ r, j.revocation.fromSlice e.content = some r ∧
    (c.verifyRevocation vk r).isOk ∧ r.endpointId = x

/-- The entry files, under the key of `x`, a signed revocation of somebody else. -/
def MisfiledRevocation (c : Signing) (j : Serde β) (view : View β) (vk : List UInt8)
    (e : DocEntry β) (x : String) : Prop :=
  e.key = revocationKey x ∧ view.readable e.content ∧
    ∃ r, j.revocation.fromSlice e.content = some r ∧ (c.verifyRevocation vk r).isOk ∧
      r.endpointId ≠ x

theorem signedRevocationOf_or_misfiled (he : e ∈ doc) (hx : revokedBy c j view vk e = some x) :
    SignedRevocationOf c j vk doc x ∨ MisfiledRevocation c j view vk e x := by
  obtain ⟨hkey, hread, r, hr, hv⟩ := revokedBy_eq_some_iff.1 hx
  by_cases hrx : r.endpointId = x
  · exact .inl ⟨e, he, r, hr, hv, hrx⟩
  · exact .inr ⟨hkey, hread, r, hr, hv, hrx⟩

theorem MisfiledRevocation.revokedBy_eq (h : MisfiledRevocation c j view vk e x) :
    revokedBy c j view vk e = some x := by
  obtain ⟨hkey, hread, r, hr, hv, -⟩ := h
  exact revokedBy_eq_some_iff.2 ⟨hkey, hread, r, hr, hv⟩

/-- Who is revoked after a rebuild. A rebuild that gives up on a malformed revocation leaves
the revoked set as it was. After any other one, everybody in the set has a signed revocation of
their own exactly when everybody under whose key a revocation of somebody else is filed has one. -/
theorem revoked_signed_iff (R : Replica c) (j : Serde β) (view : View β) (doc : Doc β) :
    ((R.rebuild j view doc).2 = .error .revocationJson →
      (R.rebuild j view doc).1.revoked = R.state.revoked) ∧
    ((R.rebuild j view doc).2 ≠ .error .revocationJson →
      ((∀ x ∈ (R.rebuild j view doc).1.revoked, SignedRevocationOf c j R.vk doc x) ↔
        ∀ e ∈ doc, ∀ x, MisfiledRevocation c j view R.vk e x →
          SignedRevocationOf c j R.vk doc x)) := by
  rw [Ne, rebuild_eq_revocationJson_iff]
  refine ⟨rebuild_revoked_of_bad, fun hb => ?_⟩
  rw [rebuild_revoked_of_not_bad (by simpa using hb)]
  simp only [mem_revokedIn]
  constructor
  · intro h e he x hm
    exact h x ⟨e, he, hm.revokedBy_eq⟩
  · rintro h x ⟨e, he, hx⟩
    rcases signedRevocationOf_or_misfiled he hx with hs | hm
    · exact hs
    · exact h e he x hm

namespace Demo

/-- The coordinator's revocation of `bb`, copied by somebody to the key of `aa`. -/
def misfiled : DocEntry Blob :=
  ⟨1, revocationKey "aa", .revocation (signing.signRevocation sk ⟨"bb", 1, "kicked", ""⟩)⟩

theorem misfiled_misfiledRevocation :
    MisfiledRevocation signing serde allReadable replica.vk misfiled "aa" :=
  ⟨rfl, rfl, _, rfl, isOk_unit_iff.2 (Signing.verifyRevocation_signRevocation ..), by decide⟩

theorem not_bad_misfiled : [misfiled].any (badRevocation serde allReadable) = false := by
  decide

theorem not_signedRevocationOf_misfiled :
    ¬ SignedRevocationOf signing serde replica.vk [misfiled] "aa" := by
  rintro ⟨e, he, r, hr, -, hx⟩
  rw [List.mem_singleton.1 he] at hr
  injection hr with hr
  rw [← hr] at hx
  exact absurd hx (by decide)

/-- `aa` is revoked although nobody ever signed a revocation of `aa`. -/
theorem misfiled_revokes : (replica.rebuild serde allReadable [misfiled]).2 = .ok () ∧
    "aa" ∈ (replica.rebuild serde allReadable [misfiled]).1.revoked ∧
    ¬ SignedRevocationOf signing serde replica.vk [misfiled] "aa" := by
  refine ⟨?_, ?_, not_signedRevocationOf_misfiled⟩
  · rw [rebuild_ok_iff]
    refine ⟨not_bad_misfiled, ?_⟩
    decide
  · rw [rebuild_revoked_of_not_bad not_bad_misfiled, mem_revokedIn]
    exact ⟨misfiled, by simp, misfiled_misfiledRevocation.revokedBy_eq⟩

end Demo

/-! ### Entries that are not authentic -/

/-- The entry is what its key says, signed by whoever has to sign it: the coordinator, or the
endpoint itself for metadata. -/
inductive Authentic (c : Signing) (j : Serde β) (vk : List UInt8) (e : DocEntry β) : Prop
  | genesis (g : Genesis) : e.key = genesisKey → j.genesis.fromSlice e.content = some g →
      (c.verifyGenesis vk g).isOk → Authentic c j vk e
  | epoch (n : EpochRecord) : e.key = epochKey → j.epoch.fromSlice e.content = some n →
      (c.verifyEpoch vk n).isOk → Authentic c j vk e
  | revocation (r : Revocation) : e.key = revocationKey r.endpointId →
      j.revocation.fromSlice e.content = some r → (c.verifyRevocation vk r).isOk →
      Authentic c j vk e
  | record (r : SignedMemberRecord) : peerField e.key = some (r.endpointId, "record") →
      j.record.fromSlice e.content = some r →
      (c.verifySig vk (c.memberRecordSignPayload r) r.endpointSig).isOk → Authentic c j vk e
  | metadata (md : SignedMemberMetadata) : peerField e.key = some (md.endpointId, "metadata") →
      j.metadata.fromSlice e.content = some md → (c.verifyMemberMetadata md).isOk →
      Authentic c j vk e

/-- A readable entry that changes what the replica computes from the empty document: something
under `revocations/` that is malformed or signed, or, under a record key, a record the replica
accepts. -/
def Disturbing (R : Replica c) (j : Serde β) (view : View β) (e : DocEntry β) : Prop :=
  view.readable e.content ∧
  ((∃ x, e.key = revocationKey x ∧ (j.revocation.fromSlice e.content = none ∨
      ∃ r, j.revocation.fromSlice e.content = some r ∧
        (c.verifyRevocation R.vk r).isOk)) ∨
    (∃ x r, peerField e.key = some (x, "record") ∧ j.record.fromSlice e.content = some r ∧
      (c.verifyMemberRecord R.vk r 0 view.now).isOk ∧ r.networkId = R.cfg.networkId ∧
      isUsableHost R.genesis.addressPlan.peerCidr r.ipv4 ∧ r.status ≠ "kicked"))

section Inert

variable {R : Replica c}

theorem genesisOf_eq_none (ha : ¬ Authentic c j R.vk e) (g : Option Genesis) :
    genesisOf c j R.cfg view R.vk g e = none := by
  by_contra hne
  obtain ⟨g', hg'⟩ := ne_none_iff_exists'.1 hne
  obtain ⟨hkey, -, hacc⟩ := readAt_eq_some_iff.1 hg'
  obtain ⟨hparse, hv, -⟩ := acceptGenesis_eq_some_iff.1 hacc
  exact ha (.genesis g' hkey hparse hv)

theorem epochOf_eq_none (ha : ¬ Authentic c j R.vk e) : epochOf c j view R.vk e = none := by
  by_contra hne
  obtain ⟨n, hn⟩ := ne_none_iff_exists'.1 hne
  obtain ⟨hkey, -, hacc⟩ := readAt_eq_some_iff.1 hn
  obtain ⟨epoch, hparse, hv, -⟩ := acceptEpoch_eq_some_iff.1 hacc
  exact ha (.epoch epoch hkey hparse hv)

theorem acceptMetadata_eq_none (ha : ¬ Authentic c j vk e) (S : Finset String)
    (map : Map String MembershipEntry) : acceptMetadata c j R.cfg view S map e = none := by
  by_contra hne
  obtain ⟨⟨x, md⟩, hmd⟩ := ne_none_iff_exists'.1 hne
  obtain ⟨hkey, -, hparse, rfl, hv⟩ := acceptMetadata_eq_some hmd
  exact ha (.metadata md hkey hparse hv)

variable (hd : ¬ Disturbing R j view e)

include hd

theorem revokedBy_eq_none : revokedBy c j view R.vk e = none := by
  by_contra hne
  obtain ⟨x, hx⟩ := ne_none_iff_exists'.1 hne
  obtain ⟨hkey, hread, hr⟩ := revokedBy_eq_some_iff.1 hx
  exact hd ⟨hread, .inl ⟨x, hkey, .inr hr⟩⟩

theorem badRevocation_eq_false : badRevocation j view e = false := by
  by_contra hne
  obtain ⟨⟨x, hkey⟩, hread, hparse⟩ := badRevocation_eq_true_iff.1 (Bool.not_eq_false _ ▸ hne)
  exact hd ⟨hread, .inl ⟨x, hkey, .inl hparse⟩⟩

theorem acceptRecord_eq_none {g : Genesis} (n : Nat)
    (S : Finset String) (hid : g.networkId = R.cfg.networkId)
    (hplan : g.addressPlan = R.genesis.addressPlan) :
    acceptRecord c j view R.vk g n S e = none := by
  by_contra hne
  obtain ⟨⟨x, k, m⟩, hx⟩ := ne_none_iff_exists'.1 hne
  obtain ⟨hkey, -, hread, r, hparse, hv, hg, hstatus, -⟩ := acceptRecord_eq_some_iff.1 hx
  obtain ⟨hnet, -, huse⟩ := validateMemberAgainstGenesis_isOk_iff.1 hg
  rw [hplan] at huse
  exact hd ⟨hread, .inr ⟨x, r, hkey, hparse,
    Signing.verifyMemberRecord_isOk_mono (Nat.zero_le n) hv, hnet.trans hid, huse,
    hstatus⟩⟩

omit hd

theorem rebuild_filter {keep : DocEntry β → Bool}
    (ha : ∀ e ∈ doc, keep e = false → ¬ Authentic c j R.vk e)
    (hd : ∀ e ∈ doc, keep e = false → ¬ Disturbing R j view e) :
    R.rebuild j view (doc.filter keep) = R.rebuild j view doc := by
  have hgen : R.genesisIn j view (doc.filter keep) = R.genesisIn j view doc := by
    rw [genesisIn, filterMap_filter_of_eq_none fun e he hk =>
      genesisOf_eq_none (ha e he hk) _]
    rfl
  have hepoch : R.epochIn j view (doc.filter keep) = R.epochIn j view doc := by
    rw [epochIn, minEpochOf_eq, filterMap_filter_of_eq_none fun e he hk =>
      epochOf_eq_none (ha e he hk), ← minEpochOf_eq]
    rfl
  have hrev : R.revokedIn j view (doc.filter keep) = R.revokedIn j view doc := by
    rw [revokedIn, filterMap_filter_of_eq_none fun e he hk =>
      revokedBy_eq_none (hd e he hk)]
    rfl
  have hbad : (doc.filter keep).any (badRevocation j view) = doc.any (badRevocation j view) := by
    rw [Bool.eq_iff_iff, List.any_eq_true, List.any_eq_true]
    constructor
    · rintro ⟨e, he, hb⟩
      exact ⟨e, (List.mem_filter.1 he).1, hb⟩
    · rintro ⟨e, he, hb⟩
      refine ⟨e, List.mem_filter.2 ⟨he, ?_⟩, hb⟩
      by_contra hk
      rw [badRevocation_eq_false (hd e he (by simpa using hk))] at hb
      cases hb
  have hmem : R.membersIn j view (doc.filter keep) = R.membersIn j view doc := by
    unfold membersIn memberMap applyMetadata recordMap
    rw [hgen, hepoch, hrev]
    simp [
      filterMap_filter_of_eq_none fun e he hk => acceptRecord_eq_none (hd e he hk)
        (R.epochIn j view doc) (R.revokedIn j view doc) (R.genesisIn_networkId j view doc)
        (R.genesisIn_addressPlan j view doc),
      filterMap_filter_of_eq_none fun e he hk => acceptMetadata_eq_none (ha e he hk) _ _]
  simp [rebuild_eq, hbad, hmem, hrev, midState, hgen, hepoch]

/-! ### What a disturbing entry does on its own -/

theorem rebuild_nil (R : Replica c) (j : Serde β) (view : View β) :
    (R.rebuild j view []).2 = .ok () ∧ (R.rebuild j view []).1.members = ∅ ∧
      (R.rebuild j view []).1.revoked = ∅ := by
  have hmem : R.membersIn j view [] = ∅ := rfl
  have hok : (R.rebuild j view []).2 = .ok () := by
    rw [rebuild_ok_iff]
    exact ⟨rfl, Multiset.nodup_zero⟩
  refine ⟨hok, ?_, ?_⟩
  · rw [rebuild_members_of_ok hok, hmem]
  · rw [rebuild_revoked_of_not_bad rfl]
    rfl

theorem lookup_membersIn_singleton_ne_none {r : SignedMemberRecord}
    (hread : view.readable e.content) (hkey : peerField e.key = some (x, "record"))
    (hparse : j.record.fromSlice e.content = some r)
    (hv : (c.verifyMemberRecord R.vk r 0 view.now).isOk) (hnet : r.networkId = R.cfg.networkId)
    (huse : isUsableHost R.genesis.addressPlan.peerCidr r.ipv4)
    (hstatus : r.status ≠ "kicked") : (R.membersIn j view [e]).lookup x ≠ none := by
  obtain ⟨hepoch, hrev⟩ := epochOf_revokedBy_of_peerField c j view R.vk hkey
  have hepoch' : R.epochIn j view [e] = 0 := by
    rw [epochIn, minEpochOf_eq]
    simp [hepoch]
  have hrev' : R.revokedIn j view [e] = ∅ := by
    simp [revokedIn, hrev]
  have hacc : acceptRecord c j view R.vk (R.genesisIn j view [e]) 0 ∅ e =
      some (x, r.sequence, r.toEntry) := by
    refine acceptRecord_eq_some_iff.2 ⟨hkey, by simp, hread, r, hparse, hv, ?_, hstatus, by simp,
      rfl, rfl⟩
    have hgrant : r.grant.networkId = r.networkId := (Signing.verifyMemberRecord_isOk_iff.1 hv).2.1
    rw [validateMemberAgainstGenesis_isOk_iff, genesisIn_networkId, genesisIn_addressPlan]
    exact ⟨hnet, hgrant.trans hnet, huse⟩
  intro hnone
  have hmap := congrArg (Option.map fun m => { m with sshHostKey := none }) hnone
  rw [membersIn, memberMap, lookup_applyMetadata, hepoch', hrev', map_none,
    map_eq_none_iff, lookup_recordMap_eq_none_iff] at hmap
  exact hmap e List.mem_cons_self _ hacc

end Inert

/-- What the outcome of a rebuild consists of: success or failure, members, revoked set, epoch. -/
def outcome (out : DocsMembership × Except RebuildError Unit) :
    Except RebuildError Unit × Map String MembershipEntry × Finset String × Nat :=
  (out.2, out.1.members, out.1.revoked, out.1.networkEpoch)

theorem Disturbing.outcome_ne {R : Replica c} (h : Disturbing R j view e) :
    outcome (R.rebuild j view []) ≠ outcome (R.rebuild j view [e]) := by
  obtain ⟨hok, hmem, hrev⟩ := rebuild_nil R j view
  intro heq
  obtain ⟨heq₁, heq₂, heq₃, -⟩ : _ ∧ _ ∧ _ ∧ _ := by
    simpa [outcome] using heq
  have hok' : (R.rebuild j view [e]).2 = .ok () := heq₁ ▸ hok
  have hbad := (rebuild_ok_iff.1 hok').1
  obtain ⟨hread, ⟨x, hkey, hnone | hr⟩ | ⟨x, r, hkey, hparse, hv, hnet, huse, hstatus⟩⟩ := h
  · -- a malformed revocation makes the rebuild fail
    have : badRevocation j view e := badRevocation_eq_true_iff.2 ⟨⟨x, hkey⟩, hread, hnone⟩
    simp [this] at hbad
  · -- a signed revocation puts its key's endpoint into the revoked set
    have hx : x ∈ R.revokedIn j view [e] :=
      mem_revokedIn.2 ⟨e, by simp, revokedBy_eq_some_iff.2 ⟨hkey, hread, hr⟩⟩
    rw [← rebuild_revoked_of_not_bad hbad, ← heq₃, hrev] at hx
    simp at hx
  · refine lookup_membersIn_singleton_ne_none hread hkey hparse hv hnet huse hstatus ?_
    rw [← rebuild_members_of_ok hok', ← heq₂, hmem]
    rfl

/-- Which unauthentic entries are inert. Let `X` be a set of entries none of which is
authentic. Leaving entries of `X` out of a document never changes the outcome of a rebuild exactly
when no entry of `X` is disturbing. -/
theorem rebuild_inert_iff (R : Replica c) (j : Serde β) (view : View β) (X : Set (DocEntry β))
    (hX : ∀ e ∈ X, ¬ Authentic c j R.vk e) :
    (∀ (doc : Doc β) (keep : DocEntry β → Bool), (∀ e ∈ doc, keep e = false → e ∈ X) →
      outcome (R.rebuild j view (doc.filter keep)) = outcome (R.rebuild j view doc)) ↔
    ∀ e ∈ X, ¬ Disturbing R j view e := by
  constructor
  · intro h e he hd
    refine hd.outcome_ne (h [e] (fun _ => false) ?_)
    intro e' he' _
    rwa [List.mem_singleton.1 he']
  · intro h doc keep hkeep
    rw [rebuild_filter (fun e he hk => hX e (hkeep e he hk)) fun e he hk => h e (hkeep e he hk)]

namespace Demo

/-- Anybody's text under a revocation key. -/
def garbage : DocEntry Blob := ⟨1, revocationKey "aa", .text "hello"⟩

theorem not_authentic_text (author : AuthorId) (key text : String) :
    ¬ Authentic signing serde replica.vk ⟨author, key, .text text⟩ := by
  rintro (⟨_, _, h, _⟩ | ⟨_, _, h, _⟩ | ⟨_, _, h, _⟩ | ⟨_, _, h, _⟩ | ⟨_, _, h, _⟩) <;> cases h

/-- One unauthentic entry makes every rebuild of the network fail. -/
theorem garbage_not_inert : ¬ Authentic signing serde replica.vk garbage ∧
    (replica.rebuild serde allReadable []).2 = .ok () ∧
    (replica.rebuild serde allReadable [garbage]).2 = .error .revocationJson :=
  ⟨not_authentic_text _ _ _, (rebuild_nil ..).1, rebuild_eq_revocationJson_iff.2 (by decide)⟩

/-- Text under a key that no pass reads. -/
def note : DocEntry Blob := ⟨1, "notes/aa", .text "hello"⟩

theorem rebuild_inert_note : (∀ e ∈ ({note} : Set (DocEntry Blob)),
      ¬ Authentic signing serde replica.vk e) ∧
    ((∀ (doc : Doc Blob) (keep : DocEntry Blob → Bool),
        (∀ e ∈ doc, keep e = false → e ∈ ({note} : Set (DocEntry Blob))) →
        outcome (replica.rebuild serde allReadable (doc.filter keep)) =
          outcome (replica.rebuild serde allReadable doc)) ↔
      ∀ e ∈ ({note} : Set (DocEntry Blob)), ¬ Disturbing replica serde allReadable e) := by
  have hX : ∀ e ∈ ({note} : Set (DocEntry Blob)), ¬ Authentic signing serde replica.vk e := by
    rintro e rfl
    exact not_authentic_text _ _ _
  exact ⟨hX, rebuild_inert_iff replica serde allReadable {note} hX⟩

end Demo

end Tunnet.Direct

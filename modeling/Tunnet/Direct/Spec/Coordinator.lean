import Tunnet.Direct.Spec.Rebuild

/-!
# What the coordinator writes

A coordinator holds the signing key that belongs to the verifying key of its network. What
`admitPeer` and `kickPeer` do is written out here, and the records they issue are shown to pass
every check of a rebuild.
-/

namespace Tunnet.Direct

open Signing

variable {β : Type}

/-- A node that holds the coordinator's key. -/
structure Coordinator (c : Signing) where
  cfg : DocsConfig
  sk : List UInt8
  signingKey_eq : cfg.coordinatorSigningKey = some sk
  verifyingKey_eq : cfg.coordinatorVerifyingKey = Hex.encode (c.ed.verifyingKey sk)

variable {c : Signing} {minEpoch : Nat}

namespace Coordinator

variable (C : Coordinator c) (j : Serde β)

/-- The key its records verify under. -/
def vk : List UInt8 := c.ed.verifyingKey C.sk

theorem verifyingKeyFromHex : c.verifyingKeyFromHex C.cfg.coordinatorVerifyingKey = .ok C.vk := by
  rw [verifyingKey_eq]
  exact verifyingKeyFromHex_encode C.sk

/-- The record that admits `entry` with the given epoch, lifetime and sequence. -/
def issue (epoch : Nat) (now expiresAt : Timestamp) (entry : MembershipEntry) (sequence : Nat) :
    SignedMemberRecord :=
  c.signMemberRecord C.sk
    { schemaVersion := memberSchemaVersion
      networkId := C.cfg.networkId
      endpointId := entry.endpointId
      hostname := entry.hostname
      ipv4 := entry.ipv4
      tags := entry.tags
      status := entry.status
      sequence := sequence
      joinedAt := entry.joinedAt
      grant := c.signGrant C.sk
        { networkId := C.cfg.networkId
          endpointId := entry.endpointId
          role := if entry.coordinator then .coordinator else .member
          networkEpoch := epoch
          issuedAt := now
          expiresAt := expiresAt
          contentKey := C.cfg.contentKey
          sig := "" }
      endpointSig := ""
      coordinator := entry.coordinator }

/-- The sequence `admit_peer` chooses. -/
def nextSequence (m : DocsMembership) (endpointId : String) : Nat :=
  if (m.members.lookup endpointId).isSome then 2 else 1

theorem admitPeer_eq (now : Timestamp) (entry : MembershipEntry) (m : DocsMembership)
    (doc : Doc β) : admitPeer c j C.cfg now entry m doc =
      match grantExpiry now with
      | none => .error .grantExpiry
      | some expiresAt =>
        let r := C.issue m.networkEpoch now expiresAt entry (nextSequence m entry.endpointId)
        .ok (({ m with members := m.members.insert entry.endpointId entry },
          doc.setBytes C.cfg.author (recordKey entry.endpointId) (j.record.toVec r)),
          r.grant, C.cfg.contentKey, r) := by
  unfold admitPeer issueGrant buildRecord
  rw [signingKey_eq]
  cases grantExpiry now with
  | none | some => rfl

/-- The signed epoch `n`. -/
def epochRecord (n : Nat) : EpochRecord := c.signEpoch C.sk ⟨n, ""⟩

/-- The signed revocation of an endpoint that takes effect with epoch `n`. -/
def revocation (endpointId : String) (n : Nat) : Revocation :=
  c.signRevocation C.sk ⟨endpointId, n, "kicked", ""⟩

theorem kickPeer_eq (endpointId : String) (m : DocsMembership) (doc : Doc β) :
    kickPeer c j C.cfg endpointId m doc = .ok
      ({ m with
          networkEpoch := m.networkEpoch + 1
          revoked := insert endpointId m.revoked
          members := m.members.erase endpointId },
        (doc.setBytes C.cfg.author epochKey
          (j.epoch.toVec (C.epochRecord (m.networkEpoch + 1)))).setBytes C.cfg.author
          (revocationKey endpointId)
          (j.revocation.toVec (C.revocation endpointId (m.networkEpoch + 1)))) := by
  unfold kickPeer
  rw [signingKey_eq]
  rfl

/-! ### Issued records pass -/

variable {C} {epoch sequence n : Nat} {issuedAt expiresAt now : Timestamp} {entry : MembershipEntry}

theorem verifyMemberRecord_issue_iff :
    (c.verifyMemberRecord C.vk (C.issue epoch issuedAt expiresAt entry sequence) minEpoch
      now).isOk = true ↔ minEpoch ≤ epoch ∧ now < expiresAt := by
  have hrole : (C.issue epoch issuedAt expiresAt entry sequence).coordinator =
      ((C.issue epoch issuedAt expiresAt entry sequence).grant.role == .coordinator) := by
    unfold issue
    cases entry.coordinator <;> rfl
  rw [verifyMemberRecord_isOk_iff, verifyGrant_isOk_iff]
  constructor
  · rintro ⟨-, -, -, -, ⟨hepoch, hexp, -⟩, -⟩
    exact ⟨hepoch, hexp⟩
  · rintro ⟨hepoch, hexp⟩
    exact ⟨rfl, rfl, rfl, hrole,
      ⟨hepoch, hexp, isOk_unit_iff.2 (verifySig_signBytes ..)⟩,
      isOk_unit_iff.2 (verifySig_signBytes ..)⟩

theorem le_minEpochOf_epochRecord {j : Serde β} {view : View β} {doc : Doc β} {author : AuthorId}
    (hmem : ⟨author, epochKey, j.epoch.toVec (C.epochRecord n)⟩ ∈ doc)
    (hread : view.readable (j.epoch.toVec (C.epochRecord n))) :
    n ≤ minEpochOf c j view C.vk doc := by
  refine le_minEpochOf hmem (readAt_eq_some_iff.2 ⟨rfl, hread, ?_⟩)
  exact acceptEpoch_eq_some_iff.2 ⟨_, j.epoch.fromSlice_toVec _,
    isOk_unit_iff.2 (verifySig_signBytes ..), rfl⟩

/-- The key of a record names the endpoint and nothing else, unless a slash cuts it short. -/
theorem peerField_recordKey_iff {x y : String} :
    peerField (recordKey x) = some (y, "record") ↔ '/' ∉ x.toList ∧ y = x := by
  have hkey : recordKey x = "peers/" ++ y ++ "/" ++ "record" ↔ x.toList = y.toList := by
    rw [← String.toList_inj]
    simp [recordKey]
  rw [peerField_eq_some_iff, hkey, String.toList_inj]
  constructor
  · rintro ⟨hy, rfl⟩
    exact ⟨hy, rfl⟩
  · rintro ⟨hx, rfl⟩
    exact ⟨hx, rfl⟩

theorem peerField_recordKey_ne_metadata (x y : String) :
    peerField (recordKey x) ≠ some (y, "metadata") := by
  intro h
  have hlast := congrArg (fun s => s.toList.reverse.head?) (peerField_eq_some_iff.1 h).2
  simp [recordKey] at hlast

end Coordinator

/-! ### Documents of issued records -/

/-- One record the coordinator issued. -/
structure Issuance where
  epoch : Nat
  issuedAt : Timestamp
  expiresAt : Timestamp
  entry : MembershipEntry
  sequence : Nat

/-- The member a rebuild makes of an admitted entry. -/
def MembershipEntry.active (e : MembershipEntry) : MembershipEntry :=
  { e with status := "active", sshHostKey := none }

variable {view : View β}

namespace Issuance

variable (C : Coordinator c) (j : Serde β)

def record (i : Issuance) : SignedMemberRecord :=
  C.issue i.epoch i.issuedAt i.expiresAt i.entry i.sequence

/-- The entry that carries the record, whoever wrote it. -/
def docEntry (i : AuthorId × Issuance) : DocEntry β :=
  ⟨i.1, recordKey i.2.entry.endpointId, j.record.toVec (i.2.record C)⟩

/-- What the member loop takes from the record. -/
def arrival (i : Issuance) : String × Nat × MembershipEntry :=
  (i.entry.endpointId, i.sequence, i.entry.active)

/-- The record is one that a rebuild accepts. -/
structure Valid (plan : AddressPlan) (now : Timestamp) (minEpoch : Nat) (i : Issuance) : Prop where
  noSlash : '/' ∉ i.entry.endpointId.toList
  usable : isUsableHost plan.peerCidr i.entry.ipv4
  notKicked : i.entry.status ≠ "kicked"
  unexpired : now < i.expiresAt
  epoch_le : minEpoch ≤ i.epoch

instance {plan : AddressPlan} {now : Timestamp} {minEpoch : Nat} {i : Issuance} :
    Decidable (i.Valid plan now minEpoch) :=
  decidable_of_iff (_ ∧ _ ∧ _ ∧ _ ∧ _)
    ⟨fun h => ⟨h.1, h.2.1, h.2.2.1, h.2.2.2.1, h.2.2.2.2⟩, fun h => ⟨h.1, h.2, h.3, h.4, h.5⟩⟩

variable {C j} {i : AuthorId × Issuance} {genesis : Genesis} {revoked : Finset String}

/-- What a rebuild takes from an issued record. -/
theorem acceptRecord_docEntry_iff
    (hnet : genesis.networkId = C.cfg.networkId) {a : String × Nat × MembershipEntry} :
    acceptRecord c j view C.vk genesis minEpoch revoked (docEntry C j i) = some a ↔
      i.2.Valid genesis.addressPlan view.now minEpoch ∧
        view.readable (docEntry C j i).content ∧ i.2.entry.endpointId ∉ revoked ∧
        arrival i.2 = a := by
  obtain ⟨x, n, m⟩ := a
  rw [acceptRecord_eq_some_iff]
  constructor
  · rintro ⟨hkey, -, hread, r, hparse, hv, hplan, hstatus, hrev, hn, hm⟩
    obtain ⟨hslash, rfl⟩ := Coordinator.peerField_recordKey_iff.1 hkey
    obtain rfl : i.2.record C = r := by
      rw [docEntry, j.record.fromSlice_toVec] at hparse
      exact Option.some.inj hparse
    obtain ⟨hepoch, hexp⟩ := Coordinator.verifyMemberRecord_issue_iff.1 hv
    have husable := (validateMemberAgainstGenesis_isOk_iff.1 hplan).2.2
    exact ⟨⟨hslash, husable, hstatus, hexp, hepoch⟩, hread, hrev, by rw [← hn, ← hm]; rfl⟩
  · rintro ⟨hv, hread, hrev, harrival⟩
    cases harrival
    exact ⟨Coordinator.peerField_recordKey_iff.2 ⟨hv.noSlash, rfl⟩, hrev, hread, _,
      j.record.fromSlice_toVec _,
      Coordinator.verifyMemberRecord_issue_iff.2 ⟨hv.epoch_le, hv.unexpired⟩,
      validateMemberAgainstGenesis_isOk_iff.2 ⟨hnet.symm, hnet.symm, hv.usable⟩, hv.notKicked, hrev,
      rfl, rfl⟩

end Issuance

section Members

variable {R : Replica c} {j : Serde β} {revoked : Finset String} {e : DocEntry β}

theorem acceptMetadata_of_peerField_ne {cfg : DocsConfig} {map : Map String MembershipEntry}
    (h : ∀ x, peerField e.key ≠ some (x, "metadata")) :
    acceptMetadata c j cfg view revoked map e = none := by
  by_contra hne
  obtain ⟨⟨x, md⟩, hmd⟩ := Option.ne_none_iff_exists'.1 hne
  exact h x (acceptMetadata_eq_some hmd).1

/-- Without metadata the members are what the records say. -/
theorem membersIn_of_no_metadata {doc : Doc β}
    (h : ∀ e ∈ doc, ∀ x, peerField e.key ≠ some (x, "metadata")) :
    R.membersIn j view doc = (latest Prod.fst (doc.filterMap (acceptRecord c j view R.vk
      (R.genesisIn j view doc) (R.epochIn j view doc) (R.revokedIn j view doc)))).mapVal
        fun _ kept => kept.2 := by
  have hmetadata (map) :
      doc.filterMap (acceptMetadata c j R.cfg view (R.revokedIn j view doc) map) = [] :=
    List.filterMap_eq_nil_iff.2 fun e he => acceptMetadata_of_peerField_ne (h e he)
  rw [Replica.membersIn, memberMap, applyMetadata, hmetadata]
  refine Finmap.ext_lookup fun x => ?_
  rw [Map.lookup_mapVal]
  exact Option.map_id'

end Members

end Tunnet.Direct

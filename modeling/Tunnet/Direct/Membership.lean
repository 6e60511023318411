import Tunnet.Direct.Grants
import Tunnet.Util.Latest

/-!
# The membership document of a Direct network

`tunnet-core/src/direct/membership.rs`. A network shares one document. Every author may write
under every key, and reading a key or a range of keys gives the entries of all authors in some
order. The content of an entry is a blob, which a replica may not have fetched yet.

* The coordinator writes genesis, epochs, member records and revocations
  (`publishGenesis`, `admitPeer`, `kickPeer`).
* Every replica computes its members from the document (`rebuildFromDoc`).

Blobs are an abstract type; `Serde` has the JSON codecs. Writing to the document and enumerating
it are taken to succeed.
-/

namespace Tunnet.Direct

structure MembershipEntry where
  endpointId : String
  hostname : String
  ipv4 : Ipv4Addr
  tags : List String
  joinedAt : Timestamp
  coordinator : Bool
  status : String
  sshHostKey : Option String
deriving DecidableEq

/-! ### The document -/

abbrev AuthorId := Nat

structure DocEntry (β : Type) where
  author : AuthorId
  key : String
  content : β

/-- The live entries of a document, in the order in which they are enumerated. -/
abbrev Doc (β : Type) := List (DocEntry β)

/-- `set_bytes` of iroh-docs: the new entry takes the place of those entries of its author whose
key it is a prefix of. -/
def Doc.setBytes {β : Type} (doc : Doc β) (author : AuthorId) (key : String) (content : β) :
    Doc β :=
  doc.filter (fun e => !(e.author == author && (Str.stripPrefix key e.key).isSome)) ++
    [⟨author, key, content⟩]

def genesisKey : String := "meta/genesis"
def epochKey : String := "meta/epoch"
def metaKey (field : String) : String := "meta/" ++ field
def recordKey (endpointId : String) : String := "peers/" ++ endpointId ++ "/record"
def revocationKey (endpointId : String) : String := "revocations/" ++ endpointId

/-- The endpoint and the field that a key under `peers/` names. -/
def peerField (key : String) : Option (String × String) :=
  (Str.stripPrefix "peers/" key).bind (Str.splitOnce '/')

/-- JSON for one type: what is written can be read back. -/
structure Codec (α β : Type) where
  toVec : α → β
  fromSlice : β → Option α
  fromSlice_toVec : ∀ a, fromSlice (toVec a) = some a

structure Serde (β : Type) where
  genesis : Codec Genesis β
  epoch : Codec EpochRecord β
  revocation : Codec Revocation β
  record : Codec SignedMemberRecord β
  metadata : Codec SignedMemberMetadata β
  str : String → β

/-! ### Replicas -/

/-- What never changes in a `DocsInner`. -/
structure DocsConfig where
  author : AuthorId
  networkId : Uuid
  networkName : String
  coordinatorSigningKey : Option (List UInt8)
  coordinatorVerifyingKey : String
  contentKey : String

/-- The mutable part of a `DocsInner`. -/
structure DocsMembership where
  genesis : Option Genesis
  /-- One more with each kick, so that the bound of `u64` is out of reach. -/
  networkEpoch : Nat
  revoked : Finset String
  members : Map String MembershipEntry

/-- What a rebuild finds around it: which blobs it can read, and the time. -/
structure View (β : Type) where
  readable : β → Bool
  now : Timestamp

inductive RebuildError
  /-- `coordinator verifying key` -/
  | verifyingKey (e : VerifyError)
  /-- `missing valid genesis; ...` -/
  | missingGenesis
  /-- A revocation blob is not the JSON of a revocation. -/
  | revocationJson
  /-- `duplicate signed member address {} for endpoints {} and {}` -/
  | duplicateAddress
deriving DecidableEq

variable {β : Type}

section Rebuild

variable (c : Signing) (j : Serde β) (cfg : DocsConfig) (view : View β)

def getAllKeyBytes (doc : Doc β) (key : String) : List β :=
  ((doc.filter (·.key = key)).map (·.content)).filter view.readable

variable (vk : List UInt8)

/-- A genesis blob that counts: signed, of this network, and with the plan already in use. -/
def acceptGenesis (localGenesis : Option Genesis) (bytes : β) : Option Genesis :=
  match j.genesis.fromSlice bytes with
  | none => none
  | some candidate =>
    if (c.verifyGenesis vk candidate).isOk && candidate.networkId == cfg.networkId &&
        localGenesis.all (·.addressPlan == candidate.addressPlan) then
      some candidate
    else
      none

def acceptEpoch (bytes : β) : Option Nat :=
  match j.epoch.fromSlice bytes with
  | none => none
  | some epoch => if (c.verifyEpoch vk epoch).isOk then some epoch.networkEpoch else none

/-- The highest epoch among the readable, signed epoch entries. -/
def minEpochOf (doc : Doc β) : Nat :=
  (getAllKeyBytes view doc epochKey).foldl
    (fun minEpoch bytes => match acceptEpoch c j vk bytes with
      | none => minEpoch
      | some epoch => max minEpoch epoch) 0

/-- One turn of the revocation loop. The key says who is revoked, the body is only verified. -/
def revocationStep (revoked : Finset String) (e : DocEntry β) :
    Except RebuildError (Finset String) :=
  match Str.stripPrefix "revocations/" e.key with
  | none => .ok revoked
  | some endpointId =>
    if !view.readable e.content then .ok revoked
    else
      match j.revocation.fromSlice e.content with
      -- `serde_json::from_slice(&bytes)?` gives up the whole rebuild
      | none => .error .revocationJson
      | some revocation =>
        if (c.verifyRevocation vk revocation).isOk then .ok (insert endpointId revoked)
        else .ok revoked

def readRevocations (doc : Doc β) : Except RebuildError (Finset String) :=
  doc.foldlM (revocationStep c j view vk) ∅

/-- The member a record stands for. -/
def SignedMemberRecord.toEntry (r : SignedMemberRecord) : MembershipEntry where
  endpointId := r.endpointId
  hostname := r.hostname
  ipv4 := r.ipv4
  tags := r.tags
  joinedAt := r.joinedAt
  coordinator := r.coordinator
  status := "active"
  sshHostKey := none

variable (genesis : Genesis) (minEpoch : Nat) (revoked : Finset String)

/-- The checks of the member loop: the endpoint of the key with the record's sequence and member,
or nothing when the entry is skipped. -/
def acceptRecord (e : DocEntry β) : Option (String × Nat × MembershipEntry) :=
  match peerField e.key with
  | none => none
  | some (endpointId, field) =>
    if field ≠ "record" then none
    else if endpointId ∈ revoked then none
    else if !view.readable e.content then none
    else
      match j.record.fromSlice e.content with
      | none => none
      | some record =>
        if !(c.verifyMemberRecord vk record minEpoch view.now).isOk then none
        else if !(validateMemberAgainstGenesis genesis record).isOk then none
        else if record.status = "kicked" ∨ record.endpointId ∈ revoked then none
        else some (endpointId, record.sequence, record.toEntry)

/-- The member loop: under each endpoint the record of the highest sequence is kept. -/
def recordMap (doc : Doc β) : Map String MembershipEntry :=
  (latest Prod.fst (doc.filterMap (acceptRecord c j view vk genesis minEpoch revoked))).mapVal
    fun _ kept => kept.2

def acceptMetadata (map : Map String MembershipEntry) (e : DocEntry β) :
    Option (String × SignedMemberMetadata) :=
  match peerField e.key with
  | none => none
  | some (endpointId, field) =>
    if field ≠ "metadata" ∨ (map.lookup endpointId).isNone ∨ endpointId ∈ revoked then none
    else if !view.readable e.content then none
    else
      match j.metadata.fromSlice e.content with
      | none => none
      | some metadata =>
        if metadata.networkId ≠ cfg.networkId ∨ metadata.endpointId ≠ endpointId ∨
            !(c.verifyMemberMetadata metadata).isOk then none
        else some (endpointId, metadata)

/-- The metadata loop: each member gets the SSH host key of its latest metadata. -/
def applyMetadata (doc : Doc β) (map : Map String MembershipEntry) : Map String MembershipEntry :=
  let effective := latest SignedMemberMetadata.sequence
    (doc.filterMap (acceptMetadata c j cfg view revoked map))
  map.mapVal fun endpointId member =>
    match effective.lookup endpointId with
    | none => member
    | some metadata => { member with sshHostKey := some metadata.sshHostKey }

/-- The members of a document, before addresses are compared. -/
def memberMap (doc : Doc β) : Map String MembershipEntry :=
  applyMetadata c j cfg view revoked doc (recordMap c j view vk genesis minEpoch revoked doc)

/-- `rebuild_from_doc`. A rebuild that fails keeps what it stored before. -/
def rebuildFromDoc (doc : Doc β) (m : DocsMembership) : DocsMembership × Except RebuildError Unit :=
  match c.verifyingKeyFromHex cfg.coordinatorVerifyingKey with
  | .error e => (m, .error (.verifyingKey e))
  | .ok vk =>
  match ((getAllKeyBytes view doc genesisKey).findSome? (acceptGenesis c j cfg vk m.genesis)).or
      m.genesis with
  | none => (m, .error .missingGenesis)
  | some genesis =>
  let minEpoch := minEpochOf c j view vk doc
  let m₁ := { m with
    genesis := some genesis
    networkEpoch := if 0 < minEpoch then minEpoch else m.networkEpoch }
  match readRevocations c j view vk doc with
  | .error e => (m₁, .error e)
  | .ok revoked =>
  let m₂ := { m₁ with revoked := revoked }
  let map := memberMap c j cfg view vk genesis minEpoch revoked doc
  if map.DistinctVals (·.ipv4) then ({ m₂ with members := map }, .ok ())
  else (m₂, .error .duplicateAddress)

end Rebuild

/-! ### The coordinator -/

inductive MembershipError
  /-- `coordinator verifying key`, or the genesis does not verify -/
  | verify (e : VerifyError)
  /-- `genesis network_id mismatch` -/
  | genesisNetwork
  /-- `coordinator signing key required to publish genesis` -/
  | genesisSigningKey
  /-- `coordinator signing key not configured` -/
  | noSigningKey
  /-- `grant expiry is outside the representable timestamp range` -/
  | grantExpiry

section Coordinator

variable (c : Signing) (j : Serde β) (cfg : DocsConfig)

/-- `publish_genesis`. Without a signing key the genesis entry is written all the same. -/
def publishGenesis (g : Genesis) (m : DocsMembership) (doc : Doc β) :
    (DocsMembership × Doc β) × Except MembershipError Unit :=
  match c.verifyingKeyFromHex cfg.coordinatorVerifyingKey with
  | .error e => ((m, doc), .error (.verify e))
  | .ok vk =>
  match c.verifyGenesis vk g with
  | .error e => ((m, doc), .error (.verify e))
  | .ok () =>
  if g.networkId ≠ cfg.networkId then ((m, doc), .error .genesisNetwork)
  else
    let doc := doc.setBytes cfg.author genesisKey (j.genesis.toVec g)
    match cfg.coordinatorSigningKey with
    | none => ((m, doc), .error .genesisSigningKey)
    | some sk =>
      let epoch := c.signEpoch sk ⟨0, ""⟩
      let doc := doc.setBytes cfg.author epochKey (j.epoch.toVec epoch)
      let doc := doc.setBytes cfg.author (metaKey "name") (j.str cfg.networkName)
      (({ m with networkEpoch := 0, genesis := some g }, doc), .ok ())

def issueGrant (now : Timestamp) (m : DocsMembership) (endpointId : String) (role : MemberRole) :
    Except MembershipError NetworkGrant :=
  match cfg.coordinatorSigningKey, grantExpiry now with
  | none, _ => .error .noSigningKey
  | some _, none => .error .grantExpiry
  | some sk, some expiresAt => .ok (c.signGrant sk
      { networkId := cfg.networkId
        endpointId := endpointId
        role := role
        networkEpoch := m.networkEpoch
        issuedAt := now
        expiresAt := expiresAt
        contentKey := cfg.contentKey
        sig := "" })

def buildRecord (entry : MembershipEntry) (grant : NetworkGrant) (sequence : Nat) :
    Except MembershipError SignedMemberRecord :=
  match cfg.coordinatorSigningKey with
  | none => .error .noSigningKey
  | some sk => .ok (c.signMemberRecord sk
      { schemaVersion := memberSchemaVersion
        networkId := cfg.networkId
        endpointId := entry.endpointId
        hostname := entry.hostname
        ipv4 := entry.ipv4
        tags := entry.tags
        status := entry.status
        sequence := sequence
        joinedAt := entry.joinedAt
        grant := grant
        endpointSig := ""
        coordinator := entry.coordinator })

def writeMemberRecord (author : AuthorId) (record : SignedMemberRecord) (doc : Doc β) : Doc β :=
  doc.setBytes author (recordKey record.endpointId) (j.record.toVec record)

/-- `admit_peer`: a grant of the current epoch in a signed record of sequence 1, or 2 when the
endpoint is a member already. -/
def admitPeer (now : Timestamp) (entry : MembershipEntry) (m : DocsMembership) (doc : Doc β) :
    Except MembershipError
      ((DocsMembership × Doc β) × NetworkGrant × String × SignedMemberRecord) := do
  let grant ← issueGrant c cfg now m entry.endpointId
    (if entry.coordinator then .coordinator else .member)
  -- a `MembershipEntry` has no sequence of its own to count on from
  let sequence := if (m.members.lookup entry.endpointId).isSome then 2 else 1
  let record ← buildRecord c cfg entry grant sequence
  let doc := writeMemberRecord j cfg.author record doc
  let m := { m with members := m.members.insert entry.endpointId entry }
  return ((m, doc), grant, cfg.contentKey, record)

/-- `kick_peer`: the epoch goes up by one and a revocation is filed under the endpoint. -/
def kickPeer (endpointId : String) (m : DocsMembership) (doc : Doc β) :
    Except MembershipError (DocsMembership × Doc β) :=
  match cfg.coordinatorSigningKey with
  | none => .error .noSigningKey
  | some sk =>
    -- the grants of the other members keep the epoch they were issued with
    let newEpoch := m.networkEpoch + 1
    let epoch := c.signEpoch sk ⟨newEpoch, ""⟩
    let doc := doc.setBytes cfg.author epochKey (j.epoch.toVec epoch)
    let revocation := c.signRevocation sk ⟨endpointId, newEpoch, "kicked", ""⟩
    let doc := doc.setBytes cfg.author (revocationKey endpointId) (j.revocation.toVec revocation)
    let m := { m with
      networkEpoch := newEpoch
      revoked := insert endpointId m.revoked
      members := m.members.erase endpointId }
    .ok (m, doc)

end Coordinator

end Tunnet.Direct

import Tunnet.Direct.AddrPlan
import Tunnet.Util.Hex

/-!
# Grants, member records, genesis, epochs and revocations

`tunnet-core/src/direct/grants.rs`: the records of a Direct network and how they are signed and
verified. Ed25519 and the serialization of sign payloads are the parameters `Ed25519` and
`Payloads`.
-/

namespace Tunnet.Direct

inductive MemberRole
  | coordinator
  | member
deriving DecidableEq

structure NetworkGrant where
  networkId : Uuid
  endpointId : String
  role : MemberRole
  networkEpoch : Nat
  issuedAt : Timestamp
  expiresAt : Timestamp
  contentKey : String
  sig : String

structure SignedMemberRecord where
  schemaVersion : Nat
  networkId : Uuid
  endpointId : String
  hostname : String
  ipv4 : Ipv4Addr
  tags : List String
  status : String
  sequence : Nat
  joinedAt : Timestamp
  grant : NetworkGrant
  endpointSig : String
  coordinator : Bool

def memberSchemaVersion : Nat := 3
def memberMetadataSchemaVersion : Nat := 1
def genesisSchemaVersion : Nat := 2

structure Genesis where
  schemaVersion : Nat
  networkId : Uuid
  networkName : String
  coordinatorEndpointId : String
  coordinatorVerifyingKey : String
  addressPlan : AddressPlan
  createdAt : Timestamp
  sig : String

structure EpochRecord where
  networkEpoch : Nat
  sig : String

structure Revocation where
  endpointId : String
  networkEpoch : Nat
  reason : String
  sig : String

/-- Data a device owns; signed by the endpoint key that `endpointId` names. -/
structure SignedMemberMetadata where
  schemaVersion : Nat
  networkId : Uuid
  endpointId : String
  sshHostKey : String
  sequence : Nat
  sig : String

/-! ### Sign payloads -/

structure GrantSignPayload where
  networkId : Uuid
  endpointId : String
  role : MemberRole
  networkEpoch : Nat
  issuedAt : Timestamp
  expiresAt : Timestamp
  contentKey : String

structure MemberRecordSignPayload where
  schemaVersion : Nat
  networkId : Uuid
  endpointId : String
  hostname : String
  ipv4 : Ipv4Addr
  tags : List String
  status : String
  sequence : Nat
  joinedAt : Timestamp
  grant : NetworkGrant
  coordinator : Bool

structure MemberMetadataSignPayload where
  schemaVersion : Nat
  networkId : Uuid
  endpointId : String
  sshHostKey : String
  sequence : Nat

structure GenesisSignPayload where
  schemaVersion : Nat
  networkId : Uuid
  networkName : String
  coordinatorEndpointId : String
  coordinatorVerifyingKey : String
  peerCidr : Ipv4Net
  createdAt : Timestamp

structure EpochSignPayload where
  networkEpoch : Nat

structure RevocationSignPayload where
  endpointId : String
  networkEpoch : Nat
  reason : String

/-- `serde_json::to_vec` on each payload type. -/
structure Payloads where
  grant : GrantSignPayload → List UInt8
  memberRecord : MemberRecordSignPayload → List UInt8
  memberMetadata : MemberMetadataSignPayload → List UInt8
  genesis : GenesisSignPayload → List UInt8
  epoch : EpochSignPayload → List UInt8
  revocation : RevocationSignPayload → List UInt8

/-- Ed25519 on raw keys and signatures. The laws say that what was signed verifies. -/
structure Ed25519 where
  verifyingKey : List UInt8 → List UInt8
  /-- `VerifyingKey::from_bytes` accepts the bytes. -/
  isPoint : List UInt8 → Bool
  sign : List UInt8 → List UInt8 → List UInt8
  verify : List UInt8 → List UInt8 → List UInt8 → Bool
  length_verifyingKey : ∀ sk, (verifyingKey sk).length = 32
  isPoint_verifyingKey : ∀ sk, isPoint (verifyingKey sk)
  length_sign : ∀ sk m, (sign sk m).length = 64
  verify_sign : ∀ sk m, verify (verifyingKey sk) m (sign sk m)

/-- The signature scheme together with the serialization of what is signed. -/
structure Signing where
  ed : Ed25519
  payload : Payloads

inductive VerifyError
  /-- `invalid verifying key hex` -/
  | keyHex
  /-- `verifying key must be 32 bytes` -/
  | keyLength
  /-- `invalid ed25519 verifying key` -/
  | keyPoint
  /-- `invalid signature hex` -/
  | signatureHex
  /-- `signature must be 64 bytes` -/
  | signatureLength
  /-- `invalid signature` -/
  | signature
  /-- `grant epoch {} below minimum {}` -/
  | grantEpoch (epoch minEpoch : Nat)
  /-- `grant expired at {}` -/
  | grantExpired (expiresAt : Timestamp)
  /-- `unsupported member record schema {}; ...` -/
  | recordSchema (version : Nat)
  /-- `member record and grant network mismatch` -/
  | recordGrantNetwork
  /-- `member record and grant endpoint mismatch` -/
  | recordGrantEndpoint
  /-- `member record and grant role mismatch` -/
  | recordGrantRole
  /-- `unsupported genesis schema {}; ...` -/
  | genesisSchema (version : Nat)
  /-- `member network mismatch` -/
  | memberNetwork
  /-- `grant network mismatch` -/
  | grantNetwork
  /-- `{ip} not usable in {cidr}` -/
  | memberIp (e : AddressPlanError)
  /-- `unsupported member metadata schema {}` -/
  | metadataSchema (version : Nat)
  /-- `empty SSH host key` -/
  | emptySshHostKey
deriving DecidableEq

namespace Signing

variable {vk : List UInt8}

variable (c : Signing)

def verifyingKeyFromHex (hexKey : String) : Except VerifyError (List UInt8) :=
  match Hex.decode (Str.trim hexKey) with
  | none => .error .keyHex
  | some bytes =>
    if bytes.length ≠ 32 then .error .keyLength
    else if !c.ed.isPoint bytes then .error .keyPoint
    else .ok bytes

def signBytes (sk payload : List UInt8) : String := Hex.encode (c.ed.sign sk payload)

def verifySig (vk payload : List UInt8) (sigHex : String) : Except VerifyError Unit :=
  match Hex.decode (Str.trim sigHex) with
  | none => .error .signatureHex
  | some bytes =>
    if bytes.length ≠ 64 then .error .signatureLength
    else if c.ed.verify vk payload bytes then .ok ()
    else .error .signature

def grantSignPayload (g : NetworkGrant) : List UInt8 :=
  c.payload.grant ⟨g.networkId, g.endpointId, g.role, g.networkEpoch, g.issuedAt, g.expiresAt,
    g.contentKey⟩

def memberRecordSignPayload (r : SignedMemberRecord) : List UInt8 :=
  c.payload.memberRecord ⟨r.schemaVersion, r.networkId, r.endpointId, r.hostname, r.ipv4, r.tags,
    r.status, r.sequence, r.joinedAt, r.grant, r.coordinator⟩

def memberMetadataSignPayload (r : SignedMemberMetadata) : List UInt8 :=
  c.payload.memberMetadata ⟨r.schemaVersion, r.networkId, r.endpointId, r.sshHostKey, r.sequence⟩

def genesisSignPayload (g : Genesis) : List UInt8 :=
  c.payload.genesis ⟨g.schemaVersion, g.networkId, g.networkName, g.coordinatorEndpointId,
    g.coordinatorVerifyingKey, g.addressPlan.peerCidr, g.createdAt⟩

def epochSignPayload (e : EpochRecord) : List UInt8 := c.payload.epoch ⟨e.networkEpoch⟩

def revocationSignPayload (r : Revocation) : List UInt8 :=
  c.payload.revocation ⟨r.endpointId, r.networkEpoch, r.reason⟩

/-! ### Signing -/

variable (sk : List UInt8)

def signGrant (g : NetworkGrant) : NetworkGrant :=
  { g with sig := c.signBytes sk (c.grantSignPayload g) }

def signMemberRecord (r : SignedMemberRecord) : SignedMemberRecord :=
  { r with endpointSig := c.signBytes sk (c.memberRecordSignPayload r) }

def signGenesis (g : Genesis) : Genesis :=
  { g with sig := c.signBytes sk (c.genesisSignPayload g) }

def signEpoch (e : EpochRecord) : EpochRecord :=
  { e with sig := c.signBytes sk (c.epochSignPayload e) }

def signRevocation (r : Revocation) : Revocation :=
  { r with sig := c.signBytes sk (c.revocationSignPayload r) }

/-! ### Verification -/

variable (vk : List UInt8)

def verifyGrant (g : NetworkGrant) (minEpoch : Nat) (now : Timestamp) : Except VerifyError Unit :=
  if g.networkEpoch < minEpoch then .error (.grantEpoch g.networkEpoch minEpoch)
  else if g.expiresAt ≤ now then .error (.grantExpired g.expiresAt)
  else c.verifySig vk (c.grantSignPayload g) g.sig

def verifyMemberRecord (r : SignedMemberRecord) (minEpoch : Nat)
    (now : Timestamp) : Except VerifyError Unit :=
  if r.schemaVersion ≠ memberSchemaVersion then .error (.recordSchema r.schemaVersion)
  else if r.grant.networkId ≠ r.networkId then .error .recordGrantNetwork
  else if r.grant.endpointId ≠ r.endpointId then .error .recordGrantEndpoint
  else if r.coordinator ≠ (r.grant.role == .coordinator) then .error .recordGrantRole
  else
    match c.verifyGrant vk r.grant minEpoch now with
    | .error e => .error e
    | .ok () => c.verifySig vk (c.memberRecordSignPayload r) r.endpointSig

def verifyGenesis (g : Genesis) : Except VerifyError Unit :=
  if g.schemaVersion ≠ genesisSchemaVersion then .error (.genesisSchema g.schemaVersion)
  else c.verifySig vk (c.genesisSignPayload g) g.sig

def verifyEpoch (e : EpochRecord) : Except VerifyError Unit :=
  c.verifySig vk (c.epochSignPayload e) e.sig

def verifyRevocation (r : Revocation) : Except VerifyError Unit :=
  c.verifySig vk (c.revocationSignPayload r) r.sig

def verifyMemberMetadata (r : SignedMemberMetadata) : Except VerifyError Unit :=
  if r.schemaVersion ≠ memberMetadataSchemaVersion then .error (.metadataSchema r.schemaVersion)
  else if (Str.trim r.sshHostKey).isEmpty then .error .emptySshHostKey
  else
    match c.verifyingKeyFromHex r.endpointId with
    | .error e => .error e
    | .ok vk => c.verifySig vk (c.memberMetadataSignPayload r) r.sig

end Signing

def validateMemberAgainstGenesis (g : Genesis) (r : SignedMemberRecord) : Except VerifyError Unit :=
  if r.networkId ≠ g.networkId then .error .memberNetwork
  else if r.grant.networkId ≠ g.networkId then .error .grantNetwork
  else
    match validateMemberIp g.addressPlan r.ipv4 with
    | .error e => .error (.memberIp e)
    | .ok () => .ok ()

/-- Ten years, in nanoseconds. -/
def grantLifetime : Timestamp := 3650 * 24 * 3600 * 1000000000

def grantExpiry (issuedAt : Timestamp) : Option Timestamp := issuedAt.checkedAdd grantLifetime

/-! ### What the checks mean -/

theorem isOk_unit_iff {ε : Type} {x : Except ε Unit} : x.isOk = true ↔ x = .ok () := by
  cases x <;> simp [Except.isOk, Except.toBool]

variable {r : SignedMemberRecord}

theorem validateMemberAgainstGenesis_isOk_iff {g : Genesis} :
    (validateMemberAgainstGenesis g r).isOk ↔
      r.networkId = g.networkId ∧ r.grant.networkId = g.networkId ∧
        isUsableHost g.addressPlan.peerCidr r.ipv4 := by
  rw [isOk_unit_iff, validateMemberAgainstGenesis, validateMemberIp]
  by_cases h₁ : r.networkId = g.networkId <;> by_cases h₂ : r.grant.networkId = g.networkId <;>
    by_cases h₃ : isUsableHost g.addressPlan.peerCidr r.ipv4 <;> simp [h₁, h₂, h₃]

namespace Signing

variable {c : Signing} {minEpoch m n : Nat}
  {r : SignedMemberRecord} {vk : List UInt8} {now : Timestamp}

theorem verifyGrant_isOk_iff {g : NetworkGrant} : (c.verifyGrant vk g minEpoch now).isOk ↔
      minEpoch ≤ g.networkEpoch ∧ now < g.expiresAt ∧
        (c.verifySig vk (c.grantSignPayload g) g.sig).isOk := by
  unfold verifyGrant
  split_ifs with hepoch hexp
  · have : ¬ minEpoch ≤ g.networkEpoch := by omega
    simp [Except.toBool, this]
  · have : ¬ now < g.expiresAt := not_lt.2 hexp
    simp [Except.toBool, this]
  · have h₁ : minEpoch ≤ g.networkEpoch := by omega
    have h₂ : now < g.expiresAt := not_le.1 hexp
    simp [h₁, h₂]

theorem verifyMemberRecord_isOk_iff : (c.verifyMemberRecord vk r minEpoch now).isOk ↔
      r.schemaVersion = memberSchemaVersion ∧ r.grant.networkId = r.networkId ∧
      r.grant.endpointId = r.endpointId ∧ r.coordinator = (r.grant.role == .coordinator) ∧
      (c.verifyGrant vk r.grant minEpoch now).isOk ∧
      (c.verifySig vk (c.memberRecordSignPayload r) r.endpointSig).isOk := by
  unfold verifyMemberRecord
  split_ifs with h₁ h₂ h₃ h₄
  · simp [Except.toBool, h₁]
  · simp [Except.toBool, h₂]
  · simp [Except.toBool, h₃]
  · simp [Except.toBool, h₄]
  · rw [not_not] at h₁ h₂ h₃ h₄
    cases hg : c.verifyGrant vk r.grant minEpoch now with
    | error => simp [Except.toBool]
    | ok => simp [Except.toBool, h₁, h₂, h₃, h₄]

theorem verifyMemberRecord_isOk_mono (hmn : m ≤ n)
    (h : (c.verifyMemberRecord vk r n now).isOk) : (c.verifyMemberRecord vk r m now).isOk := by
  rw [verifyMemberRecord_isOk_iff, verifyGrant_isOk_iff] at h ⊢
  obtain ⟨h₁, h₂, h₃, h₄, ⟨hepoch, h₅⟩, h₆⟩ := h
  exact ⟨h₁, h₂, h₃, h₄, ⟨hmn.trans hepoch, h₅⟩, h₆⟩

/-! ### What was signed verifies -/

variable (sk m : List UInt8)

theorem verifySig_signBytes : c.verifySig (c.ed.verifyingKey sk) m (c.signBytes sk m) = .ok () := by
  rw [verifySig, signBytes, Hex.trim_encode, Hex.decode_encode]
  simp [c.ed.length_sign, c.ed.verify_sign]

theorem verifyingKeyFromHex_encode :
    c.verifyingKeyFromHex (Hex.encode (c.ed.verifyingKey sk)) = .ok (c.ed.verifyingKey sk) := by
  rw [verifyingKeyFromHex, Hex.trim_encode, Hex.decode_encode]
  simp [c.ed.length_verifyingKey, c.ed.isPoint_verifyingKey]

theorem verifyGenesis_signGenesis {g : Genesis} (hg : g.schemaVersion = genesisSchemaVersion) :
    c.verifyGenesis (c.ed.verifyingKey sk) (c.signGenesis sk g) = .ok () :=
  (if_neg (not_not.2 hg)).trans (verifySig_signBytes sk _)

theorem verifyRevocation_signRevocation (r : Revocation) :
    c.verifyRevocation (c.ed.verifyingKey sk) (c.signRevocation sk r) = .ok () :=
  verifySig_signBytes sk _

end Signing

end Tunnet.Direct

import Tunnet.Net.Ip
import Tunnet.Util.Faults
import Tunnet.Util.Hex
import Tunnet.Util.Map

/-!
# The sealed vault

The secrets of an agent are encrypted with a fresh key and written to `state.enc`; `state.enc.meta`
says how that key is found again. Each of the two files is written atomically.
-/

namespace Tunnet.Secrets

/-! ### Secrets -/

inductive SealTier
  | tpm
  | keystore
  | keychain
  | derived
  | plaintext
  deriving DecidableEq

structure NetworkSecrets where
  joinSecret : String
  docTicket : Option String
  coordinatorSigningKey : Option String
  networkGrant : Option String
  contentKey : Option String

/-- The times are nanoseconds. -/
structure CliAuthTokens where
  managementUrl : String
  accessToken : String
  refreshToken : Option String
  tokenType : String
  scope : Option String
  expiresAt : Option ℤ
  obtainedAt : ℤ

abbrev Bytes := List UInt8

/-- `[u8; 32]`. -/
abbrev Key := { b : Bytes // b.length = 32 }

abbrev Nonce := { b : Bytes // b.length = 12 }

structure AgentSecrets where
  identitySeed : Key
  networks : Map Uuid NetworkSecrets
  auth : Option CliAuthTokens
  relayAuth : Map String String

structure SensitivePayload where
  version : ℕ
  identitySeedHex : String
  networks : Map Uuid NetworkSecrets
  auth : Option CliAuthTokens
  relayAuth : Map String String

structure SealMeta where
  version : ℕ
  tier : SealTier
  saltHex : Option String
  wrappedDekHex : Option String
  dekHex : Option String

def payloadVersion : ℕ := 2
def metaVersion : ℕ := 2

/-! ### The platform -/

inductive Os
  | linux
  | macos
  | windows
  | android
  | other
  deriving DecidableEq

/-- `PlatformSealer`, and Windows' data protection: wrapping is randomized by a seed. -/
structure Sealer where
  wrap : ℕ → Bytes → Option Bytes
  unwrap : Bytes → Option Bytes
  unwrap_wrap : ∀ seed b w, wrap seed b = some w → unwrap w = some b

/-- What does not change between a start of the agent and the next one. -/
structure Platform where
  os : Os
  machineId : Option String
  sealer : Option Sealer
  dpapi : Sealer

/-- AES-256-GCM, HKDF and JSON. A text is decrypted with one key only. -/
structure Libs where
  encrypt : Key → Nonce → Bytes → Bytes
  decrypt : Key → Nonce → Bytes → Option Bytes
  decrypt_encrypt : ∀ k n b, decrypt k n (encrypt k n b) = some b
  key_unique : ∀ k k' n c, decrypt k n c ≠ none → decrypt k' n c ≠ none → k = k'
  le_length_encrypt : ∀ k n b, 16 ≤ (encrypt k n b).length
  hkdf : String → Option Bytes → Key
  payloadToVec : SensitivePayload → Bytes
  payloadFromSlice : Bytes → Option SensitivePayload
  payloadFromSlice_toVec : ∀ payload, payloadFromSlice (payloadToVec payload) = some payload
  metaToVec : SealMeta → Bytes
  metaFromSlice : Bytes → Option SealMeta
  metaFromSlice_toVec : ∀ m, metaFromSlice (metaToVec m) = some m

/-- What is drawn at random for one save. -/
structure Draw where
  dek : Key
  nonce : Nonce
  salt : Bytes
  wrapNonce : Nonce
  seed : ℕ

/-- The files of the state directory that count here, and the entry in the keychain. -/
structure Disk where
  stateFile : Option Bytes := none
  secretsFile : Option Bytes := none
  secretsMetaFile : Option Bytes := none
  keychain : Option Bytes := none

/-- The steps of the code that may fail, or where the machine may stop. -/
inductive IoStep
  | ensure
  | exists
  | readMeta
  | readSecrets
  | machineId
  | sealer
  | dpapi
  | keychainDelete
  | keychainSet
  | keychainGet
  | writeState
  | writeSecrets
  | writeMeta
  deriving DecidableEq

abbrev Io := Faulty IoStep Disk String

open Faulty (act query raise attempt)

section

variable (lib : Libs) (p : Platform)

/-! ### Wrapping the key -/

def splitNonce (blob : Bytes) : Option (Nonce × Bytes) :=
  if h : 12 + 16 ≤ blob.length then
    some (⟨blob.take 12, by rw [List.length_take]; omega⟩, blob.drop 12)
  else none

def joinNonce (nonce : Nonce) (ciphertext : Bytes) : Bytes := nonce.1 ++ ciphertext

def toKey (b : Bytes) : Option Key := if h : b.length = 32 then some ⟨b, h⟩ else none

def wrapDek (wrapKey : Key) (nonce : Nonce) (dek : Key) : Bytes :=
  joinNonce nonce (lib.encrypt wrapKey nonce dek.1)

def unwrapDek (wrapKey : Key) (wrapped : Bytes) : Except String Key :=
  match splitNonce wrapped with
  | none => .error "wrapped DEK too short"
  | some (nonce, ciphertext) =>
    match lib.decrypt wrapKey nonce ciphertext with
    | none => .error "unwrap DEK failed"
    | some plain =>
      match toKey plain with
      | none => .error "unwrapped DEK wrong length"
      | some dek => .ok dek

/-- `read_machine_id`. The two files that Linux has for the id are one step: they hold the same id,
and the step fails if neither can be read. -/
def readMachineId : Io String :=
  match p.os with
  | .android => raise "derived sealing is not available on Android"
  | .other => pure "unknown-machine"
  | .linux => query .machineId "no machine-id found" fun _ => p.machineId
  | .macos => query .machineId "IOPlatformUUID not found" fun _ => p.machineId
  | .windows => query .machineId "MachineGuid not found" fun _ => p.machineId

def deriveWrapKey (salt : Bytes) : Io Key := do
  let machineId ← readMachineId p
  return lib.hkdf machineId (if salt = [] then none else some salt)

/-- `macos_keychain::store` on macOS. -/
def storeDekKeychain (dek : Key) : Io Unit :=
  if p.os = .macos then do
    -- The result of the deletion is ignored.
    let _ ← attempt (act .keychainDelete "" fun d => { d with keychain := none })
    act .keychainSet "Keychain set_generic_password" fun d => { d with keychain := some dek.1 }
  else raise "Keychain not available on this platform"

def loadDekKeychain : Io Key :=
  if p.os = .macos then do
    let data ← query .keychainGet "Keychain get_generic_password" (·.keychain)
    Faulty.ofOption "Keychain DEK wrong length" (toKey data)
  else raise "Keychain not available on this platform"

def wrapDekTpm (seed : ℕ) (dek : Key) : Io Bytes :=
  if p.os = .windows then query .dpapi "CryptProtectData failed" fun _ => p.dpapi.wrap seed dek.1
  else raise "TPM/DPAPI seal not available on this platform"

def unwrapDekTpm (wrapped : Bytes) : Io Key :=
  if p.os = .windows then do
    let plain ← query .dpapi "CryptUnprotectData failed" fun _ => p.dpapi.unwrap wrapped
    Faulty.ofOption "DPAPI unwrapped DEK wrong length" (toKey plain)
  else raise "TPM/DPAPI seal not available on this platform"

def wrapWithPlatform (seed : ℕ) (dek : Key) : Io Bytes :=
  match p.sealer with
  | none => raise "no platform sealer installed"
  | some sealer => query .sealer "wrap" fun _ => sealer.wrap seed dek.1

def unwrapWithPlatform (wrapped : Bytes) : Io Bytes :=
  match p.sealer with
  | none => raise "no platform sealer installed"
  | some sealer => query .sealer "unwrap" fun _ => sealer.unwrap wrapped

/-! ### Sealing -/

def SealMeta.ofTier (tier : SealTier) : SealMeta where
  version := metaVersion
  tier := tier
  saltHex := none
  wrappedDekHex := none
  dekHex := none

def dekMeta (r : Draw) : SealTier → Io SealMeta
  | .plaintext => pure { SealMeta.ofTier .plaintext with dekHex := some (Hex.encode r.dek.1) }
  | .derived => do
    let wrapKey ← deriveWrapKey lib p r.salt
    let wrapped := wrapDek lib wrapKey r.wrapNonce r.dek
    return { SealMeta.ofTier .derived with
      saltHex := some (Hex.encode r.salt)
      wrappedDekHex := some (Hex.encode wrapped) }
  | .keystore => do
    let wrapped ← wrapWithPlatform p r.seed r.dek
    return { SealMeta.ofTier .keystore with wrappedDekHex := some (Hex.encode wrapped) }
  | .keychain => do
    storeDekKeychain p r.dek
    return SealMeta.ofTier .keychain
  | .tpm => do
    let wrapped ← wrapDekTpm p r.seed r.dek
    return { SealMeta.ofTier .tpm with wrappedDekHex := some (Hex.encode wrapped) }

def AgentSecrets.payload (secrets : AgentSecrets) : SensitivePayload where
  version := payloadVersion
  identitySeedHex := Hex.encode secrets.identitySeed.1
  networks := secrets.networks
  auth := secrets.auth
  relayAuth := secrets.relayAuth

variable (r : Draw) (secrets : AgentSecrets)

/-- What is written to `state.enc`. -/
def sealed : Bytes :=
  joinNonce r.nonce (lib.encrypt r.dek r.nonce (lib.payloadToVec secrets.payload))

def sealSecrets (tier : SealTier) : Io SealTier := do
  let m ← dekMeta lib p r tier
  act .writeSecrets "write state.enc" fun d => { d with secretsFile := some (sealed lib r secrets) }
  act .writeMeta "write state.enc.meta" fun d =>
    { d with secretsMetaFile := some (lib.metaToVec m) }
  return tier

def bestTier : Os → SealTier
  | .android => .keystore
  | .windows => .tpm
  | .macos => .keychain
  | .linux => .derived
  | .other => .derived

/-- `SealPolicy::pick_tier`. -/
def pickTier (allowEncrypt : Bool) : SealTier :=
  if allowEncrypt then bestTier p.os else .plaintext

def ensure : Io Unit := act .ensure "mkdir" id

def saveSecrets (allowEncrypt : Bool) : Io SealTier := do
  ensure
  sealSecrets lib p r secrets (pickTier p allowEncrypt)

/-! ### Loading -/

def hexField (missing invalid : String) (field : Option String) : Io Bytes :=
  match field with
  | none => raise missing
  | some s => Faulty.ofOption invalid (Hex.decode s)

def resolveDek (m : SealMeta) : Io Key :=
  match m.tier with
  | .plaintext => do
    let dek ← hexField "plaintext tier missing dek_hex" "dek hex" m.dekHex
    Faulty.ofOption "dek must be 32 bytes" (toKey dek)
  | .derived => do
    let salt ← hexField "derived tier missing salt" "salt hex" m.saltHex
    let wrapped ← hexField "derived tier missing wrapped_dek" "wrapped dek hex" m.wrappedDekHex
    let wrapKey ← deriveWrapKey lib p salt
    Faulty.ofExcept (unwrapDek lib wrapKey wrapped)
  | .keystore => do
    let wrapped ← hexField "keystore tier missing wrapped_dek" "wrapped dek hex" m.wrappedDekHex
    let plain ← unwrapWithPlatform p wrapped
    Faulty.ofOption "unwrapped DEK wrong length" (toKey plain)
  | .keychain => loadDekKeychain p
  | .tpm => do
    let wrapped ← hexField "tpm tier missing wrapped_dek" "wrapped dek hex" m.wrappedDekHex
    unwrapDekTpm p wrapped

/-- What a payload holds. -/
def openPayload (plain : Bytes) : Except String AgentSecrets :=
  match lib.payloadFromSlice plain with
  | none => .error "parse decrypted sensitive payload"
  | some payload =>
    if payload.version ≠ payloadVersion then
      .error ("unsupported sensitive payload version " ++ toString payload.version)
    else
      match Hex.decode payload.identitySeedHex with
      | none => .error "identity seed hex"
      | some seed =>
        match toKey seed with
        | none => .error "identity seed must be 32 bytes"
        | some seed => .ok ⟨seed, payload.networks, payload.auth, payload.relayAuth⟩

/-- What `state.enc` holds for a key. -/
def openSealed (dek : Key) (nonce : Nonce) (ciphertext : Bytes) : Except String AgentSecrets :=
  match lib.decrypt dek nonce ciphertext with
  | none => .error "failed to decrypt state.enc (wrong machine or corrupt?)"
  | some plain => openPayload lib plain

def unsupportedMeta (version : ℕ) : String :=
  "unsupported seal metadata version " ++ toString version ++ " (supported: " ++
    toString metaVersion ++ "); reset or re-enroll to create new sealed state"

/-- `validate_meta` and `refuse_android_derived`. -/
def validateMeta (m : SealMeta) : Except String Unit :=
  if m.version ≠ metaVersion then .error (unsupportedMeta m.version)
  else if p.os = .android ∧ m.tier = .derived then
    .error "derived sealing is not used on Android; clear app storage and rejoin"
  else .ok ()

def loadSecrets : Io (AgentSecrets × SealTier) := do
  let metaBytes ← query .readMeta "read state.enc.meta" (·.secretsMetaFile)
  let m ← Faulty.ofOption "parse state.enc.meta" (lib.metaFromSlice metaBytes)
  let blob ← query .readSecrets "read state.enc" (·.secretsFile)
  let (nonce, ciphertext) ← Faulty.ofOption "state.enc too short" (splitNonce blob)
  Faulty.ofExcept (validateMeta p m)
  let dek ← resolveDek lib p m
  let secrets ← Faulty.ofExcept (openSealed lib dek nonce ciphertext)
  return (secrets, m.tier)

/-- `Path::exists` does not tell a file that is not there from one it cannot see. -/
def secretsExist : Io Bool := do
  let found ← attempt (query .exists "" fun d => if d.secretsFile.isSome then some () else none)
  return found.isOk

/-- A part of the secrets, if there is a vault. -/
def loadField {α : Type} (field : AgentSecrets → α) (missing : α) : Io α := do
  if ← secretsExist then
    let (secrets, _) ← loadSecrets lib p
    return field secrets
  else return missing

def loadAuth : Io (Option CliAuthTokens) := loadField lib p (·.auth) none

def loadRelayAuth : Io (Map String String) := loadField lib p (·.relayAuth) ∅

end

/-! ### Persisting the agent

`persist_agent` writes `state.json` and seals the secrets of the state, with the tokens that the
vault holds. -/

open Faulty (act rename attempt)

/-- What is sealed of a network. -/
structure DirectState where
  networkId : Uuid
  joinSecret : String
  docTicket : Option String
  coordinatorSigningKey : Option String
  networkGrant : Option String
  contentKey : Option String

/-- The state of an agent; `json` is what is written of its public fields. -/
inductive PersistedState
  | managed (json : Bytes)
  | direct (networks : List DirectState) (json : Bytes)

namespace PersistedState

def directNetworks : PersistedState → List DirectState
  | managed _ => []
  | direct networks _ => networks

def json : PersistedState → Bytes
  | managed json => json
  | direct _ json => json

def savePublic (state : PersistedState) : Io Unit := do
  ensure
  act .writeState "write state.json" fun d => { d with stateFile := some state.json }

end PersistedState

def DirectState.secrets (d : DirectState) : NetworkSecrets where
  joinSecret := d.joinSecret
  docTicket := d.docTicket
  coordinatorSigningKey := d.coordinatorSigningKey
  networkGrant := d.networkGrant
  contentKey := d.contentKey

def networkSecrets (state : PersistedState) : Map Uuid NetworkSecrets :=
  state.directNetworks.foldl (fun networks d => networks.insert d.networkId d.secrets) ∅

/-- The calls that `persist_agent` makes. -/
inductive PersistPhase
  | loadAuth
  | loadRelayAuth
  | savePublic
  | saveSecrets
  deriving DecidableEq

section

variable (lib : Libs) (p : Platform)

/-- What `persist_agent` seals. Tokens that could not be loaded count as none. -/
def agentSecrets (identity : Key) (state : PersistedState)
    (auth : Option (Option CliAuthTokens)) (relayAuth : Option (Map String String)) :
    AgentSecrets where
  identitySeed := identity
  networks := networkSecrets state
  auth := auth.join
  relayAuth := relayAuth.getD ∅

def persistAgent (r : Draw) (identity : Key) (state : PersistedState) (allowEncrypt : Bool) :
    Faulty (PersistPhase × IoStep) Disk String SealTier := do
  let auth ← rename (.loadAuth, ·) (attempt (loadAuth lib p))
  let relayAuth ← rename (.loadRelayAuth, ·) (attempt (loadRelayAuth lib p))
  rename (.savePublic, ·) state.savePublic
  rename (.saveSecrets, ·) (saveSecrets lib p r
    (agentSecrets identity state auth.toOption relayAuth.toOption) allowEncrypt)

end

end Tunnet.Secrets

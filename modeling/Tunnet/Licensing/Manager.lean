import Tunnet.Licensing.Verify
import Tunnet.Util.Run

/-!
# The license manager

`LicenseManager` loads a license and a list of revoked licenses again and again, and publishes what
the license allows. A process keeps the list in memory only; the store that outlives it holds the
token and the highest time that was seen.
-/

namespace Tunnet.Licensing

/-! ### Revocation lists -/

/-- What is accepted of a revocation list. -/
structure RevocationList where
  revoked : List String
  issuedAt : ℤ
  deriving DecidableEq

def revocationTyp : String := "tunnet-revocations+2"

def maxRevocationAgeSec : ℤ := 30 * 86400

namespace Ts

/-- The identifier of an entry: a string, or the field `jti` of an object. -/
def revokedEntry : Value → Option String
  | .string s => some s
  | .object entry =>
    match entry.lookup "jti" with
    | some (.string s) => some s
    | _ => none
  | _ => none

def parseRevocationList (lib : Libs) (token : String) (keyring : Keyring) (now : ℤ) :
    Except String RevocationList := do
  let decoded ← (decodeToken lib token).mapError (·.message)
  Check.failIf (decoded.header.typ ≠ revocationTyp) "unexpected typ"
  let key ← Check.okOr ((keyring.get decoded.header.kid).filter (·.status != .compromised))
    "unknown or revoked kid"
  Check.failIf (decoded.header.alg ≠ "Ed25519") "alg mismatch"
  let valid := (lib.ed25519 key.publicKey).any fun verify =>
    verify decoded.signingInput decoded.signature
  Check.failIf (valid = false) "bad signature"
  let iat ← Check.okOr ((decoded.payload.lookup "iat").bind int) "invalid iat"
  let list ← Check.okOr (match decoded.payload.lookup "revoked" with
    | some (.array list) => if list.length ≤ 100000 then some list else none
    | _ => none) "invalid list"
  Check.failIf (maxRevocationAgeSec < addTime now (-iat)) "revocation list is stale"
  let revoked ← Check.okOr (list.mapM revokedEntry) "invalid revocation entry"
  return ⟨revoked, iat⟩

end Ts

/-! ### Entitlements -/

inductive LicenseStatus
  | community
  | active
  | grace
  deriving DecidableEq

/-- Why there is no license: the verifier's code, or a source that is not available. -/
inductive Reason
  | code (c : LicenseFailureCode)
  | unavailable

/-- The tier `none` is the community tier. -/
structure Entitlements where
  status : LicenseStatus
  tier : Option LicenseTier
  features : FeatureMap
  limits : LimitMap
  licenseId : Option String
  subject : Option String
  issuedAt : Option ℤ
  notAfter : Option ℤ
  graceUntil : Option ℤ
  stale : Bool
  reason : Option Reason

def communityWithReason (reason : Option Reason) (stale : Bool) : Entitlements where
  status := .community
  tier := none
  features _ := false
  limits
    | .organizations => some 1
    | _ => none
  licenseId := none
  subject := none
  issuedAt := none
  notAfter := none
  graceUntil := none
  stale := stale
  reason := reason

def communityEntitlements : Entitlements := communityWithReason none false

def entitlementsFrom (license : License) (status : RuntimeStatus) (stale : Bool) :
    Entitlements where
  status := match status with
    | .active => .active
    | .grace => .grace
  tier := some license.tier
  features := license.features
  limits := license.limits
  licenseId := some license.jti
  subject := some license.sub
  issuedAt := some license.iat
  notAfter := some license.exp
  graceUntil := if 0 < license.grace then some (license.exp + license.grace) else none
  stale := stale
  reason := none

/-! ### The manager -/

/-- The result of loading from a source. -/
inductive SourceResult
  | ok (token : String)
  | notConfigured
  | failed (reason : Reason)

structure PersistedState where
  token : Option String
  clockWatermark : Option ℤ

/-- The options that a manager is built with; `audience` is the fingerprint of the deployment. -/
structure ManagerOptions where
  keyring : Keyring
  audience : Option String
  expectedIssuer : Option String
  clockSkewSec : ℤ
  revocationSource : Bool

/-- What the sources, the clock and the store do during a refresh. The clock is read a second time
when the list is there; `readable` and `writable` say whether the store works. -/
structure Surroundings where
  source : SourceResult
  revocations : SourceResult
  wall : ℤ
  later : ℤ
  readable : Bool
  writable : Bool

/-- The memory of a process. -/
structure Manager where
  entitlements : Entitlements := communityEntitlements
  watermark : ℤ := 0
  revoked : Option (List String) := none

structure System where
  store : Option PersistedState := none
  manager : Manager := {}

variable (lib : Libs) (o : ManagerOptions) (io : Surroundings)

/-- `loadRevocations`. -/
def loadRevocations : Option RevocationList :=
  if o.revocationSource then
    match io.revocations with
    | .ok token => (Ts.parseRevocationList lib token o.keyring io.later).toOption
    | _ => none
  else none

/-- The time that counts, and the watermark afterwards. -/
def readClock (watermark wall : ℤ) : ℤ × ℤ :=
  if Ts.addTime wall o.clockSkewSec < watermark then (watermark, watermark)
  else if watermark < wall then (wall, wall)
  else (wall, watermark)

/-- `Date.prototype.toISOString` throws outside of this range. -/
def isDate (seconds : ℤ) : Bool := |seconds * 1000| ≤ 8640000000000000

/-- The time that is logged of a license. -/
def loggedTime (license : License) : RuntimeStatus → ℤ
  | .active => license.exp
  | .grace => license.exp + license.grace

def verifyOptions (now : ℤ) (revoked : Option (List String)) : VerifyOptions where
  keyring := o.keyring
  now := now
  clockSkew := o.clockSkewSec
  audience := o.audience
  expectedIssuer := o.expectedIssuer
  revokedIds := revoked

/-- `persist`: a failed write is logged only. -/
def persist (token : String) (s : System) : System :=
  if io.writable then { s with store := some ⟨some token, some s.manager.watermark⟩ } else s

def publish (e : Entitlements) (s : System) : System :=
  { s with manager.entitlements := e }

/-- The process when the clock was read and the list was loaded. -/
def afterLoad (s : System) : System :=
  { s with
    manager.watermark := (readClock o s.manager.watermark io.wall).2
    manager.revoked := ((loadRevocations lib o io).map (·.revoked)).or s.manager.revoked }

variable (token : String) (stale : Bool) (result : VerifyResult) (s : System)

/-- What `evaluate` does with the verifier's result, and `publish` of what it returns; `false` is an
exception. -/
def conclude : System × Bool :=
  match result with
  | .error .crashed => (s, false)
  | .error (.rejected e) =>
    (publish (communityWithReason (some (.code e.code)) stale)
      (if e.code = .expired then persist io token s else s), true)
  | .ok (license, status) =>
    -- The log message throws after the token was stored and before anything is published.
    if isDate (loggedTime license status) then
      (publish (entitlementsFrom license status stale) (persist io token s), true)
    else (persist io token s, false)

/-- `evaluate`, and `publish` of what it returns. -/
def evaluate : System × Bool :=
  let now := (readClock o s.manager.watermark io.wall).1
  let loaded := afterLoad lib o io s
  conclude io token stale
    (Ts.verifyLicenseToken lib token (verifyOptions o now loaded.manager.revoked)) loaded

/-- `doRefresh`, with the list that is accepted. -/
def refresh : System × Option RevocationList × Bool :=
  match io.source with
  | .ok token =>
    let result := evaluate lib o io token false s
    (result.1, loadRevocations lib o io, result.2)
  | .notConfigured => (publish communityEntitlements s, none, true)
  | .failed reason =>
    if io.readable then
      match (s.store.bind (·.token)).filter (· ≠ "") with
      | none => (publish (communityWithReason (some reason) true) s, none, true)
      | some token =>
        let result := evaluate lib o io token true s
        (result.1, loadRevocations lib o io, result.2)
    else (s, none, false)

inductive ManagerCall
  /-- A new process, and `start`, which reads the store once more. -/
  | start (readable : Bool) (io : Surroundings)
  | refresh (io : Surroundings)

/-- `start` in a new process. -/
def start (lib : Libs) (o : ManagerOptions) (readable : Bool) (io : Surroundings) (s : System) :
    System × Option RevocationList × Bool :=
  if readable then
    let watermark := (s.store.bind (·.clockWatermark)).getD 0
    refresh lib o io { s with manager := { watermark := watermark } }
  else ({ s with manager := {} }, none, false)

/-- What comes of a call: the list that was accepted, what `snapshot` gives afterwards, and whether
the refresh got to its end. -/
structure ManagerReply where
  accepted : Option RevocationList
  snapshot : Entitlements
  finished : Bool

def System.step (call : ManagerCall) : System × ManagerReply :=
  let result := match call with
    | .start readable io => start lib o readable io s
    | .refresh io => refresh lib o io s
  (result.1, ⟨result.2.1, result.1.manager.entitlements, result.2.2⟩)

end Tunnet.Licensing

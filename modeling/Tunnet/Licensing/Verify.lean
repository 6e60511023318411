import Tunnet.Licensing.Token

/-!
# The two license verifiers

`Rust.verifyLicenseToken` is the verifier of the control plane and `Ts.verifyLicenseToken` the one
of the management service. Times are whole seconds.
-/

namespace Tunnet.Licensing

/-! ### Tiers, features and limits -/

inductive LicenseTier
  | cloud
  | enterprise

inductive Feature
  | multiOrganization
  | cloudLanding
  | cloudInfrastructure
  | openSignUp
  | clickhouseAudit
  | auditEnterpriseStreams
  | complianceExport
  deriving DecidableEq

namespace Feature

def all : List Feature :=
  [multiOrganization, cloudLanding, cloudInfrastructure, openSignUp, clickhouseAudit,
    auditEnterpriseStreams, complianceExport]

def asStr : Feature → String
  | multiOrganization => "multiOrganization"
  | cloudLanding => "cloudLanding"
  | cloudInfrastructure => "cloudInfrastructure"
  | openSignUp => "openSignUp"
  | clickhouseAudit => "clickhouseAudit"
  | auditEnterpriseStreams => "auditEnterpriseStreams"
  | complianceExport => "complianceExport"

end Feature

inductive Limit
  | organizations
  | nodes
  | seats
  | relays
  deriving DecidableEq

namespace Limit

def all : List Limit := [organizations, nodes, seats, relays]

def asStr : Limit → String
  | organizations => "organizations"
  | nodes => "nodes"
  | seats => "seats"
  | relays => "relays"

end Limit

abbrev FeatureMap := Feature → Bool

/-- `none` is no limit. -/
abbrev LimitMap := Limit → Option ℤ

/-! ### Keys -/

/-- The whole seconds that a Rust timestamp represents. -/
def inRange (s : ℤ) : Prop := -377705023201 ≤ s ∧ s ≤ 253402207200

instance : DecidablePred inRange := fun _ => inferInstanceAs (Decidable (_ ∧ _))

inductive KeyStatus
  | active
  | retired
  | compromised
  deriving DecidableEq

structure TrustedKey where
  kid : String
  publicKey : List UInt8
  validFrom : ℤ
  validUntil : Option ℤ
  status : KeyStatus

/-- A keyring holds at least one key, and one for each `kid`. -/
structure Keyring where
  keys : List TrustedKey
  nonempty : keys ≠ []
  nodup : (keys.map (·.kid)).Nodup

def Keyring.get (keyring : Keyring) (kid : String) : Option TrustedKey :=
  keyring.keys.find? (·.kid == kid)

/-! ### Licenses -/

structure VerifyOptions where
  keyring : Keyring
  now : ℤ
  clockSkew : ℤ
  audience : Option String
  expectedIssuer : Option String
  revokedIds : Option (List String)

/-- The claims of a payload. -/
structure Claims where
  jti : String
  iss : String
  sub : String
  tier : LicenseTier
  features : FeatureMap
  limits : LimitMap
  metadata : List (String × String)
  aud : List String
  iat : ℤ
  nbf : ℤ
  exp : ℤ
  grace : ℤ

/-- The claims, if all of them are there. -/
def claimsOf (jti iss sub : Option String) (tier : Option LicenseTier)
    (features : Option FeatureMap) (limits : Option LimitMap)
    (metadata : Option (List (String × String))) (aud : Option (List String))
    (iat nbf exp grace : Option ℤ) : Option Claims := do
  return { jti := ← jti, iss := ← iss, sub := ← sub, tier := ← tier, features := ← features,
           limits := ← limits, metadata := ← metadata, aud := ← aud, iat := ← iat, nbf := ← nbf,
           exp := ← exp, grace := ← grace }

structure License extends Claims where
  kid : String

inductive RuntimeStatus
  | active
  | grace

/-- No license: it is rejected, or the verifier panics (Rust) or throws (TypeScript). -/
inductive Failure
  | rejected (e : LicenseError)
  | crashed

abbrev VerifyResult := Except Failure (License × RuntimeStatus)

def fail (code : LicenseFailureCode) (message : String) : Failure := .rejected ⟨code, message⟩

def understoodCrit : List String := ["aud", "limits"]

/-- The first critical claim that is not understood stops the verifier. -/
def checkCrit : List String → Except Failure Unit
  | [] => .ok ()
  | c :: crit =>
    if c ∈ understoodCrit then checkCrit crit
    else .error (fail .unsupportedClaim ("unsupported critical claim: " ++ c))

def schemaError : Failure := fail .invalidClaims "license payload failed schema validation"

/-! ### The verifier in Rust -/

namespace Rust

def intClaim : Value → Option ℤ
  | .number n => n.asI64.filter fun i => -(2 ^ 53) ≤ i ∧ i ≤ 2 ^ 53
  | _ => none

def strClaim (max : ℕ) : Value → Option String
  | .string s => if s ≠ "" ∧ s.utf8ByteSize ≤ max then some s else none
  | _ => none

/-- The body of the loop over the features. -/
def setFeature (obj : Fields) (out : FeatureMap) (f : Feature) : Option FeatureMap :=
  match obj.lookup f.asStr with
  | none => some out
  | some (.bool on) => some (Function.update out f on)
  | some _ => none

def parseFeatures : Value → Option FeatureMap
  | .object obj => Feature.all.foldlM (setFeature obj) fun _ => false
  | _ => none

/-- The value of one limit. -/
def parseLimit : Option Value → Option (Option ℤ)
  | none => some none
  | some .null => some none
  | some x => (intClaim x).bind fun n => if n < 0 then none else some (some n)

def parseLimits : Option Value → Option LimitMap
  | none => some fun _ => none
  | some (.object obj) =>
    Limit.all.foldlM (fun out l =>
      (parseLimit (obj.lookup l.asStr)).map (Function.update out l)) fun _ => none
  | some _ => none

def parseMetaEntry : String × Value → Option (String × String)
  | (k, .string s) => if 256 < s.utf8ByteSize then none else some (k, s)
  | _ => none

def parseMeta : Option Value → Option (List (String × String))
  | none => some []
  | some (.object obj) => if 16 < obj.length then none else obj.mapM parseMetaEntry
  | some _ => none

def parsePaidTier : Value → Option LicenseTier
  | .string s =>
    if s = "cloud" then some .cloud else if s = "enterprise" then some .enterprise else none
  | _ => none

def parseAudEntry : Value → Option String
  | .string s => if s.utf8ByteSize ≤ 64 then some s else none
  | _ => none

def parseAud : Option Value → Option (List String)
  | none => some []
  | some (.array arr) => if arr.length ≤ 32 then arr.mapM parseAudEntry else none
  | some _ => none

def parseClaims (payload : Fields) : Option Claims :=
  let jti := (payload.lookup "jti").bind (strClaim 64)
  let iss := (payload.lookup "iss").bind (strClaim 256)
  let sub := (payload.lookup "sub").bind (strClaim 256)
  let iat := (payload.lookup "iat").bind intClaim
  let nbf := (payload.lookup "nbf").elim iat intClaim
  let exp := (payload.lookup "exp").bind intClaim
  let grace := (payload.lookup "grace").elim (some 0) intClaim
  let features := (payload.lookup "features").bind parseFeatures
  let limits := parseLimits (payload.lookup "limits")
  let metadata := parseMeta (payload.lookup "meta")
  let tier := (payload.lookup "tier").bind parsePaidTier
  let aud := parseAud (payload.lookup "aud")
  claimsOf jti iss sub tier features limits metadata aud iat nbf exp grace

/-- The checks up to the signature. -/
def trustedKey (lib : Libs) (keyring : Keyring) (decoded : DecodedToken) :
    Except Failure TrustedKey := do
  let kid := decoded.header.kid
  Check.failIf (decoded.header.typ ≠ licenseTyp)
    (fail .unsupportedFormat ("unexpected typ: " ++ decoded.header.typ))
  checkCrit decoded.header.crit
  let key ← Check.okOr (keyring.get kid) (fail .unknownKey ("unknown kid: " ++ kid))
  Check.failIf (key.status = .compromised)
    (fail .keyRevoked ("signing key " ++ kid ++ " is revoked"))
  Check.failIf (decoded.header.alg ≠ "Ed25519")
    (fail .algMismatch "header alg does not match key alg")
  let verifyStrict ← Check.okOr (lib.ed25519 key.publicKey)
    (fail .badSignature "invalid public key bytes")
  Check.failIf (verifyStrict decoded.signingInput decoded.signature = false)
    (fail .badSignature "signature verification failed")
  return key

/-- The checks of the claims, against the key and the options. -/
def checkClaims (key : TrustedKey) (options : VerifyOptions) (c : Claims) :
    Except Failure Unit := do
  Check.failIf (¬ (0 ≤ c.grace ∧ c.grace ≤ 90 * 86400) ∨ c.exp ≤ c.iat) schemaError
  Check.failIf (¬ inRange c.iat) (fail .invalidClaims "iat is outside the supported range")
  Check.failIf (¬ inRange c.nbf) (fail .invalidClaims "nbf is outside the supported range")
  Check.failIf (¬ inRange c.exp) (fail .invalidClaims "exp is outside the supported range")
  Check.failIf (c.iat < key.validFrom)
    (fail .keyRevoked "license issued before key validity window")
  Check.failIf (∃ last ∈ key.validUntil, last < c.iat)
    (fail .keyRevoked "license issued after key retirement")
  Check.failIf (∃ expected ∈ options.expectedIssuer, c.iss ≠ expected)
    (fail .issuerMismatch ("unexpected issuer: " ++ c.iss))
  Check.failIf (∃ revoked ∈ options.revokedIds, c.jti ∈ revoked)
    (fail .revoked ("license " ++ c.jti ++ " has been revoked"))
  Check.failIf (c.aud ≠ [] ∧ options.audience = none) (fail .audienceMismatch
    "license is deployment-bound but no deployment id is configured")
  Check.failIf (c.aud ≠ [] ∧ ∃ audience ∈ options.audience, audience ∉ c.aud)
    (fail .audienceMismatch "license is bound to a different deployment")

/-- The sum of a timestamp and a duration, which panics when it is not a timestamp. -/
def addTime (t d : ℤ) : Except Failure ℤ := if inRange (t + d) then .ok (t + d) else .error .crashed

/-- The checks of the time, which give the status. -/
def checkTime (lib : Libs) (options : VerifyOptions) (c : Claims) :
    Except Failure RuntimeStatus := do
  let late ← addTime options.now options.clockSkew
  Check.failIf (late < c.nbf) (fail .notYetValid "license is not yet valid")
  let early ← addTime options.now (-options.clockSkew)
  if early < c.exp then return .active
  let graceUntil ← addTime c.exp c.grace
  if early < graceUntil then return .grace
  throw (fail .expired ("license expired at " ++ lib.timestampText c.exp))

def verifyLicenseToken (lib : Libs) (token : String) (options : VerifyOptions) : VerifyResult := do
  let decoded ← (decodeToken lib token).mapError .rejected
  let key ← trustedKey lib options.keyring decoded
  let claims ← Check.okOr (parseClaims decoded.payload) schemaError
  checkClaims key options claims
  let status ← checkTime lib options claims
  return ({ claims with kid := decoded.header.kid }, status)

end Rust

/-! ### The verifier in TypeScript -/

namespace Ts

/-- A number is a double, and the claim is read if it is a safe integer. -/
def int : Value → Option ℤ
  | .number n => Double.safeInteger n.value
  | _ => none

def str (max : ℕ) : Value → Option String
  | .string s => if 0 < JsString.length s ∧ JsString.length s ≤ max then some s else none
  | _ => none

/-- The body of the loop over the features. -/
def setFeature (src : Fields) (out : FeatureMap) (f : Feature) : Option FeatureMap :=
  match src.lookup f.asStr with
  | none => some (Function.update out f false)
  | some (.bool raw) => some (Function.update out f raw)
  | some _ => none

def parseFeatures : Option Value → Option FeatureMap
  | some (.object src) => Feature.all.foldlM (setFeature src) fun _ => false
  | _ => none

/-- The value of one limit. -/
def parseLimit : Option Value → Option (Option ℤ)
  | none => some none
  | some .null => some none
  | some raw => (int raw).bind fun n => if n < 0 then none else some (some n)

def parseLimits : Option Value → Option LimitMap
  | none => some fun _ => none
  | some (.object src) =>
    Limit.all.foldlM (fun out l =>
      (parseLimit (src.lookup l.asStr)).map (Function.update out l)) fun _ => none
  | some _ => none

def parseMetaEntry : String × Value → Option (String × String)
  | (k, .string s) => if 256 < JsString.length s then none else some (k, s)
  | _ => none

def parseMeta : Option Value → Option (List (String × String))
  | none => some []
  | some (.object src) => if 16 < src.length then none else src.mapM parseMetaEntry
  | some _ => none

/-- `isTier` without the community tier. -/
def parseTier : Option Value → Option LicenseTier
  | some (.string s) =>
    if s = "cloud" then some .cloud else if s = "enterprise" then some .enterprise else none
  | _ => none

def parseAudEntry : Value → Option String
  | .string s => if JsString.length s ≤ 64 then some s else none
  | _ => none

def parseAud : Option Value → Option (List String)
  | none => some []
  | some (.array audRaw) => if audRaw.length ≤ 32 then audRaw.mapM parseAudEntry else none
  | some _ => none

def parseClaims (payload : Fields) : Option Claims :=
  let jti := (payload.lookup "jti").bind (str 64)
  let iss := (payload.lookup "iss").bind (str 256)
  let sub := (payload.lookup "sub").bind (str 256)
  let iat := (payload.lookup "iat").bind int
  let nbf := (payload.lookup "nbf").elim iat int
  let exp := (payload.lookup "exp").bind int
  let grace := (payload.lookup "grace").elim (some 0) int
  let features := parseFeatures (payload.lookup "features")
  let limits := parseLimits (payload.lookup "limits")
  let metadata := parseMeta (payload.lookup "meta")
  let tier := parseTier (payload.lookup "tier")
  let aud := parseAud (payload.lookup "aud")
  claimsOf jti iss sub tier features limits metadata aud iat nbf exp grace

/-- The checks up to the signature; a public key that is none throws, which counts as a bad
signature. -/
def trustedKey (lib : Libs) (keyring : Keyring) (decoded : DecodedToken) :
    Except Failure TrustedKey := do
  let kid := decoded.header.kid
  Check.failIf (decoded.header.typ ≠ licenseTyp)
    (fail .unsupportedFormat ("unexpected typ: " ++ decoded.header.typ))
  checkCrit decoded.header.crit
  let key ← Check.okOr (keyring.get kid) (fail .unknownKey ("unknown kid: " ++ kid))
  Check.failIf (key.status = .compromised)
    (fail .keyRevoked ("signing key " ++ kid ++ " is revoked"))
  Check.failIf (decoded.header.alg ≠ "Ed25519")
    (fail .algMismatch "header alg does not match key alg")
  let signatureValid := (lib.ed25519 key.publicKey).any fun verify =>
    verify decoded.signingInput decoded.signature
  Check.failIf (signatureValid = false) (fail .badSignature "signature verification failed")
  return key

/-- The checks of the claims, against the key and the options; empty options are falsy. -/
def checkClaims (key : TrustedKey) (options : VerifyOptions) (c : Claims) :
    Except Failure Unit := do
  Check.failIf (c.grace < 0 ∨ 90 * 86400 < c.grace ∨ c.exp ≤ c.iat) schemaError
  Check.failIf (c.iat < key.validFrom)
    (fail .keyRevoked "license issued before key validity window")
  Check.failIf (∃ last ∈ key.validUntil, last < c.iat)
    (fail .keyRevoked "license issued after key retirement")
  Check.failIf (∃ expected ∈ options.expectedIssuer, expected ≠ "" ∧ c.iss ≠ expected)
    (fail .issuerMismatch ("unexpected issuer: " ++ c.iss))
  Check.failIf (∃ revoked ∈ options.revokedIds, c.jti ∈ revoked)
    (fail .revoked ("license " ++ c.jti ++ " has been revoked"))
  Check.failIf (c.aud ≠ [] ∧ (options.audience = none ∨ options.audience = some ""))
    (fail .audienceMismatch "license is deployment-bound but no deployment id is configured")
  Check.failIf (c.aud ≠ [] ∧ ∃ audience ∈ options.audience, audience ∉ c.aud)
    (fail .audienceMismatch "license is bound to a different deployment")

/-- The sum of two numbers. -/
def addTime (t d : ℤ) : ℚ := Double.round (t + d)

/-- The checks of the time, which give the status. The message of an expired license throws for a
time that a `Date` does not represent. -/
def checkTime (lib : Libs) (options : VerifyOptions) (c : Claims) :
    Except Failure RuntimeStatus := do
  Check.failIf (addTime options.now options.clockSkew < c.nbf)
    (fail .notYetValid "license is not yet valid")
  let early := addTime options.now (-options.clockSkew)
  if early < c.exp then return .active
  if early < addTime c.exp c.grace then return .grace
  if |c.exp * 1000| ≤ 8640000000000000 then
    throw (fail .expired ("license expired at " ++ lib.isoString (c.exp * 1000)))
  throw .crashed

def verifyLicenseToken (lib : Libs) (token : String) (options : VerifyOptions) : VerifyResult := do
  let decoded ← (decodeToken lib token).mapError .rejected
  let key ← trustedKey lib options.keyring decoded
  let claims ← Check.okOr (parseClaims decoded.payload) schemaError
  checkClaims key options claims
  let status ← checkTime lib options claims
  return ({ claims with kid := decoded.header.kid }, status)

end Ts

end Tunnet.Licensing

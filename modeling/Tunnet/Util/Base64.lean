import Tunnet.Util.Str

/-!
# Base64

Decoding with the standard alphabet and canonical padding: the text is a sequence of groups of four,
of which the last may end in `=` or `==`, and the bits that the padding leaves unused are zero. So
the number of characters follows from the number of bytes (`inked_of_decode`).
-/

namespace Tunnet.Base64

/-- The value of a character of the alphabet. -/
def value (c : Char) : Option Nat :=
  let n := c.toNat
  if 65 ≤ n ∧ n ≤ 90 then some (n - 65)
  else if 97 ≤ n ∧ n ≤ 122 then some (n - 71)
  else if 48 ≤ n ∧ n ≤ 57 then some (n + 4)
  else if c = '+' then some 62
  else if c = '/' then some 63
  else none

def decodeChars : List Char → Option (List UInt8)
  | [] => some []
  | [a, b, '=', '='] => do
    let a ← value a
    let b ← value b
    if b % 16 = 0 then some [UInt8.ofNat (a * 4 + b / 16)] else none
  | [a, b, c, '='] => do
    let a ← value a
    let b ← value b
    let c ← value c
    if c % 4 = 0 then
      some [UInt8.ofNat (a * 4 + b / 16), UInt8.ofNat (b % 16 * 16 + c / 4)]
    else none
  | a :: b :: c :: d :: rest => do
    let a ← value a
    let b ← value b
    let c ← value c
    let d ← value d
    let bytes ← decodeChars rest
    some (UInt8.ofNat (a * 4 + b / 16) :: UInt8.ofNat (b % 16 * 16 + c / 4) ::
      UInt8.ofNat (c % 4 * 64 + d) :: bytes)
  | _ => none

def decode (s : String) : Option (List UInt8) := decodeChars s.toList

theorem not_isWhitespace_of_value {c : Char} {n : ℕ} (h : value c = some n) :
    Str.isWhitespace c = false := by
  have hlt : c.toNat < 128 := by
    unfold value at h
    dsimp only at h
    split_ifs at h with _ _ _ hplus hslash <;> first | omega | (subst c; decide)
  have hall : ∀ n < 128, (value (Char.ofNat n)).isSome →
      Str.isWhitespace (Char.ofNat n) = false := by decide
  rw [← Char.ofNat_toNat c] at h ⊢
  exact hall _ hlt (h ▸ rfl)

/-- A text that decodes has no whitespace, and its length is that of the encoding. -/
theorem inked_of_decode {s : String} {d : List UInt8} (h : decode s = some d) :
    Str.inked s = 4 * ((d.length + 2) / 3) := by
  unfold decode at h
  unfold Str.inked
  have hpad : Str.isWhitespace '=' = false := by decide
  generalize s.toList = cs at h ⊢
  fun_induction decodeChars cs generalizing d with
  | case1 =>
    cases h
    rfl
  | case2 a b =>
    simp only [Option.bind_eq_bind, Option.bind_eq_some_iff, Option.ite_none_right_eq_some] at h
    obtain ⟨_, ha, _, hb, -, hd⟩ := h
    rw [← Option.some.inj hd]
    simp [hpad, not_isWhitespace_of_value ha, not_isWhitespace_of_value hb]
  | case3 a b c =>
    simp only [Option.bind_eq_bind, Option.bind_eq_some_iff, Option.ite_none_right_eq_some] at h
    obtain ⟨_, ha, _, hb, _, hc, -, hd⟩ := h
    rw [← Option.some.inj hd]
    simp [hpad, not_isWhitespace_of_value ha, not_isWhitespace_of_value hb,
      not_isWhitespace_of_value hc]
  | case4 a b c d' rest h₁ h₂ ih =>
    simp only [Option.bind_eq_bind, Option.bind_eq_some_iff] at h
    obtain ⟨_, ha, _, hb, _, hc, _, hd, bytes, hrest, hbytes⟩ := h
    rw [← Option.some.inj hbytes]
    have hinked := ih hrest
    simp only [List.countP_cons, List.length_cons, not_isWhitespace_of_value ha,
      not_isWhitespace_of_value hb, not_isWhitespace_of_value hc, not_isWhitespace_of_value hd,
      Bool.not_false, if_true]
    omega
  | case5 => cases h
end Tunnet.Base64

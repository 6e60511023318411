import Tunnet.Util.Str
import Mathlib.Tactic.IntervalCases

/-!
# Hexadecimal

`encode` writes bytes as lower-case hexadecimal, `decode` reads either case and rejects an odd
number of digits. `decode_encode` is the round trip, and `trim_encode` says that trimming an
encoding changes nothing.
-/

namespace Tunnet.Hex

/-- The lower-case digit of a value below sixteen. -/
def digit (n : Nat) : Char := if n < 10 then Char.ofNat (48 + n) else Char.ofNat (87 + n)

/-- The value of a hexadecimal digit of either case. -/
def digitVal (c : Char) : Option Nat :=
  let n := c.toNat
  if 48 ≤ n ∧ n ≤ 57 then some (n - 48)
  else if 97 ≤ n ∧ n ≤ 102 then some (n - 87)
  else if 65 ≤ n ∧ n ≤ 70 then some (n - 55)
  else none

/-- The two digits of each byte, high digit first. -/
def encodeChars : List UInt8 → List Char
  | [] => []
  | b :: bs => digit (b.toNat / 16) :: digit (b.toNat % 16) :: encodeChars bs

/-- The bytes a list of digits spells. -/
def decodeChars : List Char → Option (List UInt8)
  | [] => some []
  | [_] => none
  | a :: b :: rest =>
    match digitVal a, digitVal b, decodeChars rest with
    | some x, some y, some bs => some (UInt8.ofNat (16 * x + y) :: bs)
    | _, _, _ => none

variable {n : Nat} (bs : List UInt8)

/-- Lower-case hexadecimal of a byte string. -/
def encode : String := String.ofList (encodeChars bs)

/-- The byte string a hexadecimal string spells. -/
def decode (s : String) : Option (List UInt8) := decodeChars s.toList

theorem digitVal_digit (hn : n < 16) : digitVal (digit n) = some n := by
  interval_cases n <;> rfl

theorem isWhitespace_digit (hn : n < 16) : Str.isWhitespace (digit n) = false := by
  interval_cases n <;> rfl

theorem decodeChars_encodeChars : decodeChars (encodeChars bs) = some bs := by
  induction bs with
  | nil => rfl
  | cons b bs ih =>
    have hb : b.toNat < 256 := b.toNat_lt
    have hval : 16 * (b.toNat / 16) + b.toNat % 16 = b.toNat := by omega
    rw [encodeChars, decodeChars, digitVal_digit (by omega), digitVal_digit (by omega), ih]
    simp [hval]

theorem decode_encode : decode (encode bs) = some bs := by
  rw [decode, encode, String.toList_ofList, decodeChars_encodeChars]

theorem mem_encodeChars {c : Char} {bs : List UInt8} (hc : c ∈ encodeChars bs) :
    ∃ n < 16, c = digit n := by
  induction bs with
  | nil => exact absurd hc List.not_mem_nil
  | cons b bs ih =>
    have hb : b.toNat < 256 := b.toNat_lt
    rw [encodeChars, List.mem_cons, List.mem_cons] at hc
    rcases hc with rfl | rfl | hc
    · exact ⟨_, by omega, rfl⟩
    · exact ⟨_, by omega, rfl⟩
    · exact ih hc

theorem encode_injective : Function.Injective encode := by
  intro a b hab
  have hdecode := decode_encode a
  rw [hab, decode_encode] at hdecode
  exact (Option.some.inj hdecode).symm

theorem isWhitespace_encodeChars : ∀ c ∈ encodeChars bs, Str.isWhitespace c = false := by
  intro c hc
  obtain ⟨n, hn, rfl⟩ := mem_encodeChars hc
  exact isWhitespace_digit hn

theorem trim_encode : Str.trim (encode bs) = encode bs := by
  apply Str.trim_eq_self
  rw [encode, String.toList_ofList]
  exact isWhitespace_encodeChars bs

end Tunnet.Hex

import Tunnet.Net.Ip
import Tunnet.Util.Hex
import Tunnet.Util.Joined

/-!
# The text of a UUID

`text` is the normal form, lower-case digits in five groups; `parseStr` also reads upper-case
digits, digits without hyphens, and a hyphenated text in braces or as a URN.
-/

namespace Tunnet.Uuid

open List

/-- The 32 hexadecimal digits. -/
def digits (u : Uuid) : List Char :=
  (List.range 32).map fun i => Hex.digit (u.toNat / 16 ^ (31 - i) % 16)

/-- `Uuid::to_string`. -/
def text (u : Uuid) : String :=
  let ds := digits u
  String.ofList (['-'].intercalate
    [ds.take 8, (ds.drop 8).take 4, (ds.drop 12).take 4, (ds.drop 16).take 4, ds.drop 20])

def parseSimple (cs : List Char) : Option Uuid :=
  if cs.length = 32 then
    (cs.mapM Hex.digitVal).map fun ds => BitVec.ofNat 128 (ds.foldl (fun n d => 16 * n + d) 0)
  else none

def parseHyphenated (cs : List Char) : Option Uuid :=
  match cs.splitOn '-' with
  | [a, b, c, d, e] =>
    if a.length = 8 ∧ b.length = 4 ∧ c.length = 4 ∧ d.length = 4 ∧ e.length = 12 then
      parseSimple (a ++ b ++ c ++ d ++ e)
    else none
  | _ => none

/-- `Uuid::parse_str`. -/
def parseStr (s : String) : Option Uuid :=
  let cs := s.toList
  if cs.length = 32 then parseSimple cs
  else if cs.length = 36 then parseHyphenated cs
  else if cs.length = 38 ∧ cs.head? = some '\x7b' ∧ cs.getLast? = some '\x7d' then
    parseHyphenated cs.tail.dropLast
  else if cs.length = 45 ∧ cs.take 9 = "urn:uuid:".toList then parseHyphenated (cs.drop 9)
  else none

/-! ### The characters of a UUID -/

section

variable {c : Char}

theorem mem_digits {u : Uuid} (hc : c ∈ digits u) : ∃ n < 16, c = Hex.digit n := by
  obtain ⟨i, -, rfl⟩ := mem_map.1 hc
  exact ⟨_, Nat.mod_lt _ (by decide), rfl⟩

theorem not_mem_text (hdigit : ∀ n < 16, c ≠ Hex.digit n) (hhyphen : c ≠ '-') (u : Uuid) :
    c ∉ (text u).toList := by
  intro hc
  unfold text at hc
  rw [String.toList_ofList] at hc
  rcases Joined.mem_intercalate _ hc with hc | ⟨p, hp, hc⟩
  · exact hhyphen hc
  · have hsub : p ⊆ digits u := by
      simp only [mem_cons, not_mem_nil, or_false] at hp
      rcases hp with rfl | rfl | rfl | rfl | rfl
      · exact take_subset _ _
      · exact Subset.trans (take_subset _ _) (drop_subset _ _)
      · exact Subset.trans (take_subset _ _) (drop_subset _ _)
      · exact Subset.trans (take_subset _ _) (drop_subset _ _)
      · exact drop_subset _ _
    obtain ⟨n, hn, heq⟩ := mem_digits (hsub hc)
    exact hdigit n hn heq

theorem text_ne_empty (u : Uuid) : text u ≠ "" := by
  have hmem : '-' ∈ (text u).toList := by
    unfold text
    rw [String.toList_ofList]
    exact mem_append_right _ mem_cons_self
  intro heq
  rw [heq] at hmem
  exact absurd hmem (by decide)

end

end Tunnet.Uuid

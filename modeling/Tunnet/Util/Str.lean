import Mathlib.Data.List.Infix
import Mathlib.Data.List.TakeWhile

/-!
# String operations

The handful of `str` methods the modelled code uses, on Lean's `String` through its list of
characters. Each is characterised by an equation between strings (`stripPrefix_eq_some_iff`,
`splitOnce_eq_some_iff`), so that later proofs never look at characters.
-/

namespace Tunnet.Str

open List String

variable {c : Char} {s p t q a b : String}

/-! ### Stripping and splitting -/

/-- `str::strip_prefix`. -/
def stripPrefix (p s : String) : Option String :=
  (s.toList.dropPrefix? p.toList).map String.ofList

theorem stripPrefix_eq_some_iff : stripPrefix p s = some t ↔ s = p ++ t := by
  simp only [stripPrefix, Option.map_eq_some_iff, dropPrefix?_eq_some_iff, beq_iff_eq]
  constructor
  · rintro ⟨l, ⟨p', hs, rfl⟩, rfl⟩
    rw [← toList_inj, hs, toList_append, toList_ofList]
  · rintro rfl
    exact ⟨t.toList, ⟨p.toList, toList_append, rfl⟩, ofList_toList⟩

theorem stripPrefix_eq_none_iff : stripPrefix p s = none ↔ ∀ t, s ≠ p ++ t := by
  simp [Option.eq_none_iff_forall_ne_some, stripPrefix_eq_some_iff]

theorem append_ne_append (hpq : ¬ p.toList <+: q.toList)
    (hqp : ¬ q.toList <+: p.toList) (a b : String) : p ++ a ≠ q ++ b := by
  intro h
  have hlist : p.toList ++ a.toList = q.toList ++ b.toList := by
    rw [← toList_append, h, toList_append]
  have hp : p.toList <+: q.toList ++ b.toList := ⟨a.toList, hlist⟩
  rcases prefix_or_prefix_of_prefix hp (prefix_append _ _) with h | h
  · exact hpq h
  · exact hqp h

/-- `str::split_once` at a character: what stands before its first occurrence, and after it. -/
def splitOnce (c : Char) (s : String) : Option (String × String) :=
  match s.toList.dropWhile (· != c) with
  | [] => none
  | _ :: after => some (String.ofList (s.toList.takeWhile (· != c)), String.ofList after)

theorem splitOnce_eq_some_iff :
    splitOnce c s = some (a, b) ↔ c ∉ a.toList ∧ s = a ++ singleton c ++ b := by
  have hsplit := takeWhile_append_dropWhile (p := (· != c)) (l := s.toList)
  unfold splitOnce
  constructor
  · intro h
    split at h
    · cases h
    · rename_i d after hdrop
      have hdc : d = c := by
        have := head?_dropWhile_not (· != c) s.toList
        rw [hdrop] at this
        simpa using this
      obtain ⟨rfl, rfl⟩ := h
      rw [hdrop, hdc] at hsplit
      refine ⟨?_, ?_⟩
      · rw [toList_ofList]
        intro hc
        simpa using mem_takeWhile_imp hc
      · rw [← toList_inj]
        simpa using hsplit.symm
  · rintro ⟨hc, rfl⟩
    have hall : ∀ x ∈ a.toList, (x != c) := by
      intro x hx
      simpa using fun h : x = c => hc (h ▸ hx)
    have hlist : (a ++ singleton c ++ b).toList = a.toList ++ c :: b.toList := by simp
    rw [hlist, dropWhile_append_of_pos hall, takeWhile_append_of_pos hall]
    simp

/-- `str::strip_suffix`. -/
def stripSuffix (q s : String) : Option String :=
  (s.toList.reverse.dropPrefix? q.toList.reverse).map fun l => String.ofList l.reverse

theorem stripSuffix_eq_some_iff : stripSuffix q s = some t ↔ s = t ++ q := by
  simp only [stripSuffix, Option.map_eq_some_iff, dropPrefix?_eq_some_iff, beq_iff_eq]
  constructor
  · rintro ⟨l, ⟨q', hs, rfl⟩, rfl⟩
    rw [← toList_inj]
    simpa using congrArg reverse hs
  · rintro rfl
    refine ⟨t.toList.reverse, ⟨q.toList.reverse, ?_, rfl⟩, ?_⟩
    · rw [toList_append, reverse_append]
    · rw [reverse_reverse, ofList_toList]

@[simp]
theorem stripSuffix_append (q t : String) : stripSuffix q (t ++ q) = some t :=
  stripSuffix_eq_some_iff.2 rfl

/-- `str::ends_with` for a character. -/
def endsWith (c : Char) (s : String) : Bool := s.toList.getLast? == some c

theorem endsWith_append (hb : b ≠ "") : endsWith c (a ++ b) = endsWith c b := by
  have hne : b.toList ≠ [] := fun h => hb (toList_inj.1 h)
  simp only [endsWith, toList_append]
  rw [getLast?_append_of_ne_nil _ hne]

/-! ### Whitespace and ASCII case -/

/-- `char::is_whitespace`: the Unicode property `White_Space`. -/
def isWhitespace (c : Char) : Bool :=
  let n := c.toNat
  (9 ≤ n && n ≤ 13) || n == 0x20 || n == 0x85 || n == 0xA0 || n == 0x1680 ||
    (0x2000 ≤ n && n ≤ 0x200A) || n == 0x2028 || n == 0x2029 || n == 0x202F || n == 0x205F ||
    n == 0x3000

/-- `str::trim`. -/
def trim (s : String) : String :=
  String.ofList ((s.toList.dropWhile isWhitespace).reverse.dropWhile isWhitespace).reverse

theorem trim_eq_self (h : ∀ c ∈ s.toList, isWhitespace c = false) : trim s = s := by
  have hdrop : ∀ l : List Char, (∀ c ∈ l, isWhitespace c = false) →
      l.dropWhile isWhitespace = l := by
    intro l hl
    cases l with
    | nil => rfl
    | cons c => rw [dropWhile_cons_of_neg (by simp [hl c (by simp)])]
  rw [trim, hdrop _ h, hdrop _ (by simpa using h), reverse_reverse, ofList_toList]

/-- How many characters are no whitespace. -/
def inked (s : String) : ℕ := s.toList.countP fun c => !isWhitespace c

theorem inked_append (a b : String) : inked (a ++ b) = inked a + inked b := by
  simp [inked]

theorem countP_dropWhile (l : List Char) :
    (l.dropWhile isWhitespace).countP (fun c => !isWhitespace c) =
      l.countP fun c => !isWhitespace c := by
  induction l with
  | nil => rfl
  | cons c l ih =>
    rw [dropWhile_cons]
    split_ifs with hc
    · rw [ih, countP_cons, hc]
      simp
    · rfl

theorem inked_trim (s : String) : inked (trim s) = inked s := by
  unfold inked trim
  rw [toList_ofList, countP_reverse, countP_dropWhile, countP_reverse, countP_dropWhile]

theorem trim_append (h : ∀ c ∈ b.toList, isWhitespace c) : trim (a ++ b) = trim a := by
  have hb : b.toList.dropWhile isWhitespace = [] := dropWhile_eq_nil_iff.2 h
  have hrev : b.toList.reverse.dropWhile isWhitespace = [] :=
    dropWhile_eq_nil_iff.2 fun c hc => h c (mem_reverse.1 hc)
  unfold trim
  rw [toList_append, dropWhile_append]
  split_ifs with hempty
  · rw [hb, isEmpty_iff.1 hempty]
  · rw [reverse_append, dropWhile_append, hrev]
    simp

/-- `str::split_whitespace`. -/
def splitWhitespace (s : String) : List String :=
  ((s.toList.splitOnP isWhitespace).filter (· ≠ [])).map String.ofList

/-- The words of a text are those before and after a blank. -/
theorem splitWhitespace_append (hc : isWhitespace c) :
    splitWhitespace (a ++ singleton c ++ b) = splitWhitespace a ++ splitWhitespace b := by
  have hlist : (a ++ singleton c ++ b).toList = a.toList ++ c :: b.toList := by simp
  rw [splitWhitespace, hlist, splitOnP_append_cons _ _ hc, filter_append, map_append]
  rfl

theorem splitWhitespace_space :
    splitWhitespace (a ++ " " ++ b) = splitWhitespace a ++ splitWhitespace b := by
  have hspace : singleton ' ' = " " := by decide
  rw [← hspace, splitWhitespace_append (by decide)]

theorem splitWhitespace_word (h : ∀ c ∈ a.toList, isWhitespace c = false) :
    splitWhitespace a = if a = "" then [] else [a] := by
  rw [splitWhitespace, splitOnP_eq_singleton h]
  split_ifs with ha
  · rw [ha]
    rfl
  · simp [ha]

theorem splitWhitespace_trim (s : String) : splitWhitespace (trim s) = splitWhitespace s := by
  have hstart (l : List Char) : splitWhitespace (String.ofList (l.dropWhile isWhitespace)) =
      splitWhitespace (String.ofList l) := by
    induction l with
    | nil => rfl
    | cons c l ih =>
      rw [dropWhile_cons]
      split_ifs with hc
      · have hcons : String.ofList (c :: l) = "" ++ singleton c ++ String.ofList l := by simp
        rw [ih, hcons, splitWhitespace_append hc]
        rfl
      · rfl
  have hend (l : List Char) : splitWhitespace (String.ofList (l.dropWhile isWhitespace).reverse) =
      splitWhitespace (String.ofList l.reverse) := by
    induction l with
    | nil => rfl
    | cons c l ih =>
      rw [dropWhile_cons]
      split_ifs with hc
      · have hcons : String.ofList (c :: l).reverse =
            String.ofList l.reverse ++ singleton c ++ "" := by simp
        rw [ih, hcons, splitWhitespace_append hc]
        exact (append_nil _).symm
      · rfl
  rw [trim, hend, reverse_reverse, hstart, ofList_toList]

/-- `str::trim_start_matches` for the characters that satisfy `p`. -/
def trimStartMatches (p : Char → Bool) (s : String) : String := String.ofList (s.toList.dropWhile p)

/-- `str::replace` of the characters that satisfy `p` by another one. -/
def replace (p : Char → Bool) (by' : Char) (s : String) : String :=
  String.ofList (s.toList.map fun c => if p c then by' else c)

/-- `str::as_bytes`. -/
def asBytes (s : String) : List UInt8 := s.toUTF8.data.toList

theorem asBytes_injective : Function.Injective asBytes := by
  intro a b hab
  exact toByteArray_inj.1 (ByteArray.ext (Array.toList_inj.1 hab))

theorem asBytes_append (a b : String) : asBytes (a ++ b) = asBytes a ++ asBytes b := by
  simp [asBytes]

/-- `str::to_ascii_lowercase` (`Char.toLower` maps `A`–`Z` only). -/
def toAsciiLowercase (s : String) : String := String.ofList (s.toList.map Char.toLower)

theorem toLower_of_not_isUpper (h : c.isUpper = false) : c.toLower = c := by
  unfold Char.toLower
  split
  · unfold Char.isUpper at h
    grind
  · rfl

theorem toLower_toLower (c : Char) : c.toLower.toLower = c.toLower := by
  apply toLower_of_not_isUpper
  unfold Char.isUpper Char.toLower
  split <;> grind [UInt32.toNat_add, Char.toNat_val]

theorem toAsciiLowercase_idem (s : String) :
    toAsciiLowercase (toAsciiLowercase s) = toAsciiLowercase s := by
  have hcomp : Char.toLower ∘ Char.toLower = Char.toLower := funext toLower_toLower
  rw [toAsciiLowercase, toAsciiLowercase, toList_ofList, List.map_map, hcomp]

/-- `str::eq_ignore_ascii_case`. -/
def eqIgnoreAsciiCase (a b : String) : Bool := toAsciiLowercase a == toAsciiLowercase b

/-! ### Text in bytes -/

/-- `str::from_utf8`. -/
def fromUtf8 (bytes : List UInt8) : Option String := String.fromUTF8? ⟨bytes.toArray⟩

theorem fromUtf8_eq_some_iff {bytes : List UInt8} :
    fromUtf8 bytes = some s ↔ bytes = asBytes s := by
  unfold fromUtf8 fromUTF8?
  split_ifs with h
  · rw [Option.some.injEq, ← String.toByteArray_inj, ByteArray.ext_iff, ← Array.toList_inj]
    rfl
  · refine iff_of_false nofun ?_
    rintro rfl
    exact h s.isValidUTF8

theorem isValidUTF8_append_iff (l : List Char) {bytes : ByteArray} :
    (l.utf8Encode ++ bytes).IsValidUTF8 ↔ bytes.IsValidUTF8 := by
  induction l with
  | nil => simp
  | cons c l ih =>
    rw [utf8Encode_cons, ByteArray.append_assoc,
      ByteArray.isValidUTF8_utf8Encode_singleton_append_iff, ih]

theorem prefix_of_asBytes (h : asBytes a <+: asBytes b) : a.toList <+: b.toList := by
  obtain ⟨rest, h⟩ := h
  have hb : b.toByteArray = a.toByteArray ++ ⟨rest.toArray⟩ := by
    apply ByteArray.ext
    apply Array.toList_inj.1
    simpa [asBytes] using h.symm
  have hvalid : (⟨rest.toArray⟩ : ByteArray).IsValidUTF8 := by
    rw [← isValidUTF8_append_iff a.toList, utf8Encode_toList, ← hb]
    exact b.isValidUTF8
  obtain ⟨m, hm⟩ := hvalid
  refine ⟨m, ?_⟩
  rw [hm, ← toByteArray_ofList, ← String.toByteArray_append, String.toByteArray_inj] at hb
  rw [hb, toList_append, toList_ofList]

/-- A text that is cut off ends before the end of its first part, or it has this part. -/
theorem cut_append (h : s.toList <+: (p ++ t).toList) :
    s.toList <+: p.toList ∧ s ≠ p ∨ ∃ x, s = p ++ x ∧ x.toList <+: t.toList := by
  rw [toList_append] at h
  by_cases hlong : p.toList <+: s.toList
  · obtain ⟨x, hx⟩ := hlong
    rw [← hx, prefix_append_right_inj] at h
    refine .inr ⟨String.ofList x, ?_, by rwa [toList_ofList]⟩
    rw [← toList_inj, ← hx, toList_append, toList_ofList]
  · rcases prefix_or_prefix_of_prefix h (prefix_append _ _) with hshort | hall
    · refine .inl ⟨hshort, ?_⟩
      rintro rfl
      exact hlong prefix_rfl
    · exact absurd hall hlong

theorem cut_asBytes {rest : List UInt8} (h : asBytes s <+: asBytes p ++ rest) :
    s.toList <+: p.toList ∧ s ≠ p ∨ ∃ x, s = p ++ x ∧ asBytes x <+: rest := by
  rcases prefix_or_prefix_of_prefix h (prefix_append _ _) with hshort | hall
  · by_cases hs : s = p
    · exact .inr ⟨"", by simp [hs], nil_prefix⟩
    · exact .inl ⟨prefix_of_asBytes hshort, hs⟩
  · obtain ⟨x, hx⟩ := prefix_of_asBytes hall
    have hs : s = p ++ String.ofList x := by
      rw [← toList_inj, ← hx, toList_append, toList_ofList]
    rw [hs, asBytes_append, prefix_append_right_inj] at h
    exact .inr ⟨_, hs, h⟩

theorem prefix_before (h : s.toList <+: (p ++ singleton c).toList) (hne : s ≠ p ++ singleton c) :
    s.toList <+: p.toList := by
  have hend : (p ++ singleton c).toList = p.toList ++ [c] := by simp
  rw [hend] at h
  refine (prefix_concat_iff.1 h).resolve_left fun heq => hne ?_
  rw [← toList_inj, heq, hend]

/-- The lines of a text, given the characters of the current line in reverse. -/
def linesFrom (line : List Char) : List Char → List String
  | [] => if line.isEmpty then [] else [String.ofList line.reverse]
  | '\n' :: cs =>
    -- The end of a line is `\n` or `\r\n`; a last line without either keeps its `\r`.
    String.ofList (if line.head? = some '\r' then line.tail else line).reverse :: linesFrom [] cs
  | c :: cs => linesFrom (c :: line) cs

/-- `str::lines`. -/
def lines (s : String) : List String := linesFrom [] s.toList

theorem linesFrom_append {acc cs rest : List Char} (h : '\n' ∉ cs) :
    linesFrom acc (cs ++ rest) = linesFrom (cs.reverse ++ acc) rest := by
  induction cs generalizing acc with
  | nil => rfl
  | cons c cs ih =>
    obtain ⟨hc, hcs⟩ := not_or.1 (mem_cons.not.1 h)
    rw [cons_append, linesFrom, ih hcs]
    · simp
    · rintro rfl
      exact hc rfl

/-- A line that ends. -/
theorem lines_crlf (h : '\n' ∉ a.toList) : lines (a ++ "\r\n" ++ b) = a :: lines b := by
  have hlist : (a ++ "\r\n" ++ b).toList = a.toList ++ '\r' :: '\n' :: b.toList := by simp
  rw [lines, hlist, linesFrom_append h]
  simp [linesFrom, lines]

/-- A last line that does not end. -/
theorem lines_of_notMem (h : '\n' ∉ a.toList) : lines a = if a = "" then [] else [a] := by
  have hlines : linesFrom [] (a.toList ++ []) = linesFrom (a.toList.reverse ++ []) [] :=
    linesFrom_append h
  rw [append_nil, append_nil] at hlines
  rw [lines, hlines]
  simp [linesFrom]

/-- The first line goes on with whatever stands on it. -/
theorem exists_head?_lines (h : '\n' ∉ a.toList) (hne : a ≠ "") (hcr : endsWith '\r' a = false) :
    ∃ x, (lines (a ++ b)).head? = some (a ++ x) := by
  have hfrom (acc cs : List Char) : ∃ x,
      (linesFrom (acc ++ a.toList.reverse) cs).head? = some (a ++ String.ofList x) := by
    induction cs generalizing acc with
    | nil =>
      refine ⟨acc.reverse, ?_⟩
      have hempty : (acc ++ a.toList.reverse).isEmpty = false := by simp [hne]
      simp [linesFrom, hempty]
    | cons c cs ih =>
      by_cases hc : c = '\n'
      · subst hc
        rw [linesFrom, head?_cons]
        cases acc with
        | nil =>
          rw [endsWith, ← head?_reverse] at hcr
          rw [nil_append, if_neg (beq_eq_false_iff_ne.1 hcr), reverse_reverse]
          exact ⟨[], by simp⟩
        | cons d acc =>
          split_ifs
          · exact ⟨acc.reverse, by simp⟩
          · exact ⟨(d :: acc).reverse, by simp⟩
      · rw [linesFrom]
        · exact ih (c :: acc)
        · exact hc
  rw [lines, toList_append, linesFrom_append h, append_nil]
  obtain ⟨x, hx⟩ := hfrom [] b.toList
  exact ⟨_, hx⟩

/-- Lines with their ends. -/
def unlines (ls : List String) : String := ls.foldr (fun l s => l ++ "\r\n" ++ s) ""

theorem lines_unlines {ls : List String} (h : ∀ l ∈ ls, '\n' ∉ l.toList) :
    lines (unlines ls ++ s) = ls ++ lines s := by
  induction ls with
  | nil => rw [unlines, foldr_nil, String.empty_append, nil_append]
  | cons l ls ih =>
    obtain ⟨hl, hls⟩ := forall_mem_cons.1 h
    have hcons : unlines (l :: ls) ++ s = l ++ "\r\n" ++ (unlines ls ++ s) := String.append_assoc
    rw [hcons, lines_crlf hl, ih hls, cons_append]

/-- A text that is cut off ends within its last line, or within a line before. -/
theorem exists_of_cut {ls : List String} (h : s.toList <+: (unlines ls ++ p).toList) :
    ∃ ls' q, s = unlines ls' ++ q ∧ (ls' = ls ∧ q.toList <+: p.toList ∨
      ∃ l rest, ls = ls' ++ l :: rest ∧ q.toList <+: (l ++ "\r").toList) := by
  induction ls generalizing s with
  | nil => exact ⟨[], s, by simp [unlines], .inl ⟨rfl, by simpa [unlines] using h⟩⟩
  | cons l ls ih =>
    have hcons : unlines (l :: ls) ++ p = l ++ "\r\n" ++ (unlines ls ++ p) := String.append_assoc
    rw [hcons] at h
    rcases cut_append h with ⟨hshort, hne⟩ | ⟨x, rfl, hx⟩
    · have hend : l ++ "\r\n" = l ++ "\r" ++ singleton '\n' := by simp [← toList_inj]
      rw [hend] at hshort hne
      exact ⟨[], s, by simp [unlines], .inr ⟨l, ls, rfl, prefix_before hshort hne⟩⟩
    · obtain ⟨ls', q, rfl, hcut⟩ := ih hx
      exact ⟨l :: ls', q, String.append_assoc.symm, hcut.imp (fun ⟨hls, hp⟩ => ⟨hls ▸ rfl, hp⟩)
        fun ⟨l', rest, hls, hp⟩ => ⟨l', rest, hls ▸ rfl, hp⟩⟩

/-- `str::trim_end_matches` for one character. -/
def trimEndMatches (c : Char) (s : String) : String :=
  String.ofList (s.toList.reverse.dropWhile (· == c)).reverse

theorem trimEndMatches_eq_self (h : endsWith c s = false) : trimEndMatches c s = s := by
  have hdrop : s.toList.reverse.dropWhile (· == c) = s.toList.reverse := by
    rw [endsWith, ← head?_reverse] at h
    cases hs : s.toList.reverse with
    | nil => rfl
    | cons =>
      rw [hs] at h
      exact dropWhile_cons_of_neg (by simpa using h)
  rw [trimEndMatches, hdrop, reverse_reverse, ofList_toList]

theorem trimEndMatches_append (h : endsWith c a = false) :
    trimEndMatches c (a ++ b) = a ++ trimEndMatches c b := by
  have hself := congrArg (fun s => s.toList.reverse) (trimEndMatches_eq_self h)
  simp only [trimEndMatches, toList_ofList, reverse_reverse] at hself
  rw [← toList_inj, trimEndMatches, toList_ofList, toList_append, reverse_append, dropWhile_append,
    hself]
  split_ifs with hempty
  · simp [trimEndMatches, isEmpty_iff.1 hempty]
  · simp [trimEndMatches]

theorem mem_of_mem_trimEndMatches {d : Char} (h : d ∈ (trimEndMatches c s).toList) :
    d ∈ s.toList := by
  rw [trimEndMatches, toList_ofList, mem_reverse] at h
  exact mem_reverse.1 ((dropWhile_sublist _).subset h)

theorem trim_trimEndMatches (hc : isWhitespace c) : trim (trimEndMatches c s) = trim s := by
  have hsplit : s = trimEndMatches c s ++
      String.ofList (s.toList.reverse.takeWhile (· == c)).reverse := by
    rw [← toList_inj, toList_append, trimEndMatches, toList_ofList, toList_ofList, ← reverse_append,
      List.takeWhile_append_dropWhile, reverse_reverse]
  conv_rhs => rw [hsplit]
  refine (trim_append fun d hd => ?_).symm
  rw [toList_ofList, mem_reverse] at hd
  have hdc := mem_takeWhile_imp hd
  rwa [beq_iff_eq.1 hdc]

variable (c s)

/-- What stands before the first `c`, or the whole text (`str::split` and `next`). -/
def before : String := String.ofList (s.toList.takeWhile (· != c))

variable {c}

/-! ### Decimal text -/

theorem not_mem_toString (hc : c.isDigit = false) (n : Nat) : c ∉ (toString n).toList := by
  rw [Nat.toString_eq_repr, Nat.repr_eq_ofList_toDigits, toList_ofList]
  intro h
  have hdigit := Nat.isDigit_of_mem_toDigits (by decide) (by decide) h
  exact nomatch hc.symm.trans hdigit

theorem toList_toString_negSucc (n : Nat) :
    (toString (Int.negSucc n)).toList = '-' :: (toString (n + 1)).toList := by
  have hneg : toString (Int.negSucc n) = "-" ++ toString (n + 1) := rfl
  rw [hneg, toList_append]
  rfl

theorem not_mem_toString_int (hc : c.isDigit = false) (hminus : c ≠ '-') (n : Int) :
    c ∉ (toString n).toList := by
  cases n with
  | ofNat n => exact not_mem_toString hc n
  | negSucc =>
    intro h
    rw [toList_toString_negSucc] at h
    rcases mem_cons.1 h with h | h
    · exact hminus h
    · exact not_mem_toString hc _ h

theorem toString_inj {m n : Nat} (h : toString m = toString n) : m = n := by
  have hlist := congrArg toList h
  rw [Nat.toString_eq_repr, Nat.toString_eq_repr, Nat.toList_repr, Nat.toList_repr] at hlist
  have hread := Nat.ofDigitChars_ten_toDigits (n := m)
  rw [hlist, Nat.ofDigitChars_ten_toDigits] at hread
  exact hread.symm

theorem toString_int_inj {m n : Int} (h : toString m = toString n) : m = n := by
  have hminus (k) (l) : (toString (Int.ofNat k)).toList ≠ (toString (Int.negSucc l)).toList := by
    intro hlist
    have hmem : '-' ∈ (toString k).toList := by
      rw [toList_toString_negSucc] at hlist
      exact hlist ▸ mem_cons_self
    exact not_mem_toString (by decide) k hmem
  cases m with
  | ofNat k =>
    cases n with
    | ofNat => exact congrArg Int.ofNat (toString_inj h)
    | negSucc l => exact absurd (congrArg toList h) (hminus k l)
  | negSucc k =>
    cases n with
    | ofNat l => exact absurd (congrArg toList h.symm) (hminus l k)
    | negSucc =>
      have hlist := congrArg toList h
      rw [toList_toString_negSucc, toList_toString_negSucc] at hlist
      have hsucc := toString_inj (toList_inj.1 (cons.inj hlist).2)
      exact congrArg Int.negSucc (Nat.succ.inj hsucc)

end Tunnet.Str

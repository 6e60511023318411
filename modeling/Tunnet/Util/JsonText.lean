import Tunnet.Util.Hex

/-!
# The compact text of a JSON value

Values over a type of numbers, whose text is a parameter, and the text that a compact serializer
writes for them, with quotes, backslashes and control characters of strings escaped.
-/

namespace Tunnet

open List

universe u

/-- JSON values with numbers in `ν`; the fields of an object in the order of the text. -/
inductive JsonValue (ν : Type u) : Type u
  | null
  | bool (b : Bool)
  | number (n : ν)
  | string (s : String)
  | array (xs : List (JsonValue ν))
  | object (fields : List (String × JsonValue ν))

namespace JsonValue

/-- The value, if it is a string. -/
def asString {ν : Type u} : JsonValue ν → Option String
  | string s => some s
  | _ => none

/-! ### Strings -/

/-- The text of a character of a string. -/
def escapeChar (c : Char) : List Char :=
  if c = '"' then ['\\', '"']
  else if c = '\\' then ['\\', '\\']
  else if c = Char.ofNat 8 then ['\\', 'b']
  else if c = '\t' then ['\\', 't']
  else if c = '\n' then ['\\', 'n']
  else if c = Char.ofNat 12 then ['\\', 'f']
  else if c = '\r' then ['\\', 'r']
  else if c.toNat < 32 then ['\\', 'u', '0', '0', Hex.digit (c.toNat / 16),
    Hex.digit (c.toNat % 16)]
  else [c]

/-- Read back a character. -/
def unescape : List Char → Option (Char × List Char)
  | '\\' :: 'u' :: '0' :: '0' :: a :: b :: r => do
    let hi ← Hex.digitVal a
    let lo ← Hex.digitVal b
    return (Char.ofNat (16 * hi + lo), r)
  | '\\' :: c :: r =>
    some (if c = 'b' then Char.ofNat 8 else if c = 't' then '\t' else if c = 'n' then '\n'
      else if c = 'f' then Char.ofNat 12 else if c = 'r' then '\r' else c, r)
  | c :: r => some (c, r)
  | [] => none

def escape (s : List Char) : List Char := s.flatMap escapeChar

def quoted (s : String) : List Char := '"' :: (escape s.toList ++ ['"'])

theorem unescape_escapeChar (c : Char) (r : List Char) :
    unescape (escapeChar c ++ r) = some (c, r) := by
  unfold escapeChar
  split_ifs with h₁ h₂ h₃ h₄ h₅ h₆ h₇ h₈
  · rw [h₁]
    rfl
  · rw [h₂]
    rfl
  · rw [h₃]
    rfl
  · rw [h₄]
    rfl
  · rw [h₅]
    rfl
  · rw [h₆]
    rfl
  · rw [h₇]
    rfl
  · have hhi : c.toNat / 16 < 16 := by omega
    have hlo : c.toNat % 16 < 16 := by omega
    have hsum : 16 * (c.toNat / 16) + c.toNat % 16 = c.toNat := by omega
    simp only [cons_append, unescape, Hex.digitVal_digit hhi,
      Hex.digitVal_digit hlo, Option.bind_eq_bind, Option.bind_some, hsum, Char.ofNat_toNat]
    rfl
  · rw [singleton_append, unescape]
    · exact fun _ _ _ heq => absurd heq h₂
    · exact fun _ _ heq => absurd heq h₂

theorem escapeChar_ne (c : Char) (r t : List Char) : escapeChar c ++ r ≠ '"' :: t := by
  intro heq
  have hread := unescape_escapeChar c r
  rw [heq] at hread
  obtain ⟨rfl, -⟩ := Prod.mk.inj (Option.some.inj hread)
  cases heq

theorem escape_inj (s s' : List Char) {t t' : List Char}
    (heq : escape s ++ '"' :: t = escape s' ++ '"' :: t') : s = s' ∧ t = t' := by
  induction s generalizing s' with
  | nil =>
    cases s' with
    | nil => exact ⟨rfl, (cons.inj heq).2⟩
    | cons c' =>
      rw [escape, escape, flatMap_cons, append_assoc] at heq
      exact absurd heq.symm (escapeChar_ne c' _ _)
  | cons c s ih =>
    rw [escape, flatMap_cons, append_assoc] at heq
    cases s' with
    | nil => exact absurd heq (escapeChar_ne c _ _)
    | cons c' s' =>
      rw [escape, flatMap_cons, append_assoc] at heq
      have hread := unescape_escapeChar c (flatMap escapeChar s ++ '"' :: t)
      rw [heq, unescape_escapeChar] at hread
      obtain ⟨rfl, htail⟩ := Prod.mk.inj (Option.some.inj hread)
      obtain ⟨rfl, rfl⟩ := ih s' htail.symm
      exact ⟨rfl, rfl⟩

theorem quoted_inj {s s' : String} {t t' : List Char} (heq : quoted s ++ t = quoted s' ++ t') :
    s = s' ∧ t = t' := by
  unfold quoted at heq
  rw [cons_append, cons_append, append_assoc, append_assoc] at heq
  obtain ⟨hs, rfl⟩ := escape_inj _ _ (cons.inj heq).2
  exact ⟨String.toList_inj.1 hs, rfl⟩

/-! ### Values -/

variable {ν : Type u}

section

variable (number : ν → List Char)

mutual

/-- The text of a value. -/
def text : JsonValue ν → List Char
  | null => "null".toList
  | bool b => if b then "true".toList else "false".toList
  | .number n => number n
  | string s => quoted s
  | array xs => '[' :: (texts xs ++ [']'])
  | object fields => '{' :: (fieldTexts fields ++ ['}'])

def texts : List (JsonValue ν) → List Char
  | [] => []
  | x :: xs => text x ++ moreTexts xs

/-- The values after the first one. -/
def moreTexts : List (JsonValue ν) → List Char
  | [] => []
  | x :: xs => ',' :: (text x ++ moreTexts xs)

def fieldTexts : List (String × JsonValue ν) → List Char
  | [] => []
  | (key, x) :: fields => quoted key ++ ':' :: (text x ++ moreFieldTexts fields)

def moreFieldTexts : List (String × JsonValue ν) → List Char
  | [] => []
  | (key, x) :: fields => ',' :: (quoted key ++ ':' :: (text x ++ moreFieldTexts fields))

end

end

/-- The characters of numbers. -/
def isNumeric (c : Char) : Bool := c.isDigit || ['-', '+', '.', 'e', 'E'].contains c

/-- What is expected of the text of numbers. -/
structure NumberText {ν : Type u} (number : ν → List Char) : Prop where
  inj : ∀ {m n}, number m = number n → m = n
  ne_nil : ∀ n, number n ≠ []
  numeric : ∀ n, ∀ c ∈ number n, isNumeric c

/-! ### Quotes -/

/-- The characters that a text has outside of strings, but for the quotes. -/
def isSyntax (c : Char) : Bool := "nultrefas\x7b\x7d[],:".toList.contains c || isNumeric c

/-- Where a reader of a text is. -/
inductive Scan
  | outside
  | inside
  | escaped

/-- The reader looks for quotes; outside of strings, there is no backslash and no `sep`. -/
def Scan.step (sep : Char) : Scan → Char → Option Scan
  | .outside, c =>
    if c = '"' then some .inside else if c = '\\' ∨ c = sep then none else some .outside
  | .inside, c =>
    if c = '"' then some .outside else if c = '\\' then some .escaped else some .inside
  | .escaped, _ => some .inside

def scan (sep : Char) (st : Scan) (cs : List Char) : Option Scan := cs.foldlM (Scan.step sep) st

variable {sep c : Char} {a r s t : List Char} {v w : JsonValue ν}

section

theorem scan_append (st : Scan) (a b : List Char) :
    scan sep st (a ++ b) = (scan sep st a).bind fun st => scan sep st b :=
  foldlM_append

theorem scan_append_of_eq {st st' : Scan} (ha : scan sep st a = some st')
    (b : List Char) : scan sep st (a ++ b) = scan sep st' b := by
  rw [scan_append, ha]
  rfl

theorem scan_cons_of_eq {st t : Scan} (hc : Scan.step sep st c = some t)
    (b : List Char) : scan sep st (c :: b) = scan sep t b := by
  unfold scan
  rw [foldlM_cons, hc]
  rfl

theorem step_inside (hquote : c ≠ '"') (hback : c ≠ '\\') :
    Scan.step sep .inside c = some .inside := by
  rw [Scan.step, if_neg hquote, if_neg hback]

theorem scan_opposite (r : List Char) (hin : scan sep .inside r = some .outside) :
    scan sep .outside r ≠ some .outside := by
  induction r with
  | nil => cases hin
  | cons c r ih =>
    intro hout
    by_cases hquote : c = '"'
    · -- The quote makes them change places.
      subst hquote
      exact ih hout hin
    · by_cases hother : c = '\\' ∨ c = sep
      · unfold scan at hout
        rw [foldlM_cons, Scan.step, if_neg hquote, if_pos hother] at hout
        cases hout
      · have hstep : Scan.step sep .outside c = some .outside := by
          rw [Scan.step, if_neg hquote, if_neg hother]
        rw [scan_cons_of_eq (step_inside hquote fun h => hother (.inl h))] at hin
        rw [scan_cons_of_eq hstep] at hout
        exact ih hin hout

theorem scan_after_sep (h : scan sep .outside (a ++ sep :: r) = some .outside)
    (hquote : sep ≠ '"') (hback : sep ≠ '\\') : scan sep .inside r = some .outside := by
  rw [scan_append] at h
  obtain ⟨st, -, h⟩ := Option.bind_eq_some_iff.1 h
  cases st with
  | outside =>
    unfold scan at h
    rw [foldlM_cons, Scan.step, if_neg hquote, if_pos (.inr rfl)] at h
    cases h
  | inside => rwa [scan_cons_of_eq (step_inside hquote hback)] at h
  | escaped => exact h

variable (hsep : isSyntax sep = false)

include hsep

theorem scan_marks (cs : List Char) (hcs : cs.all isSyntax) :
    scan sep .outside cs = some .outside := by
  induction cs with
  | nil => rfl
  | cons c cs ih =>
    rw [all_cons, Bool.and_eq_true] at hcs
    have hc := hcs.1
    have hne {d : Char} (hd : isSyntax d = false) : c ≠ d := by
      rintro rfl
      exact nomatch hc.symm.trans hd
    have hstep : Scan.step sep .outside c = some .outside := by
      rw [Scan.step, if_neg (hne (by decide)), if_neg]
      rintro (h | h)
      · exact hne (by decide) h
      · exact hne hsep h
    rw [scan_cons_of_eq hstep]
    exact ih hcs.2

omit hsep in
theorem scan_escapeChar (c : Char) : scan sep .inside (escapeChar c) = some .inside := by
  have hdigit : ∀ n < 16, Hex.digit n ≠ '"' ∧ Hex.digit n ≠ '\\' := by decide
  unfold escapeChar
  split_ifs with h₁ h₂ h₃ h₄ h₅ h₆ h₇ h₈
  · rfl
  · rfl
  · rfl
  · rfl
  · rfl
  · rfl
  · rfl
  · have hhi := hdigit (c.toNat / 16) (by omega)
    have hlo := hdigit (c.toNat % 16) (by omega)
    rw [scan_cons_of_eq rfl, scan_cons_of_eq rfl,
      scan_cons_of_eq rfl, scan_cons_of_eq rfl,
      scan_cons_of_eq (step_inside hhi.1 hhi.2), scan_cons_of_eq (step_inside hlo.1 hlo.2)]
    rfl
  · rw [scan_cons_of_eq (step_inside h₁ h₂)]
    rfl

omit hsep in
theorem scan_escape (s : List Char) : scan sep .inside (escape s) = some .inside := by
  induction s with
  | nil => rfl
  | cons c s ih =>
    rw [escape, flatMap_cons, scan_append_of_eq (scan_escapeChar c)]
    exact ih

omit hsep in
theorem scan_quoted (s : String) : scan sep .outside (quoted s) = some .outside := by
  rw [quoted, scan_cons_of_eq rfl, scan_append_of_eq (scan_escape s.toList)]
  rfl

theorem scan_marks_cons (hc : isSyntax c) (cs : List Char) :
    scan sep .outside (c :: cs) = scan sep .outside cs := by
  have hall : [c].all isSyntax := by
    rw [all_cons, hc]
    rfl
  exact scan_append_of_eq (scan_marks hsep [c] hall) cs

end

section

variable {number : ν → List Char}

theorem scan_moreTexts (hsep : isSyntax sep = false) (xs : List (JsonValue ν)) :
    scan sep .outside (moreTexts number xs) = scan sep .outside (texts number xs) := by
  cases xs with
  | nil => rfl
  | cons => exact scan_marks_cons hsep (by decide) _

theorem scan_moreFieldTexts (hsep : isSyntax sep = false) (fields : List (String × JsonValue ν)) :
    scan sep .outside (moreFieldTexts number fields) =
      scan sep .outside (fieldTexts number fields) := by
  cases fields with
  | nil => rfl
  | cons => exact scan_marks_cons hsep (by decide) _

mutual

theorem scan_text (hsep : isSyntax sep = false) (hnumber : NumberText number) :
    ∀ v, scan sep .outside (text number v) = some .outside
  | null => scan_marks hsep "null".toList rfl
  | bool true => scan_marks hsep "true".toList rfl
  | bool false => scan_marks hsep "false".toList rfl
  | .number n => by
    refine scan_marks hsep _ (all_eq_true.2 fun c hc => ?_)
    rw [isSyntax, hnumber.numeric n c hc, Bool.or_true]
  | string s => scan_quoted s
  | array xs => by
    rw [text, scan_marks_cons hsep (by decide), scan_append_of_eq (scan_texts hsep hnumber xs)]
    exact scan_marks hsep _ (by decide)
  | object fields => by
    rw [text, scan_marks_cons hsep (by decide),
      scan_append_of_eq (scan_fieldTexts hsep hnumber fields)]
    exact scan_marks hsep _ (by decide)

theorem scan_texts (hsep : isSyntax sep = false) (hnumber : NumberText number) :
    ∀ xs, scan sep .outside (texts number xs) = some .outside
  | [] => rfl
  | x :: xs => by
    rw [texts, scan_append_of_eq (scan_text hsep hnumber x), scan_moreTexts hsep]
    exact scan_texts hsep hnumber xs

theorem scan_fieldTexts (hsep : isSyntax sep = false) (hnumber : NumberText number) : ∀ fields,
    scan sep .outside (fieldTexts number fields) = some .outside
  | [] => rfl
  | (key, x) :: fields => by
    rw [fieldTexts, scan_append_of_eq (scan_quoted key), scan_marks_cons hsep (by decide),
      scan_append_of_eq (scan_text hsep hnumber x), scan_moreFieldTexts hsep]
    exact scan_fieldTexts hsep hnumber fields

end

/-- What follows `sep` in a text is not the text of a value. -/
theorem text_ne_of_append (hsep : isSyntax sep = false) (hquote : sep ≠ '"') (hback : sep ≠ '\\')
    (hnumber : NumberText number)
    (heq : text number v = a ++ sep :: r) (w : JsonValue ν) : r ≠ text number w := by
  rintro rfl
  have hscan := scan_text hsep hnumber v
  rw [heq] at hscan
  exact scan_opposite _ (scan_after_sep hscan hquote hback) (scan_text hsep hnumber w)

end

/-! ### A text determines its value -/

/-- What the first character of a text tells. -/
inductive Kind
  | null
  | bool
  | number
  | string
  | array
  | object

def Kind.ofChar (c : Char) : Kind :=
  if c = 'n' then .null else if c = 't' then .bool else if c = 'f' then .bool
  else if c = '"' then .string
  else if c = '[' then .array else if c = '\x7b' then .object else .number

def kind {ν : Type u} : JsonValue ν → Kind
  | null => .null
  | bool _ => .bool
  | .number _ => .number
  | string _ => .string
  | array _ => .array
  | object _ => .object

/-- A number ends here. -/
def Delimited (t : List Char) : Prop := ∀ c r, t = c :: r → isNumeric c = false

section

variable {number : ν → List Char}

theorem ofChar_of_isNumeric (hc : isNumeric c) : Kind.ofChar c = .number := by
  have hne {d : Char} (hd : isNumeric d = false) : c ≠ d := by
    rintro rfl
    exact nomatch hc.symm.trans hd
  unfold Kind.ofChar
  rw [if_neg (hne (by decide)), if_neg (hne (by decide)), if_neg (hne (by decide)),
    if_neg (hne (by decide)), if_neg (hne (by decide)), if_neg (hne (by decide))]

theorem head_text (hnumber : NumberText number) (v : JsonValue ν) :
    ∃ c r, text number v = c :: r ∧ Kind.ofChar c = kind v := by
  cases v with
  | null | string | array | object => exact ⟨_, _, rfl, rfl⟩
  | bool b => cases b <;> exact ⟨_, _, rfl, rfl⟩
  | number n =>
    cases htext : number n with
    | nil => exact absurd htext (hnumber.ne_nil n)
    | cons c r =>
      refine ⟨c, r, htext, ofChar_of_isNumeric (hnumber.numeric n c ?_)⟩
      rw [htext]
      exact mem_cons_self

theorem kind_eq_of_append (hnumber : NumberText number)
    (heq : text number v ++ s = text number w ++ t) : kind v = kind w := by
  obtain ⟨c, r, hv, hkind⟩ := head_text hnumber v
  obtain ⟨d, r', hw, hkind'⟩ := head_text hnumber w
  rw [hv, hw] at heq
  rw [← hkind, ← hkind', (cons.inj heq).1]

theorem bool_eq_of_append {b b' : Bool}
    (heq : text number (bool b) ++ s = text number (bool b') ++ t) : b = b' := by
  cases b <;> cases b'
  · rfl
  · exact absurd (cons.inj heq).1 (by decide)
  · exact absurd (cons.inj heq).1 (by decide)
  · rfl

variable (hnumber : NumberText number)

include hnumber

theorem text_append_ne (v : JsonValue ν) (r s : List Char) : text number v ++ r ≠ ']' :: s := by
  obtain ⟨c, r', hv, hkind⟩ := head_text hnumber v
  intro heq
  rw [hv] at heq
  obtain rfl := (List.cons.inj heq).1
  cases v with
  | number n =>
    have hmem : ']' ∈ number n := by
      rw [text] at hv
      rw [hv]
      exact mem_cons_self
    exact absurd (hnumber.numeric n ']' hmem) (by decide)
  | _ => cases hkind

theorem takeWhile_number (n : ν) (hs : Delimited s) :
    (number n ++ s).takeWhile isNumeric = number n := by
  rw [takeWhile_append_of_pos fun c hc => hnumber.numeric n c hc]
  cases s with
  | nil => rw [takeWhile_nil, append_nil]
  | cons c r => rw [takeWhile_cons_of_neg (by simp [hs c r rfl]), append_nil]

theorem number_append_inj {m n : ν}
    (hs : Delimited s) (ht : Delimited t) (heq : number m ++ s = number n ++ t) :
    m = n ∧ s = t := by
  have hnumbers : number m = number n := by
    rw [← takeWhile_number hnumber m hs, heq, takeWhile_number hnumber n ht]
  obtain rfl := hnumber.inj hnumbers
  exact ⟨rfl, append_cancel_left heq⟩

omit hnumber

theorem delimited_cons (hc : isNumeric c = false) (r : List Char) : Delimited (c :: r) :=
  fun _ _ heq => (cons.inj heq).1 ▸ hc

theorem delimited_moreTexts (xs : List (JsonValue ν)) (s : List Char) :
    Delimited (moreTexts number xs ++ ']' :: s) := by
  cases xs with
  | nil | cons => exact delimited_cons (by decide) _

theorem delimited_moreFieldTexts (fields : List (String × JsonValue ν)) (s : List Char) :
    Delimited (moreFieldTexts number fields ++ '\x7d' :: s) := by
  cases fields with
  | nil | cons => exact delimited_cons (by decide) _

theorem texts_of_moreTexts : ∀ {xs ys : List (JsonValue ν)},
    moreTexts number xs ++ ']' :: s = moreTexts number ys ++ ']' :: t →
      texts number xs ++ ']' :: s = texts number ys ++ ']' :: t
  | [], [], heq => heq
  | [], _ :: _, heq | _ :: _, [], heq => absurd (List.cons.inj heq).1 (by decide)
  | _ :: _, _ :: _, heq => (List.cons.inj heq).2

theorem fieldTexts_of_more : ∀ {fields fields' : List (String × JsonValue ν)},
    moreFieldTexts number fields ++ '\x7d' :: s = moreFieldTexts number fields' ++ '\x7d' :: t →
      fieldTexts number fields ++ '\x7d' :: s = fieldTexts number fields' ++ '\x7d' :: t
  | [], [], heq => heq
  | [], _ :: _, heq | _ :: _, [], heq => absurd (cons.inj heq).1 (by decide)
  | _ :: _, _ :: _, heq => (cons.inj heq).2

mutual

/-- A text determines its value, and where it ends. -/
theorem text_append_inj (hnumber : NumberText number) : ∀ v w {s t : List Char},
    Delimited s → Delimited t → text number v ++ s = text number w ++ t → v = w ∧ s = t
  | null, w, s, t, _, _, heq => by
    have hkind := kind_eq_of_append hnumber heq
    cases w with
    | null => exact ⟨rfl, append_cancel_left heq⟩
    | _ => cases hkind
  | bool b, w, s, t, _, _, heq => by
    have hkind := kind_eq_of_append hnumber heq
    cases w with
    | bool =>
      obtain rfl := bool_eq_of_append heq
      exact ⟨rfl, append_cancel_left heq⟩
    | _ => cases hkind
  | .number m, w, s, t, hs, ht, heq => by
    have hkind := kind_eq_of_append hnumber heq
    cases w with
    | number =>
      obtain ⟨rfl, rfl⟩ := number_append_inj hnumber hs ht heq
      exact ⟨rfl, rfl⟩
    | _ => cases hkind
  | string a, w, s, t, _, _, heq => by
    have hkind := kind_eq_of_append hnumber heq
    cases w with
    | string =>
      obtain ⟨rfl, rfl⟩ := quoted_inj heq
      exact ⟨rfl, rfl⟩
    | _ => cases hkind
  | array xs, w, s, t, _, _, heq => by
    have hkind := kind_eq_of_append hnumber heq
    cases w with
    | array ys =>
      rw [text, text, cons_append, cons_append, append_assoc, append_assoc] at heq
      obtain ⟨rfl, rfl⟩ := texts_append_inj hnumber xs ys (cons.inj heq).2
      exact ⟨rfl, rfl⟩
    | _ => cases hkind
  | object fields, w, s, t, _, _, heq => by
    have hkind := kind_eq_of_append hnumber heq
    cases w with
    | object fields' =>
      rw [text, text, cons_append, cons_append, append_assoc, append_assoc] at heq
      obtain ⟨rfl, rfl⟩ := fieldTexts_append_inj hnumber fields fields' (cons.inj heq).2
      exact ⟨rfl, rfl⟩
    | _ => cases hkind

theorem texts_append_inj (hnumber : NumberText number) : ∀ xs ys
    {s t : List Char}, texts number xs ++ ']' :: s = texts number ys ++ ']' :: t → xs = ys ∧ s = t
  | [], [], s, t, heq => ⟨rfl, (cons.inj heq).2⟩
  | [], y :: ys, s, t, heq => by
    rw [texts, texts, append_assoc] at heq
    exact absurd heq.symm (text_append_ne hnumber y _ s)
  | x :: xs, [], s, t, heq => by
    rw [texts, texts, append_assoc] at heq
    exact absurd heq (text_append_ne hnumber x _ t)
  | x :: xs, y :: ys, s, t, heq => by
    rw [texts, texts, append_assoc, append_assoc] at heq
    obtain ⟨rfl, htail⟩ := text_append_inj hnumber x y (delimited_moreTexts xs s)
      (delimited_moreTexts ys t) heq
    obtain ⟨rfl, rfl⟩ := texts_append_inj hnumber xs ys (texts_of_moreTexts htail)
    exact ⟨rfl, rfl⟩

theorem fieldTexts_append_inj (hnumber : NumberText number) : ∀ fields fields' {s t : List Char},
      fieldTexts number fields ++ '\x7d' :: s = fieldTexts number fields' ++ '\x7d' :: t →
        fields = fields' ∧ s = t
  | [], [], s, t, heq => ⟨rfl, (cons.inj heq).2⟩
  | [], (key, y) :: fields', s, t, heq => absurd (cons.inj heq).1 (by decide)
  | (key, x) :: fields, [], s, t, heq => absurd (cons.inj heq).1 (by decide)
  | (key, x) :: fields, (key', y) :: fields', s, t, heq => by
    rw [fieldTexts, fieldTexts, append_assoc, append_assoc] at heq
    obtain ⟨rfl, hrest⟩ := quoted_inj heq
    rw [cons_append, cons_append, append_assoc, append_assoc] at hrest
    obtain ⟨rfl, htail⟩ := text_append_inj hnumber x y (delimited_moreFieldTexts fields s)
      (delimited_moreFieldTexts fields' t) (cons.inj hrest).2
    obtain ⟨rfl, rfl⟩ := fieldTexts_append_inj hnumber fields fields' (fieldTexts_of_more htail)
    exact ⟨rfl, rfl⟩

end

theorem text_inj (hnumber : NumberText number) (heq : text number v = text number w) : v = w := by
  have hnil : Delimited [] := nofun
  refine (text_append_inj hnumber v w hnil hnil ?_).1
  rw [heq]

end

end JsonValue

end Tunnet

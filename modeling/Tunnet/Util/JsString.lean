import Tunnet.Util.Str

/-!
# Strings of JavaScript and of Rust

The length of a string counts UTF-16 code units in JavaScript and bytes of UTF-8 in Rust, and `trim`
removes different characters at the ends: JavaScript the byte order mark, Rust the next-line
character.
-/

namespace Tunnet

open List String

/-! ### Trimming -/

namespace Str

variable {cs : List Char} {p q : Char → Bool} {c : Char}

/-- The characters without those at either end that satisfy `p`. -/
def trimMatches (p : Char → Bool) (cs : List Char) : List Char :=
  ((cs.dropWhile p).reverse.dropWhile p).reverse

theorem trim_eq_trimMatches (s : String) :
    (trim s).toList = trimMatches isWhitespace s.toList := toList_ofList

theorem mem_dropWhile (hp : p c = false) (hc : c ∈ cs) : c ∈ cs.dropWhile p := by
  rw [← takeWhile_append_dropWhile (l := cs), mem_append] at hc
  refine hc.resolve_left fun htake => ?_
  rw [mem_takeWhile_imp htake] at hp
  exact absurd hp (by decide)

theorem mem_trimMatches (hp : p c = false) (hc : c ∈ cs) : c ∈ trimMatches p cs := by
  unfold trimMatches
  rw [mem_reverse]
  exact mem_dropWhile hp (mem_reverse.2 (mem_dropWhile hp hc))

theorem dropWhile_congr (hpq : ∀ c ∈ cs, p c = q c) : cs.dropWhile p = cs.dropWhile q := by
  induction cs with
  | nil => rfl
  | cons c cs ih =>
    rw [dropWhile_cons, dropWhile_cons, hpq c mem_cons_self,
      ih fun c' hc' => hpq c' (mem_cons_of_mem _ hc')]

theorem trimMatches_congr (hpq : ∀ c ∈ cs, p c = q c) : trimMatches p cs = trimMatches q cs := by
  unfold trimMatches
  rw [dropWhile_congr hpq]
  refine congrArg reverse (dropWhile_congr fun c hc => hpq c ?_)
  exact (dropWhile_sublist q).subset (mem_reverse.1 hc)

end Str

namespace JsString

/-- What `String.prototype.trim` removes: white space and line terminators. -/
def isWhiteSpace (c : Char) : Bool :=
  let n := c.toNat
  (9 ≤ n && n ≤ 13) || n == 0x20 || n == 0xA0 || n == 0x1680 || (0x2000 ≤ n && n ≤ 0x200A) ||
    n == 0x2028 || n == 0x2029 || n == 0x202F || n == 0x205F || n == 0x3000 || n == 0xFEFF

/-- `String.prototype.trim`. -/
def trim (s : String) : String := String.ofList (Str.trimMatches isWhiteSpace s.toList)

theorem toList_trim (s : String) : (trim s).toList = Str.trimMatches isWhiteSpace s.toList :=
  toList_ofList

/-- U+0085, which only Rust takes for white space. -/
def nextLine : Char := Char.ofNat 0x85

/-- U+FEFF, which only JavaScript takes for white space. -/
def byteOrderMark : Char := Char.ofNat 0xFEFF

variable {s : String}

/-- The two ways of trimming differ in the next-line character and the byte order mark only. -/
theorem trim_eq_trim (hnext : nextLine ∉ s.toList) (hmark : byteOrderMark ∉ s.toList) :
    trim s = Str.trim s := by
  rw [← toList_inj, toList_trim, Str.trim_eq_trimMatches]
  refine Str.trimMatches_congr fun c hc => ?_
  have hne (n) (hn : Char.ofNat n ∉ s.toList) : (c.toNat == n) = false := by
    refine beq_eq_false_iff_ne.2 fun h => hn ?_
    rwa [← h, Char.ofNat_toNat]
  simp [isWhiteSpace, Str.isWhitespace, hne _ hnext, hne _ hmark]

/-! ### Length -/

/-- The number of UTF-16 code units of a character. -/
def codeUnits (c : Char) : Nat := if c.toNat < 0x10000 then 1 else 2

/-- `String.prototype.length`. -/
def length (s : String) : Nat := s.toList.foldr (fun c n => codeUnits c + n) 0

theorem utf8ByteSize_ofList (cs : List Char) :
    (ofList cs).utf8ByteSize = cs.foldr (fun c n => c.utf8Size + n) 0 := by
  induction cs with
  | nil => rfl
  | cons c cs ih => rw [ofList_cons, utf8ByteSize_append, utf8ByteSize_singleton, ih, foldr_cons]

theorem codeUnits_le_utf8Size (c : Char) : codeUnits c ≤ c.utf8Size := by
  unfold codeUnits
  have hpos := c.utf8Size_pos
  split_ifs
  · exact hpos
  · have hsize : c.utf8Size = 4 := by
      have hval : c.toNat = c.val.toNat := rfl
      simp only [Char.utf8Size, UInt32.le_iff_toNat_le]
      rw [if_neg (by simp; omega), if_neg (by simp; omega), if_neg (by simp; omega)]
    omega

theorem length_pos_iff : 0 < length s ↔ s ≠ "" := by
  constructor
  · rintro h rfl
    exact absurd h (by decide)
  · intro hne
    unfold length
    cases hs : s.toList with
    | nil => exact absurd (toList_eq_nil_iff.1 hs) hne
    | cons c =>
      rw [foldr_cons]
      have hunits : 0 < codeUnits c := by
        unfold codeUnits
        split_ifs <;> decide
      omega

/-- There are at least as many bytes as code units. -/
theorem length_le_utf8ByteSize (s : String) : length s ≤ s.utf8ByteSize := by
  have hs : s.utf8ByteSize = s.toList.foldr (fun c n => c.utf8Size + n) 0 := by
    rw [← utf8ByteSize_ofList, ofList_toList]
  rw [hs]
  unfold length
  induction s.toList with
  | nil => exact le_rfl
  | cons c cs ih => exact Nat.add_le_add (codeUnits_le_utf8Size c) ih

/-- In ASCII text there are as many. -/
theorem length_eq_utf8ByteSize (hs : ∀ c ∈ s.toList, c.toNat < 128) :
    length s = s.utf8ByteSize := by
  have hfold : s.utf8ByteSize = s.toList.foldr (fun c n => c.utf8Size + n) 0 := by
    rw [← utf8ByteSize_ofList, ofList_toList]
  rw [hfold]
  unfold length
  generalize s.toList = cs at hs
  induction cs with
  | nil => rfl
  | cons c cs ih =>
    have hc := hs c mem_cons_self
    have hunits : codeUnits c = 1 := if_pos (by omega)
    have hsize : c.utf8Size = 1 := by
      have hval : c.toNat = c.val.toNat := rfl
      simp only [Char.utf8Size, UInt32.le_iff_toNat_le]
      rw [if_pos (by simp; omega)]
    rw [foldr_cons, foldr_cons, hunits, hsize, ih fun c' hc' => hs c' (mem_cons_of_mem _ hc')]

end JsString

end Tunnet

import Tunnet.Util.FileTree
import Tunnet.Util.Str

/-!
# Paths as the standard library has them

`std::path` and the few functions of `std::fs` that take a path, for Unix. Repeated slashes and the
component `.` mean nothing inside a path, `..` is left to the file system, and joining an absolute
path replaces what it is joined to.

* `Path.parse`, `Path.join`, `Path.parent`, `Path.fileStem`, `Path.extension`.
* `createDirAll`, `writePath`, `Path.exists'`: the functions of `std::fs`.
* `parse_name`: a name without a slash is one part.
-/

namespace Tunnet

open FileTree List

/-- A path by its components. `dirOnly` says that it ends in a slash or in `.`, so that it can only
denote a directory. -/
structure Path where
  absolute : Bool
  parts : List (FileTree.Part String)
  dirOnly : Bool

namespace Path

/-- The component a segment between slashes stands for. -/
def component (segment : List Char) : Option (FileTree.Part String) :=
  if segment = [] ∨ segment = ['.'] then none
  else if segment = ['.', '.'] then some .up
  else some (.down (String.ofList segment))

def parse (s : String) : Path :=
  let segments := s.toList.splitOn '/'
  { absolute := s.toList.head? = some '/'
    parts := segments.filterMap component
    dirOnly := segments.getLast? = some [] || segments.getLast? = some ['.'] }

/-- `Path::join`. -/
def join (base path : Path) : Path :=
  if path.absolute then path
  else { path with absolute := base.absolute, parts := base.parts ++ path.parts }

/-- `Path::parent`. -/
def parent (path : Path) : Option Path :=
  if path.parts = [] then none else some ⟨path.absolute, path.parts.dropLast, false⟩

/-- `Path::file_name`. -/
def fileName (path : Path) : Option String :=
  match path.parts.getLast? with
  | some (.down n) => some n
  | _ => none

/-- A file name before and after its last dot, unless that is its first character. -/
def rsplitDot (name : String) : Option (String × String) :=
  if name = ".." then none
  else
    match name.toList.reverse.dropWhile (· != '.') with
    | [] => none
    | _ :: before =>
      if before = [] then none
      else some (String.ofList before.reverse,
        String.ofList (name.toList.reverse.takeWhile (· != '.')).reverse)

/-- `Path::file_stem`. -/
def fileStem (path : Path) : Option String :=
  path.fileName.map fun name =>
    match rsplitDot name with
    | some (before, _) => before
    | none => name

/-- `Path::extension`. -/
def extension (path : Path) : Option String :=
  path.fileName.bind fun name => (rsplitDot name).map Prod.snd

/-- The operating system takes no name with a zero byte. -/
def hasNul (parts : List (FileTree.Part String)) : Bool :=
  parts.any fun
    | .down n => n.toList.contains '\x00'
    | .up => false

/-- Where the file system begins to resolve the path. -/
def base (cwd : Loc String) (path : Path) : Loc String := if path.absolute then [] else cwd

end Path

/-! ### The file system -/

variable {β : Type} {s name before after n : String} {d d' : Disk String β}

section

variable (cwd : Loc String) (denies : Loc String → Bool)

/-- `Path::exists`. -/
def Path.exists' (t : Tree String β) (path : Path) : Bool :=
  !Path.hasNul path.parts &&
    match path.parts.getLast? with
    | some (.down n) =>
      match t.resolve (path.base cwd) path.parts.dropLast with
      | some l => if path.dirOnly then t.IsDir (l ++ [n]) else (t.item (l ++ [n])).isSome
      | none => false
    | _ => (t.resolve (path.base cwd) path.parts).isSome

/-- `fs::create_dir_all`. -/
def createDirAll (d : Disk String β) (path : Path) : Disk String β × Except IoError Unit :=
  if Path.hasNul path.parts then (d, .error .invalidInput)
  else d.makeDirs denies (path.base cwd) path.parts

/-- `fs::write`. -/
def writePath (d : Disk String β) (path : Path) (content : β) :
    Disk String β × Except IoError Unit :=
  if Path.hasNul path.parts then (d, .error .invalidInput)
  else
    match path.parts.getLast? with
    | some (.down n) =>
      match d.tree.resolve (path.base cwd) path.parts.dropLast with
      | some l => if path.dirOnly then (d, .error .isADirectory) else d.write denies l n content
      | none => (d, .error .notFound)
    | _ => (d, .error .isADirectory)

end

/-! ### Names -/

/-- A string that is one component. -/
def IsName (s : String) : Prop :=
  '/' ∉ s.toList ∧ s ≠ "" ∧ s ≠ "." ∧ s ≠ ".."

namespace Path

variable {cwd : Loc String} {denies : Loc String → Bool} {path : Path}

theorem isName_of_mem {c : Char} (hslash : '/' ∉ s.toList) (hc : c ∈ s.toList)
    (hdot : c ≠ '.') : IsName s := by
  refine ⟨hslash, ?_, ?_, ?_⟩
  all_goals
    rintro rfl
    simp_all

theorem parse_name (h : IsName s) : parse s = ⟨false, [.down s], false⟩ := by
  obtain ⟨hslash, hempty, hdot, hdots⟩ := h
  have hnil : s.toList ≠ [] := fun h => hempty (String.toList_inj.1 h)
  have hdot' : s.toList ≠ ['.'] := fun h => hdot (String.toList_inj.1 h)
  have hdots' : s.toList ≠ ['.', '.'] := fun h => hdots (String.toList_inj.1 h)
  have hhead : s.toList.head? ≠ some '/' := fun h => hslash (mem_of_head? h)
  unfold parse
  rw [splitOn_eq_singleton hslash]
  simp [hhead, component, hnil, hdot', hdots']

theorem join_name (base : Path) (h : IsName s) :
    base.join (parse s) = ⟨base.absolute, base.parts ++ [.down s], false⟩ := by
  rw [parse_name h]
  rfl

theorem mem_of_rsplitDot (h : rsplitDot name = some (before, after)) :
    (∀ c ∈ before.toList, c ∈ name.toList) ∧ ∀ c ∈ after.toList, c ∈ name.toList := by
  unfold rsplitDot at h
  split_ifs at h
  split at h
  · cases h
  · rename_i c rest hrest
    split_ifs at h
    obtain ⟨rfl, rfl⟩ := Prod.mk.inj (Option.some.inj h)
    refine ⟨fun c hc => ?_, fun c hc => ?_⟩
    · rw [String.toList_ofList, mem_reverse] at hc
      have hdrop := (dropWhile_sublist (p := (· != '.')) (l := name.toList.reverse)).subset
      rw [hrest] at hdrop
      exact mem_reverse.1 (hdrop (mem_cons_of_mem _ hc))
    · rw [String.toList_ofList, mem_reverse] at hc
      exact mem_reverse.1 ((takeWhile_sublist _).subset hc)

theorem exists_iff {t : Tree String β} {absolute : Bool} {parts : List (FileTree.Part String)} :
    exists' cwd t ⟨absolute, parts ++ [.down n], false⟩ ↔
      hasNul (parts ++ [.down n]) = false ∧ ∃ l,
        t.resolve (base cwd ⟨absolute, parts ++ [.down n], false⟩) parts = some l ∧
          t.item (l ++ [n]) ≠ none := by
  unfold exists'
  rw [Bool.and_eq_true, Bool.not_eq_true', getLast?_concat, dropLast_concat]
  dsimp only
  refine and_congr_right fun _ => ?_
  split
  · rename_i l hl
    rw [hl, if_neg Bool.false_ne_true, Option.isSome_iff_ne_none]
    refine ⟨fun h => ⟨l, rfl, h⟩, ?_⟩
    rintro ⟨l', hl', h⟩
    obtain rfl := Option.some.inj hl'
    exact h
  · rename_i hnone
    rw [hnone]
    exact ⟨nofun, fun ⟨l, hl, _⟩ => nomatch hl⟩

theorem grows_createDirAll :
    Grows (Loc.trail (path.base cwd) path.parts) d (createDirAll cwd denies d path).1 := by
  unfold createDirAll
  split_ifs
  · exact .refl d
  · exact grows_makeDirs

theorem createDirAll_eq_ok
    (h : createDirAll cwd denies d path = (d', .ok ())) :
    hasNul path.parts = false ∧ d.makeDirs denies (path.base cwd) path.parts = (d', .ok ()) := by
  unfold createDirAll at h
  split_ifs at h with hnul
  · cases h
  · exact ⟨Bool.eq_false_iff.2 hnul, h⟩

theorem writePath_cases (cwd : Loc String) (denies : Loc String → Bool)
    (d : Disk String β) (path : Path) (content : β) :
    (writePath cwd denies d path content).1 = d ∨ ∃ n l,
      hasNul path.parts = false ∧ path.parts.getLast? = some (.down n) ∧ path.dirOnly = false ∧
      d.tree.resolve (path.base cwd) path.parts.dropLast = some l ∧
      (writePath cwd denies d path content).1 = (d.write denies l n content).1 := by
  unfold writePath
  split_ifs with hnul hdir
  · exact .inl rfl
  · left
    split
    · split
      · rfl
      · rfl
    · rfl
  · split
    · rename_i n hlast
      split
      · rename_i l hl
        exact .inr ⟨n, l, Bool.eq_false_iff.2 hnul, hlast, Bool.eq_false_iff.2 hdir, hl, rfl⟩
      · exact .inl rfl
    · exact .inl rfl

theorem hasNul_append (ps qs : List (FileTree.Part String)) :
    hasNul (ps ++ qs) = (hasNul ps || hasNul qs) :=
  any_append

end Path

end Tunnet

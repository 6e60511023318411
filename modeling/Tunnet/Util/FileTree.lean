import Mathlib.Data.List.Infix

/-!
# Trees of directories and files

Directories and files at places that are given by the names on the way from the root. There are no
links, so the directory above a place is the place without its last name. A `Disk` is a tree with
the places at which directories were made and files were written so far.

* `makeDirs` makes the missing directories on a way, `write` writes one file.
* `Grows`: what making directories does to a disk (`grows_makeDirs`), and when it succeeds
  (`makeDirs_eq_ok`).
* `Rel`: a place as one reaches it from some directory, so many levels up and then down; `at_trail`
  carries it over to the places of a tree.
-/

namespace Tunnet.FileTree

open List Option

universe u v

variable {ν : Type u} {β : Type v} {n : ν} {content : β}

/-- A place in a tree. -/
abbrev Loc (ν : Type u) := List ν

/-- One part of a way: down to a name, or up to the directory above. -/
inductive Part (ν : Type u)
  | down (name : ν)
  | up

/-- The directory above the root is the root. -/
def Loc.step (l : Loc ν) : Part ν → Loc ν
  | .down n => l ++ [n]
  | .up => l.dropLast

/-- The places one comes to, in order. -/
def Loc.trail (l : Loc ν) : List (Part ν) → List (Loc ν)
  | [] => []
  | p :: ps => Loc.step l p :: Loc.trail (Loc.step l p) ps

/-- The place at the end of a way. -/
def Loc.walk (l : Loc ν) (ps : List (Part ν)) : Loc ν := ps.foldl Loc.step l

theorem Loc.mem_trail_of_dropLast {l x : Loc ν} {ps : List (Part ν)}
    (h : x ∈ trail l ps.dropLast) : x ∈ trail l ps := by
  induction ps generalizing l with
  | nil => exact h
  | cons p ps ih =>
    cases ps with
    | nil => cases h
    | cons =>
      rcases mem_cons.1 h with rfl | h
      · exact mem_cons_self
      · exact mem_cons_of_mem _ (ih h)

theorem Loc.trail_append {l : Loc ν} (ps qs : List (Part ν)) :
    trail l (ps ++ qs) = trail l ps ++ trail (walk l ps) qs := by
  induction ps generalizing l with
  | nil => rfl
  | cons p ps ih =>
    unfold walk at ih ⊢
    rw [cons_append, trail, trail, ih, foldl_cons, cons_append]

theorem Loc.mem_of_step {l : Loc ν} {p : Part ν} (h : n ∈ step l p) : n ∈ l ∨ p = .down n := by
  cases p with
  | down =>
    rcases mem_append.1 h with h | h
    · exact .inl h
    · exact .inr (mem_singleton.1 h ▸ rfl)
  | up => exact .inl (dropLast_subset l h)

theorem Loc.mem_or_mem_of_walk {l : Loc ν} {ps : List (Part ν)}
    (hn : n ∈ walk l ps) : n ∈ l ∨ .down n ∈ ps := by
  induction ps generalizing l with
  | nil => exact .inl hn
  | cons p ps ih =>
    rcases ih hn with h | h
    · exact (mem_of_step h).imp_right (by rintro rfl; exact mem_cons_self)
    · exact .inr (mem_cons_of_mem _ h)

theorem Loc.mem_or_mem_of_trail {l x : Loc ν} {ps : List (Part ν)}
    (hx : x ∈ trail l ps) (hn : n ∈ x) : n ∈ l ∨ .down n ∈ ps := by
  induction ps generalizing l with
  | nil => cases hx
  | cons p ps ih =>
    have hstep (h : n ∈ step l p) : n ∈ l ∨ .down n ∈ p :: ps :=
      (mem_of_step h).imp_right (by rintro rfl; exact mem_cons_self)
    rcases mem_cons.1 hx with rfl | hx
    · exact hstep hn
    · rcases ih hx with h | h
      · exact hstep h
      · exact .inr (mem_cons_of_mem _ h)

inductive Item (β : Type v)
  | dir
  | file (content : β)

/-- What is at which place; whatever there is lies in a directory. -/
structure Tree (ν : Type u) (β : Type v) where
  item : Loc ν → Option (Item β)
  root : item [] = some .dir
  parent : ∀ l n, item (l ++ [n]) ≠ none → item l = some .dir

namespace Tree

def IsDir (t : Tree ν β) (l : Loc ν) : Prop := t.item l = some .dir

instance (t : Tree ν β) (l : Loc ν) : Decidable (t.IsDir l) :=
  match h : t.item l with
  | some .dir => isTrue h
  | some (.file _) => isFalse fun h' => nomatch h.symm.trans h'
  | none => isFalse fun h' => nomatch h.symm.trans h'

theorem isDir_root (t : Tree ν β) : t.IsDir [] := t.root

theorem IsDir.item_ne_none {t : Tree ν β} {l : Loc ν} (h : t.IsDir l) : t.item l ≠ none := by
  rw [h]
  exact some_ne_none _

theorem isDir_of_append {t : Tree ν β} {l m : Loc ν} (hm : m ≠ [])
    (h : t.item (l ++ m) ≠ none) : t.IsDir l := by
  induction m using reverseRecOn with
  | nil => exact absurd rfl hm
  | append_singleton m n ih =>
    rw [← append_assoc] at h
    have hparent : t.IsDir (l ++ m) := t.parent _ _ h
    by_cases hm : m = []
    · rw [hm, append_nil] at hparent
      exact hparent
    · exact ih hm hparent.item_ne_none

theorem IsDir.above {t : Tree ν β} {l l' : Loc ν} (h : t.IsDir l') (hl : l <+: l') : t.IsDir l := by
  obtain ⟨m, rfl⟩ := hl
  by_cases hm : m = []
  · rw [hm, append_nil] at h
    exact h
  · exact isDir_of_append hm h.item_ne_none

theorem item_eq_none_of_append {t : Tree ν β} {l : Loc ν} (h : t.item l = none) (m : Loc ν) :
    t.item (l ++ m) = none := by
  by_cases hm : m = []
  · rw [hm, append_nil]
    exact h
  · by_contra hne
    exact (isDir_of_append hm hne).item_ne_none h

variable {l m : Loc ν} {hl : l ≠ []} {x : Item β} [DecidableEq ν]

/-- Put an item into a directory, but not in place of a directory. -/
def put (t : Tree ν β) (l : Loc ν) (n : ν) (x : Item β) (hl : t.IsDir l)
    (hn : ¬ t.IsDir (l ++ [n])) : Tree ν β where
  item := Function.update t.item (l ++ [n]) (some x)
  root := by
    rw [Function.update_of_ne (List.append_ne_nil_of_right_ne_nil l (List.cons_ne_nil n [])).symm]
    exact t.root
  parent l' n' h := by
    by_cases heq : l' ++ [n'] = l ++ [n]
    · obtain ⟨rfl, -⟩ := List.append_inj' heq rfl
      rw [Function.update_of_ne fun h => List.cons_ne_nil n [] (List.self_eq_append_right.1 h)]
      exact hl
    · rw [Function.update_of_ne heq] at h
      have hdir := t.parent _ _ h
      rw [Function.update_of_ne]
      · exact hdir
      · rintro rfl
        exact hn hdir

/-- A tree with one branch, and the item at its end. -/
def branch (l : Loc ν) (hl : l ≠ []) (x : Item β) : Tree ν β where
  item m := if m = l then some x else if m.isPrefixOf l then some .dir else none
  root := by
    rw [if_neg hl.symm]
    rfl
  parent m n h := by
    have hprefix : m ++ [n] <+: l := by
      split_ifs at h with heq hprefix
      · exact heq ▸ List.prefix_refl _
      · exact List.isPrefixOf_iff_prefix.1 hprefix
      · exact absurd rfl h
    have hm : m <+: l := (List.prefix_append m [n]).trans hprefix
    rw [if_neg, if_pos (List.isPrefixOf_iff_prefix.2 hm)]
    rintro rfl
    have hle := hprefix.length_le
    rw [List.length_append, List.length_singleton] at hle
    omega

theorem item_branch : (branch l hl x).item m =
    if m = l then some x else if m.isPrefixOf l then some .dir else none :=
  rfl

theorem prefix_of_item_branch (h : (branch l hl x).item m ≠ none) : m <+: l := by
  rw [item_branch] at h
  split_ifs at h with heq hprefix
  · exact heq ▸ prefix_refl _
  · exact isPrefixOf_iff_prefix.1 hprefix
  · exact absurd rfl h

theorem eq_of_file_branch
    (h : (branch l hl x).item m = some (.file content)) : m = l ∧ x = .file content := by
  rw [item_branch] at h
  split_ifs at h with heq
  · exact ⟨heq, some.inj h⟩
  · cases h

end Tree

/-! ### Making directories and writing files -/

/-- Why an operation fails. -/
inductive IoError
  | notFound
  | alreadyExists
  | isADirectory
  | invalidInput
  | denied
deriving DecidableEq

/-- A tree, with the places at which directories were made and files were written. -/
structure Disk (ν : Type u) (β : Type v) where
  tree : Tree ν β
  made : List (Loc ν)
  written : List (Loc ν)

namespace Disk

variable [DecidableEq ν] (denies : Loc ν → Bool)

/-- See that one part of a way leads to a directory. -/
def makeDir (d : Disk ν β) (l : Loc ν) : Part ν → Disk ν β × Except IoError Unit
  | .up => (d, if d.tree.IsDir l then .ok () else .error .notFound)
  | .down n =>
    if hn : d.tree.IsDir (l ++ [n]) then (d, .ok ())
    else if (d.tree.item (l ++ [n])).isSome then (d, .error .alreadyExists)
    else if hl : d.tree.IsDir l then
      if denies (l ++ [n]) then (d, .error .denied)
      else ({ d with tree := d.tree.put l n .dir hl hn, made := (l ++ [n]) :: d.made }, .ok ())
    else (d, .error .notFound)

/-- Make the directories that are missing on the way. -/
def makeDirs (d : Disk ν β) (l : Loc ν) : List (Part ν) → Disk ν β × Except IoError Unit
  | [] => (d, .ok ())
  | p :: ps =>
    match d.makeDir denies l p with
    | (d, .error e) => (d, .error e)
    | (d, .ok ()) => d.makeDirs (Loc.step l p) ps

/-- Write a file, in place of the one that is there. -/
def write (d : Disk ν β) (l : Loc ν) (n : ν) (content : β) : Disk ν β × Except IoError Unit :=
  if hn : d.tree.IsDir (l ++ [n]) then (d, .error .isADirectory)
  else if hl : d.tree.IsDir l then
    if denies (l ++ [n]) then (d, .error .denied)
    else
      ({ d with
        tree := d.tree.put l n (.file content) hl hn
        written := (l ++ [n]) :: d.written }, .ok ())
  else (d, .error .notFound)

end Disk

/-- Only directories lead on. -/
def Tree.resolve (t : Tree ν β) (l : Loc ν) : List (Part ν) → Option (Loc ν)
  | [] => if t.IsDir l then some l else none
  | p :: ps => if t.IsDir l then t.resolve (Loc.step l p) ps else none

theorem Tree.resolve_eq_some_iff {t : Tree ν β} {l m : Loc ν} {ps : List (Part ν)} :
    t.resolve l ps = some m ↔
      t.IsDir l ∧ (∀ x ∈ Loc.trail l ps, t.IsDir x) ∧ m = Loc.walk l ps := by
  induction ps generalizing l with
  | nil =>
    unfold resolve
    rw [ite_none_right_eq_some, some.injEq]
    refine and_congr_right fun _ => ⟨fun h => ⟨nofun, h.symm⟩, fun h => h.2.symm⟩
  | cons p ps ih =>
    unfold resolve
    rw [ite_none_right_eq_some, ih]
    refine and_congr_right fun _ => ?_
    rw [Loc.trail, forall_mem_cons, and_assoc]
    rfl

theorem Tree.isDir_of_resolve {t : Tree ν β} {l m : Loc ν} {ps : List (Part ν)}
    (h : t.resolve l ps = some m) : t.IsDir m := by
  induction ps generalizing l with
  | nil =>
    unfold resolve at h
    rw [ite_none_right_eq_some, some.injEq] at h
    exact h.2 ▸ h.1
  | cons p ps ih =>
    unfold resolve at h
    rw [ite_none_right_eq_some] at h
    exact ih h.2

theorem Tree.resolve_append {t : Tree ν β} {l m : Loc ν} {ps : List (Part ν)}
    (h : t.resolve l ps = some m) (qs : List (Part ν)) : t.resolve l
    (ps ++ qs) = t.resolve m qs := by
  induction ps generalizing l with
  | nil =>
    obtain ⟨-, -, rfl⟩ := resolve_eq_some_iff.1 h
    rfl
  | cons p ps ih =>
    unfold resolve at h
    rw [ite_none_right_eq_some] at h
    rw [cons_append, resolve, if_pos h.1]
    exact ih h.2

/-- How a disk grows when directories are made at some of the places. -/
structure Grows (places : List (Loc ν)) (d d' : Disk ν β) : Prop where
  item : ∀ x, d'.tree.item x = d.tree.item x ∨
    (d.tree.item x = none ∧ d'.tree.IsDir x ∧ x ∈ places ∧ x ∈ d'.made)
  made : ∀ x ∈ d'.made, x ∈ d.made ∨ (x ∈ places ∧ d.tree.item x = none)
  made_mono : ∀ x ∈ d.made, x ∈ d'.made
  written : d'.written = d.written

variable {d : Disk ν β}

namespace Grows

variable {places places' : List (Loc ν)} {d' d'' : Disk ν β} {x l m : Loc ν}

theorem refl (d : Disk ν β) : Grows places d d :=
  ⟨fun _ => .inl rfl, fun _ => .inl, fun _ => id, rfl⟩

variable (h : Grows places d d')

include h

theorem isDir (hx : d.tree.IsDir x) : d'.tree.IsDir x := by
  rcases h.item x with hitem | ⟨-, hdir, -⟩
  · exact hitem.trans hx
  · exact hdir

theorem item_of_ne_none (hx : d.tree.item x ≠ none) : d'.tree.item x = d.tree.item x :=
  (h.item x).resolve_right fun hnew => hx hnew.1

theorem resolve {ps : List (Part ν)}
    (hm : d.tree.resolve l ps = some m) : d'.tree.resolve l ps = some m := by
  obtain ⟨hl, htrail, rfl⟩ := Tree.resolve_eq_some_iff.1 hm
  exact Tree.resolve_eq_some_iff.2 ⟨h.isDir hl, fun x hx => h.isDir (htrail x hx), rfl⟩

theorem trans (h' : Grows places' d' d'') : Grows (places ++ places') d d'' where
  item x := by
    rcases h.item x with hitem | ⟨hnone, hdir, hx, hmade⟩
    · rcases h'.item x with hitem' | ⟨hnone', hdir', hx, hmade⟩
      · exact .inl (hitem'.trans hitem)
      · exact .inr ⟨hitem ▸ hnone', hdir', mem_append_right _ hx, hmade⟩
    · exact .inr ⟨hnone, h'.isDir hdir, mem_append_left _ hx, h'.made_mono x hmade⟩
  made x hx := by
    rcases h'.made x hx with hx | ⟨hx, hnone⟩
    · exact (h.made x hx).imp_right fun hx => ⟨mem_append_left _ hx.1, hx.2⟩
    · refine .inr ⟨mem_append_right _ hx, ?_⟩
      by_contra hne
      rw [h.item_of_ne_none hne] at hnone
      exact hne hnone
  made_mono x hx := h'.made_mono x (h.made_mono x hx)
  written := h'.written.trans h.written

end Grows

variable {ps : List (Part ν)}

section

variable [DecidableEq ν] {denies : Loc ν → Bool} {l m x : Loc ν} {p : Part ν}

theorem Tree.item_put {t : Tree ν β} {x : Item β} (hl : t.IsDir l) (hn : ¬ t.IsDir (l ++ [n])) :
    (t.put l n x hl hn).item = Function.update t.item (l ++ [n]) (some x) :=
  rfl

theorem grows_makeDir : Grows [Loc.step l p] d (d.makeDir denies l p).1 := by
  cases p with
  | up => exact .refl d
  | down n =>
    unfold Disk.makeDir
    dsimp only
    split_ifs with hn hsome hl hdenies
    · exact .refl d
    · exact .refl d
    · exact .refl d
    · rw [Bool.not_eq_true, isSome_eq_false_iff, isNone_iff_eq_none] at hsome
      have hmem : l ++ [n] ∈ [Loc.step l (.down n)] := mem_singleton_self _
      refine ⟨fun x => ?_, fun x hx => ?_, fun x => mem_cons_of_mem _, rfl⟩
      · by_cases hx : x = l ++ [n]
        · subst hx
          refine .inr ⟨hsome, ?_, hmem, mem_cons_self⟩
          unfold Tree.IsDir
          rw [Tree.item_put, Function.update_self]
        · left
          rw [Tree.item_put, Function.update_of_ne hx]
      · rcases mem_cons.1 hx with rfl | hx
        · exact .inr ⟨hmem, hsome⟩
        · exact .inl hx
    · exact .refl d

theorem isDir_of_makeDir (h : (d.makeDir denies l p).2 = .ok ()) :
    d.tree.IsDir l ∧ (d.makeDir denies l p).1.tree.IsDir (Loc.step l p) := by
  cases p with
  | up =>
    unfold Disk.makeDir at h ⊢
    split_ifs at h with hl
    have habove : l.dropLast <+: l := dropLast_prefix l
    exact ⟨hl, hl.above habove⟩
  | down =>
    unfold Disk.makeDir at h ⊢
    dsimp only at h ⊢
    split_ifs at h ⊢ with hn hsome hl hdenies
    · exact ⟨hn.above (prefix_append _ _), hn⟩
    · refine ⟨hl, ?_⟩
      exact Function.update_self _ _ _

theorem makeDirs_cons (h : (d.makeDir denies l p).2 = .ok ()) : d.makeDirs denies l (p :: ps) =
    (d.makeDir denies l p).1.makeDirs denies (Loc.step l p) ps := by
  rw [Disk.makeDirs]
  split
  · rename_i heq
    rw [heq] at h
    cases h
  · rename_i heq
    rw [heq]

theorem makeDirs_cons_of_ne (h : (d.makeDir denies l p).2 ≠ .ok ()) :
    d.makeDirs denies l (p :: ps) = d.makeDir denies l p := by
  rw [Disk.makeDirs]
  split
  · rename_i heq
    exact heq.symm
  · rename_i heq
    exact absurd (congrArg Prod.snd heq) h

theorem grows_makeDirs : Grows (Loc.trail l ps) d (d.makeDirs denies l ps).1 := by
  induction ps generalizing d l with
  | nil => exact .refl d
  | cons p ps ih =>
    have hfirst : Grows [Loc.step l p] d (d.makeDir denies l p).1 := grows_makeDir
    by_cases h : (d.makeDir denies l p).2 = .ok ()
    · rw [makeDirs_cons h]
      exact hfirst.trans ih
    · rw [makeDirs_cons_of_ne h]
      exact hfirst.trans (.refl _)

theorem makeDir_of_makeDirs (h : (d.makeDirs denies l (p :: ps)).2 = .ok ()) :
    (d.makeDir denies l p).2 = .ok () := by
  by_contra hne
  rw [makeDirs_cons_of_ne hne] at h
  exact hne h

theorem isDir_of_makeDirs (h : (d.makeDirs denies l ps).2 = .ok ()) :
    ∀ x ∈ Loc.trail l ps, (d.makeDirs denies l ps).1.tree.IsDir x := by
  induction ps generalizing d l with
  | nil => exact nofun
  | cons p ps ih =>
    have hfirst := makeDir_of_makeDirs h
    rw [makeDirs_cons hfirst] at h ⊢
    exact forall_mem_cons.2 ⟨grows_makeDirs.isDir (isDir_of_makeDir hfirst).2, ih h⟩

theorem isDir_start_of_makeDirs (hps : ps ≠ []) (h : (d.makeDirs denies l ps).2 = .ok ()) :
    d.tree.IsDir l := by
  cases ps with
  | nil => exact absurd rfl hps
  | cons => exact (isDir_of_makeDir (makeDir_of_makeDirs h)).1

theorem makeDir_eq_ok (hl : d.tree.IsDir l)
    (hfile : ∀ c, d.tree.item (Loc.step l p) ≠ some (.file c))
    (hdenies : ∀ x, denies x = false) : (d.makeDir denies l p).2 = .ok () := by
  cases p with
  | up =>
    unfold Disk.makeDir
    rw [if_pos hl]
  | down =>
    unfold Disk.makeDir
    dsimp only
    split_ifs with hn hsome hdenied
    · rfl
    · obtain ⟨x, hx⟩ := isSome_iff_exists.1 hsome
      cases x with
      | dir => exact absurd hx hn
      | file c => exact absurd hx (hfile c)
    · rw [hdenies] at hdenied
      cases hdenied
    · rfl

theorem makeDirs_eq_ok (hl : d.tree.IsDir l)
    (hfile : ∀ x ∈ Loc.trail l ps, ∀ c, d.tree.item x ≠ some (.file c))
    (hdenies : ∀ x, denies x = false) : (d.makeDirs denies l ps).2 = .ok () := by
  induction ps generalizing d l with
  | nil => rfl
  | cons p ps ih =>
    obtain ⟨hfirst, hrest⟩ := forall_mem_cons.1 hfile
    have hok := makeDir_eq_ok hl hfirst hdenies
    rw [makeDirs_cons hok]
    refine ih (isDir_of_makeDir hok).2 fun x hx c hc => ?_
    rcases grows_makeDir.item x with hitem | ⟨-, hnew, -⟩
    · exact hrest x hx c (hitem ▸ hc)
    · rw [hnew] at hc
      cases hc

/-! ### Resolving a way -/

theorem makeDirs_append_of_resolve (h : d.tree.resolve l ps = some m)
    (qs : List (Part ν)) : d.makeDirs denies l (ps ++ qs) = d.makeDirs denies m qs := by
  induction ps generalizing l with
  | nil =>
    obtain ⟨-, -, rfl⟩ := Tree.resolve_eq_some_iff.1 h
    rfl
  | cons p ps ih =>
    obtain ⟨hl, htrail, -⟩ := Tree.resolve_eq_some_iff.1 h
    have hmake : d.makeDir denies l p = (d, .ok ()) := by
      cases p with
      | up =>
        unfold Disk.makeDir
        rw [if_pos hl]
      | down n =>
        have hn : d.tree.IsDir (l ++ [n]) := htrail _ mem_cons_self
        unfold Disk.makeDir
        dsimp only
        rw [dif_pos hn]
    unfold Tree.resolve at h
    rw [ite_none_right_eq_some] at h
    rw [cons_append, makeDirs_cons (by rw [hmake]), hmake]
    exact ih h.2

theorem makeDirs_of_resolve (h : d.tree.resolve l ps = some m) :
    d.makeDirs denies l ps = (d, .ok ()) := by
  rw [← append_nil ps]
  exact makeDirs_append_of_resolve h []

theorem resolve_makeDirs (hl : d.tree.IsDir l) (h : (d.makeDirs denies l ps).2 = .ok ()) :
    (d.makeDirs denies l ps).1.tree.resolve l ps = some (Loc.walk l ps) :=
  Tree.resolve_eq_some_iff.2 ⟨grows_makeDirs.isDir hl, isDir_of_makeDirs h, rfl⟩

/-! ### Writing a file -/

theorem write_cases (d : Disk ν β) (denies : Loc ν → Bool) (l : Loc ν) (n : ν) (content : β) :
    (d.write denies l n content).1 = d ∧ (d.write denies l n content).2 ≠ .ok () ∨
      d.tree.IsDir l ∧ ¬ d.tree.IsDir (l ++ [n]) ∧
      (d.write denies l n content).1.tree.item =
        Function.update d.tree.item (l ++ [n]) (some (.file content)) ∧
      (d.write denies l n content).1.made = d.made ∧
      (d.write denies l n content).1.written = (l ++ [n]) :: d.written := by
  unfold Disk.write
  split_ifs with hn hl hdenies
  · exact .inl ⟨rfl, nofun⟩
  · exact .inl ⟨rfl, nofun⟩
  · exact .inr ⟨hl, hn, rfl, rfl, rfl⟩
  · exact .inl ⟨rfl, nofun⟩

theorem isDir_write (hx : d.tree.IsDir x) : (d.write denies l n content).1.tree.IsDir x := by
  rcases write_cases d denies l n content with h | ⟨-, hn, hitem, -⟩
  · rw [h.1]
    exact hx
  · unfold Tree.IsDir
    rw [hitem, Function.update_of_ne]
    · exact hx
    · rintro rfl
      exact hn hx

theorem written_write (hl : d.tree.IsDir l)
    (hn : ¬ d.tree.IsDir (l ++ [n])) (hdenies : ∀ x, denies x = false) :
    (d.write denies l n content).1.written = (l ++ [n]) :: d.written := by
  unfold Disk.write
  rw [dif_neg hn, dif_pos hl, hdenies, if_neg Bool.false_ne_true]

end

/-! ### Places as they are reached from a directory -/

/-- So many levels up, and then down along names. -/
structure Rel (ν : Type u) where
  up : Nat
  down : List ν

namespace Rel

def step (r : Rel ν) : Part ν → Rel ν
  | .down n => ⟨r.up, r.down ++ [n]⟩
  | .up =>
    match r.down with
    | [] => ⟨r.up + 1, []⟩
    | n :: down => ⟨r.up, (n :: down).dropLast⟩

def trail (r : Rel ν) : List (Part ν) → List (Rel ν)
  | [] => []
  | p :: ps => r.step p :: (r.step p).trail ps

def walk (r : Rel ν) (ps : List (Part ν)) : Rel ν := ps.foldl step r

/-- The place, if the levels above the directory are at `place`. -/
def at' (place : Nat → Loc ν) (r : Rel ν) : Loc ν := place r.up ++ r.down

variable {place : Nat → Loc ν} {r : Rel ν}

variable (hplace : ∀ k, place (k + 1) = (place k).dropLast)

include hplace

theorem at_step (p : Part ν) : (r.step p).at' place = Loc.step (r.at' place) p := by
  cases p with
  | down => exact (append_assoc _ _ _).symm
  | up =>
    obtain ⟨k, down⟩ := r
    cases down with
    | nil =>
      unfold at' step Loc.step
      rw [append_nil, append_nil, hplace]
    | cons n down =>
      unfold at' step Loc.step
      rw [dropLast_append_of_ne_nil (cons_ne_nil n down)]

theorem at_trail : Loc.trail (r.at' place) ps = (r.trail ps).map (at' place) := by
  induction ps generalizing r with
  | nil => rfl
  | cons p ps ih =>
    unfold Loc.trail trail
    rw [map_cons, ← at_step hplace, ih]

theorem at_walk : (r.walk ps).at' place = Loc.walk (r.at' place) ps := by
  induction ps generalizing r with
  | nil => rfl
  | cons p ps ih =>
    unfold walk Loc.walk at ih ⊢
    rw [foldl_cons, foldl_cons, ih, at_step hplace]

omit hplace

theorem up_le_step (p : Part ν) : r.up ≤ (r.step p).up := by
  cases p with
  | down => exact le_refl _
  | up =>
    obtain ⟨k, down⟩ := r
    cases down with
    | nil => exact Nat.le_succ k
    | cons => exact le_refl _

theorem up_le_trail : ∀ r' ∈ r.trail ps, r.up ≤ r'.up := by
  induction ps generalizing r with
  | nil => exact nofun
  | cons p ps ih =>
    refine forall_mem_cons.2 ⟨up_le_step p, fun r' h => ?_⟩
    exact (up_le_step p).trans (ih r' h)

theorem up_le_walk : r.up ≤ (r.walk ps).up := by
  induction ps generalizing r with
  | nil => exact le_refl _
  | cons p ps ih => exact (up_le_step p).trans ih

end Rel

end Tunnet.FileTree

import Tunnet.Send.Inbox

/-!
# Where a received transfer goes

What exporting a transfer makes and writes, when the names of its entries are harmless.

* `Contained`: everything is inside the inbox, and no file that was there is overwritten.
* `Harmless`: what the name of an entry must be like, told from the name alone.
-/

namespace Tunnet.Send

open FileTree List Tunnet.Path Tree

/-! ### What is asked of an export -/

/-- The directory of the inbox. -/
def Env.inbox (env : Env) : Loc String :=
  Loc.walk (env.inboxPath.base env.cwd) env.inboxPath.parts

/-- The directories on the way to the inbox. -/
def Env.way (env : Env) : List (Loc String) :=
  Loc.trail (env.inboxPath.base env.cwd) env.inboxPath.parts

/-- All that was made and written is inside the inbox, apart from the directories that lead to it,
and no file of the tree was written. -/
structure Contained (env : Env) (t : Tree String Bytes) (d : FileDisk) : Prop where
  made : ∀ x ∈ d.made, x ∈ env.way ∨ env.inbox <+: x
  written : ∀ x ∈ d.written, env.inbox <+: x ∧ ∀ content, t.item x ≠ some (.file content)

/-- The random identifier occurs in no name. -/
structure FreshUuid (env : Env) (t : Tree String Bytes) : Prop where
  tree : ∀ l n, t.item (l ++ [n]) ≠ none → ¬ env.uuid.toList <:+: n.toList
  cwd : ∀ n ∈ env.cwd, ¬ env.uuid.toList <:+: n.toList
  inbox : ∀ n, .down n ∈ env.inboxPath.parts → ¬ env.uuid.toList <:+: n.toList
  slash : '/' ∉ env.uuid.toList

/-- A file system on which nothing has happened yet. -/
def untouched (t : Tree String Bytes) : FileDisk := ⟨t, [], []⟩

variable {env : Env} {t : Tree String Bytes} {d d' d₁ : FileDisk} {n s n' : String} {r : Rel String}
  {path : Path} {hash : Hash}

section

variable {l : Loc String} {places : List (Loc String)} {content : Bytes}

theorem contained_untouched : Contained env t (untouched t) := ⟨nofun, nofun⟩

theorem Contained.grows (h : Contained env t d) (hgrows : Grows places d d')
    (hplaces : ∀ x ∈ places, d.tree.item x = none → x ∈ env.way ∨ env.inbox <+: x) :
    Contained env t d' := by
  refine ⟨fun x hx => ?_, fun x hx => ?_⟩
  · rcases hgrows.made x hx with hx | ⟨hx, hnone⟩
    · exact h.made x hx
    · exact hplaces x hx hnone
  · rw [hgrows.written] at hx
    exact h.written x hx

theorem Contained.write (h : Contained env t d)
    (hfile : ¬ d.tree.IsDir (l ++ [n]) → env.inbox <+: l ++ [n] ∧ t.item (l ++ [n]) = none) :
    Contained env t (d.write env.denies l n content).1 := by
  rcases write_cases d env.denies l n content with
    hsame | ⟨-, hnotDir, -, hmade, hwritten⟩
  · rw [hsame.1]
    exact h
  · refine ⟨fun x hx => h.made x (hmade ▸ hx), ?_⟩
    rw [hwritten]
    refine forall_mem_cons.2 ⟨⟨(hfile hnotDir).1, fun c hc => ?_⟩, h.written⟩
    rw [(hfile hnotDir).2] at hc
    cases hc

end

/-! ### Harmless names -/

/-- Where the path of an entry begins: in the directory of the collection, or at the root, which is
above the inbox. -/
def entryStart (p : Path) : Rel String := if p.absolute then ⟨2, []⟩ else ⟨0, []⟩

/-- The directories that are made for an entry. -/
def entryDirs (p : Path) : List (Rel String) :=
  if Path.hasNul p.parts.dropLast then [] else (entryStart p).trail p.parts.dropLast

/-- The last part of the path leads here. -/
def entryTarget (p : Path) (n : String) : Rel String :=
  ((entryStart p).walk p.parts.dropLast).step (.down n)

/-- The file that is written for an entry, unless the path can only denote a directory. -/
def entryFile (p : Path) : Option (Rel String) :=
  match p.parts.getLast? with
  | some (.down n) =>
    let r := entryTarget p n
    if Path.hasNul p.parts || p.dirOnly ||
        (entryDirs p).any fun r' => r'.up == r.up && r.down.isPrefixOf r'.down then none
    else some r
  | _ => none

/-- No directory is made above the inbox, and the file is in the directory of the collection. -/
structure Harmless (p : Path) : Prop where
  dirs : ∀ r ∈ entryDirs p, r.down = [] ∨ r.up ≤ 1
  file : ∀ r, entryFile p = some r → r.up = 0

/-! ### The sanitised name -/

theorem eq_dots_of_replace {p : Char → Bool} {k : Nat}
    (h : Str.replace p '_' s = String.ofList (replicate k '.')) :
    s = String.ofList (replicate k '.') := by
  unfold Str.replace at h
  rw [String.ofList_inj, eq_replicate_iff, length_map] at h
  rw [← String.toList_inj, String.toList_ofList, eq_replicate_iff]
  refine ⟨h.1, fun c hc => ?_⟩
  have hdot := h.2 _ (mem_map_of_mem hc)
  split_ifs at hdot
  · cases hdot
  · exact hdot

theorem isName_sanitizeFileName (name : String) : IsName (sanitizeFileName name) := by
  unfold sanitizeFileName
  dsimp only
  split_ifs with h
  · unfold IsName
    decide
  · simp only [not_or] at h
    refine ⟨fun hslash => ?_, fun hs => h.1 ?_, fun hs => h.2.1 ?_, fun hs => h.2.2 ?_⟩
    · unfold Str.replace at hslash
      rw [String.toList_ofList] at hslash
      obtain ⟨c, -, hc⟩ := mem_map.1 hslash
      split_ifs at hc with hrep
      · cases hc
      · rw [hc] at hrep
        exact hrep rfl
    · exact eq_dots_of_replace (k := 0) hs
    · exact eq_dots_of_replace (k := 1) hs
    · exact eq_dots_of_replace (k := 2) hs

/-! ### The unique path -/

section

variable {uuid stem ext suffix : String} {name : String}

theorem isName_candidate (hstem : '/' ∉ stem.toList)
    (hext : '/' ∉ ext.toList) (hsuffix : '/' ∉ suffix.toList) :
    IsName (stem ++ "-" ++ suffix ++ ext) :=
  isName_of_mem (c := '-') (by simp [hstem, hext, hsuffix]) (by simp) (by decide)

theorem slash_not_mem_fileStem (hname : path.fileName = some name)
    (hslash : '/' ∉ name.toList) : '/' ∉ (path.fileStem.getD "file").toList := by
  unfold fileStem
  rw [hname, Option.map_some]
  cases hdot : rsplitDot name with
  | none => exact hslash
  | some => exact fun h => hslash ((mem_of_rsplitDot hdot).1 _ h)

theorem slash_not_mem_extension (hname : path.fileName = some name) (hslash : '/' ∉ name.toList) :
    '/' ∉ ((path.extension.map ("." ++ ·)).getD "").toList := by
  unfold extension
  rw [hname, Option.bind_some]
  cases hdot : rsplitDot name with
  | none => exact not_mem_nil
  | some =>
    rw [Option.map_some, Option.map_some, Option.getD_some, String.toList_append]
    intro h
    rcases mem_append.1 h with h | h
    · revert h
      decide
    · exact hslash ((mem_of_rsplitDot hdot).2 _ h)

theorem uniquePath_spec (cwd : Loc String) (dir : Path) (hname : IsName name)
    (hslash : '/' ∉ uuid.toList)
    (hfresh : ∀ l n, t.item (l ++ [n]) ≠ none → ¬ uuid.toList <:+: n.toList) :
    ∃ n, uniquePath cwd t uuid (dir.join (parse name)) =
        ⟨dir.absolute, dir.parts ++ [.down n], false⟩ ∧
      exists' cwd t ⟨dir.absolute, dir.parts ++ [.down n], false⟩ = false := by
  rw [join_name _ hname]
  unfold uniquePath
  split_ifs with hexists
  · exact ⟨name, rfl, by rwa [Bool.not_eq_true'] at hexists⟩
  · have hfile : fileName ⟨dir.absolute, dir.parts ++ [.down name], false⟩ = some name := by
      unfold fileName
      rw [getLast?_concat]
    have hparent : parent ⟨dir.absolute, dir.parts ++ [.down name], false⟩ =
        some ⟨dir.absolute, dir.parts, false⟩ := by
      unfold Path.parent
      rw [if_neg (append_ne_nil_of_right_ne_nil _ (cons_ne_nil _ _)), dropLast_concat]
    have hstem := slash_not_mem_fileStem hfile hname.1
    have hext := slash_not_mem_extension hfile hname.1
    have hcandidate (suffix : String) (hsuffix : '/' ∉ suffix.toList) :=
      join_name ⟨dir.absolute, dir.parts, false⟩ (isName_candidate hstem hext hsuffix)
    rw [hparent, Option.getD_some]
    dsimp only at hcandidate ⊢
    split
    · rename_i path hfind
      obtain ⟨i, -, rfl⟩ := mem_map.1 (mem_of_find?_eq_some hfind)
      have hnot := find?_some hfind
      rw [Bool.not_eq_true'] at hnot
      rw [hcandidate _ (Str.not_mem_toString (by decide) i)] at hnot ⊢
      exact ⟨_, rfl, hnot⟩
    · refine ⟨_, hcandidate uuid hslash, ?_⟩
      rw [← Bool.not_eq_true, exists_iff]
      rintro ⟨-, l, -, hitem⟩
      refine hfresh _ _ hitem ?_
      rw [String.toList_append, String.toList_append]
      exact ⟨_, _, rfl⟩

end

/-! ### The path of an entry -/

section

variable {dest p parent : Path} {dir : Loc String}

/-- What stands before the entry's own parts. -/
def lead (dest p : Path) : List (FileTree.Part String) := if p.absolute then [] else dest.parts

/-- Where the entry's own parts begin. -/
def start (dir : Loc String) (p : Path) : Loc String := if p.absolute then [] else dir

/-- The directories above it. -/
def place (dir : Loc String) (p : Path) (k : Nat) : Loc String :=
  if p.absolute then [] else List.dropLast^[k] dir

theorem place_succ (k : Nat) : place dir p (k + 1) = (place dir p k).dropLast := by
  unfold place
  split_ifs
  · rfl
  · exact Function.iterate_succ_apply' _ _ _

theorem place_isPrefix_start (k : Nat) : place dir p k <+: start dir p := by
  induction k with
  | zero =>
    unfold place start
    split_ifs
    · exact prefix_refl _
    · exact prefix_refl _
  | succ k ih =>
    rw [place_succ]
    have hlast : (place dir p k).dropLast <+: place dir p k := dropLast_prefix _
    exact hlast.trans ih

theorem at_entryStart : (entryStart p).at' (place dir p) = start dir p := by
  unfold entryStart place start
  split_ifs
  · rfl
  · exact append_nil _

theorem parts_join : (dest.join p).parts = lead dest p ++ p.parts := by
  unfold join lead
  split_ifs
  · rfl
  · rfl

theorem dirOnly_join : (dest.join p).dirOnly = p.dirOnly := by
  unfold join
  split_ifs
  · rfl
  · rfl

theorem dropLast_parts_join (hp : p.parts ≠ []) :
    (dest.join p).parts.dropLast = lead dest p ++ p.parts.dropLast := by
  rw [parts_join, dropLast_append_of_ne_nil hp]

variable {ps : List (FileTree.Part String)} {x l : Loc String}

theorem exists_rel_of_mem_trail (hx : x ∈ Loc.trail (start dir p) ps) :
    ∃ r ∈ (entryStart p).trail ps, r.at' (place dir p) = x := by
  rw [← at_entryStart, Rel.at_trail place_succ] at hx
  exact mem_map.1 hx

theorem mem_trail_of_rel
    (hr : r ∈ (entryStart p).trail ps) : r.at' (place dir p) ∈ Loc.trail (start dir p) ps := by
  rw [← at_entryStart, Rel.at_trail place_succ]
  exact mem_map_of_mem hr

theorem walk_concat (n : String) : Loc.walk (start dir p) p.parts.dropLast ++ [n] =
    (entryTarget p n).at' (place dir p) := by
  unfold entryTarget
  rw [Rel.at_step place_succ, Rel.at_walk place_succ, at_entryStart]
  rfl

theorem mem_entryDirs_iff : r ∈ entryDirs p ↔
    hasNul p.parts.dropLast = false ∧ r ∈ (entryStart p).trail p.parts.dropLast := by
  unfold entryDirs
  split_ifs with hnul
  · simp [hnul]
  · simp [hnul]

/-- The places up to the inbox. -/
theorem at_cases (hr : (entryStart p).up ≤ r.up) :
    r.up = 0 ∧ r.at' (place (l ++ [n]) p) = l ++ [n] ++ r.down ∨
      r.up = 1 ∧ r.at' (place (l ++ [n]) p) = l ++ r.down ∨ 2 ≤ r.up := by
  obtain ⟨up, down⟩ := r
  by_cases htwo : 2 ≤ up
  · exact .inr (.inr htwo)
  · have habs : ¬ p.absolute := by
      intro habs
      unfold entryStart at hr
      rw [if_pos habs] at hr
      exact htwo hr
    unfold Rel.at' place
    rw [if_neg habs]
    have hcases : up = 0 ∨ up = 1 := by omega
    rcases hcases with rfl | rfl
    · exact .inl ⟨rfl, rfl⟩
    · refine .inr (.inl ⟨rfl, ?_⟩)
      rw [Function.iterate_one, dropLast_concat]

/-- The collection's directory is there, and all that has happened is contained. -/
structure Ready (env : Env) (t : Tree String Bytes) (dest : Path) (dir : Loc String)
    (d : FileDisk) : Prop where
  resolve : d.tree.resolve (dest.base env.cwd) dest.parts = some dir
  hasNul : Path.hasNul dest.parts = false
  contained : Contained env t d

namespace Ready

variable (h : Ready env t dest dir d)

include h

theorem resolve_lead :
    d.tree.resolve ((dest.join p).base env.cwd) (lead dest p) = some (start dir p) := by
  unfold lead start
  split_ifs with habs
  · unfold join base Tree.resolve
    rw [if_pos habs, if_pos habs, if_pos d.tree.isDir_root]
  · have hbase : (dest.join p).base env.cwd = dest.base env.cwd := by
      unfold join base
      rw [if_neg habs]
    rw [hbase]
    exact h.resolve

theorem hasNul_lead : Path.hasNul (lead dest p) = false := by
  unfold lead
  split_ifs
  · rfl
  · exact h.hasNul

theorem isDir_start (p : Path) : d.tree.IsDir (start dir p) := isDir_of_resolve (h.resolve_lead)

variable {l : Loc String} {places : List (Loc String)} {content : Bytes}

theorem grows
    (hgrows : Grows places d d') (hplaces : ∀ x ∈ places, d.tree.item x = none → env.inbox <+: x) :
    Ready env t dest dir d' where
  resolve := hgrows.resolve h.resolve
  hasNul := h.hasNul
  contained := h.contained.grows hgrows fun x hx hnone => .inr (hplaces x hx hnone)

theorem write
    (hfile : ¬ d.tree.IsDir (l ++ [n]) → env.inbox <+: l ++ [n] ∧ t.item (l ++ [n]) = none) :
    Ready env t dest dir (d.write env.denies l n content).1 where
  resolve := by
    obtain ⟨hbase, htrail, hdir⟩ := resolve_eq_some_iff.1 h.resolve
    exact resolve_eq_some_iff.2 ⟨isDir_write hbase, fun x hx => isDir_write (htrail x hx), hdir⟩
  hasNul := h.hasNul
  contained := h.contained.write hfile

end Ready

/-! ### One entry -/

variable {x l : Loc String}

theorem inbox_prefix_of_mem_trail (hdir : dir = env.inbox ++ [n])
    (hready : Ready env t dest dir d) (h : Harmless p) (hnul : hasNul p.parts.dropLast = false)
    (hx : x ∈ Loc.trail (start dir p) p.parts.dropLast) (hnone : d.tree.item x = none) :
    env.inbox <+: x := by
  obtain ⟨r, hr, rfl⟩ := exists_rel_of_mem_trail hx
  subst hdir
  rcases at_cases (Rel.up_le_trail r hr) with
    ⟨-, hat⟩ | ⟨-, hat⟩ | hup
  · rw [hat, append_assoc]
    exact prefix_append _ _
  · rw [hat]
    exact prefix_append _ _
  · -- A directory above the start is there already.
    have hdown := (h.dirs r (mem_entryDirs_iff.2 ⟨hnul, hr⟩)).resolve_right (by omega)
    have hisDir : d.tree.IsDir (r.at' (place (env.inbox ++ [n]) p)) := by
      unfold Rel.at'
      rw [hdown, append_nil]
      exact (hready.isDir_start p).above (place_isPrefix_start _)
    exact absurd hnone hisDir.item_ne_none

theorem Ready.createDirAll (hready : Ready env t dest dir d)
    (hdir : dir = env.inbox ++ [n]) (h : Harmless p)
    (hparent : (dest.join p).parent = some parent) :
    Ready env t dest dir (createDirAll env.cwd env.denies d parent).1 := by
  unfold Path.parent at hparent
  split_ifs at hparent
  cases hparent
  unfold createDirAll
  split_ifs with hnul
  · exact hready
  · have hbase : base env.cwd ⟨(dest.join p).absolute, (dest.join p).parts.dropLast, false⟩ =
        (dest.join p).base env.cwd :=
      rfl
    rw [hbase]
    by_cases hp : p.parts = []
    · -- Without parts of its own the entry leads nowhere new.
      have hparts : (dest.join p).parts = lead dest p := by rw [parts_join, hp, append_nil]
      rw [hparts]
      refine hready.grows grows_makeDirs fun x hx hnone => ?_
      obtain ⟨-, htrail, -⟩ := resolve_eq_some_iff.1 (hready.resolve_lead)
      exact absurd hnone (htrail x (Loc.mem_trail_of_dropLast hx)).item_ne_none
    · rw [dropLast_parts_join hp, hasNul_append, Bool.or_eq_true, not_or,
        Bool.not_eq_true, Bool.not_eq_true] at hnul
      rw [dropLast_parts_join hp, makeDirs_append_of_resolve hready.resolve_lead]
      refine hready.grows grows_makeDirs fun x hx hnone => ?_
      exact inbox_prefix_of_mem_trail hdir hready h hnul.2 hx hnone

theorem target_of_harmless (hready : Ready env t dest dir d)
    (hdir : dir = env.inbox ++ [n']) (hnew : t.item dir = none) (h : Harmless p)
    (hnul : hasNul (dest.join p).parts = false)
    (hlast : (dest.join p).parts.getLast? = some (.down n))
    (hdirOnly : (dest.join p).dirOnly = false)
    (hresolve : d.tree.resolve ((dest.join p).base env.cwd) (dest.join p).parts.dropLast = some l)
    (hfile : ¬ d.tree.IsDir (l ++ [n])) : env.inbox <+: l ++ [n] ∧ t.item (l ++ [n]) = none := by
  by_cases hp : p.parts = []
  · -- Without parts of its own the entry is the directory itself.
    have hparts : (dest.join p).parts = lead dest p := by rw [parts_join, hp, append_nil]
    rw [hparts] at hlast hresolve
    have hstart : l ++ [n] = start dir p := by
      have hlead := hready.resolve_lead (p := p)
      rw [← dropLast_append_getLast? _ hlast, resolve_append hresolve] at hlead
      obtain ⟨-, -, hlead⟩ := resolve_eq_some_iff.1 hlead
      exact hlead.symm
    rw [hstart] at hfile
    exact absurd (hready.isDir_start p) hfile
  · rw [dropLast_parts_join hp, resolve_append hready.resolve_lead] at hresolve
    rw [parts_join, getLast?_append_of_ne_nil _ hp] at hlast
    rw [parts_join, hasNul_append, Bool.or_eq_false_iff] at hnul
    rw [dirOnly_join] at hdirOnly
    obtain ⟨-, htrail, rfl⟩ := resolve_eq_some_iff.1 hresolve
    have hup := h.file (entryTarget p n)
    have hle : (entryStart p).up ≤ (entryTarget p n).up := Rel.up_le_walk.trans (Rel.up_le_step _)
    unfold entryFile at hup
    rw [hlast] at hup
    dsimp only at hup
    rw [hnul.2, hdirOnly] at hup
    split_ifs at hup with hany
    · -- The target is above a directory that has been made.
      obtain ⟨r, hr, hmatch⟩ := any_eq_true.1 hany
      rw [Bool.and_eq_true, beq_iff_eq, isPrefixOf_iff_prefix] at hmatch
      refine absurd ?_ hfile
      refine (htrail _ (mem_trail_of_rel (mem_entryDirs_iff.1 hr).2)).above ?_
      rw [walk_concat]
      unfold Rel.at'
      rw [hmatch.1]
      exact (prefix_append_right_inj _).2 hmatch.2
    · have hzero := hup rfl
      subst hdir
      rw [walk_concat]
      rcases at_cases hle with ⟨-, hat⟩ | ⟨hone, -⟩ | htwo
      · rw [hat]
        refine ⟨?_, item_eq_none_of_append hnew _⟩
        rw [append_assoc]
        exact prefix_append _ _
      · omega
      · omega

theorem exportBlob_cases (env : Env) (d : FileDisk) (entry : Option String) (hash : Hash)
    (target : Path) : (exportBlob env d entry hash target).1 = d ∨ ∃ content,
      (exportBlob env d entry hash target).1 =
        (writePath env.cwd env.denies d target content).1 := by
  unfold exportBlob
  cases env.contentKey with
  | some key =>
    cases env.blob hash with
    | error => exact .inl rfl
    | ok enc =>
      dsimp only
      cases env.decrypt key enc with
      | error => exact .inl rfl
      | ok plain =>
        refine .inr ⟨plain, ?_⟩
        dsimp only
        cases writePath env.cwd env.denies d target plain with
        | mk d' result => cases result with
          | error | ok => rfl
  | none =>
    cases env.blob hash with
    | error => exact .inl rfl
    | ok content =>
      refine .inr ⟨content, ?_⟩
      dsimp only
      cases writePath env.cwd env.denies d target content with
      | mk d' result => cases result with
        | error | ok => rfl

section

variable (hdir : dir = env.inbox ++ [n]) (hnew : t.item dir = none)

include hdir hnew

variable (hready : Ready env t dest dir d)

include hready

theorem Ready.exportBlob (h : Harmless p) (entry : Option String) (hash : Hash) :
    Ready env t dest dir (exportBlob env d entry hash (dest.join p)).1 := by
  rcases exportBlob_cases env d entry hash (dest.join p) with hsame | ⟨content, hwrite⟩
  · rw [hsame]
    exact hready
  · rw [hwrite]
    rcases writePath_cases env.cwd env.denies d (dest.join p) content with
      hsame | ⟨n', l, hnul, hlast, hdirOnly, hresolve, hwrite⟩
    · rw [hsame]
      exact hready
    · rw [hwrite]
      refine hready.write fun hfile => ?_
      exact target_of_harmless hready hdir hnew h hnul hlast hdirOnly hresolve hfile

theorem Ready.exportEntry {entry : String × Hash} (h : Harmless (parse entry.1)) :
    Ready env t dest dir (exportEntry env d dest entry).1 := by
  unfold Send.exportEntry
  dsimp only
  cases hparent : (dest.join (parse entry.1)).parent with
  | none => exact hready.exportBlob hdir hnew h _ _
  | some parent =>
    have hmade := hready.createDirAll hdir h hparent
    dsimp only
    cases hcreate : Tunnet.createDirAll env.cwd env.denies d parent with
    | mk d' result =>
      rw [hcreate] at hmade
      cases result with
      | error => exact hmade
      | ok => exact hmade.exportBlob hdir hnew h _ _

theorem Ready.exportEntries {entries : List (String × Hash)}
    (h : ∀ entry ∈ entries, Harmless (parse entry.1)) :
    Ready env t dest dir (exportEntries env d dest entries).1 := by
  induction entries generalizing d with
  | nil => exact hready
  | cons entry entries ih =>
    rw [forall_mem_cons] at h
    have hfirst := hready.exportEntry hdir hnew h.1
    unfold exportEntries
    cases hentry : Send.exportEntry env d dest entry with
    | mk d' result =>
      rw [hentry] at hfirst
      cases result with
      | error => exact hfirst
      | ok => exact ih hfirst h.2

end

end

/-! ### The whole transfer -/

section

/-- The path of a name in the inbox. -/
def Env.inInbox (env : Env) (n : String) : Path :=
  ⟨env.inboxPath.absolute, env.inboxPath.parts ++ [.down n], false⟩

theorem walk_inInbox :
    Loc.walk ((env.inInbox n).base env.cwd) (env.inInbox n).parts = env.inbox ++ [n] := by
  unfold Env.inInbox Loc.walk
  rw [foldl_append]
  rfl

theorem FreshUuid.grows (h : FreshUuid env t) (hgrows : Grows env.way (untouched t) d) :
    ∀ l n, d.tree.item (l ++ [n]) ≠ none → ¬ env.uuid.toList <:+: n.toList := by
  intro l n hitem
  rcases hgrows.item (l ++ [n]) with hsame | ⟨-, -, hway, -⟩
  · rw [hsame] at hitem
    exact h.tree l n hitem
  · have hmem : n ∈ l ++ [n] := mem_append_right _ (mem_singleton_self n)
    rcases Loc.mem_or_mem_of_trail hway hmem with hbase | hpart
    · unfold base at hbase
      split_ifs at hbase
      · cases hbase
      · exact h.cwd n hbase
    · exact h.inbox n hpart

theorem Contained.createDirAll_inInbox (h : Contained env t d) :
    Contained env t (createDirAll env.cwd env.denies d (env.inInbox n)).1 := by
  refine h.grows grows_createDirAll fun x hx _ => ?_
  have hparts : (env.inInbox n).parts = env.inboxPath.parts ++ [.down n] := rfl
  rw [hparts, Loc.trail_append, mem_append] at hx
  refine hx.imp_right fun hx => ?_
  obtain rfl := mem_singleton.1 hx
  exact prefix_append _ _

theorem item_inInbox (hexists : (env.inInbox n).exists' env.cwd d.tree = false)
    (hnul : hasNul (env.inInbox n).parts = false)
    (hresolve : d.tree.resolve ((env.inInbox n).base env.cwd) env.inboxPath.parts =
      some env.inbox) : d.tree.item (env.inbox ++ [n]) = none := by
  by_contra hitem
  have htrue := exists_iff.2 ⟨hnul, env.inbox, hresolve, hitem⟩
  unfold Env.inInbox at hexists
  rw [hexists] at htrue
  cases htrue

variable (hgrows : Grows env.way (untouched t) d)
  (hexists : (env.inInbox n).exists' env.cwd d.tree = false)

include hgrows hexists

theorem item_eq_none (hnul : hasNul (env.inInbox n).parts = false)
    (hresolve : d.tree.resolve ((env.inInbox n).base env.cwd) env.inboxPath.parts =
      some env.inbox) : t.item (env.inbox ++ [n]) = none := by
  have hnone := item_inInbox hexists hnul hresolve
  rcases hgrows.item (env.inbox ++ [n]) with hsame | ⟨hnone', -⟩
  · exact hsame.symm.trans hnone
  · exact hnone'

theorem contained_exportBlob (h : Contained env t d) (hash : Hash) :
    Contained env t (exportBlob env d none hash (env.inInbox n)).1 := by
  rcases exportBlob_cases env d none hash (env.inInbox n) with hsame | ⟨content, hwrite⟩
  · rw [hsame]
    exact h
  · rw [hwrite]
    rcases writePath_cases env.cwd env.denies d (env.inInbox n) content with
      hsame | ⟨n', l, hnul, hlast, -, hresolve, hwrite⟩
    · rw [hsame]
      exact h
    · have hparts : (env.inInbox n).parts.dropLast = env.inboxPath.parts := dropLast_concat
      rw [hparts] at hresolve
      have hlast' : (env.inInbox n).parts.getLast? = some (.down n) := getLast?_concat
      rw [hlast', Option.some.injEq, Part.down.injEq] at hlast
      obtain ⟨-, -, rfl⟩ := resolve_eq_some_iff.1 hresolve
      subst hlast
      rw [hwrite]
      exact h.write fun _ => ⟨prefix_append _ _, item_eq_none hgrows hexists hnul hresolve⟩

variable (hmade : createDirAll env.cwd env.denies (untouched t) env.inboxPath = (d, .ok ()))

include hmade

theorem ready_createDirAll
    (hdest : createDirAll env.cwd env.denies d (env.inInbox n) = (d₁, .ok ()))
    (hcontained : Contained env t d₁) :
    Ready env t (env.inInbox n) (env.inbox ++ [n]) d₁ ∧ t.item (env.inbox ++ [n]) = none := by
  obtain ⟨-, hmake⟩ := createDirAll_eq_ok hmade
  obtain ⟨hnul, hmake₁⟩ := createDirAll_eq_ok hdest
  have hok := congrArg Prod.snd hmake
  have hok₁ := congrArg Prod.snd hmake₁
  have hbase : d.tree.IsDir ((env.inInbox n).base env.cwd) :=
    isDir_start_of_makeDirs (append_ne_nil_of_right_ne_nil _ (cons_ne_nil _ _)) hok₁
  have htrail := isDir_of_makeDirs hok
  have hresolve := resolve_makeDirs hbase hok₁
  rw [hmake] at htrail
  rw [hmake₁, walk_inInbox] at hresolve
  refine ⟨⟨hresolve, hnul, hcontained⟩, item_eq_none hgrows hexists hnul ?_⟩
  exact resolve_eq_some_iff.2 ⟨hbase, htrail, rfl⟩

theorem contained_exportCollection
    (h : Contained env t d) (hentries : ∀ entries, env.collection hash = .ok entries →
      ∀ entry ∈ entries, Harmless (parse entry.1)) :
    Contained env t (exportCollection env d (env.inInbox n) hash).1 := by
  have hcontained := h.createDirAll_inInbox (n := n)
  unfold exportCollection
  cases hdest : createDirAll env.cwd env.denies d (env.inInbox n) with
  | mk d₁ result =>
    rw [hdest] at hcontained
    cases result with
    | error => exact hcontained
    | ok =>
      obtain ⟨hready, hnew⟩ := ready_createDirAll hgrows hexists hmade hdest hcontained
      cases hload : env.collection hash with
      | error => exact hcontained
      | ok entries =>
        have hdone := hready.exportEntries rfl hnew (hentries entries hload)
        dsimp only
        cases hexport : exportEntries env d₁ (env.inInbox n) entries with
        | mk d₂ result =>
          rw [hexport] at hdone
          cases result with
          | error | ok => exact hdone.contained

end

/-- A transfer with harmless names stays in the inbox: whatever the file system, the store and
the operating system do. -/
theorem contained_export {offer : TransferOffer} (hfresh : FreshUuid env t)
    (hentries : offer.isCollection → ∀ entries, env.collection hash = .ok entries →
      ∀ entry ∈ entries, Harmless (parse entry.1)) :
    Contained env t (exportToInbox env (untouched t) offer hash).1 := by
  have hgrows : Grows env.way (untouched t)
      (createDirAll env.cwd env.denies (untouched t) env.inboxPath).1 :=
    grows_createDirAll
  have hcontained := contained_untouched.grows hgrows fun x hx _ => .inl hx
  unfold exportToInbox
  cases hcreate : createDirAll env.cwd env.denies (untouched t) env.inboxPath with
  | mk d result =>
    rw [hcreate] at hgrows hcontained
    cases result with
    | error => exact hcontained
    | ok =>
      obtain ⟨n, hpath, hexists⟩ := uniquePath_spec env.cwd env.inboxPath
        (isName_sanitizeFileName offer.fileName) hfresh.slash (hfresh.grows hgrows)
      dsimp only
      rw [hpath]
      split_ifs with hcollection
      · exact contained_exportCollection hgrows hexists hcreate hcontained (hentries hcollection)
      · have hblob := contained_exportBlob hgrows hexists hcontained hash
        unfold Env.inInbox at hblob
        cases hexport : exportBlob env d none hash
            ⟨env.inboxPath.absolute, env.inboxPath.parts ++ [.down n], false⟩ with
        | mk d' result =>
          rw [hexport] at hblob
          cases result with
          | error | ok => exact hblob

end Tunnet.Send

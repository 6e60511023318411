import Tunnet.Send.Spec.Inbox

/-!
# Names that lead out of the inbox

For every name of an entry that is not harmless there is a file system on which exporting it makes
or writes something outside the inbox, or overwrites a file.
-/

namespace Tunnet.Send

open FileTree List Tunnet.Path

variable {r : Rel String}

/-! ### Names that occur nowhere else -/

variable (k : Nat)

/-- A long name. -/
def plain : String := String.ofList (List.replicate (k + 1) 'a')

theorem mem_plain {k : Nat} {c : Char} (h : c ∈ (plain k).toList) : c = 'a' := by
  unfold plain at h
  rw [String.toList_ofList] at h
  exact eq_of_mem_replicate h

theorem length_plain : (plain k).toList.length = k + 1 := by
  unfold plain
  rw [String.toList_ofList, length_replicate]

theorem isName_plain : IsName (plain k) := by
  refine isName_of_mem (c := 'a') (fun h => ?_) (by simp [plain]) (by decide)
  have := mem_plain h
  revert this
  decide

theorem sanitizeFileName_plain : sanitizeFileName (plain k) = plain k := by
  have htrim : Str.trim (plain k) = plain k := by
    refine Str.trim_eq_self fun c hc => ?_
    rw [mem_plain hc]
    rfl
  have hstart : Str.trimStartMatches (fun c => c == '/' || c == '\\') (plain k) = plain k := by
    unfold Str.trimStartMatches plain
    rw [String.toList_ofList, replicate_succ, dropWhile_cons_of_neg (by decide)]
  have hreplace : Str.replace (fun c => c == '/' || c == '\\' || c == '\x00') '_' (plain k) =
      plain k := by
    unfold Str.replace plain
    rw [String.toList_ofList, map_replicate]
    rfl
  obtain ⟨-, hempty, hdot, hdots⟩ := isName_plain k
  unfold sanitizeFileName
  rw [htrim, hstart, if_neg (by simp only [hempty, hdot, hdots, or_self, not_false_eq_true]),
    hreplace]

theorem hasNul_plain : hasNul [.down (plain k)] = false := by
  rw [← Bool.not_eq_true]
  unfold hasNul
  rw [any_cons, any_nil, Bool.or_false]
  intro h
  rw [contains_iff_mem] at h
  have := mem_plain h
  revert this
  decide

theorem exists_bound (parts : List (FileTree.Part String)) :
    ∃ k, ∀ n, .down n ∈ parts → n.toList.length ≤ k := by
  induction parts with
  | nil => exact ⟨0, nofun⟩
  | cons part parts ih =>
    obtain ⟨k, hk⟩ := ih
    cases part with
    | up => exact ⟨k, fun n hn => hk n (by simpa using hn)⟩
    | down m =>
      refine ⟨m.toList.length + k, fun n hn => ?_⟩
      rcases mem_cons.1 hn with h | h
      · cases h
        omega
      · exact (hk n h).trans (Nat.le_add_left _ _)

theorem plain_not_mem {k : Nat} {parts : List (FileTree.Part String)}
    (hk : ∀ n, .down n ∈ parts → n.toList.length ≤ k) : .down (plain k) ∉ parts := by
  intro h
  have hle := hk _ h
  rw [length_plain] at hle
  omega

theorem entryFile_eq_some {p : Path} (h : entryFile p = some r) :
    ∃ n, p.parts.getLast? = some (.down n) ∧ r = entryTarget p n ∧
      hasNul p.parts = false ∧ p.dirOnly = false ∧
      ∀ r' ∈ entryDirs p, r'.up = r.up → ¬ r.down <+: r'.down := by
  unfold entryFile at h
  split at h
  · rename_i n hlast
    dsimp only at h
    split_ifs at h with hany
    cases h
    rw [Bool.not_eq_true, Bool.or_eq_false_iff, Bool.or_eq_false_iff, any_eq_false] at hany
    refine ⟨n, hlast, rfl, hany.1.1, hany.1.2, fun r' hr' hup hprefix => ?_⟩
    refine hany.2 r' hr' ?_
    rw [Bool.and_eq_true, beq_iff_eq, isPrefixOf_iff_prefix]
    exact ⟨hup, hprefix⟩
  · cases h

/-! ### A file system to export to -/

/-- The inbox is a directory at the root, and the collection has one entry. -/
def hostile (name : String) : Env where
  cwd := []
  inboxPath := ⟨true, [.down (plain k)], false⟩
  contentKey := none
  collection _ := .ok [(name, [])]
  blob _ := .ok []
  decrypt _ content := .ok content
  denies _ := false
  uuid := plain (k + 1)

def hostileOffer : TransferOffer where
  transferId := ""
  hash := ""
  format := .hashSeq
  fileName := plain k
  size := 0
  senderEndpointId := ""
  message := none
  isDirectory := true

variable {name n n' a b : String} {t : Tree String Bytes}

section

variable {k}

theorem hostile_way : (hostile k name).way = [[plain k]] := rfl

variable (hinbox : t.IsDir [plain k]) (hnew : t.item [plain k, plain k] = none)

/-- The disk when the directory of the collection has been made. -/
def hostileDisk (k : Nat) (name : String) (t : Tree String Bytes) : FileDisk :=
  (createDirAll [] (fun _ => false) (untouched t) ((hostile k name).inInbox (plain k))).1

include hinbox

theorem createDirAll_hostile : createDirAll (hostile k name).cwd (hostile k name).denies
    (untouched t) (hostile k name).inboxPath = (untouched t, .ok ()) := by
  have hresolve : t.resolve [] [.down (plain k)] = some [plain k] :=
    Tree.resolve_eq_some_iff.2 ⟨t.isDir_root, forall_mem_singleton.2 hinbox, rfl⟩
  unfold createDirAll
  have hnul : hasNul (hostile k name).inboxPath.parts = false := hasNul_plain k
  rw [hnul]
  exact makeDirs_of_resolve hresolve

omit hinbox in
include hnew in
theorem not_exists_hostile :
    ((hostile k name).inInbox (plain k)).exists' (hostile k name).cwd t = false := by
  rw [← Bool.not_eq_true]
  unfold Env.inInbox
  rw [exists_iff]
  rintro ⟨-, l, hresolve, hitem⟩
  obtain ⟨-, -, rfl⟩ := Tree.resolve_eq_some_iff.1 hresolve
  exact hitem hnew

omit hinbox in
include hnew in
theorem uniquePath_hostile : uniquePath (hostile k name).cwd t (hostile k name).uuid
    ((hostile k name).inboxPath.join (parse (plain k))) = (hostile k name).inInbox (plain k) := by
  rw [join_name _ (isName_plain k)]
  exact if_pos (congrArg not (not_exists_hostile hnew))

include hnew

theorem createDirAll_inInbox : createDirAll (hostile k name).cwd (hostile k name).denies
    (untouched t) ((hostile k name).inInbox (plain k)) = (hostileDisk k name t, .ok ()) := by
  have hok : ((untouched t).makeDirs (fun _ => false) []
      ([.down (plain k)] ++ [.down (plain k)])).2 = .ok () := by
    refine makeDirs_eq_ok t.isDir_root ?_ fun _ => rfl
    refine forall_mem_cons.2 ⟨fun c hc => ?_, forall_mem_singleton.2 fun c hc => ?_⟩
    · exact nomatch hinbox.symm.trans hc
    · exact nomatch hnew.symm.trans hc
  have hnul : hasNul ((hostile k name).inInbox (plain k)).parts = false := by
    have happend := hasNul_append [.down (plain k)] [.down (plain k)]
    rw [hasNul_plain] at happend
    exact happend
  refine Prod.ext rfl ?_
  unfold createDirAll
  rw [hnul]
  exact hok

theorem exportToInbox_hostile :
    (exportToInbox (hostile k name) (untouched t) (hostileOffer k) []).1 =
      (exportEntry (hostile k name) (hostileDisk k name t) ((hostile k name).inInbox (plain k))
        (name, [])).1 := by
  have hfile : (hostileOffer k).fileName = plain k := rfl
  have hload : (hostile k name).collection [] = .ok [(name, [])] := rfl
  have htree : (untouched t).tree = t := rfl
  unfold exportToInbox
  rw [createDirAll_hostile hinbox]
  dsimp only
  rw [hfile, sanitizeFileName_plain, htree, uniquePath_hostile hnew]
  unfold exportCollection
  rw [createDirAll_inInbox hinbox hnew]
  rw [hload]
  dsimp only
  unfold exportEntries
  cases exportEntry (hostile k name) (hostileDisk k name t) ((hostile k name).inInbox (plain k))
      (name, []) with
  | mk d result =>
    cases result with
    | error | ok => rfl

theorem ready_hostileDisk : Ready (hostile k name) t ((hostile k name).inInbox (plain k))
    [plain k, plain k] (hostileDisk k name t) := by
  have hcontained : Contained (hostile k name) t (hostileDisk k name t) :=
    contained_untouched.createDirAll_inInbox
  exact (ready_createDirAll (Grows.refl _) (not_exists_hostile hnew)
    (createDirAll_hostile hinbox) (createDirAll_inInbox hinbox hnew) hcontained).1

end

/-! ### Names that are not harmless -/

section

variable {k i : Nat} {p : Path} {m : Loc String}

theorem at_nil_entryStart : (entryStart p).at' (fun _ => []) = [] := by
  unfold entryStart
  split_ifs
  · rfl
  · rfl

theorem down_mem_of_entryDirs (hr : r ∈ entryDirs p) (hn : n ∈ r.down) : .down n ∈ p.parts := by
  have hmem : r.at' (fun _ => []) ∈
      Loc.trail ((entryStart p).at' fun _ => []) p.parts.dropLast := by
    rw [Rel.at_trail fun _ => rfl]
    exact mem_map_of_mem (mem_entryDirs_iff.1 hr).2
  rw [at_nil_entryStart] at hmem
  rcases Loc.mem_or_mem_of_trail hmem hn with h | h
  · cases h
  · exact dropLast_subset _ h

theorem down_mem_of_entryTarget (hlast : p.parts.getLast? = some (.down n'))
    (hn : n ∈ (entryTarget p n').down) : .down n ∈ p.parts := by
  have htarget : (entryTarget p n').down = Loc.walk [] p.parts.dropLast ++ [n'] := by
    have hwalk : ((entryStart p).walk p.parts.dropLast).at' (fun _ => []) = _ :=
      Rel.at_walk fun _ => rfl
    rw [at_nil_entryStart] at hwalk
    rw [← hwalk]
    rfl
  rw [htarget] at hn
  rcases mem_append.1 hn with hn | hn
  · rcases Loc.mem_or_mem_of_walk hn with h | h
    · cases h
    · exact dropLast_subset _ h
  · obtain rfl := mem_singleton.1 hn
    exact mem_of_getLast? hlast

theorem entryTarget_down_ne_nil (n : String) : (entryTarget p n).down ≠ [] :=
  append_ne_nil_of_right_ne_nil _ (cons_ne_nil _ _)

theorem place_eq_nil (hi : 2 ≤ i) : place [a, b] p i = [] := by
  induction i, hi using Nat.le_induction with
  | base =>
    unfold place
    split_ifs
    · rfl
    · rfl
  | succ i _ ih => rw [place_succ, ih, dropLast_nil]

theorem freshUuid_branch {y : Item Bytes} (hm : ∀ n ∈ m, n.toList.length ≤ k) :
    FreshUuid (hostile k name) (Tree.branch (plain k :: m) (cons_ne_nil _ _) y) := by
  have hlong {n : String} (hn : n.toList.length ≤ k + 1) :
      ¬ (hostile k name).uuid.toList <:+: n.toList := by
    intro h
    have hle := h.length_le
    have hlength : (hostile k name).uuid.toList.length = k + 2 := length_plain (k + 1)
    omega
  refine ⟨fun l n hitem => hlong ?_, nofun, fun n hn => hlong ?_, fun h => ?_⟩
  · have hmem : n ∈ plain k :: m :=
      (Tree.prefix_of_item_branch hitem).subset (mem_append_right _ (mem_singleton_self n))
    rcases mem_cons.1 hmem with rfl | hn
    · exact le_of_eq (length_plain k)
    · exact (hm n hn).trans (Nat.le_succ k)
  · obtain ⟨⟩ := mem_singleton.1 hn
    exact le_of_eq (length_plain k)
  · exact (isName_plain (k + 1)).1 h

theorem parts_of_not_harmless (h : ¬ Harmless p) :
    p.parts ≠ [] ∧ hasNul p.parts.dropLast = false := by
  refine ⟨fun hnil => h ⟨fun r hr => ?_, fun r hr => ?_⟩, ?_⟩
  · have hmem := (mem_entryDirs_iff.1 hr).2
    rw [hnil] at hmem
    cases hmem
  · obtain ⟨n, hlast, -⟩ := entryFile_eq_some hr
    rw [hnil] at hlast
    cases hlast
  · rw [← Bool.not_eq_true]
    refine fun hnul => h ⟨fun r hr => ?_, fun r hr => ?_⟩
    · exact nomatch hnul.symm.trans (mem_entryDirs_iff.1 hr).1
    · obtain ⟨n, -, -, hnot, -⟩ := entryFile_eq_some hr
      obtain ⟨part, hpart, hzero⟩ := any_eq_true.1 hnul
      have htrue : hasNul p.parts := any_eq_true.2 ⟨part, dropLast_subset _ hpart, hzero⟩
      rw [hnot] at htrue
      cases htrue

theorem not_harmless_cases (h : ¬ Harmless p) : (∃ r ∈ entryDirs p, r.down ≠ [] ∧ 2 ≤ r.up) ∨
      ((∀ r ∈ entryDirs p, r.down = [] ∨ r.up ≤ 1) ∧ ∃ r, entryFile p = some r ∧ 1 ≤ r.up) := by
  by_cases hdirs : ∀ r ∈ entryDirs p, r.down = [] ∨ r.up ≤ 1
  · refine .inr ⟨hdirs, ?_⟩
    by_contra hfile
    refine h ⟨hdirs, fun r hr => ?_⟩
    by_contra hup
    exact hfile ⟨r, hr, Nat.pos_of_ne_zero hup⟩
  · left
    push Not at hdirs
    obtain ⟨r, hr, hdown, hup⟩ := hdirs
    exact ⟨r, hr, hdown, hup⟩

end

variable {x : Loc String}

section

variable {k}

theorem file_hostileDisk {content : Bytes}
    (h : (hostileDisk k name t).tree.item x = some (.file content)) :
    t.item x = some (.file content) := by
  have hgrows : Grows _ (untouched t) (hostileDisk k name t) := grows_createDirAll
  rcases hgrows.item x with hsame | ⟨-, hdir, -⟩
  · exact hsame.symm.trans h
  · exact nomatch hdir.symm.trans h

theorem isDir_hostileDisk (h : (hostileDisk k name t).tree.IsDir x) :
    t.IsDir x ∨ x = [plain k] ∨ x = [plain k, plain k] := by
  have hgrows : Grows _ (untouched t) (hostileDisk k name t) := grows_createDirAll
  rcases hgrows.item x with hsame | ⟨-, -, hx, -⟩
  · exact .inl (hsame.symm.trans h)
  · rcases mem_cons.1 hx with hx | hx
    · exact .inr (.inl hx)
    · exact .inr (.inr (mem_singleton.1 hx))

end

/-! ### One entry -/

/-- The disk when the directories of an entry have been made. -/
def entryDisk (d : FileDisk) (dir : Loc String) (p : Path) : FileDisk :=
  (d.makeDirs (fun _ => false) (start dir p) p.parts.dropLast).1

/-- Where the place of an entry is in the file system. -/
def hostileAt (k : Nat) (name : String) (r : Rel String) : Loc String :=
  r.at' (place [plain k, plain k] (Path.parse name))

theorem exportBlob_hostile {k : Nat} {d : FileDisk} (target : Path) :
    (exportBlob (hostile k name) d (some name) [] target).1 =
      (writePath [] (fun _ => false) d target []).1 := by
  unfold exportBlob
  have hblob : (hostile k name).blob [] = .ok [] := rfl
  rw [hblob]
  dsimp only
  have hcwd : (hostile k name).cwd = [] := rfl
  have hdenies : (hostile k name).denies = fun _ => false := rfl
  rw [hcwd, hdenies]
  cases writePath [] (fun _ => false) d target [] with
  | mk d' result =>
    cases result with
    | error | ok => rfl

/-- A tree on which everything can be made for an entry. -/
structure Passable (k : Nat) (name : String) (t : Tree String Bytes) : Prop where
  not_harmless : ¬ Harmless (Path.parse name)
  inbox : t.IsDir [plain k]
  new : t.item [plain k, plain k] = none
  no_file : ∀ r ∈ entryDirs (Path.parse name), ∀ content,
    t.item (r.at' (place [plain k, plain k] (Path.parse name))) ≠ some (.file content)

namespace Passable

variable {k} (h : Passable k name t)

/-- The disk before the file of the entry is written. -/
def disk (_ : Passable k name t) : FileDisk :=
  entryDisk (hostileDisk k name t) [plain k, plain k] (Path.parse name)

include h

theorem ready : Ready (hostile k name) t ((hostile k name).inInbox (plain k))
    [plain k, plain k] (hostileDisk k name t) :=
  ready_hostileDisk h.inbox h.new

theorem hasNul_eq_false : hasNul (parse name).parts.dropLast = false :=
  (parts_of_not_harmless h.not_harmless).2

theorem makeDirs : ((hostileDisk k name t).makeDirs (fun _ => false)
    (start [plain k, plain k] (parse name)) (parse name).parts.dropLast).2 = .ok () := by
  refine makeDirs_eq_ok (h.ready.isDir_start _) (fun x hx content hcontent => ?_) fun _ => rfl
  obtain ⟨r, hr, rfl⟩ := exists_rel_of_mem_trail hx
  exact h.no_file r (mem_entryDirs_iff.2 ⟨h.hasNul_eq_false, hr⟩) content
    (file_hostileDisk hcontent)

theorem grows_disk : Grows (Loc.trail (start [plain k, plain k] (parse name))
    (parse name).parts.dropLast) (hostileDisk k name t) h.disk :=
  grows_makeDirs

theorem isDir_disk (hr : r ∈ entryDirs (parse name)) : h.disk.tree.IsDir (hostileAt k name r) :=
  isDir_of_makeDirs h.makeDirs _ (mem_trail_of_rel (mem_entryDirs_iff.1 hr).2)

theorem isDir_of_disk (hx : h.disk.tree.IsDir x) : (hostileDisk k name t).tree.IsDir x ∨
    (∃ r ∈ entryDirs (parse name), hostileAt k name r = x) ∧ x ∈ h.disk.made := by
  rcases h.grows_disk.item x with hsame | ⟨-, -, htrail, hmade⟩
  · exact .inl (hsame.symm.trans hx)
  · obtain ⟨r, hr, hat⟩ := exists_rel_of_mem_trail htrail
    exact .inr ⟨⟨r, mem_entryDirs_iff.2 ⟨h.hasNul_eq_false, hr⟩, hat⟩, hmade⟩

/-- The entry is written where its path leads. -/
theorem exportToInbox : (exportToInbox (hostile k name) (untouched t) (hostileOffer k) []).1 =
    (writePath [] (fun _ => false) h.disk
      (((hostile k name).inInbox (plain k)).join (parse name)) []).1 := by
  have hready := h.ready
  have hok := h.makeDirs
  obtain ⟨hparts, hnul⟩ := parts_of_not_harmless h.not_harmless
  rw [exportToInbox_hostile h.inbox h.new]
  unfold disk
  generalize (hostile k name).inInbox (plain k) = dest at hready ⊢
  generalize hp : parse name = p at hparts hnul hok ⊢
  have hjoin : (dest.join p).parts ≠ [] := by
    rw [parts_join]
    exact append_ne_nil_of_right_ne_nil _ hparts
  have hcreate : createDirAll (hostile k name).cwd (hostile k name).denies (hostileDisk k name t)
      ⟨(dest.join p).absolute, (dest.join p).parts.dropLast, false⟩ =
        (entryDisk (hostileDisk k name t) [plain k, plain k] p, .ok ()) := by
    unfold createDirAll
    rw [dropLast_parts_join hparts, hasNul_append, hready.hasNul_lead, hnul]
    refine (makeDirs_append_of_resolve hready.resolve_lead _).trans ?_
    exact Prod.ext rfl hok
  unfold exportEntry parent
  dsimp only
  rw [hp, if_neg hjoin]
  dsimp only
  rw [hcreate]
  exact exportBlob_hostile _

theorem mem_made (hx : x ∈ h.disk.made) :
    x ∈ (Send.exportToInbox (hostile k name) (untouched t) (hostileOffer k) []).1.made := by
  rw [h.exportToInbox]
  rcases writePath_cases [] (fun _ => false) h.disk
    (((hostile k name).inInbox (plain k)).join (parse name)) [] with
    hsame | ⟨n, l, -, -, -, -, hwrite⟩
  · rw [hsame]
    exact hx
  · rw [hwrite]
    rcases write_cases h.disk (fun _ => false) l n [] with hsame | ⟨-, -, -, hmade, -⟩
    · rw [hsame.1]
      exact hx
    · rw [hmade]
      exact hx

theorem mem_written (hr : entryFile (parse name) = some r)
    (hfile : ¬ h.disk.tree.IsDir (hostileAt k name r)) : hostileAt k name r ∈
      (Send.exportToInbox (hostile k name) (untouched t) (hostileOffer k) []).1.written := by
  have hready := h.ready
  have hgrows := h.grows_disk
  obtain ⟨hparts, -⟩ := parts_of_not_harmless h.not_harmless
  obtain ⟨n, hlast, rfl, hnul, hdirOnly, -⟩ := entryFile_eq_some hr
  have hresolve : h.disk.tree.resolve (start [plain k, plain k] (parse name))
      (parse name).parts.dropLast = some _ :=
    resolve_makeDirs (hready.isDir_start _) h.makeDirs
  have hall := Tree.resolve_append (hgrows.resolve (hready.resolve_lead (p := parse name)))
    (parse name).parts.dropLast
  have hcwd : (hostile k name).cwd = [] := rfl
  rw [hresolve, ← dropLast_parts_join hparts, hcwd] at hall
  unfold hostileAt at hfile ⊢
  rw [← walk_concat] at hfile ⊢
  rw [h.exportToInbox]
  unfold writePath
  rw [parts_join, hasNul_append, hready.hasNul_lead, hnul, Bool.or_self,
    if_neg Bool.false_ne_true, ← parts_join, hall, parts_join,
    getLast?_append_of_ne_nil _ hparts, hlast, dirOnly_join, hdirOnly]
  dsimp only
  rw [if_neg Bool.false_ne_true, written_write (Tree.isDir_of_resolve hresolve) hfile fun _ => rfl]
  exact mem_cons_self

end Passable

/-! ### An empty inbox -/

section

variable {k}

def emptyInbox (k : Nat) : Tree String Bytes := .branch [plain k] (List.cons_ne_nil _ _) .dir

theorem passable_emptyInbox (hnot : ¬ Harmless (parse name)) : Passable k name (emptyInbox k) := by
  refine ⟨hnot, if_pos rfl, ?_, fun r _ content h => nomatch (Tree.eq_of_file_branch h).2⟩
  by_contra h
  have hle := (Tree.prefix_of_item_branch h).length_le
  simp at hle

theorem not_isDir_of_emptyInbox (hx : x ≠ []) (hz : plain k ∉ x) :
    ¬ (hostileDisk k name (emptyInbox k)).tree.IsDir x := by
  intro h
  rcases isDir_hostileDisk h with h | rfl | rfl
  · have hitem : (emptyInbox k).item x ≠ none := by
      rw [h]
      exact Option.some_ne_none _
    rcases prefix_cons_iff.1 (Tree.prefix_of_item_branch hitem) with h | ⟨y, rfl, -⟩
    · exact hx h
    · exact hz mem_cons_self
  · exact hz mem_cons_self
  · exact hz mem_cons_self

theorem not_inbox_prefix (hz : plain k ∉ x) : ¬ (hostile k name).inbox <+: x := by
  intro h
  exact hz (h.subset mem_cons_self)

theorem hostileAt_of_two_le (hup : 2 ≤ r.up) : hostileAt k name r = r.down := by
  unfold hostileAt Rel.at'
  rw [place_eq_nil hup, nil_append]

theorem hostileAt_cases (hr : (entryStart (parse name)).up ≤ r.up) :
    r.up = 0 ∧ hostileAt k name r = plain k :: plain k :: r.down ∨
      r.up = 1 ∧ hostileAt k name r = plain k :: r.down ∨ 2 ≤ r.up :=
  at_cases (l := [plain k]) hr

theorem up_le_of_entryDirs {p : Path} (hr : r ∈ entryDirs p) : (entryStart p).up ≤ r.up :=
  Rel.up_le_trail r (mem_entryDirs_iff.1 hr).2

variable (hk : ∀ n, .down n ∈ (Path.parse name).parts → n.toList.length ≤ k)
  (hnot : ¬ Harmless (Path.parse name))

include hk hnot

theorem not_contained_of_dirs (hr : r ∈ entryDirs (parse name))
    (hdown : r.down ≠ []) (hup : 2 ≤ r.up) : ¬ Contained (hostile k name) (emptyInbox k)
      (exportToInbox (hostile k name) (untouched (emptyInbox k)) (hostileOffer k) []).1 := by
  intro hcontained
  have hpass := passable_emptyInbox (k := k) hnot
  have hz : plain k ∉ r.down := fun h => plain_not_mem hk (down_mem_of_entryDirs hr h)
  have hdir := hpass.isDir_disk hr
  rw [hostileAt_of_two_le hup] at hdir
  rcases hpass.isDir_of_disk hdir with hold | ⟨-, hmade⟩
  · exact not_isDir_of_emptyInbox hdown hz hold
  · rcases hcontained.made _ (hpass.mem_made hmade) with hway | hinside
    · rw [hostile_way, mem_singleton] at hway
      rw [hway] at hz
      exact hz mem_cons_self
    · exact not_inbox_prefix hz hinside

theorem not_contained_of_file (hr : entryFile (parse name) = some r)
    (hup : 2 ≤ r.up) (hdirs : ∀ r ∈ entryDirs (parse name), r.down = [] ∨ r.up ≤ 1) :
    ¬ Contained (hostile k name) (emptyInbox k)
      (exportToInbox (hostile k name) (untouched (emptyInbox k)) (hostileOffer k) []).1 := by
  intro hcontained
  have hpass := passable_emptyInbox (k := k) hnot
  obtain ⟨n, hlast, rfl, -⟩ := entryFile_eq_some hr
  have hdown := entryTarget_down_ne_nil (p := parse name) n
  have hz : plain k ∉ (entryTarget (parse name) n).down :=
    fun h => plain_not_mem hk (down_mem_of_entryTarget hlast h)
  have hmem := hpass.mem_written hr ?_
  · rw [hostileAt_of_two_le hup] at hmem
    exact not_inbox_prefix hz (hcontained.written _ hmem).1
  · rw [hostileAt_of_two_le hup]
    intro hdir
    rcases hpass.isDir_of_disk hdir with hold | ⟨⟨r, hr, hat⟩, -⟩
    · exact not_isDir_of_emptyInbox hdown hz hold
    · -- The directories of the entry are above the inbox already, or below it.
      rw [← hat] at hz hdown
      rcases hostileAt_cases (up_le_of_entryDirs hr) with ⟨-, h⟩ | ⟨-, h⟩ | h
      · exact hz (h ▸ mem_cons_self)
      · exact hz (h ▸ mem_cons_self)
      · rw [hostileAt_of_two_le h] at hdown
        exact hdown ((hdirs r hr).resolve_right (by omega))

end

/-! ### A file in the inbox -/

section

variable {k}

/-- The inbox has the file that the entry names. -/
def fullInbox (k : Nat) (m : Loc String) : Tree String Bytes :=
  .branch (plain k :: m) (List.cons_ne_nil _ _) (.file [])

variable (hk : ∀ n, .down n ∈ (Path.parse name).parts → n.toList.length ≤ k)
  (hnot : ¬ Harmless (Path.parse name)) (hr : entryFile (Path.parse name) = some r) (hup : r.up = 1)

include hr hup in
theorem hostileAt_of_up_eq_one : hostileAt k name r = plain k :: r.down := by
  have hle : (entryStart (parse name)).up ≤ r.up := by
    obtain ⟨n, -, rfl, -⟩ := entryFile_eq_some hr
    exact Rel.up_le_walk.trans (Rel.up_le_step _)
  rcases hostileAt_cases hle with ⟨h, -⟩ | ⟨-, h⟩ | h
  · omega
  · exact h
  · omega

include hk hnot hr hup

theorem passable_fullInbox : Passable k name (fullInbox k r.down) := by
  obtain ⟨n, hlast, htarget, -, -, hprefix⟩ := entryFile_eq_some hr
  have hz : plain k ∉ r.down := by
    rw [htarget]
    exact fun h => plain_not_mem hk (down_mem_of_entryTarget hlast h)
  have hdown : r.down ≠ [] := by
    rw [htarget]
    exact entryTarget_down_ne_nil n
  refine ⟨hnot, ?_, ?_, fun r' hr' content hcontent => ?_⟩
  · refine (if_neg ?_).trans (if_pos ?_)
    · intro h
      exact hdown (cons.inj h).2.symm
    · exact isPrefixOf_iff_prefix.2 (prefix_append [plain k] r.down)
  · by_contra h
    obtain ⟨y, hy⟩ := Tree.prefix_of_item_branch h
    exact hz ((cons.inj hy).2 ▸ mem_cons_self)
  · have hat := (Tree.eq_of_file_branch hcontent).1
    rcases hostileAt_cases (up_le_of_entryDirs hr') with ⟨-, h⟩ | ⟨hone, h⟩ | htwo
    · exact hz ((cons.inj (h.symm.trans hat)).2 ▸ mem_cons_self)
    · refine hprefix r' hr' (hone.trans hup.symm) ?_
      exact (cons.inj (h.symm.trans hat)).2 ▸ prefix_refl _
    · refine plain_not_mem hk (down_mem_of_entryDirs hr' ?_)
      rw [← hostileAt_of_two_le htwo, hostileAt, hat]
      exact mem_cons_self

theorem not_contained_of_overwrite : ¬ Contained (hostile k name) (fullInbox k r.down)
    (exportToInbox (hostile k name) (untouched (fullInbox k r.down)) (hostileOffer k) []).1 := by
  intro hcontained
  have hpass := passable_fullInbox hk hnot hr hup
  have hitem : (fullInbox k r.down).item (plain k :: r.down) = some (.file []) := if_pos rfl
  have hmem := hpass.mem_written hr ?_
  · rw [hostileAt_of_up_eq_one hr hup] at hmem
    exact (hcontained.written _ hmem).2 [] hitem
  · rw [hostileAt_of_up_eq_one hr hup]
    intro hdir
    -- Nothing that is made takes the place of the file.
    have hne : (fullInbox k r.down).item (plain k :: r.down) ≠ none := by
      rw [hitem]
      exact Option.some_ne_none _
    have hgrows : Grows _ (untouched (fullInbox k r.down))
        (hostileDisk k name (fullInbox k r.down)) := grows_createDirAll
    have hsame := hgrows.item_of_ne_none hne
    have hsame' := hpass.grows_disk.item_of_ne_none (hsame ▸ hne)
    exact nomatch hdir.symm.trans (hsame'.trans (hsame.trans hitem))

end

/-! ### All names -/

/-- Which names can be allowed: all transfers whose entries have allowed names stay in the inbox
and overwrite nothing if and only if every allowed name is harmless. -/
theorem contained_iff (allowed : String → Prop) :
    (∀ (env : Env) (t : Tree String Bytes) (offer : TransferOffer) (hash : Hash),
      FreshUuid env t →
      (offer.isCollection → ∀ entries, env.collection hash = .ok entries →
        ∀ entry ∈ entries, allowed entry.1) →
      Contained env t (exportToInbox env (untouched t) offer hash).1) ↔
    ∀ name, allowed name → Harmless (Path.parse name) := by
  constructor
  · intro h name hname
    by_contra hnot
    obtain ⟨k, hk⟩ := exists_bound (parse name).parts
    have hentries : ∀ entries, (hostile k name).collection [] = .ok entries →
        ∀ entry ∈ entries, allowed entry.1 := by
      intro entries hentries
      obtain rfl := Except.ok.inj hentries
      exact forall_mem_singleton.2 hname
    have hcontained (m) (y) (hm : ∀ n ∈ m, n.toList.length ≤ k) :=
      h (hostile k name) (.branch (plain k :: m) (cons_ne_nil _ _) y) (hostileOffer k) []
        (freshUuid_branch hm) fun _ => hentries
    rcases not_harmless_cases hnot with ⟨r, hr, hdown, hup⟩ | ⟨hdirs, r, hr, hup⟩
    · exact not_contained_of_dirs hk hnot hr hdown hup (hcontained [] .dir nofun)
    · by_cases htwo : 2 ≤ r.up
      · exact not_contained_of_file hk hnot hr htwo hdirs (hcontained [] .dir nofun)
      · have hone : r.up = 1 := by omega
        refine not_contained_of_overwrite hk hnot hr hone (hcontained r.down (.file []) ?_)
        intro n hn
        obtain ⟨n', hlast, rfl, -⟩ := entryFile_eq_some hr
        exact hk n (down_mem_of_entryTarget hlast hn)
  · intro h env t offer hash hfresh hentries
    refine contained_export hfresh fun hcollection entries hload entry hentry => ?_
    exact h _ (hentries hcollection entries hload entry hentry)

namespace Demo

/-- The user's home directory with a profile. -/
def home : Tree String Bytes :=
  .branch ["home", "user", ".profile"] (List.cons_ne_nil _ _) (.file [1])

/-- A store with a collection of two entries, the second of which leads out of the inbox. -/
def env : Env where
  cwd := []
  inboxPath := Path.parse "/home/user/Tunnet/inbox"
  contentKey := some "key"
  collection _ := .ok [("readme.txt", []), ("../../../.profile", [])]
  blob _ := .ok [7]
  decrypt _ content := .ok content
  denies _ := false
  uuid := "67e55044-10b1-426f-9247-bb680e5fe0c8"

def offer : TransferOffer where
  transferId := "1"
  hash := ""
  format := .hashSeq
  fileName := "photos"
  size := 2
  senderEndpointId := "aa"
  message := none
  isDirectory := true

/-- The profile in the home directory is overwritten. -/
theorem profile_overwritten :
    ¬ Contained env home (exportToInbox env (untouched home) offer []).1 := by
  have hwritten : ["home", "user", ".profile"] ∈
      (exportToInbox env (untouched home) offer []).1.written := by
    decide
  intro h
  exact (h.written _ hwritten).2 [1] rfl

end Demo

end Tunnet.Send

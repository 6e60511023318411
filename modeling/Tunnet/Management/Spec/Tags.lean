import Tunnet.Management.Tags
import Tunnet.Util.Search

/-!
# Users change only tags they may assign

A user may assign a tag if the owners of the tag lead to the user (`canAssignTag_iff`). Every tag
that a request names is checked under the name that is stored, because normalising keeps the names
that the schema lets through. A `put` removes tags that it does not name.
-/

namespace Tunnet.Management

open List TagRequest

variable {js : LowerCase} {db db' : TagTables} {actor : TagActor} {request : TagRequest}
  {endpointId name tag : String} {names add remove : List String}

/-- Whatever the change adds or removes may be assigned. -/
def OnlyAssignable (js : LowerCase) (actor : TagActor) (db db' : TagTables) : Prop :=
  ∀ row, ¬ (row ∈ db'.deviceTags ↔ row ∈ db.deviceTags) →
    mayAssign js db actor row.2 = some true

/-! ### Names -/

theorem isTagChar_ascii {c : Char} (hc : isTagChar c) : c.toNat < 128 ∧
    c.isUpper = false ∧ Str.isWhitespace c = false ∧ c ≠ ':' := by
  have hlt : c.toNat < 128 := by
    unfold isTagChar Char.isLower Char.isDigit at hc
    simp only [Bool.or_eq_true, Bool.and_eq_true, decide_eq_true_eq,
      UInt32.le_iff_toNat_le, beq_iff_eq] at hc
    rcases hc with ((⟨-, h⟩ | ⟨-, h⟩) | rfl) | rfl
    · exact h.trans_lt (by decide)
    · exact h.trans_lt (by decide)
    · decide
    · decide
  have hall : ∀ n < 128, isTagChar (Char.ofNat n) → (Char.ofNat n).isUpper = false ∧
      Str.isWhitespace (Char.ofNat n) = false ∧ Char.ofNat n ≠ ':' := by decide
  have hc' := hall c.toNat hlt
  rw [Char.ofNat_toNat] at hc'
  exact ⟨hlt, hc' hc⟩

theorem normalizeTagName_of_schema (h : tagNameSchema name) : normalizeTagName js name = name := by
  unfold tagNameSchema at h
  rw [Bool.and_eq_true, Bool.and_eq_true, all_eq_true] at h
  have hchar := fun c hc => isTagChar_ascii (h.1.2 c hc)
  have htrim : JsString.trim name = name :=
    (JsString.trim_eq_trim (fun hc => absurd (hchar _ hc).1 (by decide)) fun hc =>
      absurd (hchar _ hc).1 (by decide)).trans (Str.trim_eq_self fun c hc => (hchar c hc).2.2.1)
  have hcolon : Str.stripPrefix "tag:" name = none := by
    refine Str.stripPrefix_eq_none_iff.2 fun t ht => (hchar ':' ?_).2.2.2 rfl
    simp [ht]
  have hlower := js.ascii name fun c hc => ⟨(hchar c hc).1, (hchar c hc).2.1⟩
  simp [normalizeTagName, htrim, hlower, hcolon]

theorem mem_uniqueTags (h : names.all tagNameSchema) : tag ∈ uniqueTags js names ↔ tag ∈ names := by
  have hmap : names.map (normalizeTagName js) = names.map id :=
    map_congr_left fun n hn => normalizeTagName_of_schema (all_eq_true.1 h n hn)
  simp only [uniqueTags, mem_eraseDups, mem_filter, hmap, map_id,
    and_iff_left_iff_imp, decide_eq_true_eq]
  rintro hmem rfl
  exact nomatch all_eq_true.1 h "" hmem

/-- What a request names may be assigned as it is. -/
theorem mayAssign_of_assert (h : names.all tagNameSchema)
    (hassert : assertCanAssignTags js db actor names = none) (htag : tag ∈ names) :
    mayAssign js db actor tag = some true := by
  have hcan := find?_eq_none.1 hassert tag ((mem_uniqueTags h).2 htag)
  rw [bne_iff_ne, not_not, canAssignTag,
    normalizeTagName_of_schema (all_eq_true.1 h tag htag)] at hcan
  exact hcan

/-! ### Changes -/

variable {row : String × String}

theorem mem_tagRows (h : names.all tagNameSchema) :
    row ∈ tagRows endpointId (uniqueTags js names) ↔ row.1 = endpointId ∧ row.2 ∈ names := by
  simp only [tagRows, mem_toFinset, mem_map, mem_uniqueTags h]
  grind

theorem mem_applyDeviceTagChanges (h : (add ++ remove).all tagNameSchema)
    (hrow : row.2 ∉ add ++ remove) :
    row ∈ (applyDeviceTagChanges js db endpointId add remove).deviceTags ↔ row ∈ db.deviceTags := by
  rw [all_append, Bool.and_eq_true] at h
  rw [mem_append, not_or] at hrow
  simp [applyDeviceTagChanges, mem_tagRows h.1, mem_tagRows h.2, hrow]

/-- Of the tags that it does not name, a request removes those that the device of a `put` has. -/
theorem mem_apply (h : request.touched.all tagNameSchema) (hrow : row.2 ∉ request.touched) :
    row ∈ (request.apply js db actor).deviceTags ↔
      row ∈ db.deviceTags ∧ ∀ tags, request ≠ .put row.1 tags := by
  cases request with
  | patch => simpa [apply] using mem_applyDeviceTagChanges h hrow
  | put =>
    dsimp only [touched] at h hrow
    simp [apply, replaceDeviceTags, mem_tagRows h, hrow, eq_comm]
  | bulk endpointIds =>
    -- Each device in turn keeps the rows of tags that are not named.
    dsimp only [touched] at h hrow
    simp only [apply, ne_eq, reduceCtorEq, not_false_eq_true, implies_true, and_true]
    induction endpointIds generalizing db with
    | nil => rfl
    | cons e es ih =>
      rw [foldl_cons, ih]
      split_ifs
      · exact mem_applyDeviceTagChanges h hrow
      · rfl

theorem perform_eq_ok : request.perform js db actor = .ok db' ↔
    (request.parses ∧ request.known db actor ∧
      ensureTagDefinitionsExist js db actor.organizationId request.touched = [] ∧
      assertCanAssignTags js db actor request.touched = none) ∧
    request.apply js db actor = db' := by
  simp [perform, pure, Except.pure, and_assoc]

/-- Users change only tags they may assign, exactly if a `put` names all tags of its device that the
actor may not assign. -/
theorem perform_onlyAssignable_iff (h : request.perform js db actor = .ok db') :
    OnlyAssignable js actor db db' ↔ ∀ e tags, request = .put e tags →
      ∀ tag, (e, tag) ∈ db.deviceTags → tag ∈ tags ∨ mayAssign js db actor tag = some true := by
  obtain ⟨⟨hparses, -, -, hassert⟩, rfl⟩ := perform_eq_ok.1 h
  have hschema : request.touched.all tagNameSchema := by
    cases request with
    | patch | put => exact hparses
    | bulk =>
      simp only [parses, Bool.and_eq_true] at hparses
      exact hparses.1.1.1
  constructor
  · rintro honly e tags rfl tag hrow
    refine or_iff_not_imp_left.2 fun htag => honly (e, tag) ?_
    rw [mem_apply hschema htag]
    exact fun hiff => (hiff.2 hrow).2 tags rfl
  · intro hput row hchanged
    by_cases hrow : row.2 ∈ request.touched
    · exact mayAssign_of_assert hschema hassert hrow
    · simp only [mem_apply hschema hrow, and_iff_left_iff_imp, not_forall, not_not] at hchanged
      obtain ⟨hstored, tags, rfl⟩ := hchanged
      exact (hput row.1 tags rfl row.2 hstored).resolve_left hrow

/-! ### Owners of a tag -/

/-- Owners, and the tags among them. An owner is accepted if it names the id or the email of the
actor, a tag is a goal if the actor's device has it. -/
def ownerGraph (js : LowerCase) (db : TagTables) (actor : TagActor) :
    SearchGraph String String where
  accepts owner := (Str.stripPrefix "user:" owner).any fun identity =>
    actor.userId.any (fun id => id != "" && identity == id) || actor.email.any fun email =>
      email != "" && js.toLowerCase identity == js.toLowerCase email
  node owner := (Str.stripPrefix "tag:" owner).map (normalizeTagName js)
  goal tag := actor.endpointId.any fun e => e != "" && decide ((e, tag) ∈ db.deviceTags)
  entries tag := (db.definition actor.organizationId tag).map (·.owners)

theorem actorMatchesOwner_eq (hadmin : actor.isOrgAdmin = false) :
    actorMatchesOwner js db actor = (ownerGraph js db actor).visit := by
  funext ofParent visited owner
  unfold actorMatchesOwner SearchGraph.visit ownerGraph
  dsimp only
  split_ifs with howner
  · rw [hadmin, howner]
    rfl
  cases hname : Str.stripPrefix "tag:" owner with
  | none => cases Str.stripPrefix "user:" owner <;> rfl
  | some name =>
    have huser : Str.stripPrefix "user:" owner = none := by
      rw [Str.stripPrefix_eq_none_iff, Str.stripPrefix_eq_some_iff.1 hname]
      exact Str.append_ne_append (by decide) (by decide) name
    rw [huser]
    dsimp only [Option.map_some]
    cases db.definition actor.organizationId (normalizeTagName js name) <;> rfl

theorem actorMatchesOwners_eq (hadmin : actor.isOrgAdmin = false) (depth : ℕ) :
    actorMatchesOwners js db actor depth = (ownerGraph js db actor).search depth := by
  induction depth with
  | zero => rfl
  | succ depth ih =>
    funext owners visited
    unfold actorMatchesOwners SearchGraph.search
    rw [ih, actorMatchesOwner_eq hadmin]

/-- Every level of the recursion visits a definition, so there is an answer. -/
theorem actorMatchesOwners_iff (hadmin : actor.isOrgAdmin = false) (owners : List String) :
    ∃ r, actorMatchesOwners js db actor (db.tagDefinitions.length + 1) owners [] = some r ∧
      (r.1 ↔ ∃ owner ∈ owners, (ownerGraph js db actor).Reaches owner) := by
  have hnodes (tag) (htag : ((ownerGraph js db actor).entries tag).isSome) :
      tag ∈ (db.tagDefinitions.map (·.name)).toFinset := by
    obtain ⟨d, hd⟩ := Option.isSome_iff_exists.1 (Option.isSome_map.symm.trans htag)
    have hname := find?_some hd
    rw [Bool.and_eq_true, beq_iff_eq, beq_iff_eq] at hname
    exact mem_toFinset.2 (mem_map.2 ⟨d, mem_of_find?_eq_some hd, hname.2⟩)
  have hle := toFinset_card_le (db.tagDefinitions.map (·.name))
  rw [length_map] at hle
  rw [actorMatchesOwners_eq hadmin]
  exact SearchGraph.search_iff hnodes (by omega)

/-- There is always an answer to whether an actor may assign a tag: yes to an administrator, and to
an actor that an owner of the tag leads to. -/
theorem canAssignTag_iff (js : LowerCase) (db : TagTables) (actor : TagActor) (tagName : String) :
    ∃ answer, canAssignTag js db actor tagName = some answer ∧ (answer ↔ actor.isOrgAdmin ∨
      ∃ d, db.definition actor.organizationId (normalizeTagName js tagName) = some d ∧
        ∃ owner ∈ d.owners, (ownerGraph js db actor).Reaches owner) := by
  unfold canAssignTag mayAssign
  cases hadmin : actor.isOrgAdmin with
  | true => exact ⟨true, rfl, by simp⟩
  | false =>
    cases db.definition actor.organizationId (normalizeTagName js tagName) with
    | none => exact ⟨false, rfl, by simp⟩
    | some d =>
      obtain ⟨r, hr, hreaches⟩ := actorMatchesOwners_iff hadmin d.owners
      refine ⟨r.1, ?_, by simpa using hreaches⟩
      dsimp only
      rw [hr]
      rfl

/-! ### A tag of another user -/

namespace Demo

def lower : LowerCase where
  toLowerCase := String.toLower
  ascii s hs := by
    rw [← String.toList_inj]
    refine (String.toList_map ..).trans
      ((List.map_congr_left fun c hc => ?_).trans (List.map_id' _))
    exact dif_neg (of_decide_eq_false (hs c hc).2)

def bobActor : TagActor := ⟨"acme", some "bob", none, false, none⟩

def tables : TagTables where
  devices := [("laptop", "acme")]
  tagDefinitions := [⟨"acme", "prod", ["user:ann"]⟩, ⟨"acme", "web", ["user:bob"]⟩]
  deviceTags := {("laptop", "prod")}

theorem patch_performed : (patch "laptop" ["web"] []).perform lower tables bobActor =
    .ok (applyDeviceTagChanges lower tables "laptop" ["web"] []) :=
  perform_eq_ok.2 ⟨by decide +kernel, rfl⟩

/-- A patch adds the tag of its user. -/
theorem patch_onlyAssignable :
    OnlyAssignable lower bobActor tables (applyDeviceTagChanges lower tables "laptop" ["web"] []) :=
  (perform_onlyAssignable_iff patch_performed).2 nofun

/-- A `put` of the own tag removes the tag that only the other user may assign. -/
theorem put_removes_prod : ∃ db', (TagRequest.put "laptop" ["web"]).perform lower tables bobActor =
    .ok db' ∧ ¬ OnlyAssignable lower bobActor tables db' := by
  refine ⟨_, perform_eq_ok.2 ⟨by decide +kernel, rfl⟩, fun h => ?_⟩
  exact absurd (h ("laptop", "prod") (by decide +kernel)) (by decide)

end Demo

end Tunnet.Management

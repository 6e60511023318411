import Tunnet.Control.Posture
import Tunnet.Util.Run

/-!
# Attributes a device does not own

The rows of other writers stand in the same table as those an agent reports, under the same names,
and a report overwrites whatever it names.

* `AttributesInv`: rows can be told apart by their names.
* `PostureDb.Honest`: reports that keep to names that are free or the agent's own, when no row of
  the device has expired.
* `attributes_unforged`: in runs of these, an agent's report leaves what others have written, and
  what is evaluated afterwards comes from rows that have not expired.
-/

namespace Tunnet.Control

open List PostureDb PostureValue

/-! ### Names -/

variable {a : Attribute}

section

variable {b : Attribute}

/-- The namespace can be read off the name. -/
def Attribute.Named (a : Attribute) : Prop := a.ns ≠ "" ∧ ':' ∉ a.ns.toList

theorem splitOnce_name (ha : a.Named) : Str.splitOnce ':' a.name = some (a.ns, a.key) := by
  rw [Str.splitOnce_eq_some_iff, Attribute.name, if_neg ha.1]
  exact ⟨ha.2, rfl⟩

theorem id_eq_of_name_eq (ha : a.Named) (hb : b.Named) (hendpoint : a.endpointId = b.endpointId)
    (hname : a.name = b.name) : a.id = b.id := by
  have hsplit := splitOnce_name ha
  rw [hname, splitOnce_name hb] at hsplit
  obtain ⟨hns, hkey⟩ := Prod.mk.inj (Option.some.inj hsplit)
  unfold Attribute.id
  rw [hendpoint, hns, hkey]

theorem splitAttributeKey_named (attrKey : String) : ':' ∉
    (splitAttributeKey attrKey).1.toList := by
  unfold splitAttributeKey
  cases hsplit : Str.splitOnce ':' attrKey with
  | none =>
    have hcustom : ':' ∉ "custom".toList := by decide
    exact hcustom
  | some => exact (Str.splitOnce_eq_some_iff.1 hsplit).1

end

/-! ### What is loaded -/

section

variable {rows : List Attribute}

/-- Adding the attributes of rows to a map. -/
def loadInto (out : Map String PostureValue) (rows : List Attribute) : Map String PostureValue :=
  rows.foldl (fun out a =>
    match PostureValue.ofJson a.value with
    | some parsed => out.insert a.name parsed
    | none => out) out

theorem lookup_loadInto_cons (out : Map String PostureValue) (a : Attribute)
    (rows : List Attribute) :
    ∃ out', loadInto out (a :: rows) = loadInto out' rows ∧ ∀ name, out'.lookup name =
      if name = a.name then (ofJson a.value).or (out.lookup name) else out.lookup name := by
  refine ⟨_, rfl, fun name => ?_⟩
  dsimp only
  cases ofJson a.value with
  | none => exact (ite_self _).symm
  | some => exact Map.lookup_insert_eq _ _ _ _

variable (rows)

/-- What is loaded comes from a row. -/
theorem of_lookup_loadInto : ∀ out {name : String}
    {v : PostureValue}, (loadInto out rows).lookup name = some v → out.lookup name = some v ∨
      ∃ a ∈ rows, a.name = name ∧ ofJson a.value = some v := by
  induction rows with
  | nil => exact fun _ _ _ h => .inl h
  | cons a rows ih =>
    intro out name v h
    obtain ⟨out', hcons, hout⟩ := lookup_loadInto_cons out a rows
    rw [hcons] at h
    rcases ih _ h with h | ⟨b, hb, hname, hvalue⟩
    · rw [hout] at h
      split_ifs at h with heq
      · rcases Option.or_eq_some_iff.1 h with h | ⟨-, h⟩
        · exact .inr ⟨a, mem_cons_self, heq.symm, h⟩
        · exact .inl h
      · exact .inl h
    · exact .inr ⟨b, mem_cons_of_mem _ hb, hname, hvalue⟩

theorem lookup_loadInto_of_ne : ∀ out
    {name : String}, (∀ a ∈ rows, a.name ≠ name) →
      (loadInto out rows).lookup name = out.lookup name := by
  induction rows with
  | nil => exact fun _ _ _ => rfl
  | cons a rows ih =>
    intro out name hne
    obtain ⟨out', hcons, hout⟩ := lookup_loadInto_cons out a rows
    rw [hcons, ih _ fun b hb => hne b (mem_cons_of_mem _ hb), hout,
      if_neg (hne a mem_cons_self).symm]

theorem lookup_loadInto_of_mem : ∀ out
    {a : Attribute}, (rows.map (·.name)).Nodup → a ∈ rows → out.lookup a.name = none →
      (loadInto out rows).lookup a.name = ofJson a.value := by
  induction rows with
  | nil => exact fun _ _ _ h => absurd h not_mem_nil
  | cons b rows ih =>
    intro out a hunique ha hnone
    obtain ⟨out', hcons, hout⟩ := lookup_loadInto_cons out b rows
    rw [map_cons, nodup_cons] at hunique
    rw [hcons]
    rcases mem_cons.1 ha with rfl | ha
    · rw [lookup_loadInto_of_ne rows _ fun b hb heq => hunique.1 (mem_map.2 ⟨b, hb, heq⟩), hout,
        if_pos rfl, hnone, Option.or_none]
    · refine ih _ hunique.2 ha ?_
      rw [hout, if_neg fun heq => hunique.1 (mem_map.2 ⟨a, ha, heq⟩)]
      exact hnone

end

/-! ### The invariant -/

/-- What holds of the rows in every state. -/
structure AttributesInv (db : PostureDb) : Prop where
  unique : (db.attributes.map Attribute.id).Nodup
  named : ∀ a ∈ db.attributes, a.Named

variable {db : PostureDb} {order : List Attribute → List Attribute} {db' : PostureDb}

theorem AttributesInv.filter (hinv : AttributesInv db) (p : Attribute → Bool)
    (heq : db'.attributes = db.attributes.filter p) : AttributesInv db' := by
  refine ⟨?_, fun b hb => hinv.named b (mem_of_mem_filter (heq ▸ hb))⟩
  rw [heq]
  exact hinv.unique.sublist (filter_sublist.map _)

theorem AttributesInv.of_eq (hinv : AttributesInv db)
    (heq : db'.attributes = db.attributes) : AttributesInv db' :=
  ⟨heq ▸ hinv.unique, heq ▸ hinv.named⟩

theorem AttributesInv.upsert (hinv : AttributesInv db) (hnamed : a.Named)
    {merge : Attribute → Attribute} (hid : ∀ b, (merge b).id = b.id) :
    AttributesInv { db with attributes := Table.upsert Attribute.id merge a db.attributes } := by
  refine ⟨Table.nodup_upsert hid hinv.unique, fun b hb => ?_⟩
  rcases Table.of_mem_upsert hb with ⟨hb, -⟩ | ⟨rfl, -⟩ | ⟨c, hc, -, rfl⟩
  · exact hinv.named b hb
  · exact hnamed
  · have hns : (merge c).ns = c.ns := congrArg (fun id => id.2.1) (hid c)
    unfold Attribute.Named
    rw [hns]
    exact hinv.named c hc

/-! ### What a report must not do -/

/-- The rows that are not the agent's. -/
def PostureDb.others (db : PostureDb) : List Attribute := db.attributes.filter (·.source != .agent)

def Attribute.Expired (a : Attribute) (now : Timestamp) : Prop :=
  ∃ t, a.expiresAt = some t ∧ t ≤ now

/-- No row of the device has expired. -/
def PostureDb.Timely (db : PostureDb) (endpointId : String) : Prop :=
  ∀ a ∈ db.attributes, a.endpointId = endpointId → ¬ a.Expired db.now

/-- Everything in the map comes from a row of the device that has not expired. -/
def Fresh (db : PostureDb) (endpointId : String) (m : Map String PostureValue) : Prop :=
  ∀ name v, m.lookup name = some v → ∃ a ∈ db.attributes, a.endpointId = endpointId ∧
    a.name = name ∧ PostureValue.ofJson a.value = some v ∧ ¬ a.Expired db.now

/-- A report of the device leads from `db` to `db'`, where the map is evaluated. -/
structure Unforged (db db' : PostureDb) (endpointId : String)
    (evaluated : Option (Map String PostureValue)) : Prop where
  /-- What others have written stays; only the address may be written anew, by the control plane. -/
  kept : ∀ a ∈ db.attributes, a.source ≠ .agent → a ∈ db'.attributes ∨
    a.id = (endpointId, "ip", "address") ∧
      ∃ a' ∈ db'.attributes, a'.id = a.id ∧ a'.source = .control
  /-- It is evaluated under its name. -/
  used : ∀ m, evaluated = some m → ∀ a ∈ db'.attributes, a.endpointId = endpointId →
    a.source ≠ .agent → m.lookup a.name = PostureValue.ofJson a.value
  fresh : ∀ m, evaluated = some m → Fresh db' endpointId m

/-- Reports name attributes with a namespace that are free or the agent's; the rows of a device are
loaded before one of them expires; and the database returns the rows it has. -/
def PostureDb.Honest (db : PostureDb) : PostureEvent → Prop
  | .report r ans => ((∀ l, (ans.order l).Perm l) ∧ db.Timely r.endpointId) ∧
      ∀ attr ∈ r.attributes, (splitAttributeKey attr.1).1 ≠ "" ∧
        ∀ a ∈ db.attributes, a.id = (r.endpointId, splitAttributeKey attr.1) → a.source = .agent
  | .load endpointId order => (∀ l, (order l).Perm l) ∧ db.Timely endpointId
  | _ => True

section

variable {endpointId ip provider iso : String}

theorem mem_others : a ∈ db.others ↔ a ∈ db.attributes ∧ a.source ≠ .agent := by
  unfold others
  rw [mem_filter, bne_iff_ne]

/-! ### Loading -/

theorem mem_loaded (hperm : ∀ l, (order l).Perm l) : a ∈
    (order db.attributes).filter (·.endpointId == endpointId) ↔
      a ∈ db.attributes ∧ a.endpointId = endpointId := by
  rw [mem_filter, (hperm db.attributes).mem_iff, beq_iff_eq]

theorem PostureDb.Timely.fresh (h : db.Timely endpointId) (hperm : ∀ l, (order l).Perm l) :
    Fresh db endpointId (loadDeviceAttributes (order db.attributes) endpointId) := by
  intro name v hlookup
  rcases of_lookup_loadInto _ ∅ hlookup with h | ⟨a, ha, hname, hvalue⟩
  · cases h
  · obtain ⟨ha, hendpoint⟩ := (mem_loaded hperm).1 ha
    exact ⟨a, ha, hendpoint, hname, hvalue, h a ha hendpoint⟩

theorem PostureDb.Timely.upsert (h : db.Timely endpointId) (hexpiry : a.expiresAt = none) :
    (db.upsert a).Timely endpointId := by
  intro b hb hendpoint
  rcases Table.of_mem_upsert hb with ⟨hb, -⟩ | ⟨rfl, -⟩ | ⟨c, hc, -, rfl⟩
  · exact h b hb hendpoint
  · rintro ⟨t, ht, -⟩
    exact nomatch hexpiry.symm.trans ht
  · exact h c hc hendpoint

theorem AttributesInv.lookup (hinv : AttributesInv db)
    (hperm : ∀ l, (order l).Perm l) (ha : a ∈ db.attributes)
    (hendpoint : a.endpointId = endpointId) :
    (loadDeviceAttributes (order db.attributes) endpointId).lookup a.name = ofJson a.value := by
  refine lookup_loadInto_of_mem _ ∅ ?_ ((mem_loaded hperm).2 ⟨ha, hendpoint⟩)
    (by rw [Finmap.lookup_empty])
  -- Rows of one device with the same name are the same row.
  have hids : ((order db.attributes).map Attribute.id).Nodup :=
    ((hperm db.attributes).map _).nodup_iff.2 hinv.unique
  refine Nodup.map_on (fun b hb c hc hname => ?_) (hids.of_map.filter _)
  obtain ⟨hb, hbe⟩ := (mem_loaded hperm).1 hb
  obtain ⟨hc, hce⟩ := (mem_loaded hperm).1 hc
  exact inj_on_of_nodup_map hinv.unique hb hc
    (id_eq_of_name_eq (hinv.named b hb) (hinv.named c hc) (hbe.trans hce.symm) hname)

/-! ### The statements of a report -/

/-- A statement for what the agent has reported, when `others` are the rows of the other writers. -/
inductive AgentStatement (others : List Attribute) : ReportStatement → Prop
  | delete (endpointId : String) : AgentStatement others (.deleteAgent endpointId)
  | upsert (a : Attribute) : a.source = .agent → a.Named ∧ a.expiresAt = none →
      (∀ b ∈ others, b.id ≠ a.id) → AgentStatement others (.upsert a)

variable {organizationId : String} {s : ReportStatement} {r : PostureReport} {ans : ReportAnswers}

theorem agentStatement_step (hinv : AttributesInv db) (hs : AgentStatement db.others s) :
    AttributesInv (db.execute s) ∧ (db.execute s).others = db.others ∧
      ∀ id, db.Timely id → (db.execute s).Timely id := by
  cases hs with
  | delete =>
    refine ⟨hinv.filter _ rfl, ?_, fun _ h a ha => h a (mem_of_mem_filter ha)⟩
    unfold others execute
    rw [filter_filter]
    refine filter_congr fun a _ => ?_
    cases a.source <;> simp
  | upsert a hsource hlasting hfree =>
    refine ⟨hinv.upsert hlasting.1 fun _ => rfl, ?_, fun _ h => h.upsert hlasting.2⟩
    refine Table.filter_upsert (by simp [hsource]) fun b hb hid => ?_
    have hagent : b.source = .agent := by
      by_contra hne
      exact hfree b (mem_others.2 ⟨hb, hne⟩) hid
    exact ⟨by simp [hagent], by simp [Attribute.takeOver, hsource]⟩

theorem agentStatements_run (ss : List ReportStatement) : ∀ {db : PostureDb}, AttributesInv db →
    (∀ s ∈ ss, AgentStatement db.others s) →
    AttributesInv (ss.foldl execute db) ∧
      (ss.foldl execute db).others = db.others ∧
      ∀ id, db.Timely id → (ss.foldl execute db).Timely id := by
  induction ss with
  | nil => exact fun hinv _ => ⟨hinv, rfl, fun _ => id⟩
  | cons s ss ih =>
    intro db hinv hs
    obtain ⟨hinv', hothers, htimely⟩ := agentStatement_step hinv (hs s mem_cons_self)
    obtain ⟨hfinal, hothers', htimely'⟩ := ih hinv' fun s' hs' => by
      rw [hothers]
      exact hs s' (mem_cons_of_mem _ hs')
    exact ⟨hfinal, hothers'.trans hothers, fun id => htimely' id ∘ htimely id⟩

theorem agentStatements_honest (hhonest : db.Honest (.report r ans))
    (hs : s ∈ r.agentStatements organizationId) : AgentStatement db.others s := by
  rcases mem_append.1 hs with hs | hs
  · split_ifs at hs
    · rw [mem_singleton.1 hs]
      exact .delete _
    · exact absurd hs not_mem_nil
  · obtain ⟨attr, hattr, rfl⟩ := mem_map.1 hs
    obtain ⟨hns, hfree⟩ := hhonest.2 attr hattr
    refine .upsert _ rfl ⟨⟨hns, splitAttributeKey_named _⟩, rfl⟩ fun b hb hid => ?_
    obtain ⟨hb, hne⟩ := mem_others.1 hb
    exact hne (hfree b hb hid)

theorem controlStatements_take (d : Device) (now : Timestamp) (n : Nat) :
    (d.controlStatements now).take n = [] ∨
      ∃ ip, (d.controlStatements now).take n = [.upsert (d.address now ip)] := by
  unfold Device.controlStatements
  cases d.publicIp.filter (· ≠ "") with
  | none => exact .inl (take_nil)
  | some ip =>
    cases n with
    | zero => exact .inl rfl
    | succ =>
      refine .inr ⟨ip, ?_⟩
      rw [take_succ_cons, take_nil]

theorem named_address (d : Device) (now : Timestamp) (ip : String) : (d.address now ip).Named := by
  have hip : "ip" ≠ "" ∧ ':' ∉ "ip".toList := by decide
  exact hip

theorem kept_upsert_address {d : Device} {now : Timestamp} (ha : a ∈ db.attributes) :
    a ∈ (db.upsert (d.address now ip)).attributes ∨ a.id = (d.endpointId, "ip", "address") ∧
      ∃ a' ∈ (db.upsert (d.address now ip)).attributes, a'.id = a.id ∧ a'.source = .control := by
  by_cases hid : a.id = (d.address now ip).id
  · refine .inr ⟨hid, ?_⟩
    obtain ⟨a', ha', heq⟩ := Table.exists_mem_upsert Attribute.id (d.address now ip).takeOver
      (d.address now ip) db.attributes
    refine ⟨a', ha', ?_⟩
    rcases heq with rfl | ⟨b, -, hb, rfl⟩
    · exact ⟨hid.symm, rfl⟩
    · exact ⟨hb.trans hid.symm, rfl⟩
  · exact .inl (Table.mem_upsert_of_ne ha hid)

/-- An honest report forges nothing. -/
theorem report_unforged (hinv : AttributesInv db) (hhonest : db.Honest (.report r ans)) :
    AttributesInv (db.handlePostureReport r ans).1 ∧
      Unforged db (db.handlePostureReport r ans).1 r.endpointId
    (db.handlePostureReport r ans).2 := by
  unfold handlePostureReport
  cases hdevice : db.device r.endpointId with
  | none => exact ⟨hinv, fun _ ha _ => .inl ha, nofun, nofun⟩
  | some d =>
    have hfound := find?_some hdevice
    have hendpoint : d.endpointId = r.endpointId := beq_iff_eq.1 hfound
    dsimp only
    rw [take_append, foldl_append]
    -- The agent's part, and then the control plane's.
    obtain ⟨hinv₁, hothers, htimely⟩ := agentStatements_run
      ((r.agentStatements d.organizationId).take ans.succeeding) hinv
      fun s hs => agentStatements_honest hhonest (mem_of_mem_take hs)
    generalize ((r.agentStatements d.organizationId).take ans.succeeding).foldl execute db =
      db₁ at hinv₁ hothers htimely
    have hkept₁ (a) (ha : a ∈ db.attributes) (hne : a.source ≠ .agent) :
        a ∈ db₁.attributes := (mem_others.1 (hothers ▸ mem_others.2 ⟨ha, hne⟩)).1
    have hloaded {db₂ : PostureDb} (hinv₂ : AttributesInv db₂) (htimely₂ : db₂.Timely r.endpointId)
        (hkept : ∀ a ∈ db.attributes, a.source ≠ .agent → a ∈ db₂.attributes ∨
          a.id = (r.endpointId, "ip", "address") ∧
            ∃ a' ∈ db₂.attributes, a'.id = a.id ∧ a'.source = .control) :
        AttributesInv db₂ ∧ Unforged db db₂ r.endpointId
          (if (r.agentStatements d.organizationId ++ d.controlStatements db.now).length <
              ans.succeeding then
            some (loadDeviceAttributes (ans.order db₂.attributes) r.endpointId) else none) := by
      refine ⟨hinv₂, hkept, fun m hm a ha hae _ => ?_, fun m hm => ?_⟩
      · split_ifs at hm
        rw [← Option.some.inj hm]
        exact hinv₂.lookup hhonest.1.1 ha hae
      · split_ifs at hm
        rw [← Option.some.inj hm]
        exact htimely₂.fresh hhonest.1.1
    have htimely₁ := htimely _ hhonest.1.2
    rcases controlStatements_take d db.now
      (ans.succeeding - (r.agentStatements d.organizationId).length) with hnone | ⟨ip, hip⟩
    · rw [hnone]
      exact hloaded hinv₁ htimely₁ fun a ha hne => .inl (hkept₁ a ha hne)
    · rw [hip]
      refine hloaded (hinv₁.upsert (named_address d db.now ip) fun _ => rfl) (htimely₁.upsert rfl)
        fun a ha hne => ?_
      rw [← hendpoint]
      exact kept_upsert_address (hkept₁ a ha hne)

/-! ### Runs -/

theorem AttributesInv.upserts (rows : List Attribute) : ∀ {db : PostureDb}, AttributesInv db →
    (∀ a ∈ rows, a.Named) → AttributesInv (rows.foldl PostureDb.upsert db) := by
  induction rows with
  | nil => exact fun hinv _ => hinv
  | cons a rows ih =>
    intro db hinv hrows
    exact ih (hinv.upsert (hrows a mem_cons_self) fun _ => rfl)
      fun b hb => hrows b (mem_cons_of_mem _ hb)

theorem syncRows_named (ha : a ∈ db.syncRows organizationId provider iso) : a.Named := by
  obtain ⟨d, -, ha⟩ := mem_flatMap.1 ha
  obtain ⟨attr, -, rfl⟩ := mem_map.1 ha
  have hns : "integration" ≠ "" ∧ ':' ∉ "integration".toList := by decide
  exact hns

theorem AttributesInv.step (hinv : AttributesInv db) {i : PostureEvent} (hhonest : db.Honest i) :
    AttributesInv (db.step i).1 := by
  cases i with
  | enroll =>
    refine hinv.of_eq ?_
    unfold PostureDb.step
    dsimp only
    split_ifs <;> rfl
  | removeDevice => exact hinv.filter _ rfl
  | setPublicIp | tick => exact hinv.of_eq rfl
  | report => exact (report_unforged hinv hhonest).1
  | patchCustom =>
    unfold PostureDb.step patchCustom
    dsimp only
    split_ifs
    · have hcustom : "custom" ≠ "" ∧ ':' ∉ "custom".toList := by decide
      refine hinv.upsert ?_ fun _ => rfl
      exact hcustom
    · exact hinv
  | deleteCustom =>
    unfold PostureDb.step deleteCustom
    dsimp only
    split_ifs
    · exact hinv.filter _ rfl
    · exact hinv
  | sync => exact hinv.upserts _ fun a ha => syncRows_named ha
  | load => exact hinv

end

theorem attributesInv_initial : AttributesInv .initial :=
  ⟨nodup_nil, fun _ ha => absurd ha not_mem_nil⟩

/-- A device cannot forge attributes it does not own, nor have expired ones evaluated, in every run
whose steps are honest. -/
theorem attributes_unforged {h : List (PostureEvent × Option (Map String PostureValue))}
    {db : PostureDb} (hrun : Run PostureDb.step (fun _ db i => db.Honest i) .initial h db) :
    (∀ r ans, db.Honest (.report r ans) →
      Unforged db (db.step (.report r ans)).1 r.endpointId (db.step (.report r ans)).2) ∧
    ∀ endpointId order m, db.Honest (.load endpointId order) →
      (db.step (.load endpointId order)).2 = some m → Fresh db endpointId m := by
  have hinv : AttributesInv db :=
    hrun.invariant (I := fun _ db => AttributesInv db) attributesInv_initial
      fun _ _ _ hinv hok => hinv.step hok
  refine ⟨fun r ans hhonest => (report_unforged hinv hhonest).2,
    fun endpointId order m hhonest hm => ?_⟩
  rw [← Option.some.inj hm]
  exact hhonest.2.fresh hhonest.1

namespace Demo

/-- The API has written `custom:edr = false` for the device `dd`. -/
def edr (expiresIn : Option Nat) : List PostureEvent :=
  [.enroll ⟨"dd", "acme", none⟩, .patchCustom "acme" "dd" "edr" (.bool false) expiresIn]

/-- A partial report of the device. -/
def partialReport (attributes : List (String × Json)) : PostureEvent :=
  .report ⟨"dd", false, attributes, 0⟩ ⟨5, id⟩

/-- The agent reports `custom:edr = true`; and the API's value is still evaluated a minute after its
expiry. -/
theorem attribute_forged : let db := (exec step [] .initial (edr none)).2
    let next := db.step (partialReport [("custom:edr", .bool true)])
    let expired := (exec step [] .initial (edr (some 60) ++ [.tick 120000000000])).2
    let late := expired.step (partialReport [])
    ¬ Unforged db next.1 "dd" next.2 ∧ ∃ m, late.2 = some m ∧ ¬ Fresh late.1 "dd" m := by
  intro db next expired late
  constructor
  · intro hunforged
    have hold : ∃ a ∈ db.attributes, a.source = .api ∧ a.ns = "custom" :=
      ⟨_, mem_singleton.2 rfl, rfl, rfl⟩
    have hagent : next.1.attributes.all (·.source == .agent) := by decide
    obtain ⟨a, ha, hsource, hns⟩ := hold
    rcases hunforged.kept a ha (by rw [hsource]; decide) with hkept | ⟨hid, -⟩
    · have hagent' := all_eq_true.1 hagent a hkept
      rw [hsource] at hagent'
      cases hagent'
    · have hip : a.ns = "ip" := congrArg (fun id => id.2.1) hid
      exact absurd (hns.symm.trans hip) (by decide)
  · have hloaded : late.2.map (·.lookup "custom:edr") = some (some (.bool false)) := by decide
    have hexpired : late.1.attributes.all (fun a => a.expiresAt.any (· ≤ late.1.now)) := by
      decide
    obtain ⟨m, hm, hlookup⟩ := Option.map_eq_some_iff.1 hloaded
    refine ⟨m, hm, fun hfresh => ?_⟩
    obtain ⟨a, ha, -, -, -, hnot⟩ := hfresh _ _ hlookup
    obtain ⟨t, ht, hle⟩ := (Option.any_eq_true _ _).1 (all_eq_true.1 hexpired a ha)
    exact hnot ⟨t, ht, of_decide_eq_true hle⟩

/-- A report on something else, before the API's value expires, leaves that value. -/
theorem attributes_unforged_edr : let db := (exec step [] .initial (edr (some 60))).2
    let next := db.step (partialReport [("os:version", .string "14")])
    next.2.map (·.lookup "custom:edr") = some (some (.bool false)) ∧
      Unforged db next.1 "dd" next.2 := by
  intro db next
  have hmeets : Meets step (fun _ db i => db.Honest i) [] .initial (edr (some 60)) :=
    ⟨trivial, trivial, trivial⟩
  have hhonest : db.Honest (partialReport [("os:version", .string "14")]) := by
    have hlater : db.attributes.all (fun a => a.expiresAt.all (db.now < ·)) := by decide
    refine ⟨⟨Perm.refl, fun a ha _ ⟨t, ht, hle⟩ => ?_⟩, fun attr hattr => ?_⟩
    · have hlt := (Option.all_eq_true _ _).1 (all_eq_true.1 hlater a ha) t ht
      exact absurd hle (not_le.2 (of_decide_eq_true hlt))
    obtain rfl := mem_singleton.1 hattr
    refine ⟨by decide, fun a ha hid => ?_⟩
    have hcustom : db.attributes.all (·.ns == "custom") := by decide
    have hns : a.ns = (splitAttributeKey "os:version").1 := congrArg (fun id => id.2.1) hid
    have hos : (splitAttributeKey "os:version").1 ≠ "custom" := by decide
    exact absurd (hns.symm.trans (beq_iff_eq.1 (all_eq_true.1 hcustom a ha))) hos
  have hunforged := (attributes_unforged (run_exec hmeets)).1 _ _ hhonest
  exact ⟨by decide, hunforged⟩

end Demo

end Tunnet.Control

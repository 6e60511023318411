import Tunnet.Policy.Types

/-!
# Policy documents

The documents of `tunnet-policy-engine` (`ir.rs`) and how they are merged, in Rust (`merge.rs`) and
in TypeScript (`merge.ts`, `parse.ts`). The ten lists of a document are one family over `Kind`, and
what is done to each of them alike is said once.

* `mergeDocuments_eq_ok`: a merge is the lists one after the other, if no name occurs twice.
-/

namespace Tunnet.Engine

open List

structure TagDefinition where
  name : String
  owners : List String

structure HostAlias where
  name : String
  target : String

structure IpSet where
  name : String
  cidrs : List String

structure AclRule where
  name : String
  slug : Option String
  action : String
  src : List String
  dst : List String
  ports : List String
  protocol : Option String
  priority : Int
  orderIndex : Int
  scope : Option String
  posture : List String
  labels : Map String String
  enabled : Bool

/-- The slug of the rule, or its name. -/
def AclRule.key (a : AclRule) : String := a.slug.getD a.name

structure Grant where
  name : String
  principals : List String
  capability : String
  ports : List String
  protocol : Option String

structure SshRule where
  name : String
  src : List String
  dst : List String
  action : String
  users : List String
  priority : Int
  enabled : Bool

structure PostureDefinition where
  name : String
  assertions : List String

structure AutoApprover where
  name : String
  route : String
  principals : List String

structure NodeAttribute where
  name : String
  value : String
  selectors : List String

structure PolicyTest where
  name : String
  src : String
  accept : List String
  deny : List String

/-- What a document lists. -/
inductive Kind
  | tag
  | hostAlias
  | ipSet
  | acl
  | grant
  | sshRule
  | posture
  | autoApprover
  | nodeAttribute
  | test
deriving DecidableEq

namespace Kind

/-- The name of the kind in errors and changes. -/
def entity : Kind → String
  | tag => "tag"
  | hostAlias => "host_alias"
  | ipSet => "ip_set"
  | acl => "acl"
  | grant => "grant"
  | sshRule => "ssh_rule"
  | posture => "posture"
  | autoApprover => "auto_approver"
  | nodeAttribute => "node_attribute"
  | test => "test"

/-- In the order in which the lists are gone through. -/
def all : List Kind :=
  [tag, hostAlias, ipSet, acl, grant, sshRule, posture, autoApprover, nodeAttribute, test]

theorem mem_all (k : Kind) : k ∈ all := by
  cases k <;> decide

end Kind

def Entity : Kind → Type
  | .tag => TagDefinition
  | .hostAlias => HostAlias
  | .ipSet => IpSet
  | .acl => AclRule
  | .grant => Grant
  | .sshRule => SshRule
  | .posture => PostureDefinition
  | .autoApprover => AutoApprover
  | .nodeAttribute => NodeAttribute
  | .test => PolicyTest

/-- The name an entity is known by. -/
def nameOf : (k : Kind) → Entity k → String
  | .tag => TagDefinition.name
  | .hostAlias => HostAlias.name
  | .ipSet => IpSet.name
  | .acl => AclRule.key
  | .grant => Grant.name
  | .sshRule => SshRule.name
  | .posture => PostureDefinition.name
  | .autoApprover => AutoApprover.name
  | .nodeAttribute => NodeAttribute.name
  | .test => PolicyTest.name

/-- The lists of a document. -/
abbrev Entities := (k : Kind) → List (Entity k)

@[ext]
structure PolicyDocument where
  entities : Entities
  defaultAction : Option String
  icmpPolicy : Option String

/-- `PolicyDocument::default`. -/
def PolicyDocument.default : PolicyDocument := ⟨fun _ => [], none, none⟩

/-- No name occurs twice in a list. -/
def DistinctNames (es : Entities) : Prop := ∀ k, ((es k).map (nameOf k)).Nodup

/-! ### Merging lists -/

structure MergeConflict where
  entity : String
  name : String

def mergeVec (k : Kind) : List (Entity k) → List (Entity k) →
    Except MergeConflict (List (Entity k))
  | dest, [] => .ok dest
  | dest, item :: src =>
    if dest.any (nameOf k · == nameOf k item) then .error ⟨k.entity, nameOf k item⟩
    else mergeVec k (dest ++ [item]) src

/-- The lists of some kinds are merged, one kind after the other. -/
def mergeEntities (doc : Entities) : List Kind → Entities → Except MergeConflict Entities
  | [], out => .ok out
  | k :: ks, out =>
    match mergeVec k (out k) (doc k) with
    | .error e => .error e
    | .ok merged => mergeEntities doc ks (Function.update out k merged)

theorem mergeVec_eq_ok {k : Kind} {dest src out : List (Entity k)}
    (hdest : (dest.map (nameOf k)).Nodup) :
    mergeVec k dest src = .ok out ↔ ((dest ++ src).map (nameOf k)).Nodup ∧ dest ++ src = out := by
  induction src generalizing dest with
  | nil =>
    rw [mergeVec, append_nil, Except.ok.injEq]
    exact ⟨fun h => ⟨hdest, h⟩, And.right⟩
  | cons item src ih =>
    rw [mergeVec]
    have hsplit : dest ++ item :: src = dest ++ [item] ++ src := by simp
    split_ifs with hany
    · have hdup : ¬ ((dest ++ item :: src).map (nameOf k)).Nodup := by
        obtain ⟨e, he, hname⟩ := any_eq_true.1 hany
        rw [map_append, nodup_append]
        rintro ⟨-, -, hne⟩
        exact hne _ (mem_map_of_mem he) _ mem_cons_self (beq_iff_eq.1 hname)
      exact ⟨nofun, fun h => absurd h.1 hdup⟩
    · rw [hsplit]
      refine ih ?_
      rw [map_append, nodup_append]
      refine ⟨hdest, nodup_singleton _, fun x hx y hy hxy => hany ?_⟩
      obtain ⟨e, he, rfl⟩ := mem_map.1 hx
      obtain rfl := mem_singleton.1 hy
      exact any_eq_true.2 ⟨e, he, beq_iff_eq.2 hxy⟩

theorem mergeEntities_eq_ok {doc out merged : Entities} (hout : DistinctNames out) :
    mergeEntities doc Kind.all out = .ok merged ↔
      DistinctNames (fun k => out k ++ doc k) ∧ (fun k => out k ++ doc k) = merged := by
  -- The kinds do not touch each other, so what is left to merge is still as it was.
  have hloop : ∀ ks o, ks.Nodup → (∀ k ∈ ks, o k = out k) →
      (mergeEntities doc ks o = .ok merged ↔
        (∀ k ∈ ks, ((out k ++ doc k).map (nameOf k)).Nodup) ∧
          (fun k => if k ∈ ks then out k ++ doc k else o k) = merged) := by
    intro ks
    induction ks with
    | nil => intro o _ _; simp [mergeEntities]
    | cons k ks ih =>
      intro o hks hsame
      obtain ⟨hk, hks⟩ := nodup_cons.1 hks
      rw [mergeEntities, hsame k mem_cons_self, forall_mem_cons, and_assoc]
      cases hmerge : mergeVec k (out k) (doc k) with
      | error =>
        refine ⟨nofun, fun h => ?_⟩
        rw [(mergeVec_eq_ok (hout k)).2 ⟨h.1, rfl⟩] at hmerge
        cases hmerge
      | ok =>
        obtain ⟨hnodup, rfl⟩ := (mergeVec_eq_ok (hout k)).1 hmerge
        have hrest : ∀ k' ∈ ks, Function.update o k (out k ++ doc k) k' = out k' := by
          intro k' hk'
          have hne : k' ≠ k := by
            rintro rfl
            exact hk hk'
          rw [Function.update_of_ne hne]
          exact hsame k' (mem_cons_of_mem _ hk')
        refine (ih _ hks hrest).trans ((and_iff_right hnodup).trans ?_).symm
        refine and_congr_right fun _ => ?_
        refine Eq.congr_left (funext fun k' => ?_)
        by_cases h : k' = k
        · subst h
          simp [hk]
        · simp [h]
  refine (hloop Kind.all out (by decide) fun _ _ => rfl).trans ?_
  simp only [Kind.mem_all, forall_const]
  rfl

/-! ### Merging in Rust -/

def mergeDocuments (docs : List PolicyDocument) : Except MergeConflict PolicyDocument :=
  docs.foldlM (fun out doc => do
    let entities ← mergeEntities doc.entities Kind.all out.entities
    return { out with entities }) .default

/-- The lists of the documents one after the other. -/
def joined (docs : List PolicyDocument) : Entities := fun k => docs.flatMap (·.entities k)

theorem mergeDocuments_eq_ok {docs : List PolicyDocument} {out : PolicyDocument} :
    mergeDocuments docs = .ok out ↔ DistinctNames (joined docs) ∧
      ⟨joined docs, none, none⟩ = out := by
  have hloop : ∀ docs (es : Entities), DistinctNames es →
      (docs.foldlM (fun out doc => do
          let entities ← mergeEntities doc.entities Kind.all out.entities
          return { out with entities }) (⟨es, none, none⟩ : PolicyDocument) = .ok out ↔
        DistinctNames (fun k => es k ++ joined docs k) ∧
          ⟨fun k => es k ++ joined docs k, none, none⟩ = out) := by
    intro docs
    induction docs with
    | nil =>
      intro es hes
      simp only [joined, flatMap_nil, append_nil]
      exact ⟨fun h => ⟨hes, Except.ok.inj h⟩, fun h => congrArg _ h.2⟩
    | cons doc docs ih =>
      intro es hes
      have hjoin : (fun k => es k ++ joined (doc :: docs) k) =
          fun k => (es k ++ doc.entities k) ++ joined docs k :=
        funext fun k => (append_assoc ..).symm
      rw [foldlM_cons, hjoin]
      cases hmerge : mergeEntities doc.entities Kind.all es with
      | error =>
        refine ⟨nofun, fun h => ?_⟩
        have hdistinct : DistinctNames fun k => es k ++ doc.entities k := by
          intro k
          have hk := h.1 k
          rw [map_append] at hk
          exact hk.of_append_left
        rw [(mergeEntities_eq_ok hes).2 ⟨hdistinct, rfl⟩] at hmerge
        cases hmerge
      | ok =>
        obtain ⟨hdistinct, rfl⟩ := (mergeEntities_eq_ok hes).1 hmerge
        exact ih _ hdistinct
  exact hloop docs (fun _ => []) fun _ => nodup_nil

/-- Some documents in the middle may be merged first. -/
theorem mergeDocuments_bind (before docs after : List PolicyDocument) {out : PolicyDocument} :
    (mergeDocuments docs >>= fun d => mergeDocuments (before ++ d :: after)) = .ok out ↔
      mergeDocuments (before ++ docs ++ after) = .ok out := by
  have hjoin (a) (b) : joined (before ++ ⟨joined docs, a, b⟩ :: after) =
      joined (before ++ docs ++ after) := by
    funext k
    simp [joined]
  cases hmerge : mergeDocuments docs with
  | error =>
    refine ⟨nofun, fun h => ?_⟩
    have hdistinct : DistinctNames (joined docs) := by
      intro k
      have hk := (mergeDocuments_eq_ok.1 h).1 k
      rw [joined, flatMap_append, flatMap_append, map_append, map_append] at hk
      exact hk.of_append_left.of_append_right
    rw [mergeDocuments_eq_ok.2 ⟨hdistinct, rfl⟩] at hmerge
    cases hmerge
  | ok =>
    obtain ⟨-, rfl⟩ := mergeDocuments_eq_ok.1 hmerge
    refine mergeDocuments_eq_ok.trans ?_
    rw [hjoin, mergeDocuments_eq_ok]

/-- Merging keeps all of a document but its two settings, and is associative. It joins the lists of
the documents, and no later one has an entity of a name that is in the result. -/
theorem mergeDocuments_lossless_iff (d : PolicyDocument) : (DistinctNames d.entities →
      (mergeDocuments [d] = .ok d ↔ d.defaultAction = none ∧ d.icmpPolicy = none)) ∧
    (∀ a b c out, (mergeDocuments [a, b] >>= fun ab => mergeDocuments [ab, c]) = .ok out ↔
      (mergeDocuments [b, c] >>= fun bc => mergeDocuments [a, bc]) = .ok out) ∧
    ∀ docs out, mergeDocuments docs = .ok out → out.entities = joined docs ∧
      ∀ k, ∀ e ∈ out.entities k, ∃ before d after, docs = before ++ d :: after ∧ e ∈ d.entities k ∧
        ∀ d' ∈ after, ∀ e' ∈ d'.entities k, nameOf k e' ≠ nameOf k e := by
  refine ⟨fun hd => ?_, fun a b c out => ?_, fun docs out h => ?_⟩
  · have hjoin : joined [d] = d.entities := funext fun k => append_nil _
    rw [mergeDocuments_eq_ok, hjoin, and_iff_right hd, PolicyDocument.ext_iff]
    exact ⟨fun h => ⟨h.2.1.symm, h.2.2.symm⟩, fun h => ⟨rfl, h.1.symm, h.2.symm⟩⟩
  · exact (mergeDocuments_bind [] [a, b] [c]).trans (mergeDocuments_bind [a] [b, c] []).symm
  · obtain ⟨hnodup, rfl⟩ := mergeDocuments_eq_ok.1 h
    refine ⟨rfl, fun k e he => ?_⟩
    obtain ⟨d, hd, hed⟩ := mem_flatMap.1 he
    obtain ⟨before, after, rfl⟩ := append_of_mem hd
    refine ⟨before, d, after, rfl, hed, fun d' hd' e' he' hname => ?_⟩
    have hk := hnodup k
    rw [joined, flatMap_append, flatMap_cons, map_append, map_append] at hk
    have hrest := (nodup_append.1 (nodup_append.1 hk).2.1).2.2
    exact hrest _ (mem_map_of_mem hed) _ (mem_map_of_mem (mem_flatMap.2 ⟨d', hd', he'⟩)) hname.symm

namespace Demo

/-- A document that only sets the default. -/
def denying : PolicyDocument := ⟨fun _ => [], some "deny", none⟩

theorem default_deny_lost : DistinctNames denying.entities ∧
    mergeDocuments [denying] ≠ .ok denying :=
  ⟨fun _ => nodup_nil, fun h => nomatch congrArg PolicyDocument.defaultAction (Except.ok.inj h)⟩

end Demo

/-! ### Merging in TypeScript -/

namespace Ts

open Policy

/-- What a source file sets, in the shape that the schema asks for. -/
structure SourceFile where
  entities : Entities
  defaultAction : Option DefaultAction
  icmpPolicy : Option IcmpPolicy

/-- The document the schema makes of a file. -/
structure Document where
  entities : Entities
  defaultAction : DefaultAction
  icmpPolicy : IcmpPolicy

/-- `policyDocumentSchema.parse` fills in the defaults. -/
def policyDocumentSchema (file : SourceFile) : Document :=
  ⟨file.entities, file.defaultAction.getD .allow, file.icmpPolicy.getD .allow⟩

def emptyDocument : Document := policyDocumentSchema ⟨fun _ => [], none, none⟩

inductive DocumentFormat
  | json
  | yaml
  | hcl

structure PolicyDocumentInput where
  format : DocumentFormat
  content : String

/-- Why documents are not loaded. -/
inductive LoadError
  | invalid (message : String)
  | conflict (c : MergeConflict)

/-- Reading a text of some format, up to the defaults. -/
structure Readers where
  json : String → Except LoadError SourceFile
  yaml : String → Except LoadError SourceFile

variable (r : Readers)

/-- What a file sets. -/
def Readers.read (doc : PolicyDocumentInput) : Except LoadError SourceFile :=
  match doc.format with
  | .json => r.json doc.content
  | .yaml => r.yaml doc.content
  | .hcl =>
    .error (.invalid "HCL parsing is not supported in @tunnet/policy-engine; use JSON or YAML")

def parseDocument (doc : PolicyDocumentInput) : Except LoadError Document :=
  policyDocumentSchema <$> r.read doc

/-- A document always has both settings. -/
def mergeInto (out doc : Document) : Except LoadError Document :=
  match mergeEntities doc.entities Kind.all out.entities with
  | .error c => .error (.conflict c)
  | .ok entities => .ok { doc with entities }

def mergeDocuments (docs : List Document) : Except LoadError Document :=
  docs.foldlM mergeInto emptyDocument

def parsePolicyDocuments (documents : List PolicyDocumentInput) : Except LoadError Document := do
  let parsed ← documents.mapM (parseDocument r)
  mergeDocuments parsed

theorem mapM_parseDocument (documents : List PolicyDocumentInput) :
    documents.mapM (parseDocument r) = map policyDocumentSchema <$> documents.mapM r.read := by
  induction documents with
  | nil => rfl
  | cons doc documents ih =>
    rw [mapM_cons, mapM_cons, ih, parseDocument]
    simp only [map_eq_pure_bind, bind_assoc, pure_bind, map_cons]

/-- The settings of the last document win. -/
theorem settings_of_last {docs : List Document} {d out : Document}
    (h : mergeDocuments (docs ++ [d]) = .ok out) :
    out.defaultAction = d.defaultAction ∧ out.icmpPolicy = d.icmpPolicy := by
  rw [mergeDocuments, foldlM_append] at h
  cases hdocs : docs.foldlM mergeInto emptyDocument with
  | error =>
    rw [hdocs] at h
    cases h
  | ok s =>
    rw [hdocs] at h
    have hlast : (mergeInto s d >>= pure) = .ok out := h
    rw [mergeInto] at hlast
    split at hlast
    · cases hlast
    · cases hlast
      exact ⟨rfl, rfl⟩

/-- A default deny survives if the last file sets it, and a setting that one file makes if this is
the last file or if it is what the schema fills in. -/
theorem default_deny_survives_iff {documents : List PolicyDocumentInput} {files : List SourceFile}
    {out : Document} (hread : documents.mapM r.read = .ok files)
    (hout : parsePolicyDocuments r documents = .ok out) :
    ((∃ f ∈ files, f.defaultAction = some .deny) → (∀ f ∈ files, f.defaultAction ≠ some .allow) →
      (out.defaultAction = .deny ↔ ∃ f, files.getLast? = some f ∧ f.defaultAction = some .deny)) ∧
    ∀ before f after v, files = before ++ f :: after → f.icmpPolicy = some v →
      (∀ g ∈ before ++ after, g.icmpPolicy = none) →
        (out.icmpPolicy = v ↔ v = .allow ∨ after = []) := by
  have hmerge : mergeDocuments (files.map policyDocumentSchema) = .ok out := by
    rw [parsePolicyDocuments, mapM_parseDocument, hread] at hout
    exact hout
  cases files using reverseRecOn with
  | nil => exact ⟨fun h => by simp at h, fun before f after v h => by simp at h⟩
  | append_singleton init last =>
    rw [map_append] at hmerge
    obtain ⟨haction, hicmp⟩ := settings_of_last hmerge
    constructor
    · rw [haction]
      cases hset : last.defaultAction with
      | none | some action => simp [policyDocumentSchema, hset]
    · intro before f after v hfiles hv hnone
      rw [hicmp]
      cases after using reverseRecOn with
      | nil =>
        obtain ⟨-, hlast⟩ := append_inj' hfiles rfl
        obtain rfl := (cons.inj hlast).1
        simp [policyDocumentSchema, hv]
      | append_singleton =>
        rw [← cons_append, ← append_assoc] at hfiles
        obtain ⟨-, hlast⟩ := append_inj' hfiles rfl
        obtain rfl := (cons.inj hlast).1
        have hunset : (policyDocumentSchema last).icmpPolicy = .allow := by
          rw [policyDocumentSchema, hnone last (by simp)]
          rfl
        rw [hunset, or_iff_left (append_ne_nil_of_right_ne_nil _ (cons_ne_nil _ _))]
        exact eq_comm

namespace Demo

/-- A file that sets the default to deny, and an empty one. -/
def readers : Readers where
  json content := .ok ⟨fun _ => [], if content = "deny" then some .deny else none, none⟩
  yaml _ := .error (.invalid "")

def denyFile : PolicyDocumentInput := ⟨.json, "deny"⟩

def emptyFile : PolicyDocumentInput := ⟨.json, ""⟩

/-- An empty file after the one that denies fills in the schema's default. -/
theorem default_deny_undone : (readers.read denyFile).map (·.defaultAction) = .ok (some .deny) ∧
    (readers.read emptyFile).map (·.defaultAction) = .ok none ∧
    (parsePolicyDocuments readers [denyFile, emptyFile]).map (·.defaultAction) = .ok .allow :=
  ⟨rfl, rfl, rfl⟩

theorem default_deny_survives_iff_emptyFirst :
    ∃ out, parsePolicyDocuments readers [emptyFile, denyFile] = .ok out ∧
      out.defaultAction = .deny := by
  obtain ⟨out, hout⟩ : ∃ out, parsePolicyDocuments readers [emptyFile, denyFile] = .ok out :=
    ⟨_, rfl⟩
  refine ⟨out, hout, ((default_deny_survives_iff readers rfl hout).1 ?_ ?_).2 ?_⟩
  · exact ⟨_, mem_cons_of_mem _ (mem_singleton_self _), rfl⟩
  · simp
  · exact ⟨_, rfl, rfl⟩

end Demo

end Ts

end Tunnet.Engine

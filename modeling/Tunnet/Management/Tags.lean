import Tunnet.Util.Check
import Tunnet.Util.JsString
import Mathlib.Data.Finset.Basic

/-!
# Tags of devices

Who may assign a tag is told by its definition: its owners are users and other tags, whose owners
own it too.
-/

namespace Tunnet.Management

/-- `toLowerCase` of JavaScript, and what is expected of it. -/
structure LowerCase where
  toLowerCase : String → String
  ascii : ∀ s, (∀ c ∈ s.toList, c.toNat < 128 ∧ c.isUpper = false) → toLowerCase s = s

structure TagActor where
  organizationId : String
  userId : Option String
  email : Option String
  isOrgAdmin : Bool
  endpointId : Option String

structure TagDefinition where
  organizationId : String
  name : String
  owners : List String

structure TagTables where
  /-- The endpoints with their organizations. -/
  devices : List (String × String)
  tagDefinitions : List TagDefinition
  deviceTags : Finset (String × String)

def TagTables.definition (db : TagTables) (organizationId name : String) : Option TagDefinition :=
  db.tagDefinitions.find? fun d => d.organizationId == organizationId && d.name == name

section

variable (js : LowerCase) (db : TagTables) (actor : TagActor)

def normalizeTagName (name : String) : String :=
  let name := js.toLowerCase (JsString.trim name)
  (Str.stripPrefix "tag:" name).getD name

/-- One owner, with the parent tags that were visited; an empty text counts as absent. -/
def actorMatchesOwner (ofParent : List String → List String → Option (Bool × List String))
    (visited : List String) (owner : String) : Option (Bool × List String) :=
  if owner = "autogroup:admin" then some (actor.isOrgAdmin, visited)
  else match Str.stripPrefix "user:" owner, Str.stripPrefix "tag:" owner with
  | some identity, _ =>
    some (actor.userId.any (fun id => id != "" && identity == id) || actor.email.any (fun email =>
      email != "" && js.toLowerCase identity == js.toLowerCase email), visited)
  | none, none => some (false, visited)
  | none, some name =>
    let parentTag := normalizeTagName js name
    if visited.contains parentTag then some (false, visited)
    else if actor.endpointId.any fun e => e != "" && decide ((e, parentTag) ∈ db.deviceTags) then
      some (true, parentTag :: visited)
    else match db.definition actor.organizationId parentTag with
      | none => some (false, parentTag :: visited)
      | some parent => ofParent parent.owners (parentTag :: visited)

/-- The owners in turn, to a depth; `none` if the recursion goes deeper. -/
def actorMatchesOwners : ℕ → List String → List String → Option (Bool × List String)
  | 0, _, _ => none
  | depth + 1, owners, visited => owners.foldlM (fun (found, visited) owner =>
      if found then some (true, visited)
      else actorMatchesOwner js db actor (actorMatchesOwners depth) visited owner) (false, visited)

/-- `canAssignTag` for the name as it is. -/
def mayAssign (name : String) : Option Bool :=
  if actor.isOrgAdmin then some true
  else match db.definition actor.organizationId name with
  | none => some false
  | some d =>
    (actorMatchesOwners js db actor (db.tagDefinitions.length + 1) d.owners []).map (·.1)

def canAssignTag (tagName : String) : Option Bool :=
  mayAssign js db actor (normalizeTagName js tagName)

/-- `[...new Set(tagNames.map(normalizeTagName).filter(Boolean))]`. -/
def uniqueTags (tagNames : List String) : List String :=
  ((tagNames.map (normalizeTagName js)).filter (· ≠ "")).eraseDups

/-- The first tag that may not be assigned. -/
def assertCanAssignTags (tagNames : List String) : Option String :=
  (uniqueTags js tagNames).find? fun tag => canAssignTag js db actor tag != some true

def ensureTagDefinitionsExist (organizationId : String) (tagNames : List String) : List String :=
  (uniqueTags js tagNames).filter fun name => (db.definition organizationId name).isNone

variable (endpointId : String) (tags : List String)

/-- The rows of one device. -/
def tagRows : Finset (String × String) :=
  (tags.map (endpointId, ·)).toFinset

def applyDeviceTagChanges (add remove : List String) : TagTables :=
  let toAdd := uniqueTags js add
  let toRemove := uniqueTags js remove
  { db with deviceTags := db.deviceTags \ tagRows endpointId toRemove ∪ tagRows endpointId toAdd }

def replaceDeviceTags : TagTables :=
  let next := uniqueTags js tags
  { db with deviceTags := db.deviceTags.filter (·.1 ≠ endpointId) ∪ tagRows endpointId next }

/-! ### Requests -/

inductive TagRequest
  | patch (endpointId : String) (add remove : List String)
  | put (endpointId : String) (tags : List String)
  | bulk (endpointIds add remove : List String)

inductive TagError
  | invalidBody
  | notFound (message : String)
  | badRequest (message : String)
  | forbidden

/-- The characters of `tagNameSchema`; the first one is a letter or a digit. -/
def isTagChar (c : Char) : Bool := c.isLower || c.isDigit || c == '-' || c == '_'

def tagNameSchema (name : String) : Bool :=
  JsString.length name ≤ 64 && name.toList.all isTagChar &&
    name.toList.head?.any fun c => c.isLower || c.isDigit

/-- The tags that a request names. -/
def TagRequest.touched : TagRequest → List String
  | .patch _ add remove | .bulk _ add remove => add ++ remove
  | .put _ tags => tags

def TagRequest.parses : TagRequest → Bool
  | .bulk endpointIds add remove => (add ++ remove).all tagNameSchema &&
      0 < endpointIds.length && endpointIds.length ≤ 500 &&
      endpointIds.all (JsString.length · == 64)
  | request => request.touched.all tagNameSchema

def TagActor.hasDevice : Bool :=
  db.devices.contains (endpointId, actor.organizationId)

def TagRequest.known : TagRequest → Bool
  | .patch endpointId .. | .put endpointId _ => actor.hasDevice db endpointId
  | .bulk .. => true

/-- The change of the tags. -/
def TagRequest.apply : TagRequest → TagTables
  | .patch endpointId add remove => applyDeviceTagChanges js db endpointId add remove
  | .put endpointId tags => replaceDeviceTags js db endpointId tags
  | .bulk endpointIds add remove => endpointIds.foldl (fun db endpointId =>
      if actor.hasDevice db endpointId then applyDeviceTagChanges js db endpointId add remove
      else db) db

/-- The three handlers of `devices.ts`, which differ in what they look up and what they change. -/
def TagRequest.perform (request : TagRequest) : Except TagError TagTables := do
  Check.failIf (request.parses = false) .invalidBody
  Check.failIf (request.known db actor = false) (.notFound "Device not found")
  let missing := ensureTagDefinitionsExist js db actor.organizationId request.touched
  Check.failIf (missing ≠ [])
    (.badRequest ("Unknown tag definition(s): " ++ ", ".intercalate missing))
  Check.failIf (assertCanAssignTags js db actor request.touched ≠ none) .forbidden
  return request.apply js db actor

end

end Tunnet.Management

import Tunnet.Net.Ip
import Tunnet.Util.JsonText
import Tunnet.Util.Map
import Tunnet.Util.Table

/-!
# Posture attributes

The attributes of a device are rows of one table, which agents (by reports), the control plane, the
management API and integrations write, each row with the name of its last writer. An agent's report
ends with loading the device's attributes, for the evaluation of its postures.
-/

namespace Tunnet.Control

abbrev Json := JsonValue ℚ

inductive AttributeSource
  | agent
  | control
  | api
  | integration
deriving DecidableEq

/-- A row of `posture_attributes`. -/
structure Attribute where
  endpointId : String
  organizationId : String
  ns : String
  key : String
  value : Json
  collectedAt : Timestamp
  expiresAt : Option Timestamp
  source : AttributeSource

inductive PostureValue
  | string (s : String)
  | number (x : ℚ)
  | bool (b : Bool)
  | stringList (xs : List String)
deriving DecidableEq

/-- `serde_json::from_value`. -/
def PostureValue.ofJson : Json → Option PostureValue
  | .string s => some (.string s)
  | .number x => some (.number x)
  | .bool b => some (.bool b)
  | .array xs => (xs.mapM JsonValue.asString).map .stringList
  | _ => none

def splitAttributeKey (attrKey : String) : String × String :=
  (Str.splitOnce ':' attrKey).getD ("custom", attrKey)

namespace Attribute

/-- The unique columns. -/
def id (a : Attribute) : String × String × String := (a.endpointId, a.ns, a.key)

/-- The name under which an attribute is evaluated. -/
def name (a : Attribute) : String := if a.ns = "" then a.key else a.ns ++ ":" ++ a.key

/-- The values that a conflicting row takes over; all writers but the API leave the expiry. -/
def takeOver (a old : Attribute) : Attribute :=
  { old with value := a.value, collectedAt := a.collectedAt, source := a.source }

end Attribute

structure Device where
  endpointId : String
  organizationId : String
  publicIp : Option String

structure PostureDb where
  devices : List Device
  attributes : List Attribute
  now : Timestamp

/-! ### A report -/

/-- The statements of a report that change the table. -/
inductive ReportStatement
  | deleteAgent (endpointId : String)
  | upsert (a : Attribute)

namespace PostureDb

def initial : PostureDb := ⟨[], [], 0⟩

def device (db : PostureDb) (endpointId : String) : Option Device :=
  db.devices.find? (·.endpointId == endpointId)

/-- `INSERT … ON CONFLICT (endpoint_id, namespace, key) DO UPDATE`. -/
def upsert (db : PostureDb) (a : Attribute) : PostureDb :=
  { db with attributes := Table.upsert Attribute.id a.takeOver a db.attributes }

def execute (db : PostureDb) : ReportStatement → PostureDb
  | .deleteAgent endpointId =>
    { db with
      attributes := db.attributes.filter fun a =>
        !(a.endpointId == endpointId && a.source == .agent) }
  | .upsert a => db.upsert a

end PostureDb

/-- What an agent reports. -/
structure PostureReport where
  endpointId : String
  full : Bool
  /-- In the order in which the map is gone through. -/
  attributes : List (String × Json)
  collectedAt : Timestamp

/-- The row for a reported attribute. -/
def PostureReport.row (r : PostureReport) (organizationId : String) (attr : String × Json) :
    Attribute :=
  let (ns, key) := splitAttributeKey attr.1
  ⟨r.endpointId, organizationId, ns, key, attr.2, r.collectedAt, none, .agent⟩

/-- The statements for what the agent has reported. -/
def PostureReport.agentStatements (r : PostureReport) (organizationId : String) :
    List ReportStatement :=
  (if r.full then [.deleteAgent r.endpointId] else []) ++
    r.attributes.map fun attr => .upsert (r.row organizationId attr)

/-- The control plane's row for the public address of a device. -/
def Device.address (d : Device) (now : Timestamp) (ip : String) : Attribute :=
  ⟨d.endpointId, d.organizationId, "ip", "address", .string ip, now, none, .control⟩

def Device.controlStatements (d : Device) (now : Timestamp) : List ReportStatement :=
  match d.publicIp.filter (· ≠ "") with
  | some ip => [.upsert (d.address now ip)]
  | none => []

/-- The map that is evaluated, from the rows in the order in which they are returned. -/
def loadDeviceAttributes (rows : List Attribute) (endpointId : String) : Map String PostureValue :=
  (rows.filter (·.endpointId == endpointId)).foldl (fun out a =>
    match PostureValue.ofJson a.value with
    | some parsed => out.insert a.name parsed
    | none => out) ∅

/-- What the database does in a report: how many statements succeed, and the order of rows. -/
structure ReportAnswers where
  succeeding : Nat
  order : List Attribute → List Attribute

/-- A statement that fails ends the report; otherwise its postures are evaluated at the end. -/
def PostureDb.handlePostureReport (db : PostureDb) (r : PostureReport) (ans : ReportAnswers) :
    PostureDb × Option (Map String PostureValue) :=
  match db.device r.endpointId with
  | none => (db, none)
  | some d =>
    let statements := r.agentStatements d.organizationId ++ d.controlStatements db.now
    let db' := (statements.take ans.succeeding).foldl PostureDb.execute db
    (db', if statements.length < ans.succeeding then
        some (loadDeviceAttributes (ans.order db'.attributes) r.endpointId)
      else none)

/-! ### The management API and integrations -/

namespace PostureDb

def deviceInOrg (db : PostureDb) (endpointId organizationId : String) : Bool :=
  db.devices.any fun d => d.endpointId == endpointId && d.organizationId == organizationId

variable (db : PostureDb) (organizationId endpointId key : String) (value : PostureValue)
  (expiresIn : Option Nat)

/-- `PATCH …/posture/custom/:key`, with an expiry in seconds. -/
def patchCustom : PostureDb :=
  if db.deviceInOrg endpointId organizationId then
    let json : Json := match value with
      | .string s => .string s
      | .number x => .number x
      | .bool b => .bool b
      | .stringList xs => .array (xs.map .string)
    let expiresAt := expiresIn.map fun secs => db.now + secs * 1000000000
    let a : Attribute := ⟨endpointId, organizationId, "custom", key, json, db.now, expiresAt, .api⟩
    { db with
      attributes := Table.upsert Attribute.id
        (fun old => { a.takeOver old with expiresAt := expiresAt })
        a db.attributes }
  else db

/-- `DELETE …/posture/custom/:key`. -/
def deleteCustom : PostureDb :=
  if db.deviceInOrg endpointId organizationId then
    { db with
      attributes := db.attributes.filter fun a =>
        !(a.endpointId == endpointId && a.organizationId == organizationId && a.ns == "custom" &&
          a.key == key) }
  else db

end PostureDb

/-- What a sync writes for a device; `iso` is the time as a text. -/
def syncAttributes (provider iso : String) : List (String × Json) :=
  [("lastSyncedAt", .string iso), ("provider", .string provider), ("syncOk", .bool true)] ++
    (if provider = "crowdstrike" then [("ztaScore", .number 100)]
    else if provider = "sentinelone" then [("threatStatus", .string "none")]
    else if provider = "intune" then [("complianceState", .string "compliant")]
    else [])

variable (db : PostureDb) (organizationId provider iso : String)

/-- The rows of a sync. -/
def PostureDb.syncRows : List Attribute :=
  (db.devices.filter (·.organizationId == organizationId)).flatMap fun d =>
    (syncAttributes provider iso).map fun attr =>
      ⟨d.endpointId, organizationId, "integration", provider ++ ":" ++ attr.1, attr.2, db.now, none,
        .integration⟩

def PostureDb.sync : PostureDb :=
  (db.syncRows organizationId provider iso).foldl PostureDb.upsert db

/-! ### Steps -/

inductive PostureEvent
  | enroll (d : Device)
  | removeDevice (endpointId : String)
  | setPublicIp (endpointId : String) (ip : Option String)
  /-- Time passes. -/
  | tick (elapsed : Nat)
  | report (r : PostureReport) (ans : ReportAnswers)
  | patchCustom (organizationId endpointId key : String) (value : PostureValue)
      (expiresIn : Option Nat)
  | deleteCustom (organizationId endpointId key : String)
  | sync (organizationId provider iso : String)
  /-- The attributes are loaded for the admin API. -/
  | load (endpointId : String) (order : List Attribute → List Attribute)

namespace PostureDb

/-- One step, with the attributes that were loaded. -/
def step (db : PostureDb) : PostureEvent → PostureDb × Option (Map String PostureValue)
  | .enroll d => (if (db.device d.endpointId).isSome then db else
      { db with devices := db.devices ++ [d] }, none)
  | .removeDevice endpointId =>
    ({ db with
        devices := db.devices.filter (·.endpointId != endpointId)
        attributes := db.attributes.filter (·.endpointId != endpointId) }, none)
  | .setPublicIp endpointId ip =>
    ({ db with
        devices := db.devices.map fun d =>
          if d.endpointId = endpointId then { d with publicIp := ip } else d }, none)
  | .tick elapsed => ({ db with now := db.now + elapsed }, none)
  | .report r ans => db.handlePostureReport r ans
  | .patchCustom organizationId endpointId key value expiresIn =>
    (db.patchCustom organizationId endpointId key value expiresIn, none)
  | .deleteCustom organizationId endpointId key =>
    (db.deleteCustom organizationId endpointId key, none)
  | .sync organizationId provider iso => (db.sync organizationId provider iso, none)
  | .load endpointId order => (db, some (loadDeviceAttributes (order db.attributes) endpointId))

end PostureDb

end Tunnet.Control

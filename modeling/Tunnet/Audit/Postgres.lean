import Tunnet.Audit.Verify
import Tunnet.Util.Run

/-!
# The table of audit events

`flushOrgBatch` continues the chain of an organization with a batch of events and stores them in one
transaction. A row is kept with its columns as the check of the chain reads them. The management
service deletes the events of an organization that are older than its plan keeps them.
-/

namespace Tunnet.Audit

universe u

/-- What the database makes of the values that it does not keep as they are. -/
structure Postgres (ν : Type u) where
  /-- `host(s::inet)`; nothing if `s` is not the text of an address. -/
  host : String → Option String
  bar_not_mem_address : ∀ {s t : String}, host s = some t → '|' ∉ s.toList
  bar_not_mem_host : ∀ {s t : String}, host s = some t → '|' ∉ t.toList
  /-- A value as it is read from a `jsonb` column; nothing if it cannot be stored. -/
  jsonb : JsonValue ν → Option (JsonValue ν)

/-- A row of `audit_events`. -/
structure StoredRow (ν : Type u) where
  organizationId : String
  columns : AuditVerifyRow ν

/-- The table `audit_events`. -/
abbrev AuditTable (ν : Type u) := List (StoredRow ν)

/-- A batch of one organization, which is what `flush_org_batch` is called with. -/
structure OrgBatch (ν : Type u) where
  organizationId : String
  events : List (AuditEvent ν)
  single : ∀ event ∈ events, event.organizationId = organizationId

variable {ν : Type u}

namespace AuditTable

variable (table : AuditTable ν) (organizationId : String)

/-- The rows of an organization. -/
def rowsOf : List (AuditVerifyRow ν) :=
  (table.filter (·.organizationId == organizationId)).map (·.columns)

/-- The query of `verify_org_chain`. -/
def selectRows : List (AuditVerifyRow ν) :=
  (rowsOf table organizationId).insertionSort fun a b => a.sequenceNumber ≤ b.sequenceNumber

/-- The query of `flush_org_batch` for the end of the chain: a row with the highest number. -/
def selectLast : Option (Int × String) :=
  (selectRows table organizationId).getLast?.map fun row => (row.sequenceNumber, row.entryHash)

end AuditTable

/-- `$15::inet` of the address, if it is not empty. -/
def Postgres.castIp (db : Postgres ν) (ipAddress : Option String) : Option (Option String) :=
  match ipAddress.filter (· ≠ "") with
  | none => some none
  | some s => (db.host s).map some

/-- The row of an event. -/
def AuditEvent.stored (event : AuditEvent ν) (actorIp : Option String) (metadata : JsonValue ν) :
    StoredRow ν where
  organizationId := event.organizationId
  columns := {
    sequenceNumber := event.sequenceNumber.getD 0
    categoryUid := event.categoryUid.toInt16
    classUid := event.classUid.toInt16
    activityId := asI16 event.activityId
    typeUid := event.typeUid.toInt32
    severityId := asI16 event.severityId
    statusId := asI16 event.statusId
    timeMicros := Timestamp.asMicrosecond event.time.1
    message := event.message
    actorType := event.actor.actorType
    actorId := event.actor.actorId
    actorIp := actorIp
    targetType := event.target.targetType
    targetId := event.target.targetId
    networkId := event.networkId.bind Uuid.parseStr
    groupId := event.groupId
    metadata := metadata
    traceId := event.traceId
    prevEntryHash := event.prevEntryHash.getD ""
    entryHash := event.entryHash.getD ""
    hmacSchemaVersion := asI16 event.hmacSchemaVersion }

/-- `INSERT INTO audit_events`; nothing if the statement fails. -/
def Postgres.insert (db : Postgres ν) (event : AuditEvent ν) : Option (StoredRow ν) :=
  (db.castIp event.actor.ipAddress).bind fun actorIp =>
    (db.jsonb event.metadata).map fun metadata => event.stored actorIp metadata

/-- `flush_org_batch`: if a statement fails, nothing is stored. -/
def flushOrgBatch (lib : Crates ν) (db : Postgres ν) (hmacKey : List UInt8) (table : AuditTable ν)
    (batch : OrgBatch ν) : Option (AuditTable ν) :=
  if batch.events.isEmpty then some table
  else
    let last := (table.selectLast batch.organizationId).getD (0, genesisHash)
    ((lib.chainEvents hmacKey batch.events last.1 last.2).mapM db.insert).map (table ++ ·)

/-- Batches that are stored one after the other. -/
def flushOrgBatches (lib : Crates ν) (db : Postgres ν) (hmacKey : List UInt8)
    (table : AuditTable ν) (batches : List (OrgBatch ν)) : Option (AuditTable ν) :=
  batches.foldlM (flushOrgBatch lib db hmacKey) table

/-! ### Deleting old events -/

/-- `auditRetentionCutoff`, in milliseconds, for the hours of the plan. -/
def auditRetentionCutoff (auditRetentionHours : Option Nat) (now : Int) : Option Int :=
  auditRetentionHours.map fun hours => now - hours * 60 * 60 * 1000

/-- The row is deleted for being older than `cutoff`. -/
def StoredRow.isBefore (row : StoredRow ν) (organizationId : String) (cutoff : Int) : Bool :=
  row.organizationId == organizationId && decide (row.columns.timeMicros < cutoff * 1000)

/-- The body of the loop of `pruneAuditEventsBeyondRetention`; the number counts deleted rows. -/
def pruneOrg (now : Int) (acc : AuditTable ν × Nat) (org : String × Option Nat) :
    AuditTable ν × Nat :=
  match auditRetentionCutoff org.2 now with
  | none => acc
  | some cutoff =>
    (acc.1.filter fun row => !row.isBefore org.1 cutoff,
      acc.2 + acc.1.countP fun row => row.isBefore org.1 cutoff)

/-- `pruneAuditEventsBeyondRetention`, for the organizations that are not deleted, with the hours of
their plans. -/
def pruneAuditEventsBeyondRetention (cloudBillingEnabled : Bool)
    (orgs : List (String × Option Nat)) (now : Int) (table : AuditTable ν) : AuditTable ν × Nat :=
  if !cloudBillingEnabled then (table, 0) else orgs.foldl (pruneOrg now) (table, 0)

/-! ### The log -/

/-- The table, and the organization and number of every row that was ever inserted. -/
structure AuditLog (ν : Type u) where
  table : AuditTable ν := []
  inserted : List (String × Int) := []

inductive AuditCall (ν : Type u)
  | flush (batch : OrgBatch ν)
  /-- A run of the loop over all organizations, or over some of them. -/
  | prune (cloudBillingEnabled : Bool) (orgs : List (String × Option Nat)) (now : Int)

inductive AuditReply
  | stored
  | failed
  | pruned (deleted : Nat)

/-- The organization and number of a row. -/
def StoredRow.key (row : StoredRow ν) : String × Int :=
  (row.organizationId, row.columns.sequenceNumber)

def AuditLog.step (lib : Crates ν) (db : Postgres ν) (hmacKey : List UInt8) (s : AuditLog ν) :
    AuditCall ν → AuditLog ν × AuditReply
  | .flush batch =>
    match flushOrgBatch lib db hmacKey s.table batch with
    | none => (s, .failed)
    | some table =>
      ({ table := table
         inserted := s.inserted ++ (table.drop s.table.length).map StoredRow.key }, .stored)
  | .prune cloudBillingEnabled orgs now =>
    let pruned := pruneAuditEventsBeyondRetention cloudBillingEnabled orgs now s.table
    ({ s with table := pruned.1 }, .pruned pruned.2)

/-- The numbers that the organization's events got. -/
def AuditLog.numbersOf (s : AuditLog ν) (organizationId : String) : List Int :=
  (s.inserted.filter (·.1 == organizationId)).map (·.2)

end Tunnet.Audit

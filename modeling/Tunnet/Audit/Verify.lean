import Tunnet.Net.Uuid
import Tunnet.Util.JsonText

/-!
# The audit hash chain

Events of an organization are numbered, and each is stored with a keyed tag over its canonical text,
in which the tag of the event before stands last. The text joins the fields with vertical bars.
-/

namespace Tunnet.Audit

universe u

/-- What the chain takes from elsewhere, for JSON with numbers in `ν`. -/
structure Crates (ν : Type u) where
  /-- The text of a JSON number. -/
  number : ν → List Char
  number_text : JsonValue.NumberText number
  /-- `Timestamp::to_string`. -/
  timestamp : Timestamp → String
  timestamp_inj : ∀ {t t' : Timestamp}, timestamp t = timestamp t' → t = t'
  bar_not_mem_timestamp : ∀ t : Timestamp, '|' ∉ (timestamp t).toList
  /-- The tag of a message under a key. -/
  hmac : List UInt8 → List UInt8 → List UInt8

/-! ### Events -/

structure Actor where
  actorType : String
  actorId : String
  ipAddress : Option String

structure Target where
  targetType : String
  targetId : String

structure AuditEvent (ν : Type u) where
  categoryUid : UInt16
  classUid : UInt16
  activityId : UInt8
  typeUid : UInt32
  severityId : UInt8
  statusId : UInt8
  time : RangedTimestamp
  message : String
  actor : Actor
  target : Target
  organizationId : String
  networkId : Option String
  groupId : Option String
  metadata : JsonValue ν
  traceId : Option String
  sequenceNumber : Option Int
  prevEntryHash : Option String
  entryHash : Option String
  hmacSchemaVersion : UInt8

/-! ### The chain -/

/-- `GENESIS_HASH`. -/
def genesisHash : String := "0000000000000000000000000000000000000000000000000000000000000000"

/-- `CURRENT_SCHEMA_VERSION`. -/
def currentSchemaVersion : UInt8 := 1

/-- The event, with its place in the chain and its time cut to the second. -/
def AuditEvent.placed {ν : Type u} (event : AuditEvent ν) (seq : Int) (prevHash : String) :
    AuditEvent ν :=
  { event with
    time := event.time.wholeSecond
    sequenceNumber := some seq
    prevEntryHash := some prevHash }

/-- The event, with its tag. -/
def AuditEvent.tagged {ν : Type u} (event : AuditEvent ν) (hash : String) : AuditEvent ν :=
  { event with
    entryHash := some hash
    hmacSchemaVersion := currentSchemaVersion }

/-- The value, with the fields of an object in the order of their keys. -/
def sortFields {ν : Type u} : JsonValue ν → JsonValue ν
  | .object fields => .object (fields.insertionSort fun a b => a.1 ≤ b.1)
  | other => other

namespace Crates

variable {ν : Type u} (lib : Crates ν)

/-- `canonical_json`. -/
def canonicalJson (value : JsonValue ν) : String :=
  String.ofList (JsonValue.text lib.number (sortFields value))

/-- `canonical_v1`. -/
def canonicalV1 (event : AuditEvent ν) (prevHash : String) : String :=
  "|".intercalate [
    "v1",
    toString (event.sequenceNumber.getD 0),
    event.organizationId,
    toString event.categoryUid.toNat,
    toString event.classUid.toNat,
    toString event.activityId.toNat,
    toString event.typeUid.toNat,
    toString event.severityId.toNat,
    toString event.statusId.toNat,
    lib.timestamp event.time.wholeSecond,
    event.message,
    event.actor.actorType,
    event.actor.actorId,
    event.actor.ipAddress.getD "",
    event.target.targetType,
    event.target.targetId,
    event.networkId.getD "",
    event.groupId.getD "",
    event.traceId.getD "",
    lib.canonicalJson event.metadata,
    prevHash]

/-- `compute_entry_hash`. -/
def computeEntryHash (hmacKey : List UInt8) (canonical : String) : String :=
  Hex.encode (lib.hmac hmacKey (Str.asBytes canonical))

/-- `chain_events`. -/
def chainEvents (hmacKey : List UInt8) : List (AuditEvent ν) → Int → String → List (AuditEvent ν)
  | [], _, _ => []
  | event :: events, seq, prevHash =>
    let seq := seq + 1
    let event := event.placed seq prevHash
    let hash := lib.computeEntryHash hmacKey (lib.canonicalV1 event prevHash)
    event.tagged hash :: chainEvents hmacKey events seq hash

end Crates

/-! ## The check of a chain

`verifyOrgChain` goes through the stored rows of an organization in the order of their numbers and
computes each tag again, from an event that is put together from the columns. -/

/-- `AuditVerifyRow`: the columns of a stored event that the check reads. -/
structure AuditVerifyRow (ν : Type u) where
  sequenceNumber : Int
  categoryUid : Int16
  classUid : Int16
  activityId : Int16
  typeUid : Int32
  severityId : Int16
  statusId : Int16
  timeMicros : Int
  message : String
  actorType : String
  actorId : String
  actorIp : Option String
  targetType : String
  targetId : String
  networkId : Option Uuid
  groupId : Option String
  metadata : JsonValue ν
  traceId : Option String
  prevEntryHash : String
  entryHash : String
  hmacSchemaVersion : Int16

structure VerifyReport where
  organizationId : String
  eventsVerified : Nat
  firstSequence : Option Int
  lastSequence : Option Int
  firstTime : Option RangedTimestamp
  lastTime : Option RangedTimestamp
  brokenAt : Option Int
  error : Option String

/-! ### Casts -/

/-- `x as u8`. -/
def asU8 (x : Int16) : UInt8 := x.toUInt16.toUInt8

/-- `x as i16`. -/
def asI16 (x : UInt8) : Int16 := x.toUInt16.toInt16

theorem toInt_eq_toNat_cond (x : Int16) :
    x.toInt = if x.toUInt16.toNat < 2 ^ 15 then (x.toUInt16.toNat : Int)
      else x.toUInt16.toNat - 2 ^ 16 := by
  have hint : x.toInt = x.toBitVec.toInt := rfl
  have hnat : x.toUInt16.toNat = x.toBitVec.toNat := rfl
  rw [hint, BitVec.toInt_eq_toNat_cond]
  split_ifs <;> omega

theorem toInt_asI16 (x : UInt8) : (asI16 x).toInt = x.toNat := by
  have hx : x.toNat < 256 := x.toNat_lt
  rw [toInt_eq_toNat_cond]
  unfold asI16
  rw [UInt16.toUInt16_toInt16, UInt8.toNat_toUInt16, if_pos (by omega)]

theorem asU8_asI16 (x : UInt8) : asU8 (asI16 x) = x := by
  unfold asU8 asI16
  simp

theorem asI16_asU8 {x : Int16} (hx : 0 ≤ x.toInt ∧ x.toInt < 256) : asI16 (asU8 x) = x := by
  apply Int16.toInt_inj.1
  rw [toInt_asI16]
  unfold asU8
  rw [UInt16.toNat_toUInt8]
  rw [toInt_eq_toNat_cond] at hx ⊢
  split_ifs at hx ⊢ <;> omega

/-! ### The check -/

variable {ν : Type u}

namespace AuditVerifyRow

/-- The event that the columns stand for. -/
def toEvent (row : AuditVerifyRow ν) (organizationId : String) (time : RangedTimestamp) :
    AuditEvent ν where
  categoryUid := row.categoryUid.toUInt16
  classUid := row.classUid.toUInt16
  activityId := asU8 row.activityId
  typeUid := row.typeUid.toUInt32
  severityId := asU8 row.severityId
  statusId := asU8 row.statusId
  time := time
  message := row.message
  actor := ⟨row.actorType, row.actorId, row.actorIp⟩
  target := ⟨row.targetType, row.targetId⟩
  organizationId := organizationId
  networkId := row.networkId.map Uuid.text
  groupId := row.groupId
  metadata := row.metadata
  traceId := row.traceId
  sequenceNumber := some row.sequenceNumber
  prevEntryHash := some row.prevEntryHash
  entryHash := some row.entryHash
  hmacSchemaVersion := asU8 row.hmacSchemaVersion

end AuditVerifyRow

namespace VerifyReport

/-- The report before the first row. -/
def initial (organizationId : String) : VerifyReport :=
  ⟨organizationId, 0, none, none, none, none, none, none⟩

/-- The report on a break. -/
def broken (report : VerifyReport) (seq : Int) (error : String) : VerifyReport :=
  { report with brokenAt := some seq, error := some error }

/-- The report after a row that passes. -/
def passed (report : VerifyReport) (seq : Int) (time : RangedTimestamp) : VerifyReport :=
  { report with
    firstSequence := if report.firstSequence.isNone then some seq else report.firstSequence
    firstTime := if report.firstSequence.isNone then some time else report.firstTime
    lastSequence := some seq
    lastTime := some time
    eventsVerified := report.eventsVerified + 1 }

end VerifyReport

namespace Crates

variable (lib : Crates ν)

/-- The checks of a row in the loop of `verify_org_chain`: the time of a row that passes, or the
text of the break; nothing if the time is not representable. -/
def checkRow (hmacKey : List UInt8) (organizationId : String) (expectedSeq : Int)
    (prevHash : String) (row : AuditVerifyRow ν) : Option (Except String RangedTimestamp) :=
  let seq := row.sequenceNumber
  if seq ≠ expectedSeq then
    some (.error s!"sequence gap: expected {expectedSeq}, got {seq}")
  else if row.prevEntryHash ≠ prevHash then
    some (.error s!"prev_entry_hash mismatch at sequence {seq}")
  else
    match RangedTimestamp.fromMicrosecond row.timeMicros with
    | none => none
    | some time =>
      let event := row.toEvent organizationId time
      let version := row.hmacSchemaVersion
      if version ≠ 1 then
        some (.error s!"unsupported hmac_schema_version {version} at sequence {seq}")
      else if lib.computeEntryHash hmacKey (lib.canonicalV1 event prevHash) ≠ row.entryHash then
        some (.error s!"entry_hash mismatch at sequence {seq}")
      else some (.ok time)

/-- The loop of `verify_org_chain`. -/
def verifyRows (hmacKey : List UInt8) (organizationId : String) :
    List (AuditVerifyRow ν) → Int → String → VerifyReport → Option VerifyReport
  | [], _, _, report => some report
  | row :: rows, expectedSeq, prevHash, report =>
    match lib.checkRow hmacKey organizationId expectedSeq prevHash row with
    | none => none
    | some (.error error) => some (report.broken row.sequenceNumber error)
    | some (.ok time) => verifyRows hmacKey organizationId rows (expectedSeq + 1) row.entryHash
        (report.passed row.sequenceNumber time)

/-- `verify_org_chain`, on the rows of the organization. -/
def verifyOrgChain (hmacKey : List UInt8) (organizationId : String)
    (rows : List (AuditVerifyRow ν)) : Option VerifyReport :=
  lib.verifyRows hmacKey organizationId rows 1 genesisHash (.initial organizationId)

end Crates

/-- There is a report, and it has no break. -/
def NoBreak (result : Option VerifyReport) : Prop :=
  ∃ report, result = some report ∧ report.brokenAt = none

/-! ### What the check accepts -/

namespace Crates

variable (lib : Crates ν)

/-- The row passes as number `seq` after `prevHash`. -/
structure Passes (hmacKey : List UInt8) (organizationId : String) (seq : Int) (prevHash : String)
    (row : AuditVerifyRow ν) (time : RangedTimestamp) : Prop where
  sequence : row.sequenceNumber = seq
  prev : row.prevEntryHash = prevHash
  representable : RangedTimestamp.fromMicrosecond row.timeMicros = some time
  version : row.hmacSchemaVersion = 1
  entry :
    lib.computeEntryHash hmacKey (lib.canonicalV1 (row.toEvent organizationId time) prevHash) =
    row.entryHash

/-- All rows pass, one after the other. -/
def Linked (hmacKey : List UInt8) (organizationId : String) :
    Int → String → List (AuditVerifyRow ν) → Prop
  | _, _, [] => True
  | seq, prevHash, row :: rows =>
    (∃ time, lib.Passes hmacKey organizationId seq prevHash row time) ∧
      Linked hmacKey organizationId (seq + 1) row.entryHash rows

section

variable {hmacKey : List UInt8} {organizationId prevHash : String}

theorem checkRow_eq_ok_iff {seq : Int} {row : AuditVerifyRow ν} {time : RangedTimestamp} :
    lib.checkRow hmacKey organizationId seq prevHash row = some (.ok time) ↔
      lib.Passes hmacKey organizationId seq prevHash row time := by
  constructor
  · intro h
    unfold checkRow at h
    cases htime : RangedTimestamp.fromMicrosecond row.timeMicros with
    | none =>
      simp only [htime] at h
      split_ifs at h
      all_goals cases h
    | some =>
      simp only [htime, ite_not] at h
      split_ifs at h with hseq hprev hversion hentry
      · obtain rfl := Except.ok.inj (Option.some.inj h)
        exact ⟨hseq, hprev, htime, hversion, hentry⟩
      all_goals cases h
  · rintro ⟨hseq, hprev, htime, hversion, hentry⟩
    unfold checkRow
    simp [hseq, hprev, htime, hversion, hentry]

theorem noBreak_verifyRows (rows : List (AuditVerifyRow ν)) (seq : Int) (prevHash : String)
    {report : VerifyReport} (hreport : report.brokenAt = none) :
    NoBreak (lib.verifyRows hmacKey organizationId rows seq prevHash report) ↔
      lib.Linked hmacKey organizationId seq prevHash rows := by
  induction rows generalizing seq prevHash report with
  | nil => exact ⟨fun _ => trivial, fun _ => ⟨report, rfl, hreport⟩⟩
  | cons row rows ih =>
    unfold verifyRows Linked
    simp only [← checkRow_eq_ok_iff]
    cases hrow : lib.checkRow hmacKey organizationId seq prevHash row with
    | none => exact ⟨fun ⟨_, h, _⟩ => (nomatch h), fun ⟨⟨_, h⟩, _⟩ => (nomatch h)⟩
    | some outcome =>
      cases outcome with
      | error =>
        refine ⟨fun ⟨_, h, hnone⟩ => ?_, fun ⟨⟨_, h⟩, _⟩ => nomatch h⟩
        rw [← Option.some.inj h] at hnone
        exact nomatch hnone
      | ok time =>
        have hpassed : (report.passed row.sequenceNumber time).brokenAt = none := hreport
        rw [ih (seq + 1) row.entryHash hpassed]
        exact ⟨fun h => ⟨⟨time, rfl⟩, h⟩, And.right⟩

theorem noBreak_verifyOrgChain (rows : List (AuditVerifyRow ν)) :
    NoBreak (lib.verifyOrgChain hmacKey organizationId rows) ↔
      lib.Linked hmacKey organizationId 1 genesisHash rows :=
  lib.noBreak_verifyRows rows 1 genesisHash rfl

end

end Crates

end Tunnet.Audit

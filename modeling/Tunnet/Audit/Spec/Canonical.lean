import Tunnet.Audit.Verify

/-!
# What the canonical text and the chain determine

The canonical text of an event joins its fields by bars, and most of them may hold bars themselves.
The number of the event stands before those, so that the text determines it; and with an injective
HMAC the hash of an entry determines its text.
-/

namespace Tunnet.Audit

open List

universe u

variable {ν : Type u} {h h' prevHash organizationId : String} {e e' : AuditEvent ν} {seq : Int}
  {i : Nat}

namespace Crates

variable (lib : Crates ν) {hmacKey : List UInt8}

/-! ### The canonical text -/

/-- The fields of the canonical text before the metadata. -/
def fields (event : AuditEvent ν) : List String :=
  ["v1", toString (event.sequenceNumber.getD 0), event.organizationId,
    toString event.categoryUid.toNat, toString event.classUid.toNat,
    toString event.activityId.toNat, toString event.typeUid.toNat,
    toString event.severityId.toNat, toString event.statusId.toNat,
    lib.timestamp event.time.wholeSecond, event.message, event.actor.actorType,
    event.actor.actorId, event.actor.ipAddress.getD "", event.target.targetType,
    event.target.targetId, event.networkId.getD "", event.groupId.getD "", event.traceId.getD ""]

theorem length_fields (event : AuditEvent ν) : (lib.fields event).length = 19 := rfl

theorem toList_canonicalV1 (event : AuditEvent ν) (prevHash : String) :
    (lib.canonicalV1 event prevHash).toList =
      ['|'].intercalate ((lib.fields event).map String.toList ++
        [JsonValue.text lib.number (sortFields event.metadata), prevHash.toList]) := by
  unfold canonicalV1
  rw [String.toList_intercalate]
  simp only [canonicalJson, map_cons, String.toList_ofList]
  rfl

theorem canonicalV1_congr (hfields : lib.fields e = lib.fields e')
    (hmetadata : sortFields e.metadata = sortFields e'.metadata) (h : String) :
    lib.canonicalV1 e h = lib.canonicalV1 e' h := by
  rw [← String.toList_inj, toList_canonicalV1, toList_canonicalV1, hfields, hmetadata]

/-- The number of the event stands before any field that may hold a bar. -/
theorem sequence_eq_of_canonicalV1_eq
    (heq : lib.canonicalV1 e h = lib.canonicalV1 e' h') :
    e.sequenceNumber.getD 0 = e'.sequenceNumber.getD 0 := by
  have hbar (n) : '|' ∉ (toString n).toList := Str.not_mem_toString_int (by decide) (by decide) n
  have hlist := congrArg String.toList heq
  rw [toList_canonicalV1, toList_canonicalV1] at hlist
  have htail := (cons.inj (append_cancel_left hlist)).2
  obtain ⟨hseq, -⟩ := Joined.append_sep_inj_left (hbar _) (hbar _) htail
  exact Str.toString_int_inj (String.toList_inj.1 hseq)

/-! ### The chain -/

theorem bar_not_mem_computeEntryHash (hmacKey : List UInt8) (canonical : String) :
    '|' ∉ (lib.computeEntryHash hmacKey canonical).toList := by
  have hdigit : ∀ n < 16, '|' ≠ Hex.digit n := by decide
  unfold computeEntryHash Hex.encode
  rw [String.toList_ofList]
  intro hmem
  obtain ⟨n, hn, heq⟩ := Hex.mem_encodeChars hmem
  exact hdigit n hn heq

theorem computeEntryHash_injective (hhmac : Function.Injective (lib.hmac hmacKey)) :
    Function.Injective (lib.computeEntryHash hmacKey) := by
  intro a b hab
  exact Str.asBytes_injective (hhmac (Hex.encode_injective hab))

theorem bar_not_mem_genesisHash : '|' ∉ genesisHash.toList := by decide

theorem getElem?_chainEvents (events : List (AuditEvent ν)) (hbar : '|' ∉ prevHash.toList)
    (he : (lib.chainEvents hmacKey events seq prevHash)[i]? = some e) :
    ∃ w h hash, events[i]? = some w ∧ '|' ∉ h.toList ∧
      e = (w.placed (seq + 1 + i) h).tagged hash := by
  induction events generalizing seq prevHash i with
  | nil => cases he
  | cons w events ih =>
    cases i with
    | zero =>
      have hseq : seq + 1 + ((0 : Nat) : Int) = seq + 1 := by omega
      rw [hseq]
      exact ⟨w, prevHash, _, rfl, hbar, (Option.some.inj he).symm⟩
    | succ i =>
      have hseq : seq + 1 + ((i + 1 : Nat) : Int) = seq + 1 + 1 + (i : Int) := by omega
      rw [hseq]
      exact ih (lib.bar_not_mem_computeEntryHash hmacKey _) he

/-- What the check knows about a row that it accepts. -/
theorem Linked.passes {lib : Crates ν} {rows : List (AuditVerifyRow ν)}
    (hlinked : lib.Linked hmacKey organizationId seq prevHash rows) (hbar : '|' ∉ prevHash.toList)
    {row : AuditVerifyRow ν} (hrow : rows[i]? = some row) :
    ∃ time h, '|' ∉ h.toList ∧ lib.Passes hmacKey organizationId (seq + i) h row time := by
  induction rows generalizing seq prevHash i with
  | nil => cases hrow
  | cons first rows ih =>
    obtain ⟨⟨time, hpasses⟩, htail⟩ := hlinked
    cases i with
    | zero =>
      cases hrow
      have hseq : seq + ((0 : Nat) : Int) = seq := by omega
      rw [hseq]
      exact ⟨time, prevHash, hbar, hpasses⟩
    | succ i =>
      have hseq : seq + ((i + 1 : Nat) : Int) = seq + 1 + (i : Int) := by omega
      rw [hseq]
      refine ih htail ?_ hrow
      rw [← hpasses.entry]
      exact lib.bar_not_mem_computeEntryHash hmacKey _

end Crates

/-! ### An example -/

namespace Demo

/-- Numbers in decimal, times in nanoseconds, and the message as its tag. -/
def crates : Crates Nat where
  number n := (toString n).toList
  number_text := {
    inj := fun h => Str.toString_inj (String.toList_inj.1 h)
    ne_nil := fun n h => by
      rw [Nat.toString_eq_repr, Nat.toList_repr] at h
      exact Nat.toDigits_ne_nil h
    numeric := fun n c hc => by
      rw [Nat.toString_eq_repr, Nat.toList_repr] at hc
      rw [JsonValue.isNumeric, Nat.isDigit_of_mem_toDigits (by decide) (by decide) hc,
        Bool.true_or] }
  timestamp t := toString (t : Int)
  timestamp_inj h := Str.toString_int_inj h
  bar_not_mem_timestamp t := Str.not_mem_toString_int (by decide) (by decide) t
  hmac _ message := message

/-- A device of `org` is registered. -/
def event (message actorType : String) : AuditEvent Nat where
  categoryUid := 7
  classUid := 7102
  activityId := 1
  typeUid := 710201
  severityId := 1
  statusId := 1
  time := ⟨0, by decide⟩
  message := message
  actor := ⟨actorType, "control", none⟩
  target := ⟨"device", "ep"⟩
  organizationId := "org"
  networkId := none
  groupId := none
  metadata := .null
  traceId := none
  sequenceNumber := none
  prevEntryHash := none
  entryHash := none
  hmacSchemaVersion := 0

/-- From an address. -/
def registered (message : String) : AuditEvent Nat :=
  { event message "system" with actor := ⟨"system", "control", some "10.0.0.1"⟩ }

/-- In a network. -/
def joined (networkId : String) : AuditEvent Nat :=
  { event "joined" "system" with networkId := some networkId }

def network : String := "00000000-0000-0000-0000-00000000002a"

end Demo

end Tunnet.Audit

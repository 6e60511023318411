import Tunnet.Audit.Postgres
import Tunnet.Audit.Spec.Canonical

/-!
# What a verified chain says about its rows

Rows that the check accepts have the tags of the texts that were signed. The text of a row does not
determine its columns, though: a bar inside of a field can as well be the end of the field.

* `Unforged`: what is asked of the tags.
* `Agrees`: a row is what was written.
* `SameShape`: a row has its bars where the event has them.
-/

namespace Tunnet.Audit

open Crates List

universe u

variable {ν : Type u} {o o' : Option String}

/-! ### Definitions -/

/-- The texts that got a tag. -/
def Crates.signed (lib : Crates ν) (hmacKey : List UInt8) (written : List (AuditEvent ν)) :
    List String :=
  (lib.chainEvents hmacKey written 0 genesisHash).map fun event =>
    lib.canonicalV1 event (event.prevEntryHash.getD "")

/-- The stored tags are those of signed texts, and of no other text. -/
def Crates.Unforged (lib : Crates ν) (hmacKey : List UInt8) (written : List (AuditEvent ν))
    (rows : List (AuditVerifyRow ν)) : Prop :=
  ∀ row ∈ rows, ∀ text, lib.computeEntryHash hmacKey text = row.entryHash →
    text ∈ lib.signed hmacKey written

/-- The row is the event, in every column that enters the canonical text. -/
structure Agrees (organizationId : String) (row : AuditVerifyRow ν) (event : AuditEvent ν) :
    Prop where
  sequence : some row.sequenceNumber = event.sequenceNumber
  organization : organizationId = event.organizationId
  category : row.categoryUid = event.categoryUid.toInt16
  cls : row.classUid = event.classUid.toInt16
  activity : row.activityId = asI16 event.activityId
  type : row.typeUid = event.typeUid.toInt32
  severity : row.severityId = asI16 event.severityId
  status : row.statusId = asI16 event.statusId
  time : row.timeMicros * 1000 = event.time.1
  message : row.message = event.message
  actorType : row.actorType = event.actor.actorType
  actorId : row.actorId = event.actor.actorId
  ipAddress : row.actorIp = event.actor.ipAddress
  targetType : row.targetType = event.target.targetType
  targetId : row.targetId = event.target.targetId
  network : row.networkId.map Uuid.text = event.networkId
  group : row.groupId = event.groupId
  trace : row.traceId = event.traceId
  metadata : sortFields row.metadata = sortFields event.metadata
  prev : some row.prevEntryHash = event.prevEntryHash

/-- How many bars a text has. -/
def bars (s : String) : Nat := s.toList.count '|'

/-- An identifier that fits the event's type. -/
def InByte (x : Int16) : Prop := 0 ≤ x.toInt ∧ x.toInt < 256

instance (x : Int16) : Decidable (InByte x) := inferInstanceAs (Decidable (_ ∧ _))

theorem inByte_asI16 (x : UInt8) : InByte (asI16 x) := by
  have hx : x.toNat < 256 := x.toNat_lt
  unfold InByte
  rw [toInt_asI16]
  omega

/-- The row has as many bars as the event in each text before the metadata and lacks the values that
the event lacks; its time is a whole second, and its identifiers are bytes. -/
structure SameShape (organizationId : String) (row : AuditVerifyRow ν) (event : AuditEvent ν) :
    Prop where
  organization : bars organizationId = bars event.organizationId
  activity : InByte row.activityId
  severity : InByte row.severityId
  status : InByte row.statusId
  time : 1000000 ∣ row.timeMicros
  message : bars row.message = bars event.message
  actorType : bars row.actorType = bars event.actor.actorType
  actorId : bars row.actorId = bars event.actor.actorId
  ipAddress : row.actorIp.map bars = event.actor.ipAddress.map bars
  targetType : bars row.targetType = bars event.target.targetType
  targetId : bars row.targetId = bars event.target.targetId
  network : (row.networkId.map Uuid.text).map bars = event.networkId.map bars
  group : row.groupId.map bars = event.groupId.map bars
  trace : row.traceId.map bars = event.traceId.map bars

/-- The texts of the event before the metadata. -/
def AuditEvent.texts (event : AuditEvent ν) : List String :=
  [event.organizationId, event.message, event.actor.actorType, event.actor.actorId,
    event.actor.ipAddress.getD "", event.target.targetType, event.target.targetId,
    event.networkId.getD "", event.groupId.getD "", event.traceId.getD ""]

/-- No text before the metadata has a bar, and none that is optional is empty. -/
structure Separable (event : AuditEvent ν) : Prop where
  barFree : ∀ s ∈ event.texts, '|' ∉ s.toList
  nonempty : ∀ o ∈ [event.actor.ipAddress, event.networkId, event.groupId, event.traceId],
    o ≠ some ""

/-- The row has identifiers of a byte, a time in whole seconds and no empty optional text. -/
structure Regular (row : AuditVerifyRow ν) : Prop where
  activity : InByte row.activityId
  severity : InByte row.severityId
  status : InByte row.statusId
  time : 1000000 ∣ row.timeMicros
  nonempty : ∀ o ∈ [row.actorIp, row.groupId, row.traceId], o ≠ some ""

/-! ### Texts and optional values -/

theorem bars_eq_zero {s : String} (h : '|' ∉ s.toList) : bars s = 0 := count_eq_zero.2 h

theorem bars_toString (n : Nat) : bars (toString n) = 0 :=
  bars_eq_zero (Str.not_mem_toString (by decide) n)

theorem bars_toString_int (n : Int) : bars (toString n) = 0 :=
  bars_eq_zero (Str.not_mem_toString_int (by decide) (by decide) n)

theorem bars_getD (h : o.map bars = o'.map bars) : bars (o.getD "") = bars (o'.getD "") := by
  have hgetD (o : Option String) : bars (o.getD "") = (o.map bars).getD 0 := by
    cases o with
    | none | some => rfl
  rw [hgetD, hgetD, h]

theorem eq_of_getD_eq (hpresent : o.isSome = o'.isSome) (h : o.getD "" = o'.getD "") : o = o' := by
  cases o with
  | none =>
    cases o' with
    | none => rfl
    | some => cases hpresent
  | some =>
    cases o' with
    | none => cases hpresent
    | some => exact congrArg some h

theorem eq_of_getD_eq_of_ne (ho : o ≠ some "") (ho' : o' ≠ some "")
    (h : o.getD "" = o'.getD "") : o = o' := by
  cases o with
  | none =>
    cases o' with
    | none => rfl
    | some => exact absurd (congrArg some h.symm) ho'
  | some =>
    cases o' with
    | none => exact absurd (congrArg some h) ho
    | some => exact congrArg some h

theorem isSome_eq_of_map_eq (h : o.map bars = o'.map bars) : o.isSome = o'.isSome := by
  rw [← Option.isSome_map, h, Option.isSome_map]

theorem map_text_ne {o : Option Uuid} : o.map Uuid.text ≠ some "" := by
  intro h
  obtain ⟨u, -, hu⟩ := Option.map_eq_some_iff.1 h
  exact Uuid.text_ne_empty u hu

/-! ### One row -/

variable {lib : Crates ν} {hmacKey : List UInt8} {organizationId : String}

section

variable {h h' hash s : String} {seq n : Int} {row : AuditVerifyRow ν} {w : AuditEvent ν}
  {time : RangedTimestamp}

theorem bar_not_mem_fields (hw : ∀ s ∈ w.texts, '|' ∉ s.toList)
    (hs : s ∈ lib.fields (w.placed n h')) : '|' ∉ s.toList := by
  have hnat (m) : '|' ∉ (toString m).toList := Str.not_mem_toString (by decide) m
  simp only [fields, mem_cons, not_mem_nil, or_false] at hs
  rcases hs with rfl | rfl | rfl | rfl | rfl | rfl | rfl | rfl | rfl | rfl | rfl | rfl | rfl | rfl |
    rfl | rfl | rfl | rfl | rfl
  · decide
  · exact Str.not_mem_toString_int (by decide) (by decide) _
  · exact hw _ (by simp [AuditEvent.texts, AuditEvent.placed])
  · exact hnat _
  · exact hnat _
  · exact hnat _
  · exact hnat _
  · exact hnat _
  · exact hnat _
  · exact lib.bar_not_mem_timestamp _
  all_goals exact hw _ (by simp [AuditEvent.texts, AuditEvent.placed])

/-- A row with the fields of an event, and with the same values absent, agrees with it. -/
theorem agrees_of_fields (hpasses : lib.Passes hmacKey organizationId seq h row time)
    (hfields : (lib.fields (row.toEvent organizationId time)).map String.toList =
      (lib.fields (w.placed n h')).map String.toList)
    (hmetadata : sortFields row.metadata = sortFields w.metadata) (hprev : h = h')
    (hactivity : InByte row.activityId) (hseverity : InByte row.severityId)
    (hstatus : InByte row.statusId) (htime : 1000000 ∣ row.timeMicros)
    (hip : row.actorIp.getD "" = w.actor.ipAddress.getD "" → row.actorIp = w.actor.ipAddress)
    (hnetwork : (row.networkId.map Uuid.text).getD "" = w.networkId.getD "" →
      row.networkId.map Uuid.text = w.networkId)
    (hgroup : row.groupId.getD "" = w.groupId.getD "" → row.groupId = w.groupId)
    (htrace : row.traceId.getD "" = w.traceId.getD "" → row.traceId = w.traceId) :
    Agrees organizationId row ((w.placed n h').tagged hash) := by
  have hsame := map_injective_iff.2 (fun _ _ => String.toList_inj.1) hfields
  simp only [fields, cons.injEq, true_and, and_true] at hsame
  obtain ⟨hseq, horg, hcat, hcls, hact, htype, hsev, hstat, hstamp, hmessage, hatype, haid, haip,
    httype, htid, hnet, hgid, htid'⟩ := hsame
  have hval : time.1 = row.timeMicros * 1000 := RangedTimestamp.val_of_fromMicrosecond
    hpasses.representable
  have hwhole : time.wholeSecond = time := by
    refine Subtype.ext (Timestamp.wholeSecond_of_dvd ?_)
    rw [hval]
    exact Int.mul_dvd_mul_right 1000 htime
  have hsecond : time.wholeSecond = w.time.wholeSecond :=
    (Subtype.ext (lib.timestamp_inj hstamp)).trans (RangedTimestamp.wholeSecond_wholeSecond w.time)
  have htimes : row.timeMicros * 1000 = w.time.wholeSecond.1 := by
    rw [← hval, ← hsecond, hwhole]
  have hbyte {x : Int16} {y : UInt8} (hx : InByte x)
      (hxy : toString (asU8 x).toNat = toString y.toNat) : x = asI16 y := by
    rw [← asI16_asU8 hx, UInt8.toNat_inj.1 (Str.toString_inj hxy)]
  exact {
    sequence := congrArg some (Str.toString_int_inj hseq)
    organization := horg
    category := congrArg UInt16.toInt16 (UInt16.toNat_inj.1 (Str.toString_inj hcat))
    cls := congrArg UInt16.toInt16 (UInt16.toNat_inj.1 (Str.toString_inj hcls))
    activity := hbyte hactivity hact
    type := congrArg UInt32.toInt32 (UInt32.toNat_inj.1 (Str.toString_inj htype))
    severity := hbyte hseverity hsev
    status := hbyte hstatus hstat
    time := htimes
    message := hmessage
    actorType := hatype
    actorId := haid
    ipAddress := hip haip
    targetType := httype
    targetId := htid
    network := hnetwork hnet
    group := hgroup hgid
    trace := htrace htid'
    metadata := hmetadata
    prev := congrArg some (hpasses.prev.trans hprev) }

theorem Agrees.sameShape (hagrees : Agrees organizationId row ((w.placed n h').tagged hash)) :
    SameShape organizationId row w where
  organization := congrArg bars hagrees.organization
  activity := hagrees.activity ▸ inByte_asI16 _
  severity := hagrees.severity ▸ inByte_asI16 _
  status := hagrees.status ▸ inByte_asI16 _
  time := by
    have hdvd : 1000000 * 1000 ∣ row.timeMicros * 1000 := by
      rw [hagrees.time]
      exact Timestamp.dvd_wholeSecond w.time.1
    exact Int.dvd_of_mul_dvd_mul_right (by decide) hdvd
  message := congrArg bars hagrees.message
  actorType := congrArg bars hagrees.actorType
  actorId := congrArg bars hagrees.actorId
  ipAddress := congrArg (Option.map bars) hagrees.ipAddress
  targetType := congrArg bars hagrees.targetType
  targetId := congrArg bars hagrees.targetId
  network := congrArg (Option.map bars) hagrees.network
  group := congrArg (Option.map bars) hagrees.group
  trace := congrArg (Option.map bars) hagrees.trace

variable (hpasses : lib.Passes hmacKey organizationId seq h row time)

include hpasses

theorem SameShape.agrees
    (hh : '|' ∉ h.toList) (hh' : '|' ∉ h'.toList)
    (heq : lib.canonicalV1 (row.toEvent organizationId time) h = lib.canonicalV1 (w.placed n h') h')
    (hshape : SameShape organizationId row w) :
    Agrees organizationId row ((w.placed n h').tagged hash) := by
  have hlist := congrArg String.toList heq
  rw [toList_canonicalV1, toList_canonicalV1] at hlist
  have hcount : ((lib.fields (row.toEvent organizationId time)).map String.toList).map
      (count '|') = ((lib.fields (w.placed n h')).map String.toList).map (count '|') := by
    have hbars (l : List String) : (l.map String.toList).map (count '|') = l.map bars := map_map
    have htime (t) : bars (lib.timestamp t) = 0 := bars_eq_zero (lib.bar_not_mem_timestamp t)
    rw [hbars, hbars]
    simp only [fields, map_cons, bars_toString, bars_toString_int, htime,
      AuditVerifyRow.toEvent, AuditEvent.placed, hshape.organization, hshape.message,
      hshape.actorType, hshape.actorId, hshape.targetType, hshape.targetId,
      bars_getD hshape.ipAddress, bars_getD hshape.network, bars_getD hshape.group,
      bars_getD hshape.trace]
  obtain ⟨hfields, htext, hprev⟩ := Joined.eq_of_intercalate_eq_of_count hh hh' _ hcount hlist
  exact agrees_of_fields hpasses hfields (JsonValue.text_inj lib.number_text htext)
    (String.toList_inj.1 hprev) hshape.activity hshape.severity hshape.status hshape.time
    (eq_of_getD_eq (isSome_eq_of_map_eq hshape.ipAddress))
    (eq_of_getD_eq (isSome_eq_of_map_eq hshape.network))
    (eq_of_getD_eq (isSome_eq_of_map_eq hshape.group))
    (eq_of_getD_eq (isSome_eq_of_map_eq hshape.trace))

theorem Separable.agrees
    (hh : '|' ∉ h.toList) (hh' : '|' ∉ h'.toList)
    (heq : lib.canonicalV1 (row.toEvent organizationId time) h = lib.canonicalV1 (w.placed n h') h')
    (hw : Separable w) (hrow : Regular row) :
    Agrees organizationId row ((w.placed n h').tagged hash) := by
  have hlist := congrArg String.toList heq
  rw [toList_canonicalV1, toList_canonicalV1] at hlist
  have hfree : ∀ p ∈ (lib.fields (w.placed n h')).map String.toList, '|' ∉ p := by
    intro p hp
    obtain ⟨s, hs, rfl⟩ := mem_map.1 hp
    exact bar_not_mem_fields hw.barFree hs
  have hlength : ((lib.fields (w.placed n h')).map String.toList).length ≤
      ((lib.fields (row.toEvent organizationId time)).map String.toList).length := by
    rw [length_map, length_map, length_fields, length_fields]
  obtain ⟨hprev, ⟨hfields, htext⟩ | ⟨a, hpart⟩⟩ :=
    Joined.eq_of_intercalate_eq _ hfree hh' hh hlength hlist.symm
  · have hrowIp := hrow.nonempty row.actorIp (by simp)
    have hrowGroup := hrow.nonempty row.groupId (by simp)
    have hrowTrace := hrow.nonempty row.traceId (by simp)
    have hip := hw.nonempty w.actor.ipAddress (by simp)
    have hnetwork := hw.nonempty w.networkId (by simp)
    have hgroup := hw.nonempty w.groupId (by simp)
    have htrace := hw.nonempty w.traceId (by simp)
    exact agrees_of_fields hpasses hfields (JsonValue.text_inj lib.number_text htext)
      (String.toList_inj.1 hprev) hrow.activity hrow.severity hrow.status hrow.time
      (eq_of_getD_eq_of_ne hrowIp hip)
      (eq_of_getD_eq_of_ne map_text_ne hnetwork)
      (eq_of_getD_eq_of_ne hrowGroup hgroup)
      (eq_of_getD_eq_of_ne hrowTrace htrace)
  · -- A bar in the metadata cannot be the end of a field: the rest would be no text of a value.
    exact absurd rfl (JsonValue.text_ne_of_append (by decide) (by decide) (by decide)
      lib.number_text hpart (sortFields row.metadata))

end

/-! ### All rows -/

theorem forall₂_take_iff {α : Type*} {β : Type*} {R : α → β → Prop} {l : List α} {l' : List β} :
    Forall₂ R l (l'.take l.length) ↔
      ∀ (i : Nat) x, l[i]? = some x → ∃ y, l'[i]? = some y ∧ R x y := by
  induction l generalizing l' with
  | nil => simp
  | cons x l ih =>
    cases l' with
    | nil => exact ⟨nofun, fun h => (nomatch (h 0 x rfl).choose_spec.1)⟩
    | cons y =>
      rw [length_cons, take_succ_cons, forall₂_cons, ih]
      constructor
      · rintro ⟨hxy, htail⟩ i z hz
        cases i with
        | zero => exact ⟨y, rfl, Option.some.inj hz ▸ hxy⟩
        | succ i => exact htail i z hz
      · intro h
        obtain ⟨y', hy', hxy⟩ := h 0 x rfl
        exact ⟨Option.some.inj hy' ▸ hxy, fun i z hz => h (i + 1) z hz⟩

section

variable {written : List (AuditEvent ν)} {rows : List (AuditVerifyRow ν)}

/-- A verified row has the text of the written event with its number. -/
theorem written_of_verified (hlinked : lib.Linked hmacKey organizationId 1 genesisHash rows)
    (hunforged : lib.Unforged hmacKey written rows) {i : Nat} {row : AuditVerifyRow ν}
    (hrow : rows[i]? = some row) :
    ∃ w e, written[i]? = some w ∧ (lib.chainEvents hmacKey written 0 genesisHash)[i]? = some e ∧
      (Agrees organizationId row e ↔ SameShape organizationId row w) ∧
      (Separable w → Regular row → Agrees organizationId row e) := by
  obtain ⟨time, h, hh, hpasses⟩ := hlinked.passes bar_not_mem_genesisHash hrow
  have hsigned := hunforged row (mem_of_getElem? hrow) _ hpasses.entry
  obtain ⟨e, he, heq⟩ := mem_map.1 hsigned
  obtain ⟨j, hj⟩ := mem_iff_getElem?.1 he
  obtain ⟨w, h', hash, hw, hh', rfl⟩ := lib.getElem?_chainEvents written bar_not_mem_genesisHash hj
  -- The number is part of the text, so the row is at the place of the event.
  have hseq : (0 + 1 + j : Int) = row.sequenceNumber := lib.sequence_eq_of_canonicalV1_eq heq
  obtain rfl : j = i := by
    rw [hpasses.sequence] at hseq
    omega
  have htext : lib.canonicalV1 (row.toEvent organizationId time) h =
      lib.canonicalV1 (w.placed (0 + 1 + j) h') h' := heq.symm
  exact ⟨w, _, hw, hj, ⟨Agrees.sameShape, SameShape.agrees hpasses hh hh' htext⟩,
    Separable.agrees hpasses hh hh' htext⟩

/-- A verified chain is what was written, if it has its shape, or if what was written has no bars
in its fields. -/
theorem tamper_evident (lib : Crates ν) (hmacKey : List UInt8) (organizationId : String)
    (written : List (AuditEvent ν)) (rows : List (AuditVerifyRow ν))
    (hverify : NoBreak (lib.verifyOrgChain hmacKey organizationId rows))
    (hunforged : lib.Unforged hmacKey written rows) : (List.Forall₂ (Agrees organizationId) rows
        ((lib.chainEvents hmacKey written 0 genesisHash).take rows.length) ↔
      List.Forall₂ (SameShape organizationId) rows (written.take rows.length)) ∧
    ((∀ event ∈ written, Separable event) → (∀ row ∈ rows, Regular row) →
      List.Forall₂ (Agrees organizationId) rows
        ((lib.chainEvents hmacKey written 0 genesisHash).take rows.length)) := by
  rw [noBreak_verifyOrgChain] at hverify
  rw [forall₂_take_iff, forall₂_take_iff]
  refine ⟨⟨fun hagrees i row hrow => ?_, fun hshape i row hrow => ?_⟩,
    fun hseparable hregular i row hrow => ?_⟩
  · obtain ⟨w, e, hw, he, hiff, -⟩ := written_of_verified hverify hunforged hrow
    obtain ⟨e', he', hagree⟩ := hagrees i row hrow
    obtain rfl := Option.some.inj (he.symm.trans he')
    exact ⟨w, hw, hiff.1 hagree⟩
  · obtain ⟨w, e, hw, he, hiff, -⟩ := written_of_verified hverify hunforged hrow
    obtain ⟨w', hw', hsame⟩ := hshape i row hrow
    obtain rfl := Option.some.inj (hw.symm.trans hw')
    exact ⟨e, he, hiff.2 hsame⟩
  · obtain ⟨w, e, hw, he, -, hagrees⟩ := written_of_verified hverify hunforged hrow
    exact ⟨e, he, hagrees (hseparable w (mem_of_getElem? hw)) (hregular row (mem_of_getElem? hrow))⟩

end

/-! ### A chain of one event -/

namespace Demo

def written (message : String) : List (AuditEvent Nat) := [registered message, joined network]

/-- The row of an event, at its place and with its tag. -/
def rowOf (e : AuditEvent Nat) (seq : Int) (prev : String) : AuditVerifyRow Nat :=
  let hash := crates.computeEntryHash [] (crates.canonicalV1 (e.placed seq prev) prev)
  (((e.placed seq prev).tagged hash).stored e.actor.ipAddress e.metadata).columns

variable (text message actorType : String)

/-- The row of the first event, edited. -/
def firstRow : AuditVerifyRow Nat :=
  { rowOf (registered text) 1 genesisHash with message, actorType }

def rows : List (AuditVerifyRow Nat) :=
  [firstRow text message actorType,
    rowOf (joined network) 2 (firstRow text message actorType).entryHash]

theorem unforged : crates.Unforged [] (written text) (rows text message actorType) := by
  intro r hr t ht
  rcases List.mem_pair.1 hr with rfl | rfl
  · rw [crates.computeEntryHash_injective (fun _ _ h => h) ht]
    exact List.mem_pair.2 (.inl rfl)
  · rw [crates.computeEntryHash_injective (fun _ _ h => h) ht]
    exact List.mem_pair.2 (.inr rfl)

def start : RangedTimestamp := (event "" "").time

theorem canonicalV1_joined (prev : String) :
    crates.canonicalV1 ((rowOf (joined network) 2 prev).toEvent "org" start) prev =
      crates.canonicalV1 ((joined network).placed 2 prev) prev := by
  have hnetwork : ((some network).bind Uuid.parseStr).map Uuid.text = network := by
    decide
  exact congrArg (fun id => crates.canonicalV1
    { (joined network).placed 2 prev with networkId := id } prev) hnetwork

theorem noBreak_rows (htext : (crates.canonicalV1
      ((firstRow text message actorType).toEvent "org" start) genesisHash).toList =
      (crates.canonicalV1 ((registered text).placed 1 genesisHash) genesisHash).toList) :
    NoBreak (crates.verifyOrgChain [] "org" (rows text message actorType)) := by
  have hfirst := congrArg (crates.computeEntryHash []) (String.toList_inj.1 htext)
  rw [noBreak_verifyOrgChain]
  exact ⟨⟨start, rfl, rfl, rfl, rfl, hfirst⟩,
    ⟨start, rfl, rfl, rfl, rfl, congrArg _ (canonicalV1_joined _)⟩, trivial⟩

/-- Nothing has been edited. -/
theorem tamper_evident_registered :
    List.Forall₂ (Agrees "org") (rows "registered" "registered" "system")
      ((crates.chainEvents [] (written "registered") 0 genesisHash).take 2) := by
  have hverify : NoBreak
      (crates.verifyOrgChain [] "org" (rows "registered" "registered" "system")) := by
    apply noBreak_rows
    decide +kernel
  refine (tamper_evident crates [] "org" _ _ hverify (unforged _ _ _)).2 (fun w hw => ?_)
    fun r hr => ?_
  · rcases List.mem_pair.1 hw with rfl | rfl <;> exact ⟨by decide, by decide⟩
  · rcases List.mem_pair.1 hr with rfl | rfl <;>
      exact ⟨by decide, by decide, by decide, by decide, by decide⟩

/-- The end of the message has become the start of the actor's type. -/
theorem tampered_verifies : let tampered := rows "registered|by" "registered" "by|system"
    NoBreak (crates.verifyOrgChain [] "org" tampered) ∧
      crates.Unforged [] (written "registered|by") tampered ∧
      ¬ List.Forall₂ (Agrees "org") tampered
        ((crates.chainEvents [] (written "registered|by") 0 genesisHash).take tampered.length) := by
  intro tampered
  have hverify : NoBreak (crates.verifyOrgChain [] "org" tampered) := by
    apply noBreak_rows
    decide +kernel
  refine ⟨hverify, unforged _ _ _, fun hagrees => ?_⟩
  obtain ⟨hagree, -⟩ := forall₂_cons.1 hagrees
  exact absurd hagree.message (by decide)

end Demo

end Tunnet.Audit

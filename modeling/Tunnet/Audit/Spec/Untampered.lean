import Tunnet.Audit.Postgres
import Tunnet.Audit.Spec.Canonical

/-!
# What the check says about an untouched table

The tag of an event is computed from the event in memory, and again from the stored columns. They
are the same for an event that the database gives back as it was.

* `Stable`: the event comes back from its row as it was.
* `Reveals`: what the check accepts if the events are stable, and only then if tags do not collide.
* `linked_stored`: what a batch does to the table.
-/

namespace Tunnet.Audit

open AuditTable List Option Uuid

universe u

variable {ν β : Type u}

/-- The event comes back as it was: its address is in normal form, its network is the normal text
of a UUID, and its metadata are what is read from the column. -/
structure Stable (db : Postgres ν) (event : AuditEvent ν) : Prop where
  ipAddress : ∀ s, event.actor.ipAddress = some s → s ≠ "" → db.host s = some s
  network : ∀ s, event.networkId = some s → s ≠ "" → ∃ u, Uuid.parseStr s = some u ∧ Uuid.text u = s
  metadata : ∀ m, db.jsonb event.metadata = some m → sortFields m = sortFields event.metadata

/-! ### Addresses and networks -/

section

variable {db : Postgres ν} {o ip : Option String}

variable (hcast : db.castIp o = some ip)

include hcast

theorem castIp_cases : ip = none ∧ o.getD "" = "" ∨
      ∃ s t, o = some s ∧ s ≠ "" ∧ db.host s = some t ∧ ip = some t := by
  unfold Postgres.castIp at hcast
  cases o with
  | none => exact .inl ⟨(some.inj hcast).symm, rfl⟩
  | some s =>
    by_cases hs : s = ""
    · subst hs
      exact .inl ⟨(some.inj hcast).symm, rfl⟩
    · rw [filter_some_pos (by simpa using hs)] at hcast
      obtain ⟨t, ht, rfl⟩ := map_eq_some_iff.1 hcast
      exact .inr ⟨s, t, rfl, hs, ht, rfl⟩

theorem castIp_eq_iff : ip.getD "" = o.getD "" ↔ ∀ s, o = some s → s ≠ "" → db.host s = some s := by
  rcases castIp_cases hcast with ⟨rfl, hempty⟩ | ⟨s, t, rfl, hs, hhost, rfl⟩
  · rw [hempty]
    refine ⟨fun _ s hs hne => ?_, fun _ => rfl⟩
    rw [hs] at hempty
    exact absurd hempty hne
  · constructor
    · intro hts s' hs' _
      obtain rfl := some.inj hs'
      exact hhost.trans (congrArg some hts)
    · intro hstable
      exact some.inj (hhost.symm.trans (hstable s rfl hs))

theorem bar_not_mem_castIp : '|' ∉ (ip.getD "").toList ∧ '|' ∉ (o.getD "").toList := by
  rcases castIp_cases hcast with ⟨rfl, hempty⟩ | ⟨s, t, rfl, -, hhost, rfl⟩
  · rw [hempty]
    exact ⟨by decide, by decide⟩
  · exact ⟨db.bar_not_mem_host hhost, db.bar_not_mem_address hhost⟩

omit hcast

theorem network_eq_iff : ((o.bind parseStr).map text).getD "" = o.getD "" ↔
      ∀ s, o = some s → s ≠ "" → ∃ u, parseStr s = some u ∧ text u = s := by
  cases o with
  | none => exact ⟨nofun, fun _ => rfl⟩
  | some s =>
    rw [bind_some]
    constructor
    · intro htext s' hs' hne
      obtain rfl := some.inj hs'
      cases hparse : parseStr s with
      | none =>
        rw [hparse] at htext
        exact absurd htext.symm hne
      | some u =>
        rw [hparse] at htext
        exact ⟨u, rfl, htext⟩
    · intro hstable
      by_cases hs : s = ""
      · subst hs
        rfl
      · obtain ⟨u, hparse, htext⟩ := hstable s rfl hs
        rw [hparse]
        exact htext

theorem bar_not_mem_network : '|' ∉ (((o.bind parseStr).map text).getD "").toList := by
  have hdigit : ∀ n < 16, '|' ≠ Hex.digit n := by decide
  cases o.bind parseStr with
  | none => decide
  | some u => exact not_mem_text hdigit (by decide) u

end

/-! ### One event -/

section

variable {lib : Crates ν} {db : Postgres ν} {hmacKey : List UInt8} {organizationId h hash : String}
  {w : AuditEvent ν} {n : Int} {ip : Option String} {m : JsonValue ν}

/-- The event that the check puts together from the row of `w`. -/
def readBack (w : AuditEvent ν) (n : Int) (h hash organizationId : String) (ip : Option String)
    (m : JsonValue ν) : AuditEvent ν :=
  (((w.placed n h).tagged hash).stored ip m).columns.toEvent organizationId w.time.wholeSecond

theorem fields_eq (e : AuditEvent ν) : lib.fields e = (lib.fields e).take 13 ++
    [e.actor.ipAddress.getD "", e.target.targetType, e.target.targetId, e.networkId.getD "",
      e.groupId.getD "", e.traceId.getD ""] := rfl

variable (horg : w.organizationId = organizationId)

include horg

theorem take_fields_readBack : (lib.fields (readBack w n h hash organizationId ip m)).take 13 =
      (lib.fields (w.placed n h)).take 13 := by
  have hact : (readBack w n h hash organizationId ip m).activityId = w.activityId :=
    asU8_asI16 w.activityId
  have hsev : (readBack w n h hash organizationId ip m).severityId = w.severityId :=
    asU8_asI16 w.severityId
  have hstatus : (readBack w n h hash organizationId ip m).statusId = w.statusId :=
    asU8_asI16 w.statusId
  unfold Crates.fields
  rw [hact, hsev, hstatus, ← horg]
  rfl

theorem fields_readBack (hip : ip.getD "" = w.actor.ipAddress.getD "")
    (hnetwork : ((w.networkId.bind parseStr).map text).getD "" = w.networkId.getD "") :
    lib.fields (readBack w n h hash organizationId ip m) = lib.fields (w.placed n h) := by
  rw [fields_eq, take_fields_readBack horg]
  exact congrArg₂ (fun address network => (lib.fields (w.placed n h)).take 13 ++
    [address, w.target.targetType, w.target.targetId, network, w.groupId.getD "",
      w.traceId.getD ""]) hip hnetwork

/-- The texts of the event and of its row are the same only if the event comes back as it was. -/
theorem of_canonicalV1_readBack (hcast : db.castIp w.actor.ipAddress = some ip)
    (heq : lib.canonicalV1 (readBack w n h hash organizationId ip m) h =
      lib.canonicalV1 (w.placed n h) h) : ip.getD "" = w.actor.ipAddress.getD "" ∧
      ((w.networkId.bind parseStr).map text).getD "" = w.networkId.getD "" ∧
      sortFields m = sortFields w.metadata := by
  obtain ⟨hip, hip'⟩ := bar_not_mem_castIp hcast
  have hlist := congrArg String.toList heq
  rw [Crates.toList_canonicalV1, Crates.toList_canonicalV1, fields_eq,
    take_fields_readBack horg] at hlist
  rw [map_append, append_assoc] at hlist
  have haddress := Joined.intercalate_append_cancel _ (by simp) (by simp) hlist
  obtain ⟨haddress, hrest⟩ := Joined.append_sep_inj_left hip hip' haddress
  have hnetwork := Joined.intercalate_append_cancel [w.target.targetType.toList,
    w.target.targetId.toList] (cons_ne_nil _ _) (cons_ne_nil _ _) hrest
  rcases Joined.eq_or_part_of_intercalate_eq bar_not_mem_network [(w.groupId.getD "").toList,
    (w.traceId.getD "").toList] hnetwork.symm with ⟨hnet, htext⟩ | ⟨a, hpart⟩
  · exact ⟨String.toList_inj.1 haddress, (String.toList_inj.1 hnet).symm,
      (JsonValue.text_inj lib.number_text htext).symm⟩
  · exact absurd rfl (JsonValue.text_ne_of_append (by decide) (by decide) (by decide)
      lib.number_text hpart (sortFields w.metadata))

omit horg

variable {e : AuditEvent ν} {row : StoredRow ν}

theorem of_insert (hrow : db.insert e = some row) :
    row.organizationId = e.organizationId ∧ row.columns.sequenceNumber = e.sequenceNumber.getD 0 ∧
      row.columns.entryHash = e.entryHash.getD "" := by
  obtain ⟨ip, -, hmap⟩ := bind_eq_some_iff.1 hrow
  obtain ⟨m, -, rfl⟩ := map_eq_some_iff.1 hmap
  exact ⟨rfl, rfl, rfl⟩

/-- The check accepts what it has to if the events are stable, and only then if tags do not
collide. -/
def Crates.Reveals (lib : Crates ν) (hmacKey : List UInt8) (stable accepted : Prop) : Prop :=
  (stable → accepted) ∧ (Function.Injective (lib.hmac hmacKey) → accepted → stable)

theorem Crates.Reveals.and {a b c d : Prop} (h : lib.Reveals hmacKey a b)
    (h' : lib.Reveals hmacKey c d) : lib.Reveals hmacKey (a ∧ c) (b ∧ d) :=
  ⟨fun hac => ⟨h.1 hac.1, h'.1 hac.2⟩, fun hinj hbd => ⟨h.2 hinj hbd.1, h'.2 hinj hbd.2⟩⟩

theorem passes_stored (horg : w.organizationId = organizationId)
    (hrow : db.insert ((w.placed n h).tagged
      (lib.computeEntryHash hmacKey (lib.canonicalV1 (w.placed n h) h))) = some row) :
    lib.Reveals hmacKey (Stable db w)
      (∃ time, lib.Passes hmacKey organizationId n h row.columns time) := by
  obtain ⟨ip, hcast, hmap⟩ := bind_eq_some_iff.1 hrow
  obtain ⟨m, hjsonb, rfl⟩ := map_eq_some_iff.1 hmap
  constructor
  · intro hstable
    refine ⟨_, rfl, rfl, RangedTimestamp.fromMicrosecond_wholeSecond w.time, rfl, ?_⟩
    refine congrArg (lib.computeEntryHash hmacKey) (lib.canonicalV1_congr ?_ ?_ h)
    · exact fields_readBack horg ((castIp_eq_iff hcast).2 hstable.ipAddress)
        (network_eq_iff.2 hstable.network)
    · exact hstable.metadata m hjsonb
  · rintro hinj ⟨time, hpasses⟩
    have htime : w.time.wholeSecond = time := some.inj
      ((RangedTimestamp.fromMicrosecond_wholeSecond w.time).symm.trans hpasses.representable)
    subst htime
    obtain ⟨hip, hnetwork, hmetadata⟩ := of_canonicalV1_readBack horg hcast
      (lib.computeEntryHash_injective hinj hpasses.entry)
    refine ⟨(castIp_eq_iff hcast).1 hip, network_eq_iff.1 hnetwork, fun m' hm' => ?_⟩
    rw [some.inj (hm'.symm.trans hjsonb)]
    exact hmetadata

end

/-! ### A batch -/

theorem mapM_cons_eq_some {α : Type*} {f : α → Option β} {a : α} {l : List α}
    {bs : List β} (h : (a :: l).mapM f = some bs) :
    ∃ b rest, f a = some b ∧ l.mapM f = some rest ∧ bs = b :: rest := by
  rw [mapM_cons] at h
  obtain ⟨b, hb, h⟩ := bind_eq_some_iff.1 h
  obtain ⟨rest, hrest, h⟩ := bind_eq_some_iff.1 h
  exact ⟨b, rest, hb, hrest, (some.inj h).symm⟩

/-- The rows are numbered from `seq` on. -/
def Numbered : Int → List (AuditVerifyRow ν) → Prop
  | _, [] => True
  | seq, row :: rows => row.sequenceNumber = seq ∧ Numbered (seq + 1) rows

section

variable {lib : Crates ν} {db : Postgres ν} {hmacKey : List UInt8} {organizationId h : String}
  {events : List (AuditEvent ν)} {rows : List (StoredRow ν)}

/-- A stored batch continues the chain. -/
theorem linked_stored {seq : Int} (horg : ∀ e ∈ events, e.organizationId = organizationId)
    (hrows : (lib.chainEvents hmacKey events seq h).mapM db.insert = some rows) :
    lib.Reveals hmacKey (∀ e ∈ events, Stable db e)
        (lib.Linked hmacKey organizationId (seq + 1) h (rows.map (·.columns))) ∧
      Numbered (seq + 1) (rows.map (·.columns)) ∧
      ∀ row ∈ rows, row.organizationId = organizationId := by
  induction events generalizing seq h rows with
  | nil =>
    cases hrows
    exact ⟨⟨fun _ => trivial, fun _ _ e he => absurd he not_mem_nil⟩, trivial,
      fun row hrow => absurd hrow not_mem_nil⟩
  | cons w events ih =>
    obtain ⟨row, rest, hrow, hrest, rfl⟩ := mapM_cons_eq_some hrows
    obtain ⟨hrowOrg, hseq, hhash⟩ := of_insert hrow
    have hw := passes_stored (horg w mem_cons_self) hrow
    obtain ⟨hevents, hnumbered, hrestOrg⟩ := ih (fun e he => horg e (mem_cons_of_mem _ he)) hrest
    rw [forall_mem_cons, forall_mem_cons, map_cons, Crates.Linked, hhash]
    exact ⟨hw.and hevents, ⟨hseq, hnumbered⟩, hrowOrg.trans (horg w mem_cons_self), hrestOrg⟩

end

/-! ### The table -/

/-- The tag that the chain ends with. -/
def endHash : String → List (AuditVerifyRow ν) → String
  | h, [] => h
  | _, row :: rows => endHash row.entryHash rows

theorem endHash_concat (h : String) (rows : List (AuditVerifyRow ν)) (row : AuditVerifyRow ν) :
    endHash h (rows ++ [row]) = row.entryHash := by
  induction rows generalizing h with
  | nil => rfl
  | cons r rows ih => exact ih r.entryHash

theorem add_length_cons (seq : Int) (row : AuditVerifyRow ν) (rows : List (AuditVerifyRow ν)) :
    seq + (row :: rows).length = seq + 1 + rows.length := by
  rw [length_cons]
  omega

theorem numbered_append (rows rows' : List (AuditVerifyRow ν)) (seq : Int) :
    Numbered seq (rows ++ rows') ↔ Numbered seq rows ∧ Numbered (seq + rows.length) rows' := by
  induction rows generalizing seq with
  | nil => simp [Numbered]
  | cons row rows ih => rw [cons_append, Numbered, Numbered, ih, add_length_cons, and_assoc]

variable {organizationId : String}

theorem linked_append {lib : Crates ν} {hmacKey : List UInt8}
    (rows rows' : List (AuditVerifyRow ν)) (seq : Int) (h : String) :
    lib.Linked hmacKey organizationId seq h (rows ++ rows') ↔
      lib.Linked hmacKey organizationId seq h rows ∧
        lib.Linked hmacKey organizationId (seq + rows.length) (endHash h rows) rows' := by
  induction rows generalizing seq h with
  | nil => simp [Crates.Linked, endHash]
  | cons row rows ih =>
    rw [cons_append, Crates.Linked, Crates.Linked, ih, add_length_cons, and_assoc, endHash]

section

variable {rows : List (AuditVerifyRow ν)} {row : AuditVerifyRow ν} {seq : Int}

theorem Numbered.bounds (hrows : Numbered seq rows) (hrow : row ∈ rows) :
    seq ≤ row.sequenceNumber ∧ row.sequenceNumber < seq + rows.length := by
  induction rows generalizing seq with
  | nil => exact absurd hrow not_mem_nil
  | cons r rows ih =>
    rw [length_cons]
    rcases mem_cons.1 hrow with rfl | hrow
    · rw [hrows.1]
      omega
    · have htail := ih hrows.2 hrow
      omega

theorem Numbered.pairwise (hrows : Numbered seq rows) :
    rows.Pairwise fun a b => a.sequenceNumber < b.sequenceNumber := by
  induction rows generalizing seq with
  | nil => exact Pairwise.nil
  | cons r rows ih =>
    refine pairwise_cons.2 ⟨fun b hb => ?_, ih hrows.2⟩
    have hbounds := hrows.2.bounds hb
    rw [hrows.1]
    omega

variable {table : AuditTable ν} {organizationId : String}

variable (hrows : Numbered 1 (table.rowsOf organizationId))

include hrows

theorem selectRows_eq : table.selectRows organizationId = table.rowsOf organizationId :=
  (hrows.pairwise.imp le_of_lt).insertionSort_eq

theorem selectLast_eq : (table.selectLast organizationId).getD (0, genesisHash) =
      (((table.rowsOf organizationId).length : Int),
        endHash genesisHash (table.rowsOf organizationId)) := by
  unfold selectLast
  rw [selectRows_eq hrows]
  generalize table.rowsOf organizationId = rows at hrows
  rcases eq_nil_or_concat rows with rfl | ⟨front, last, rfl⟩
  · rfl
  · rw [concat_eq_append] at hrows ⊢
    obtain ⟨-, hlast, -⟩ := (numbered_append front [last] 1).1 hrows
    rw [getLast?_concat, endHash_concat, length_append, length_singleton]
    refine Prod.ext ?_ rfl
    rw [map_some, getD_some]
    push_cast
    omega

end

/-! ### Runs -/

/-- The invariant of the table, when `events` were written for the organization. -/
structure Stored (lib : Crates ν) (db : Postgres ν) (hmacKey : List UInt8) (table : AuditTable ν)
    (organizationId : String) (events : List (AuditEvent ν)) : Prop where
  numbered : Numbered 1 (table.rowsOf organizationId)
  linked : lib.Reveals hmacKey (∀ e ∈ events, Stable db e)
    (lib.Linked hmacKey organizationId 1 genesisHash (table.rowsOf organizationId))

/-- The events of an organization. -/
def written (organizationId : String) (batches : List (OrgBatch ν)) : List (AuditEvent ν) :=
  (batches.filter (·.organizationId == organizationId)).flatMap (·.events)

variable {e : AuditEvent ν} {batches : List (OrgBatch ν)}

theorem mem_written : e ∈ written organizationId batches ↔
      ∃ batch ∈ batches, batch.organizationId = organizationId ∧ e ∈ batch.events := by
  simp [written, and_assoc]

theorem written_cons (organizationId : String) (batch : OrgBatch ν) (batches : List (OrgBatch ν)) :
    written organizationId (batch :: batches) =
      (if batch.organizationId = organizationId then batch.events else []) ++
        written organizationId batches := by
  unfold written
  split_ifs with horg
  · rw [filter_cons_of_pos (by simpa using horg), flatMap_cons]
  · rw [filter_cons_of_neg (by simpa using horg), nil_append]

section

variable {lib : Crates ν} {db : Postgres ν} {hmacKey : List UInt8} {organizationId : String}
  {table table' : AuditTable ν} {events : List (AuditEvent ν)}

theorem stored_nil : Stored lib db hmacKey [] organizationId [] where
  numbered := trivial
  linked := ⟨fun _ => trivial, fun _ _ _ he => absurd he not_mem_nil⟩

variable {rows : AuditTable ν} {batch : OrgBatch ν} {batches : List (OrgBatch ν)}

theorem rowsOf_append_of_eq (hrows : ∀ row ∈ rows, row.organizationId = organizationId) :
    rowsOf (table ++ rows) organizationId =
      table.rowsOf organizationId ++ rows.map (·.columns) := by
  have hfilter : rows.filter (·.organizationId == organizationId) = rows :=
    filter_eq_self.2 fun row hrow => beq_iff_eq.2 (hrows row hrow)
  unfold rowsOf
  rw [filter_append, map_append, hfilter]

theorem rowsOf_append_of_ne (hrows : ∀ row ∈ rows, row.organizationId ≠ organizationId) :
    rowsOf (table ++ rows) organizationId = table.rowsOf organizationId := by
  have hfilter : rows.filter (·.organizationId == organizationId) = [] :=
    filter_eq_nil_iff.2 fun row hrow heq => hrows row hrow (beq_iff_eq.1 heq)
  unfold rowsOf
  rw [filter_append, hfilter, append_nil]

theorem flushOrgBatch_eq_some (hflush : flushOrgBatch lib db hmacKey table batch = some table') :
    ∃ rows, table' = table ++ rows ∧ (lib.chainEvents hmacKey batch.events
      ((table.selectLast batch.organizationId).getD (0, genesisHash)).1
      ((table.selectLast batch.organizationId).getD (0, genesisHash)).2).mapM db.insert =
        some rows := by
  unfold flushOrgBatch at hflush
  split_ifs at hflush with hempty
  · refine ⟨[], ?_, ?_⟩
    · rw [append_nil]
      exact (some.inj hflush).symm
    · rw [isEmpty_iff.1 hempty]
      rfl
  · obtain ⟨rows, hrows, rfl⟩ := map_eq_some_iff.1 hflush
    exact ⟨rows, rfl, hrows⟩

/-- A batch keeps the invariant. -/
theorem Stored.flush (hstored : Stored lib db hmacKey table organizationId events)
    (hflush : flushOrgBatch lib db hmacKey table batch = some table') :
    Stored lib db hmacKey table' organizationId
      (events ++ if batch.organizationId = organizationId then batch.events else []) := by
  obtain ⟨rows, rfl, hrows⟩ := flushOrgBatch_eq_some hflush
  split_ifs with horg
  · subst horg
    rw [selectLast_eq hstored.numbered] at hrows
    obtain ⟨hlinked, hnumbered, hrowsOrg⟩ := linked_stored batch.single hrows
    rw [add_comm] at hnumbered hlinked
    have hrowsOf : rowsOf (table ++ rows) batch.organizationId =
        table.rowsOf batch.organizationId ++ rows.map (·.columns) := rowsOf_append_of_eq hrowsOrg
    constructor
    · rw [hrowsOf, numbered_append]
      exact ⟨hstored.numbered, hnumbered⟩
    · rw [hrowsOf, linked_append, forall_mem_append]
      exact hstored.linked.and hlinked
  · have hrowsOrg := (linked_stored batch.single hrows).2.2
    have hrowsOf : rowsOf (table ++ rows) organizationId = table.rowsOf organizationId :=
      rowsOf_append_of_ne fun row hrow heq => horg ((hrowsOrg row hrow).symm.trans heq)
    rw [append_nil]
    exact ⟨hrowsOf ▸ hstored.numbered, hrowsOf ▸ hstored.linked⟩

/-- All batches keep the invariant. -/
theorem Stored.flushAll (hstored : Stored lib db hmacKey table organizationId events)
    (hflush : flushOrgBatches lib db hmacKey table batches = some table') :
    Stored lib db hmacKey table' organizationId (events ++ written organizationId batches) := by
  induction batches generalizing table events with
  | nil =>
    cases hflush
    rw [written, filter_nil, flatMap_nil, append_nil]
    exact hstored
  | cons batch batches ih =>
    obtain ⟨table₁, hfirst, hrest⟩ := bind_eq_some_iff.1 hflush
    have hfinal := ih (hstored.flush hfirst) hrest
    rw [append_assoc] at hfinal
    rw [written_cons]
    exact hfinal

/-- An untouched table verifies if the events came back as they were, and only then if tags do not
collide. -/
theorem untampered_verifies (lib : Crates ν) (db : Postgres ν) (hmacKey : List UInt8)
    (batches : List (OrgBatch ν)) (table : AuditTable ν)
    (hstore : flushOrgBatches lib db hmacKey [] batches = some table) (organizationId : String) :
    ((∀ batch ∈ batches, batch.organizationId = organizationId → ∀ e ∈ batch.events, Stable db e) →
      NoBreak (lib.verifyOrgChain hmacKey organizationId (table.selectRows organizationId))) ∧
    (Function.Injective (lib.hmac hmacKey) →
      NoBreak (lib.verifyOrgChain hmacKey organizationId (table.selectRows organizationId)) →
      ∀ batch ∈ batches, batch.organizationId = organizationId → ∀ e ∈ batch.events,
        Stable db e) := by
  have hnil : Stored lib db hmacKey [] organizationId [] := stored_nil
  have hstored := hnil.flushAll hstore
  rw [selectRows_eq hstored.numbered, Crates.noBreak_verifyOrgChain]
  refine ⟨fun hstable => hstored.linked.1 fun e he => ?_,
    fun hinj hlinked batch hbatch horg e he => ?_⟩
  · obtain ⟨batch, hbatch, horg, he⟩ := mem_written.1 he
    exact hstable batch hbatch horg e he
  · exact hstored.linked.2 hinj hlinked e (mem_written.2 ⟨batch, hbatch, horg, he⟩)

end

/-! ### A batch of one event -/

namespace Demo

/-- Addresses and values come back as they are. -/
def postgres : Postgres Nat where
  host s := if '|' ∈ s.toList then none else some s
  bar_not_mem_address := by
    intro s t h
    split_ifs at h with hbar
    exact hbar
  bar_not_mem_host := by
    intro s t h
    split_ifs at h with hbar
    rw [← Option.some.inj h]
    exact hbar
  jsonb := some

/-- An event of `org` from an address, and one in the given network. -/
def batch (networkId : String) : OrgBatch Nat where
  organizationId := "org"
  events := [registered "registered", joined networkId]
  single e he := by
    rcases List.mem_pair.1 he with rfl | rfl <;> rfl

/-- The table with these events. -/
def table (networkId : String) : AuditTable Nat :=
  (flushOrgBatches crates postgres [] [] [batch networkId]).getD []

theorem untampered_verifies_registered :
    NoBreak (crates.verifyOrgChain [] "org" ((table network).selectRows "org")) := by
  refine (untampered_verifies crates postgres [] [batch network] (table network) rfl "org").1
    fun b hb _ e he => ?_
  rw [mem_singleton.1 hb] at he
  rcases List.mem_pair.1 he with rfl | rfl
  · refine ⟨?_, nofun, fun m hm => by rw [some.inj hm]⟩
    rintro _ ⟨⟩ -
    rfl
  · refine ⟨nofun, ?_, fun m hm => by rw [some.inj hm]⟩
    rintro _ ⟨⟩ -
    exact ⟨42, by decide, by decide⟩

/-- A network that is not a UUID is signed, but not stored. -/
theorem untampered_broken :
    flushOrgBatches crates postgres [] [] [batch "default"] = some (table "default") ∧
      ¬ NoBreak (crates.verifyOrgChain [] "org" ((table "default").selectRows "org")) := by
  have hstore : flushOrgBatches crates postgres [] [] [batch "default"] =
      some (table "default") := rfl
  have hnil : Stored crates postgres [] [] "org" [] := stored_nil
  have hstored := hnil.flushAll hstore
  refine ⟨hstore, fun hverify => ?_⟩
  rw [Crates.noBreak_verifyOrgChain] at hverify
  have hstable := hstored.linked.2 (fun _ _ h => h) hverify _ (mem_written.2
    ⟨batch "default", mem_singleton.2 rfl, rfl, List.mem_pair.2 (.inr rfl)⟩)
  have hnone : parseStr "default" = none := by decide
  obtain ⟨u, hparse, -⟩ := hstable.network "default" rfl (by decide)
  exact nomatch hnone.symm.trans hparse

end Demo

end Tunnet.Audit

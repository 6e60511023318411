import Tunnet.Packet.Fragment
import Tunnet.Util.Run

/-!
# What the first-fragment cache answers

`cached` is what the table knows of a datagram at a time. Looking up a later fragment answers with
it and forgets nothing that has not expired (`lookup_eq`); a first fragment replaces it
(`cached_remember`), since room is made for one more entry. Over any run of the table, its entries
are those of the last first fragments (`resolve_remembered`).
-/

namespace Tunnet.FragmentTable

open List Option

/-- The header remembered for a datagram, unless it has expired. -/
def cached (key : FragKey) (now : Instant) (t : FragmentTable) : Option CachedTransport :=
  ((t.map.lookup key).filter (now < ·.expires)).map (·.transport)

/-- A table as the engines have it. -/
structure Sound (t : FragmentTable) : Prop where
  cap : t.cap = maxFragmentEntries
  ttl : t.ttl = fragmentTtl
  size : t.map.entries.length ≤ t.cap

/-- `t'` is the table without some of its entries. -/
structure Shrinks (t t' : FragmentTable) : Prop where
  cap : t'.cap = t.cap
  ttl : t'.ttl = t.ttl
  entries : t'.map.entries.Sublist t.map.entries

variable {t t' : FragmentTable} {key : FragKey} {now later : Instant} {packet : Packet}
  {transport : CachedTransport}

theorem cached_of_le (hle : now ≤ later) (h : t.cached key later = some transport) :
    t.cached key now = some transport := by
  unfold cached at *
  obtain ⟨e, he, rfl⟩ := map_eq_some_iff.1 h
  obtain ⟨hlookup, hlater⟩ := filter_eq_some_iff.1 he
  rw [hlookup, filter_some, if_pos, map_some]
  rw [decide_eq_true_eq] at hlater ⊢
  exact lt_of_le_of_lt hle hlater

/-! ### Expired entries -/

theorem lookup_evictExpired (t : FragmentTable) (now : Instant) (key : FragKey) :
    (t.evictExpired now).map.lookup key = (t.map.lookup key).filter (now < ·.expires) := by
  ext e
  rw [filter_eq_some_iff, ← mem_def, ← mem_def, AList.mem_lookup_iff, AList.mem_lookup_iff]
  simp [evictExpired]

theorem cached_evictExpired (hle : now ≤ later) :
    (t.evictExpired now).cached key later = t.cached key later := by
  unfold cached
  rw [lookup_evictExpired]
  cases t.map.lookup key with
  | none => rfl
  | some e =>
    by_cases hlater : later < e.expires
    · have hnow : now < e.expires := lt_of_le_of_lt hle hlater
      simp [Option.filter, hnow]
    · by_cases hnow : now < e.expires <;> simp [Option.filter, hlater, hnow]

theorem shrinks_evictExpired (t : FragmentTable) (now : Instant) : t.Shrinks (t.evictExpired now) :=
  ⟨rfl, rfl, filter_sublist⟩

theorem Shrinks.size (h : t.Shrinks t') (hsize : t.map.entries.length ≤ t.cap) :
    t'.map.entries.length ≤ t'.cap := by
  rw [h.cap]
  exact h.entries.length_le.trans hsize

theorem Sound.of_shrinks (h : t.Sound) (hshrinks : t.Shrinks t') : t'.Sound :=
  ⟨hshrinks.cap.trans h.cap, hshrinks.ttl.trans h.ttl, hshrinks.size h.size⟩

/-! ### Lookup -/

theorem lookup_eq (hkey : keyFor packet = some key) :
    t.lookup now packet = (t.evictExpired now, t.cached key now) := by
  unfold lookup cached
  rw [hkey]
  dsimp only
  rw [lookup_evictExpired]
  cases hfound : (t.map.lookup key).filter (now < ·.expires) with
  | none => rfl
  | some =>
    have hlive := (filter_eq_some_iff.1 hfound).2
    rw [decide_eq_true_eq] at hlive
    dsimp only
    rw [if_neg (not_le.2 hlive), map_some]

theorem shrinks_lookup (t : FragmentTable) (now : Instant) (packet : Packet) :
    t.Shrinks (t.lookup now packet).1 := by
  cases hkey : keyFor packet with
  | none =>
    rw [lookup, hkey]
    exact ⟨rfl, rfl, Sublist.refl _⟩
  | some =>
    rw [lookup_eq hkey]
    exact t.shrinks_evictExpired now

/-! ### First fragments -/

/-- What a first fragment tells about its datagram. -/
def first (packet : Packet) : Option (FragKey × CachedTransport) :=
  if packet.fragmentation.isFirst then
    (keyFor packet).bind fun key =>
      (CachedTransport.fromTransport packet.transport).map (key, ·)
  else none

theorem first_of_isLaterFragment (h : packet.transport.isLaterFragment) : first packet = none := by
  have hnone : CachedTransport.fromTransport packet.transport = none := by
    cases htransport : packet.transport <;> rw [htransport] at h <;> cases h
    rfl
  unfold first
  rw [hnone]
  cases keyFor packet <;> simp

theorem shrinks_evictOldest (t : FragmentTable) : t.Shrinks t.evictOldest := by
  unfold evictOldest
  split
  · exact ⟨rfl, rfl, Sublist.refl _⟩
  · exact ⟨rfl, rfl, kerase_sublist _ _⟩

theorem Sound.not_isFullFor_evictOldest (h : t.Sound) : t.evictOldest.isFullFor key = false := by
  have hlt : t.evictOldest.map.entries.length < t.evictOldest.cap := by
    unfold evictOldest
    cases hmin : t.map.entries.argmin fun e => e.2.expires with
    | none =>
      rw [argmin_eq_none.1 hmin, h.cap]
      decide
    | some e =>
      have hmem : e ∈ t.map.entries := argmin_mem hmin
      have herase : (t.map.erase e.1).entries.length = t.map.entries.length - 1 :=
        length_eraseP_of_mem hmem (by simp)
      have hpos := length_pos_of_mem hmem
      have hsize := h.size
      dsimp only
      omega
  unfold isFullFor
  rw [Bool.and_eq_false_imp, decide_eq_true_eq]
  omega

theorem length_insert_le (hsize : t.map.entries.length ≤ t.cap)
    (hroom : t.isFullFor key = false) (e : Entry) :
    (t.map.insert key e).entries.length ≤ t.cap := by
  have hinsert : (t.map.insert key e).entries.length = (t.map.entries.kerase key).length + 1 := rfl
  cases hkey : t.map.lookup key with
  | none =>
    have hle : (t.map.entries.kerase key).length ≤ t.map.entries.length :=
      (kerase_sublist key t.map.entries).length_le
    simp only [isFullFor, hkey, isNone_none, Bool.and_true, decide_eq_false_iff_not] at hroom
    omega
  | some old =>
    have hmem : (⟨key, old⟩ : Sigma fun _ => Entry) ∈ t.map.entries := AList.mem_lookup_iff.1 hkey
    have herase : (t.map.entries.kerase key).length = t.map.entries.length - 1 :=
      length_eraseP_of_mem hmem (by simp)
    have hpos := length_pos_of_mem hmem
    omega

/-- The table with room for an entry with this key. -/
def roomFor (key : FragKey) (now : Instant) (t : FragmentTable) : FragmentTable :=
  let t := t.evictExpired now
  if t.isFullFor key then t.evictOldest else t

theorem shrinks_roomFor (t : FragmentTable) (key : FragKey) (now : Instant) :
    t.Shrinks (t.roomFor key now) := by
  have hexpired := t.shrinks_evictExpired now
  unfold roomFor
  dsimp only
  split_ifs
  · have holdest := (t.evictExpired now).shrinks_evictOldest
    exact ⟨holdest.cap.trans hexpired.cap, holdest.ttl.trans hexpired.ttl,
      holdest.entries.trans hexpired.entries⟩
  · exact hexpired

theorem Sound.not_isFullFor_roomFor (h : t.Sound) : (t.roomFor key now).isFullFor key = false := by
  unfold roomFor
  dsimp only
  split_ifs with hfull
  · exact (h.of_shrinks (t.shrinks_evictExpired now)).not_isFullFor_evictOldest
  · simpa using hfull

theorem remember_eq (now : Instant) (packet : Packet) (t : FragmentTable) :
    t.remember now packet = match first packet with
      | none => t
      | some (key, transport) =>
        let t := t.roomFor key now
        if t.isFullFor key then t
        else { t with map := t.map.insert key ⟨transport, now + t.ttl⟩ } := by
  unfold remember first
  cases packet.fragmentation.isFirst <;> cases keyFor packet <;>
    cases CachedTransport.fromTransport packet.transport <;> rfl

theorem Sound.cached_remember (h : t.Sound) (hfirst : packet.fragmentation.isFirst)
    (hkey : keyFor packet = some key)
    (htransport : CachedTransport.fromTransport packet.transport = some transport) :
    (t.remember now packet).cached key now = some transport := by
  have hpacket : first packet = some (key, transport) := by simp [first, hfirst, hkey, htransport]
  have httl := (h.of_shrinks (t.shrinks_roomFor key now)).ttl
  rw [remember_eq, hpacket]
  dsimp only
  rw [if_neg (by simp [h.not_isFullFor_roomFor]), cached, httl]
  simp [fragmentTtl, seconds]

/-- A first fragment is stored, or there is no room for it and no entry with its key. -/
theorem remember_cases (now : Instant) (packet : Packet) (t : FragmentTable) :
    first packet = none ∧ t.remember now packet = t ∨
      ∃ key transport t', first packet = some (key, transport) ∧ t.Shrinks t' ∧
        (t'.map.lookup key = none ∧ t.remember now packet = t' ∨
          t'.isFullFor key = false ∧ t.remember now packet =
            { t' with map := t'.map.insert key ⟨transport, now + t'.ttl⟩ }) := by
  rw [remember_eq]
  cases first packet with
  | none => exact .inl ⟨rfl, rfl⟩
  | some p =>
    refine .inr ⟨p.1, p.2, t.roomFor p.1 now, rfl, t.shrinks_roomFor p.1 now, ?_⟩
    cases hfull : (t.roomFor p.1 now).isFullFor p.1 with
    | false => exact .inr ⟨rfl, by simp [hfull]⟩
    | true =>
      have hnone := (Bool.and_eq_true_iff.1 hfull).2
      exact .inl ⟨isNone_iff_eq_none.1 hnone, by simp [hfull]⟩

theorem Sound.remember (h : t.Sound) (packet : Packet) : (t.remember now packet).Sound := by
  obtain ⟨-, heq⟩ | ⟨key, transport, t', -, hshrinks, ⟨-, heq⟩ | ⟨hroom, heq⟩⟩ :=
    remember_cases now packet t <;> rw [heq]
  · exact h
  · exact h.of_shrinks hshrinks
  · have hsound := h.of_shrinks hshrinks
    exact ⟨hsound.cap, hsound.ttl, length_insert_le hsound.size hroom _⟩

theorem Sound.resolve (h : t.Sound) (packet : Packet) : (t.resolve now packet).1.Sound := by
  unfold FragmentTable.resolve
  split_ifs
  · exact h.of_shrinks (t.shrinks_lookup now packet)
  · exact h.remember packet

theorem shrinks_clear (t : FragmentTable) : t.Shrinks t.clear := ⟨rfl, rfl, nil_sublist _⟩

theorem Sound.clear (h : t.Sound) : t.clear.Sound := h.of_shrinks t.shrinks_clear

theorem Sound.default : Sound .default := ⟨rfl, rfl, Nat.zero_le _⟩

/-! ### Runs of the table -/

inductive Call
  | remember (now : Instant) (packet : Packet)
  | resolve (now : Instant) (packet : Packet)
  | clear

def step (t : FragmentTable) : Call → FragmentTable × Option ResolvedL4
  | .remember now packet => (t.remember now packet, none)
  | .resolve now packet => t.resolve now packet
  | .clear => (t.clear, none)

/-- The headers that first fragments told, and when. -/
abbrev Told := FragKey → Option (CachedTransport × Instant)

def Told.note (told : Told) (now : Instant) (packet : Packet) : Told :=
  match first packet with
  | none => told
  | some (key, transport) => Function.update told key (some (transport, now))

/-- What the last first fragment of each key told since the table was cleared. -/
def remembered : List (Call × Option ResolvedL4) → Told
  | [] => fun _ => none
  | (.remember now packet, _) :: h => (remembered h).note now packet
  | (.resolve now packet, _) :: h => (remembered h).note now packet
  | (.clear, _) :: _ => fun _ => none

/-- A table with this capacity and time to live, whose entries are among those told. -/
structure Accurate (cap ttl : Nat) (told : Told) (t : FragmentTable) : Prop where
  cap : t.cap = cap
  ttl : t.ttl = ttl
  size : t.map.entries.length ≤ t.cap
  told : ∀ {key e}, t.map.lookup key = some e →
    ∃ seen, told key = some (e.transport, seen) ∧ e.expires = seen + t.ttl

variable {cap ttl : Nat} {told : Told} {h : List (Call × Option ResolvedL4)}

theorem Accurate.of_shrinks (h : Accurate cap ttl told t) (hshrinks : t.Shrinks t') :
    Accurate cap ttl told t' := by
  refine ⟨hshrinks.cap.trans h.cap, hshrinks.ttl.trans h.ttl, hshrinks.size h.size,
    fun hlookup => ?_⟩
  rw [hshrinks.ttl]
  exact h.told (AList.mem_lookup_iff.2 (hshrinks.entries.subset (AList.mem_lookup_iff.1 hlookup)))

theorem Accurate.remember (h : Accurate cap ttl told t) (now : Instant) (packet : Packet) :
    Accurate cap ttl (told.note now packet) (t.remember now packet) := by
  obtain ⟨hfirst, heq⟩ | ⟨key, transport, t', hfirst, hshrinks, hroom⟩ :=
    remember_cases now packet t
  · rw [heq, Told.note, hfirst]
    exact h
  rw [Told.note, hfirst]
  have h' := h.of_shrinks hshrinks
  obtain ⟨hnone, heq⟩ | ⟨hroom, heq⟩ := hroom <;> rw [heq]
  · refine ⟨h'.cap, h'.ttl, h'.size, fun {k e} hlookup => ?_⟩
    have hne : k ≠ key := by
      rintro rfl
      rw [hnone] at hlookup
      cases hlookup
    simpa only [Function.update_of_ne hne] using h'.told hlookup
  · refine ⟨h'.cap, h'.ttl, length_insert_le h'.size hroom _, fun {k e} hlookup => ?_⟩
    by_cases hk : k = key
    · subst hk
      rw [AList.lookup_insert, some.injEq] at hlookup
      subst hlookup
      exact ⟨now, by simp, rfl⟩
    · rw [AList.lookup_insert_ne hk] at hlookup
      simpa only [Function.update_of_ne hk] using h'.told hlookup

theorem Accurate.step (hinv : Accurate cap ttl (remembered h) t) (call : Call) :
    Accurate cap ttl (remembered ((call, (t.step call).2) :: h)) (t.step call).1 := by
  cases call with
  | remember now packet => exact hinv.remember now packet
  | clear => exact ⟨hinv.cap, hinv.ttl, Nat.zero_le _, nofun⟩
  | resolve now packet =>
    unfold FragmentTable.step remembered resolve
    dsimp only
    split_ifs with hlater
    · rw [Told.note, first_of_isLaterFragment hlater]
      exact hinv.of_shrinks (t.shrinks_lookup now packet)
    · exact hinv.remember now packet

/-- The table never holds more than its capacity, and a later fragment is taken for what the last
first fragment with its key told, no longer ago than entries live and not cleared since. -/
theorem resolve_remembered (hrun : Run step (fun _ _ _ => True) (new cap ttl) h t) :
    t.map.entries.length ≤ cap ∧ ∀ now packet l4, packet.transport.isLaterFragment →
      (t.resolve now packet).2 = some l4 → ∃ key transport seen, keyFor packet = some key ∧
        remembered h key = some (transport, seen) ∧ now < seen + ttl ∧
        l4 = transport.toResolved := by
  have hinv := hrun.invariant (I := fun h => Accurate cap ttl (remembered h))
    ⟨rfl, rfl, Nat.zero_le _, by simp [new]⟩ fun _ _ call hinv _ => hinv.step call
  refine ⟨hinv.cap ▸ hinv.size, fun now packet l4 hlater hresolve => ?_⟩
  rw [resolve, if_pos hlater] at hresolve
  cases hkey : keyFor packet with
  | none =>
    rw [lookup, hkey] at hresolve
    cases hresolve
  | some key =>
    rw [lookup_eq hkey] at hresolve
    obtain ⟨transport, hcached, rfl⟩ := map_eq_some_iff.1 hresolve
    obtain ⟨e, he, rfl⟩ := map_eq_some_iff.1 hcached
    obtain ⟨hentry, hlive⟩ := filter_eq_some_iff.1 he
    obtain ⟨seen, htold, hexpires⟩ := hinv.told hentry
    rw [decide_eq_true_eq, hexpires, hinv.ttl] at hlive
    exact ⟨key, e.transport, seen, rfl, htold, hlive, rfl⟩

namespace Demo

/-- A fragment of a datagram from 10.0.0.1 to 10.0.0.2. -/
def fragment (fragmentation : Fragmentation) (transport : Transport) : Packet :=
  ⟨[], 0, .v4 (.new 10 0 0 1) (.new 10 0 0 2) 17 7 20 64, fragmentation, transport⟩

/-- A table that has seen the first fragment of datagram 7. -/
def seven : List (Call × Option ResolvedL4) × FragmentTable :=
  exec step [] (new 1 5) [.remember 3 (fragment (.first 7 true) (.udp 40 53 8))]

theorem resolve_seven : seven.2.map.entries.length ≤ 1 ∧ ∃ key transport seen,
    keyFor (fragment (.later 7 1 false) (.laterFragment 17 7 1 false)) = some key ∧
      remembered seven.1 key = some (transport, seen) ∧ 4 < seen + 5 ∧
      (⟨.udp, some 40, some 53, none, none, none, none⟩ : ResolvedL4) = transport.toResolved := by
  have hrun : Run step (fun _ _ _ => True) (new 1 5) seven.1 seven.2 := run_exec (meets_true _)
  obtain ⟨hsize, hresolve⟩ := resolve_remembered hrun
  exact ⟨hsize, hresolve 4 _ _ rfl (by decide)⟩

end Demo

end Tunnet.FragmentTable

import Tunnet.Packet.Conntrack

/-!
# What a connection tracker lets through

Both engines treat a packet alike: one of a live flow passes, and for any other their rules decide,
a packet they allow opening a flow (`track`). `track_cases` says what can happen: either a live
flow is refreshed, or the verdict is that of the rules and the table gains at most the flow of this
packet.
-/

namespace Tunnet.Conntrack

open Policy (Protocol Direction)

/-- The key of the other direction. -/
def FlowKey.swap (key : FlowKey) : FlowKey := ⟨key.proto, key.dst, key.dport, key.src, key.sport⟩

theorem FlowKey.swap_eq_iff {key key' : FlowKey} : key.swap = key' ↔ key = key'.swap := by
  constructor
  · rintro rfl
    rfl
  · rintro rfl
    rfl

/-- One packet: the keys of its two directions, if it has a flow, and the verdict of the rules. -/
def track (now : Instant) (direction : Direction) (keys : Option (FlowKey × FlowKey))
    (proto : Protocol) (flags : UInt8) (base : Bool) (t : Table) : Table × Bool :=
  match keys with
  | none => (t, base)
  | some (fwd, rev) =>
    let out := allows now direction fwd rev flags t
    if out.2 then (out.1, true)
    else if base then (openOrRefresh now fwd proto flags out.1, true)
    else (out.1, false)

section

variable {now : Instant} {direction : Direction} {fwd rev key k : FlowKey} {proto : Protocol}
  {flags : UInt8} {base : Bool} {t : Table} {st : FlowState}

theorem lookup_trackedKey (h : trackedKey fwd rev t = some key) :
    (key = fwd ∨ key = rev) ∧ (t.lookup key).isSome := by
  unfold trackedKey at h
  split_ifs at h with hfwd hrev
  · cases h
    exact ⟨.inl rfl, hfwd⟩
  · cases h
    exact ⟨.inr rfl, hrev⟩

theorem lastSeen_advance (st : FlowState) : (st.advance now direction flags).lastSeen = now := by
  unfold FlowState.advance
  split
  · split_ifs <;> rfl
  · rfl
  · rfl
  · rfl
  · rfl

theorem allows_true (h : (allows now direction fwd rev flags t).2) :
    ∃ key st, (key = fwd ∨ key = rev) ∧ t.lookup key = some st ∧ isExpired st now = false ∧
      (allows now direction fwd rev flags t).1 = t.insert key (st.advance now direction flags) := by
  unfold allows at h ⊢
  cases hkey : trackedKey fwd rev t with
  | none => simp [hkey] at h
  | some key =>
    obtain ⟨hor, hsome⟩ := lookup_trackedKey hkey
    obtain ⟨st, hst⟩ := Option.isSome_iff_exists.1 hsome
    simp only [hkey, hst] at h ⊢
    split_ifs at h with hexpired
    exact ⟨key, st, hor, hst, by simpa using hexpired, by rw [if_neg hexpired]⟩

theorem lookup_allows_false (h : (allows now direction fwd rev flags t).2 = false)
    (hlookup : (allows now direction fwd rev flags t).1.lookup key = some st) :
    t.lookup key = some st := by
  unfold allows at h hlookup
  cases hkey : trackedKey fwd rev t with
  | none => simpa [hkey] using hlookup
  | some =>
    obtain ⟨-, hsome⟩ := lookup_trackedKey hkey
    obtain ⟨st', hst'⟩ := Option.isSome_iff_exists.1 hsome
    simp only [hkey, hst'] at h hlookup
    split_ifs at h hlookup
    rw [Map.lookup_erase_eq] at hlookup
    split_ifs at hlookup
    exact hlookup

theorem lookup_openOrRefresh
    (hlookup : (openOrRefresh now key proto flags t).lookup k = some st) :
    t.lookup k = some st ∨ k = key ∧ st.lastSeen = now := by
  unfold openOrRefresh at hlookup
  split at hlookup
  · exact .inl hlookup
  · split at hlookup
    all_goals
      rw [Map.lookup_insert_eq] at hlookup
      split_ifs at hlookup with hk
      · cases hlookup
        exact .inr ⟨hk, rfl⟩
      · exact .inl hlookup

theorem track_cases (keys : Option (FlowKey × FlowKey)) :
    (∃ fwd rev key st, keys = some (fwd, rev) ∧ (key = fwd ∨ key = rev) ∧
      t.lookup key = some st ∧ isExpired st now = false ∧
      track now direction keys proto flags base t =
        (t.insert key (st.advance now direction flags), true)) ∨
    (track now direction keys proto flags base t).2 = base ∧
      ∀ k st, (track now direction keys proto flags base t).1.lookup k = some st →
        t.lookup k = some st ∨
          base ∧ st.lastSeen = now ∧ ∃ rev, keys = some (k, rev) := by
  cases keys with
  | none => exact .inr ⟨rfl, fun k st h => .inl h⟩
  | some keys =>
    obtain ⟨fwd, rev⟩ := keys
    unfold track
    cases hallow : (allows now direction fwd rev flags t).2 with
    | true =>
      obtain ⟨key, st, hkey, hst, hlive, htable⟩ := allows_true hallow
      refine .inl ⟨fwd, rev, key, st, rfl, hkey, hst, hlive, ?_⟩
      simp [hallow, htable]
    | false =>
      refine .inr ?_
      cases base with
      | false =>
        simp only [hallow, Bool.false_eq_true, if_false]
        exact ⟨trivial, fun k st h => .inl (lookup_allows_false hallow h)⟩
      | true =>
        simp only [hallow, Bool.false_eq_true, if_false, if_true]
        refine ⟨trivial, fun k st h => ?_⟩
        rcases lookup_openOrRefresh h with h | ⟨rfl, hseen⟩
        · exact .inl (lookup_allows_false hallow h)
        · exact .inr ⟨trivial, hseen, rev, rfl⟩

theorem track_allowed (keys : Option (FlowKey × FlowKey)) :
    (track now direction keys proto flags true t).2 := by
  rcases track_cases keys with ⟨_, _, _, _, -, -, -, -, htrack⟩ | ⟨hbase, -⟩
  · rw [htrack]
  · exact hbase

end

end Tunnet.Conntrack

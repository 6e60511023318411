import Mathlib.Data.Finmap

/-!
# Finite maps

A hash map whose iteration order is unspecified is modelled by Mathlib's `Finmap`: two maps with
the same lookups are equal (`Finmap.ext_lookup`), so nothing can depend on an order. This file
adds the operations on all values at once that `Finmap` lacks.
-/

namespace Tunnet

open Finmap Option

universe u v w

/-- Finite maps from `K` to `V`. -/
abbrev Map (K : Type u) (V : Type v) := Finmap fun _ : K => V

namespace Map

variable {K : Type u} {V : Type v} {W : Type w}

/-- Apply `f` to every value. -/
def mapVal (f : K → V → W) (m : Map K V) : Map K W where
  entries := m.entries.map fun s => ⟨s.1, f s.1 s.2⟩
  nodupKeys := by
    rw [← Multiset.nodup_keys, Multiset.keys, Multiset.map_map]
    exact Multiset.nodup_keys.mpr m.nodupKeys

variable [DecidableEq K] {m : Map K V} {k k' : K} {v w : V}

theorem lookup_mapVal (f : K → V → W) (m : Map K V) (k : K) :
    (m.mapVal f).lookup k = (m.lookup k).map (f k) := by
  ext w
  rw [map_eq_some_iff]
  simp only [mapVal, Multiset.mem_map, Sigma.mk.injEq, Sigma.exists, lookup_eq_some_iff]
  constructor
  · rintro ⟨k', v, hv, rfl, hw⟩
    exact ⟨v, hv, by simpa using hw⟩
  · rintro ⟨v, hv, rfl⟩
    exact ⟨k, v, hv, rfl, HEq.rfl⟩

/-- Replace the value at `k`, if there is one (`get_mut` followed by an update). -/
def modify (k : K) (f : V → V) (m : Map K V) : Map K V :=
  match m.lookup k with
  | none => m
  | some v => m.insert k (f v)

theorem lookup_modify_self (k : K) (f : V → V) (m : Map K V) :
    (m.modify k f).lookup k = (m.lookup k).map f := by
  unfold modify
  split
  · rename_i h; rw [h]; rfl
  · rename_i v h; rw [lookup_insert, h]; rfl

theorem lookup_modify_of_ne (h : k' ≠ k) (f : V → V) (m : Map K V) :
    (m.modify k f).lookup k' = m.lookup k' := by
  unfold modify
  split
  · rfl
  · rw [lookup_insert_of_ne _ h]

theorem modify_eq_insert (h : m.lookup k = some v) (f : V → V) :
    m.modify k f = m.insert k (f v) := by
  unfold modify
  rw [h]

theorem lookup_insert_eq (k k' : K) (v : V) (m : Map K V) :
    (m.insert k v).lookup k' = if k' = k then some v else m.lookup k' := by
  by_cases h : k' = k
  · subst h; rw [if_pos rfl, lookup_insert]
  · rw [if_neg h, lookup_insert_of_ne _ h]

theorem lookup_erase_eq (k k' : K) (m : Map K V) :
    (m.erase k).lookup k' = if k' = k then none else m.lookup k' := by
  split_ifs with h
  · rw [h, lookup_erase]
  · rw [lookup_erase_ne h]

theorem insert_eq_self (h : m.lookup k = some v) : m.insert k v = m := by
  apply ext_lookup
  intro k'
  rw [lookup_insert_eq]
  split_ifs with hk
  · rw [hk, h]
  · rfl

theorem insert_eq_self_iff : m.insert k v = m ↔ m.lookup k = some v := by
  refine ⟨fun h => ?_, insert_eq_self⟩
  rw [← h, lookup_insert]

theorem modify_eq_self_iff {f : V → V} : m.modify k f = m ↔ ∀ v, m.lookup k = some v → f v = v := by
  unfold modify
  split
  · rename_i hnone
    simp [hnone]
  · rename_i v hv
    rw [insert_eq_self_iff, hv]
    constructor
    · rintro h w ⟨⟩
      exact (some.inj h).symm
    · intro h
      rw [h v rfl]

theorem mapVal_eq_self_iff {f : K → V → V} :
    m.mapVal f = m ↔ ∀ k v, m.lookup k = some v → f k v = v := by
  constructor
  · intro h k v hv
    have hlookup := lookup_mapVal f m k
    rw [h, hv] at hlookup
    exact (some.inj hlookup).symm
  · intro h
    apply ext_lookup
    intro k
    rw [lookup_mapVal]
    cases hv : m.lookup k with
    | none => rfl
    | some v => rw [map_some, h k v hv]

/-- Insert unless `k` has a value already (`entry(k).or_insert(v)`). -/
def insertNew (k : K) (v : V) (m : Map K V) : Map K V :=
  if (m.lookup k).isSome then m else m.insert k v

theorem lookup_insertNew (k k' : K) (v : V) (m : Map K V) : (m.insertNew k v).lookup k' =
      if k' = k then some ((m.lookup k).getD v) else m.lookup k' := by
  unfold insertNew
  split_ifs with hsome hk hk
  · obtain ⟨w, hw⟩ := isSome_iff_exists.mp hsome
    rw [hk, hw, getD_some]
  · rfl
  · rw [not_isSome_iff_eq_none] at hsome
    rw [hk, lookup_insert, hsome, getD_none]
  · rw [lookup_insert_of_ne _ hk]

variable (key : V → K) (l : List V)

theorem lookup_foldl_insertNew (m : Map K V) (k : K) :
    (l.foldl (fun m v => m.insertNew (key v) v) m).lookup k =
      (m.lookup k).or (l.find? fun v => key v = k) := by
  induction l generalizing m with
  | nil => simp
  | cons v l ih =>
    rw [List.foldl_cons, ih, lookup_insertNew]
    by_cases hk : key v = k
    · subst hk
      cases m.lookup (key v) <;> simp
    · rw [if_neg (Ne.symm hk), List.find?_cons_of_neg (by simpa using hk)]

theorem lookup_firsts (k : K) :
    (l.foldl (fun m v => m.insertNew (key v) v) (∅ : Map K V)).lookup k =
      l.find? fun v => key v = k := by
  rw [lookup_foldl_insertNew, lookup_empty, none_or]

theorem lookup_foldl_insert (m : Map K V) (k : K) :
    (l.foldl (fun m v => m.insert (key v) v) m).lookup k =
      (l.reverse.find? fun v => key v = k).or (m.lookup k) := by
  induction l generalizing m with
  | nil => simp
  | cons v l ih =>
    rw [List.foldl_cons, ih]
    by_cases hk : key v = k
    · simp [hk]
    · simp [hk, Ne.symm hk]

theorem lookup_lasts (k : K) : (l.foldl (fun m v => m.insert (key v) v) (∅ : Map K V)).lookup k =
      l.reverse.find? fun v => key v = k := by
  rw [lookup_foldl_insert, lookup_empty, or_none]

/-! ### Filtering -/

omit [DecidableEq K] in
/-- Keep the entries that satisfy `p` (`retain`). -/
def retain (p : K → V → Bool) (m : Map K V) : Map K V where
  entries := m.entries.filter fun s => p s.1 s.2
  nodupKeys := by
    rw [← Multiset.nodup_keys]
    exact Multiset.nodup_of_le (Multiset.map_le_map (Multiset.filter_le _ _))
      (Multiset.nodup_keys.mpr m.nodupKeys)

theorem lookup_retain (p : K → V → Bool) (m : Map K V) (k : K) :
    (m.retain p).lookup k = (m.lookup k).filter (p k) := by
  ext v
  rw [lookup_eq_some_iff, filter_eq_some_iff, lookup_eq_some_iff]
  unfold retain
  rw [Multiset.mem_filter]

omit [DecidableEq K] in
/-- `is_empty`. -/
def isEmpty (m : Map K V) : Bool := m.entries.card == 0

theorem isEmpty_iff : m.isEmpty ↔ ∀ k, m.lookup k = none := by
  unfold isEmpty
  rw [beq_iff_eq, Multiset.card_eq_zero]
  constructor
  · intro h k
    have hm : m = ∅ := ext h
    rw [hm, lookup_empty]
  · intro h
    have hm : m = ∅ := by
      apply ext_lookup
      intro k
      rw [h k, lookup_empty]
    rw [hm]
    rfl

/-! ### Maps without repeated values -/

/-- The values of `m`, read through `f`, are pairwise distinct. -/
def DistinctVals (f : V → W) (m : Map K V) : Prop := (m.entries.map fun s => f s.2).Nodup

instance [DecidableEq W] (f : V → W) (m : Map K V) : Decidable (m.DistinctVals f) :=
  inferInstanceAs (Decidable (Multiset.Nodup _))

end Map

end Tunnet

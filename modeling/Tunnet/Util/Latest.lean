import Tunnet.Util.Map
import Mathlib.Data.List.MinMax

/-!
# Keeping the highest-ranked value of each key

Values arrive one by one, each under a key and with a rank. A value replaces the one kept under
its key only when its rank is strictly higher. What is kept in the end is, for each key, the first
value of maximal rank among those that arrived under it (`lookup_latest`).
-/

namespace Tunnet

open List

universe u v

variable {K : Type u} {V : Type v} [DecidableEq K] {items : List (K × V)} {rank : V → Nat} {v : V}
  {k : K}

variable (rank) (m : Map K V)

/-- Keep `v` under `k` unless a value of at least its rank is there. -/
def Map.insertNewer (k : K) (v : V) : Map K V :=
  match m.lookup k with
  | none => m.insert k v
  | some old => if rank old < rank v then m.insert k v else m

/-- What is kept of a list of arrivals. -/
def latest (items : List (K × V)) : Map K V :=
  items.foldl (fun m kv => m.insertNewer rank kv.1 kv.2) ∅

/-- The values that arrived under a key, in order. -/
def valuesAt (k : K) (items : List (K × V)) : List V :=
  items.filterMap fun kv => if kv.1 = k then some kv.2 else none

theorem mem_valuesAt : v ∈ valuesAt k items ↔ (k, v) ∈ items := by
  simp only [valuesAt, mem_filterMap, Prod.exists, Option.ite_none_right_eq_some, Option.some.injEq]
  constructor
  · rintro ⟨_, _, h, rfl, rfl⟩
    exact h
  · intro h
    exact ⟨k, v, h, rfl, rfl⟩

theorem valuesAt_cons (k : K) (kv : K × V) (items : List (K × V)) : valuesAt k (kv :: items) =
      if kv.1 = k then kv.2 :: valuesAt k items else valuesAt k items := by
  by_cases hk : kv.1 = k <;> simp [valuesAt, hk]

theorem Map.lookup_insertNewer (k k' : K) (v : V) : (m.insertNewer rank k v).lookup k' =
      if k = k' then argAux (fun b c => rank c < rank b) (m.lookup k') v
      else m.lookup k' := by
  unfold insertNewer
  by_cases hk : k = k'
  · subst hk
    cases hl : m.lookup k with
    | none => simp [argAux]
    | some old =>
      by_cases hr : rank old < rank v
      · simp [argAux, hr]
      · simp [argAux, hr, hl]
  · rw [if_neg hk]
    have hne : k' ≠ k := fun h => hk h.symm
    split
    · rw [Finmap.lookup_insert_of_ne _ hne]
    · split_ifs
      · rw [Finmap.lookup_insert_of_ne _ hne]
      · rfl

theorem lookup_latest (items : List (K × V)) (k : K) :
    (latest rank items).lookup k = (valuesAt k items).argmax rank := by
  have hfold : ∀ items (m : Map K V),
      (items.foldl (fun m kv => m.insertNewer rank kv.1 kv.2) m).lookup k =
        (valuesAt k items).foldl (argAux fun b c => rank c < rank b) (m.lookup k) := by
    intro items
    induction items with
    | nil => intro m; rfl
    | cons kv items ih =>
      intro m
      rw [foldl_cons, ih, Map.lookup_insertNewer]
      by_cases hk : kv.1 = k
      · simp [valuesAt, hk]
      · simp [valuesAt, hk]
  rw [latest, hfold]
  rfl

variable {rank}

theorem argmax_cons_of_forall_le {vs : List V}
    (h : ∀ w ∈ vs, rank w ≤ rank v) : (v :: vs).argmax rank = some v := by
  rw [argmax_cons]
  cases hm : vs.argmax rank with
  | none => rfl
  | some w =>
    have hle := h w (argmax_mem hm)
    simp [not_lt.2 hle]

/-! ### Different orders of arrival -/

theorem lookup_latest_eq_none_iff : (latest rank items).lookup k = none ↔ ∀ v, (k, v) ∉ items := by
  simp [lookup_latest, eq_nil_iff_forall_not_mem, mem_valuesAt]

theorem mem_of_lookup_latest (h : (latest rank items).lookup k = some v) :
    (k, v) ∈ items ∧ ∀ w, (k, w) ∈ items → rank w ≤ rank v := by
  rw [lookup_latest] at h
  refine ⟨mem_valuesAt.1 (argmax_mem h), fun w hw => ?_⟩
  exact le_of_mem_argmax (mem_valuesAt.2 hw) h

/-- Whatever holds of all values that can be kept, in some order of arrival, holds of all values of
maximal rank, and the other way round. -/
theorem forall_perm_latest_iff {α : Type*} (f : α → Option (K × V)) (rank : V → Nat) (l : List α)
    {P : K → V → Prop} :
    (∀ l' : List α, l'.Perm l → ∀ k v, (latest rank (l'.filterMap f)).lookup k = some v → P k v) ↔
      ∀ k v, (k, v) ∈ l.filterMap f → (∀ w, (k, w) ∈ l.filterMap f → rank w ≤ rank v) → P k v := by
  constructor
  · intro h k v hv hmax
    obtain ⟨a, ha, hfa⟩ := mem_filterMap.1 hv
    obtain ⟨before, after, rfl⟩ := append_of_mem ha
    -- let `a` arrive first
    refine h (a :: (before ++ after)) perm_middle.symm k v ?_
    rw [lookup_latest, filterMap_cons_some hfa, valuesAt_cons, if_pos rfl]
    refine argmax_cons_of_forall_le fun w hw => hmax w ?_
    have hmiddle : (before ++ a :: after).Perm (a :: (before ++ after)) := perm_middle
    have hperm := hmiddle.filterMap f
    rw [hperm.mem_iff, filterMap_cons_some hfa]
    exact mem_cons_of_mem _ (mem_valuesAt.1 hw)
  · intro h l' hl' k v hv
    obtain ⟨hmem, hmax⟩ := mem_of_lookup_latest hv
    have hperm := hl'.filterMap f
    exact h k v (hperm.mem_iff.1 hmem) fun w hw => hmax w (hperm.mem_iff.2 hw)

end Tunnet

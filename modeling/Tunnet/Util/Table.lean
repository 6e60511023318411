import Mathlib.Data.List.Nodup

/-!
# Keyed tables

A table with a unique key is a list of rows. `upsert` is `INSERT … ON CONFLICT (key) DO UPDATE`: the
row with the key is changed, or a new one is added.
-/

namespace Tunnet.Table

open List

universe u v

variable {α : Type u} {κ : Type v}

variable {key : α → κ} {merge : α → α} {x : α} {l : List α}

theorem nodup_append_singleton (hunique : (l.map key).Nodup) (hnew : ∀ y ∈ l, key y ≠ key x) :
    ((l ++ [x]).map key).Nodup := by
  rw [map_append, nodup_append]
  refine ⟨hunique, nodup_singleton _, fun a ha b hb => ?_⟩
  rw [mem_singleton.1 hb]
  rintro rfl
  obtain ⟨y, hy, hkey⟩ := mem_map.1 ha
  exact hnew y hy hkey

/-- Rows are changed, but not their keys. -/
theorem nodup_change {p : α → Prop} [DecidablePred p] (hunique : (l.map key).Nodup)
    (hmerge : ∀ y, p y → key (merge y) = key y) :
    ((l.map fun y => if p y then merge y else y).map key).Nodup := by
  have hkeys : (l.map fun y => if p y then merge y else y).map key = l.map key := by
    rw [map_map]
    refine map_congr_left fun y _ => ?_
    rw [Function.comp_apply]
    split_ifs with hy
    · exact hmerge y hy
    · rfl
  rw [hkeys]
  exact hunique

variable [DecidableEq κ]

/-- Change the row with the key of `x` by `merge`, or add `x`. -/
def upsert (key : α → κ) (merge : α → α) (x : α) (l : List α) : List α :=
  if ∃ y ∈ l, key y = key x then l.map fun y => if key y = key x then merge y else y
  else l ++ [x]

section

variable {y : α}

theorem mem_upsert_of_ne (hy : y ∈ l) (hne : key y ≠ key x) : y ∈ upsert key merge x l := by
  unfold upsert
  split_ifs
  · exact mem_map.2 ⟨y, hy, if_neg hne⟩
  · exact mem_append_left _ hy

theorem of_mem_upsert (hy : y ∈ upsert key merge x l) :
    y ∈ l ∧ key y ≠ key x ∨ y = x ∧ (∀ z ∈ l, key z ≠ key x) ∨
      ∃ z ∈ l, key z = key x ∧ y = merge z := by
  unfold upsert at hy
  split_ifs at hy with hthere
  · obtain ⟨z, hz, rfl⟩ := mem_map.1 hy
    split_ifs with hkey
    · exact .inr (.inr ⟨z, hz, hkey, rfl⟩)
    · exact .inl ⟨hz, hkey⟩
  · have hnone : ∀ z ∈ l, key z ≠ key x := fun z hz hkey => hthere ⟨z, hz, hkey⟩
    rcases mem_append.1 hy with hy | hy
    · exact .inl ⟨hy, hnone y hy⟩
    · exact .inr (.inl ⟨mem_singleton.1 hy, hnone⟩)

theorem exists_mem_upsert (key : α → κ) (merge : α → α) (x : α) (l : List α) :
    ∃ y ∈ upsert key merge x l, y = x ∨ ∃ z ∈ l, key z = key x ∧ y = merge z := by
  unfold upsert
  split_ifs with hthere
  · obtain ⟨z, hz, hkey⟩ := hthere
    exact ⟨merge z, mem_map.2 ⟨z, hz, if_pos hkey⟩, .inr ⟨z, hz, hkey, rfl⟩⟩
  · exact ⟨x, mem_append_right _ (mem_singleton.2 rfl), .inl rfl⟩

theorem nodup_upsert (hmerge : ∀ y, key (merge y) = key y) (hunique : (l.map key).Nodup) :
    ((upsert key merge x l).map key).Nodup := by
  unfold upsert
  split_ifs with hthere
  · exact nodup_change hunique fun y _ => hmerge y
  · exact nodup_append_singleton hunique fun y hy hkey => hthere ⟨y, hy, hkey⟩

theorem filter_upsert {p : α → Bool} (hnew : p x = false) (hold : ∀ y ∈ l, key y = key x →
    p y = false ∧ p (merge y) = false) : (upsert key merge x l).filter p = l.filter p := by
  unfold upsert
  split_ifs with hthere
  · clear hthere
    induction l with
    | nil => rfl
    | cons y l ih =>
      have htail := ih fun z hz => hold z (mem_cons_of_mem _ hz)
      rw [map_cons]
      by_cases hkey : key y = key x
      · obtain ⟨hy, hmerge⟩ := hold y mem_cons_self hkey
        rw [if_pos hkey, filter_cons_of_neg (by simp [hmerge]),
          filter_cons_of_neg (by simp [hy]), htail]
      · rw [if_neg hkey, filter_cons, filter_cons, htail]
  · rw [filter_append, filter_cons_of_neg (by simp [hnew]), filter_nil, append_nil]

end

end Tunnet.Table

import Mathlib.Data.List.Sort

/-!
# Searching a stably sorted list

Insertion sort keeps the order of equivalent elements. The first element of the sorted list with a
property is therefore the least one in the order of the list refined by the position
(`find?_insertionSort_filter`).
-/

namespace Tunnet.StableSort

open List

universe u

variable {α : Type u} {r : α → α → Prop} {p q : α → Bool} {a x : α} {l : List α}

/-! ### The least element with a property -/

/-- The element stands at position `i`, has the property and is the least that does, the first one
of its equals. -/
structure Least (r : α → α → Prop) (p : α → Bool) (l : List α) (i : ℕ) (x : α) : Prop where
  get : l[i]? = some x
  holds : p x
  least : ∀ j y, l[j]? = some y → p y → r x y ∧ (r y x → i ≤ j)

theorem Least.cons {i : ℕ} (h : Least r p l i x) (ha : p a → r x a ∧ ¬ r a x) :
    Least r p (a :: l) (i + 1) x := by
  refine ⟨getElem?_cons_succ.trans h.get, h.holds, ?_⟩
  intro j y hy hp
  cases j with
  | zero =>
    cases hy
    obtain ⟨hle, hnot⟩ := ha hp
    exact ⟨hle, fun hr => absurd hr hnot⟩
  | succ j =>
    obtain ⟨hle, hfirst⟩ := h.least j y hy hp
    exact ⟨hle, fun hr => Nat.succ_le_succ (hfirst hr)⟩

theorem least_head (htotal : ∀ a b, r a b ∨ r b a) (ha : p a)
    (hle : ∀ y ∈ l, p y → r a y) : Least r p (a :: l) 0 a := by
  refine ⟨getElem?_cons_zero, ha, ?_⟩
  intro j y hy hp
  refine ⟨?_, fun _ => Nat.zero_le j⟩
  cases j with
  | zero =>
    cases hy
    exact (htotal a a).elim id id
  | succ => exact hle y (mem_of_getElem? hy) hp

variable [DecidableRel r]

/-! ### Inserting one element -/

theorem find?_orderedInsert_of_neg (ha : p a = false) :
    (l.orderedInsert r a).find? p = l.find? p := by
  induction l with
  | nil => exact find?_cons_of_neg (by simp [ha])
  | cons b l ih =>
    rw [orderedInsert_cons]
    split_ifs
    · exact find?_cons_of_neg (by simp [ha])
    · rw [find?_cons, find?_cons, ih]

theorem find?_orderedInsert_of_le (ha : p a) (hle : ∀ x, l.find? p = some x → r a x) :
    (l.orderedInsert r a).find? p = some a := by
  induction l with
  | nil => exact find?_cons_of_pos ha
  | cons b l ih =>
    rw [orderedInsert_cons]
    split_ifs with hab
    · exact find?_cons_of_pos ha
    · have hb : ¬ p b := fun hb => hab (hle b (find?_cons_of_pos hb))
      rw [find?_cons_of_neg hb]
      apply ih
      intro x hx
      exact hle x ((find?_cons_of_neg hb).trans hx)

variable (htrans : ∀ a b c, r a b → r b c → r a c)

include htrans

theorem find?_orderedInsert_of_not_le
    (hsorted : l.Pairwise r) (hx : l.find? p = some x) (hnot : ¬ r a x) :
    (l.orderedInsert r a).find? p = some x := by
  induction l with
  | nil => cases hx
  | cons b l ih =>
    obtain ⟨hb, hl⟩ := pairwise_cons.1 hsorted
    by_cases hpb : p b
    · rw [find?_cons_of_pos hpb] at hx
      cases hx
      rw [orderedInsert_cons, if_neg hnot]
      exact find?_cons_of_pos hpb
    · rw [find?_cons_of_neg hpb] at hx
      have hab : ¬ r a b := fun hab => hnot (htrans a b x hab (hb x (mem_of_find?_eq_some hx)))
      rw [orderedInsert_cons, if_neg hab, find?_cons_of_neg hpb]
      exact ih hl hx

/-! ### Sorting -/

/-- The first element of the sorted list with a property is the least one. -/
theorem find?_insertionSort_filter
    (htotal : ∀ a b, r a b ∨ r b a) (h : ((l.filter q).insertionSort r).find? p = some x) :
    ∃ i, Least r (fun y => q y && p y) l i x := by
  have : Std.Total r := ⟨htotal⟩
  have : IsTrans α r := ⟨htrans⟩
  induction l generalizing x with
  | nil => cases h
  | cons a l ih =>
    by_cases hq : q a
    · rw [filter_cons_of_pos hq, insertionSort_cons] at h
      by_cases hp : p a
      · have ha : (q a && p a) := by rw [hq, hp]; rfl
        cases hs : ((l.filter q).insertionSort r).find? p with
        | none =>
          rw [find?_orderedInsert_of_le hp (by simp [hs])] at h
          cases h
          refine ⟨0, least_head htotal ha ?_⟩
          intro y hy hy'
          obtain ⟨hqy, hpy⟩ := Bool.and_eq_true_iff.1 hy'
          have hmem : y ∈ (l.filter q).insertionSort r :=
            (mem_insertionSort r).2 (mem_filter.2 ⟨hy, hqy⟩)
          exact absurd hpy (find?_eq_none.1 hs y hmem)
        | some x' =>
          obtain ⟨i, hi⟩ := ih hs
          by_cases hle : r a x'
          · rw [find?_orderedInsert_of_le hp (by simpa [hs] using hle)] at h
            cases h
            refine ⟨0, least_head htotal ha ?_⟩
            intro y hy hy'
            obtain ⟨j, hj⟩ := mem_iff_getElem?.1 hy
            exact htrans a x' y hle (hi.least j y hj hy').1
          · rw [find?_orderedInsert_of_not_le htrans (pairwise_insertionSort r _) hs hle] at h
            cases h
            exact ⟨i + 1, hi.cons fun _ => ⟨(htotal a x).resolve_left hle, hle⟩⟩
      · rw [find?_orderedInsert_of_neg (by simpa using hp)] at h
        obtain ⟨i, hi⟩ := ih h
        exact ⟨i + 1, hi.cons fun ha => absurd (Bool.and_eq_true_iff.1 ha).2 hp⟩
    · rw [filter_cons_of_neg hq] at h
      obtain ⟨i, hi⟩ := ih h
      exact ⟨i + 1, hi.cons fun ha => absurd (Bool.and_eq_true_iff.1 ha).1 hq⟩

end Tunnet.StableSort

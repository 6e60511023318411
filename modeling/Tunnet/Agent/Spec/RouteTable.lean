import Tunnet.Agent.SystemRoutes

/-!
# What the route engine does to the tables

* `mem_toDelete`, `named_toDelete_iff`, `mem_toAdd_iff`: the routes that a reconciliation deletes
  and adds.
* `deleteRoutes_exact`, `addRoutes_exact`: with a backend that does what it is asked.
* `mem_deleteRoutes_iff`, `named_addRoute`, `mem_addRoutes_of_mem`: with any backend.
-/

namespace Tunnet.SystemRoutes

open List RouteEngine

section

variable {s x s' : RouteSpec} {kernel table l set want owned : List RouteSpec}

/-! ### Sets of routes -/

@[simp]
theorem mem_insert : x ∈ s.insert set ↔ x = s ∨ x ∈ set := by
  unfold RouteSpec.insert
  split_ifs with h
  · refine ⟨.inr, ?_⟩
    rintro (rfl | hx)
    · exact h
    · exact hx
  · exact mem_orderedInsert _

theorem named_iff : named table s ↔ ∃ k ∈ table, k.identity = s.identity := by
  unfold named
  simp

theorem named_of_mem (h : s ∈ table) : named table s := named_iff.2 ⟨s, h, rfl⟩

theorem named_congr (h : s.identity = s'.identity) : named table s = named table s' := by
  unfold named
  rw [h]

theorem mem_foldl_insert (l : List RouteSpec) (set : List RouteSpec) :
    x ∈ l.foldl (fun set s => s.insert set) set ↔ x ∈ l ∨ x ∈ set := by
  induction l generalizing set with
  | nil => simp
  | cons s l ih =>
    rw [foldl_cons, ih, mem_insert, mem_cons]
    tauto

theorem mem_adopt : x ∈ adopt want kernel owned ↔ (x ∈ owned ∨ x ∈ want) ∧ named kernel x := by
  unfold adopt
  rw [← foldl_filter, mem_foldl_insert, mem_filter, mem_filter]
  tauto

/-! ### The routes to delete and to add -/

section

variable {l' : List RouteSpec} {tunIndex : Nat}

theorem named_append : named (l ++ l') x = true ↔ named l x ∨ named l' x := by
  unfold named
  rw [any_append, Bool.or_eq_true]

theorem named_cons : named (s :: l) x = true ↔ s.identity = x.identity ∨ named l x := by
  unfold named
  rw [any_cons, Bool.or_eq_true, decide_eq_true_eq]

theorem foldl_push {p : RouteSpec → Bool} (l set : List RouteSpec) :
    let pushed := l.foldl (fun set k => if p k && !named set k then set ++ [k] else set) set
    (x ∈ pushed → x ∈ set ∨ (x ∈ l ∧ p x)) ∧
      (named pushed x = true ↔ named set x ∨ ∃ k ∈ l, k.identity = x.identity ∧ p k) := by
  induction l generalizing set with
  | nil => simp
  | cons k l ih =>
    dsimp only at ih ⊢
    rw [foldl_cons]
    obtain ⟨ihmem, ihnamed⟩ := ih (if p k && !named set k then set ++ [k] else set)
    rw [ihnamed]
    split_ifs at ihmem ⊢ with hk
    · rw [Bool.and_eq_true] at hk
      refine ⟨fun hx => ?_, ?_⟩
      · rcases ihmem hx with hx | ⟨hx, hp⟩
        · rcases mem_append.1 hx with hx | hx
          · exact .inl hx
          · rw [mem_singleton] at hx
            subst hx
            exact .inr ⟨mem_cons_self, hk.1⟩
        · exact .inr ⟨mem_cons_of_mem _ hx, hp⟩
      · rw [named_append, named_cons]
        rw [exists_mem_cons_iff]
        tauto
    · refine ⟨fun hx => ?_, ?_⟩
      · rcases ihmem hx with hx | ⟨hx, hp⟩
        · exact .inl hx
        · exact .inr ⟨mem_cons_of_mem _ hx, hp⟩
      · rw [exists_mem_cons_iff]
        refine ⟨fun h => h.imp_right .inr, ?_⟩
        rintro (hx | ⟨hid, hp⟩ | hx)
        · exact .inl hx
        · rw [hp, Bool.true_and, Bool.not_eq_true', Bool.not_eq_false] at hk
          exact .inl (named_congr hid ▸ hk)
        · exact .inr hx

theorem mem_toDelete (h : x ∈ toDelete want kernel owned tunIndex) :
    (x ∈ owned ∧ named want x = false) ∨ (x ∈ kernel ∧ inTheWay want tunIndex x) := by
  unfold toDelete at h
  rw [mem_insertionSort] at h
  rcases (foldl_push kernel _).1 h with hx | hx
  · rw [mem_filter, Bool.not_eq_true'] at hx
    exact .inl hx
  · exact .inr hx

theorem named_insertionSort {r : RouteSpec → RouteSpec → Prop} [DecidableRel r] : named
    (l.insertionSort r) x = named l x := by
  rw [Bool.eq_iff_iff, named_iff, named_iff]
  simp

theorem named_toDelete_iff : named (toDelete want kernel owned tunIndex) x ↔
    (∃ o ∈ owned, o.identity = x.identity ∧ named want o = false) ∨
      ∃ k ∈ kernel, k.identity = x.identity ∧ inTheWay want tunIndex k := by
  unfold toDelete
  rw [named_insertionSort, (foldl_push kernel _).2, named_iff]
  simp [and_assoc, and_comm]

theorem not_named_toDelete (h : named want x) :
    named (toDelete want kernel owned tunIndex) x = false := by
  rw [← Bool.not_eq_true, named_toDelete_iff]
  rintro (⟨o, _, hid, hwant⟩ | ⟨k, _, hid, hway⟩)
  · rw [named_congr hid, h] at hwant
    cases hwant
  · unfold inTheWay at hway
    rw [named_congr hid, h] at hway
    cases hway

theorem mem_toAdd_iff : x ∈ toAdd want kernel ↔ x ∈ want ∧ named kernel x = false := by
  unfold toAdd
  rw [mem_insertionSort, mem_filter, Bool.not_eq_true']

end

/-! ### Any backend -/

variable {e : RouteEngine} {routes : List RouteSpec} {errors : List RouteError}

section

variable {be : Backend} {k : RouteSpec}

theorem mem_afterDelete : k ∈ be.afterDelete s kernel ↔
    k ∈ kernel ∧ ((be.delete s).applied → k.identity ≠ s.identity) := by
  unfold Backend.afterDelete
  split_ifs with happlied
  · rw [mem_filter, decide_eq_true_eq]
    simp [happlied]
  · exact ⟨fun h => ⟨h, fun h' => absurd h' happlied⟩, And.left⟩

theorem kernel_deleteRoute : (e.deleteRoute be s).1.kernel = be.afterDelete s e.kernel := by
  unfold deleteRoute
  dsimp only
  split
  · rfl
  · split_ifs <;> rfl

theorem mem_deleteRoutes_iff : k ∈ (deleteRoutes be routes e errors).1.kernel ↔
    k ∈ e.kernel ∧ ∀ s ∈ routes, (be.delete s).applied → k.identity ≠ s.identity := by
  induction routes generalizing e errors with
  | nil => simp [deleteRoutes]
  | cons s routes ih =>
    unfold deleteRoutes
    rw [ih, kernel_deleteRoute, mem_afterDelete, forall_mem_cons, and_assoc]

theorem mem_afterAdd : k ∈ be.afterAdd s kernel ↔
    k ∈ kernel ∨ ((be.add s).applied ∧ k = s) := by
  unfold Backend.afterAdd
  split_ifs with happlied
  · rw [mem_insert]
    simp only [happlied, true_and]
    exact or_comm
  · exact ⟨.inl, fun h => h.resolve_right fun h' => happlied h'.1⟩

theorem kernel_addRoute : (e.addRoute be s).1.kernel = be.afterAdd s e.kernel := by
  unfold addRoute
  dsimp only
  split
  · rfl
  · split_ifs <;> rfl

theorem named_addRoute (h : (e.addRoute be s).2 = none) : named (e.addRoute be s).1.kernel s := by
  rw [kernel_addRoute]
  unfold addRoute at h
  cases hadd : be.add s with
  | done =>
    refine named_of_mem (mem_afterAdd.2 (.inr ⟨?_, rfl⟩))
    rw [hadd]
    rfl
  | failed =>
    rw [hadd] at h
    dsimp only [Outcome.error] at h
    split_ifs at h with hexists
    rw [Bool.and_eq_true] at hexists
    unfold Backend.exists' at hexists
    split at hexists
    · exact hexists.2
    · cases hexists.2

theorem mem_addRoute_of_mem (h : k ∈ e.kernel) : k ∈ (e.addRoute be s).1.kernel := by
  rw [kernel_addRoute]
  exact mem_afterAdd.2 (.inl h)

theorem mem_addRoutes_of_mem {escapeFailed : Bool} (h : k ∈ e.kernel) :
    k ∈ (addRoutes be routes escapeFailed e errors).1.kernel := by
  induction routes generalizing e escapeFailed errors with
  | nil => exact h
  | cons s routes ih =>
    unfold addRoutes
    split_ifs
    · exact ih h
    · exact ih (mem_addRoute_of_mem h)

end

/-! ### A backend that does what it is asked -/

/-- Every operation succeeds. -/
def Backend.exact : Backend where
  list := none
  delete _ := .done
  listDeleted _ := none
  relist := none
  add _ := .done
  listAdded _ := none

theorem filter_named_cons (s : RouteSpec) (routes l : List RouteSpec) :
    (l.filter fun k => k.identity ≠ s.identity).filter (fun k => !named routes k) =
      l.filter fun k => !named (s :: routes) k := by
  rw [filter_filter]
  refine filter_congr fun k _ => ?_
  rw [Bool.eq_iff_iff]
  simp only [Bool.and_eq_true, Bool.not_eq_true', decide_eq_true_eq, ← Bool.not_eq_true, named_cons]
  tauto

theorem deleteRoute_exact (s : RouteSpec) : e.deleteRoute .exact s =
    ({ e with
      kernel := e.kernel.filter fun k => k.identity ≠ s.identity
      owned := e.owned.filter fun o => o.identity ≠ s.identity }, none) :=
  rfl

theorem deleteRoutes_exact : deleteRoutes .exact routes e errors =
    ({ e with
      kernel := e.kernel.filter fun k => !named routes k
      owned := e.owned.filter fun o => !named routes o }, errors) := by
  induction routes generalizing e errors with
  | nil =>
    have hnil (l : List RouteSpec) : l.filter (fun k => !named [] k) = l :=
      filter_eq_self.2 fun _ _ => rfl
    rw [hnil, hnil]
    rfl
  | cons s routes ih =>
    unfold deleteRoutes
    simp only [deleteRoute_exact, ih, filter_named_cons, Option.toList_none, append_nil]

theorem addRoute_exact (s : RouteSpec) : e.addRoute .exact s =
    ({ e with kernel := s.insert e.kernel, owned := s.insert e.owned }, none) :=
  rfl

theorem addRoutes_exact : addRoutes .exact routes false e errors =
    ({ e with
      kernel := routes.foldl (fun set s => s.insert set) e.kernel
      owned := routes.foldl (fun set s => s.insert set) e.owned }, errors) := by
  induction routes generalizing e errors with
  | nil => rfl
  | cons s routes ih =>
    unfold addRoutes
    simp [addRoute_exact, ih]

end

end Tunnet.SystemRoutes

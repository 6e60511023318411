import Mathlib.Data.List.Basic

/-!
# Fields joined by a separator

A list of fields is written one after the other with a separator between them. Where fields may hold
the separator themselves, the text does not determine them.
-/

namespace Tunnet.Joined

open List

universe u

variable {α : Type u} {sep c : α} {fields qs qs' : List (List α)}

section

variable {p q s t : List α}

theorem append_sep_eq_cases (heq : p ++ sep :: s = q ++ sep :: t) : p = q ∧ s = t ∨
    (∃ a, q = p ++ sep :: a ∧ s = a ++ sep :: t) ∨ ∃ a, p = q ++ sep :: a ∧ t = a ++ sep :: s := by
  rcases append_eq_append_iff.1 heq with ⟨a, rfl, ha⟩ | ⟨a, rfl, ha⟩
  · cases a with
    | nil => exact .inl ⟨(append_nil p).symm, (cons.inj ha).2⟩
    | cons x a =>
      obtain ⟨rfl, rfl⟩ := cons.inj ha
      exact .inr (.inl ⟨a, rfl, rfl⟩)
  · cases a with
    | nil => exact .inl ⟨append_nil q, (cons.inj ha).2.symm⟩
    | cons x a =>
      obtain ⟨rfl, rfl⟩ := cons.inj ha
      exact .inr (.inr ⟨a, rfl, rfl⟩)

theorem append_sep_cases (hp : sep ∉ p) (heq : p ++ sep :: s = q ++ sep :: t) :
    q = p ∧ t = s ∨ ∃ q', q = p ++ sep :: q' ∧ s = q' ++ sep :: t := by
  rcases append_sep_eq_cases heq with ⟨rfl, rfl⟩ | hpart | ⟨a, rfl, -⟩
  · exact .inl ⟨rfl, rfl⟩
  · exact .inr hpart
  · exact absurd (mem_append_right q mem_cons_self) hp

theorem append_sep_inj_left (hp : sep ∉ p) (hq : sep ∉ q) (heq : p ++ sep :: s = q ++ sep :: t) :
    p = q ∧ s = t := by
  rcases append_sep_cases hp heq with ⟨rfl, rfl⟩ | ⟨q', rfl, -⟩
  · exact ⟨rfl, rfl⟩
  · exact absurd (mem_append_right p mem_cons_self) hq

/-- With as many separators in the fields, the text determines them. -/
theorem append_sep_inj_of_count [DecidableEq α] (hcount : p.count sep = q.count sep)
    (heq : p ++ sep :: s = q ++ sep :: t) : p = q ∧ s = t := by
  refine (append_sep_eq_cases heq).resolve_right ?_
  rintro (⟨a, rfl, -⟩ | ⟨a, rfl, -⟩) <;> rw [count_append, count_cons_self] at hcount <;> omega

theorem append_sep_inj (hs : sep ∉ s) (ht : sep ∉ t) (heq : p ++ sep :: s = q ++ sep :: t) :
    p = q ∧ s = t := by
  rcases append_sep_eq_cases heq with h | ⟨a, -, rfl⟩ | ⟨a, -, rfl⟩
  · exact h
  · exact absurd (mem_append_right a mem_cons_self) hs
  · exact absurd (mem_append_right a mem_cons_self) ht

end

section

variable {m m' h h' n n' : List α}

theorem intercalate_cons (hne : fields ≠ []) (p : List α) :
    [sep].intercalate (p :: fields) = p ++ sep :: [sep].intercalate fields := by
  cases fields with
  | nil => exact absurd rfl hne
  | cons => rw [intercalate_cons_cons, append_assoc, singleton_append]

theorem intercalate_concat (p : List α) (fields : List (List α)) :
    [sep].intercalate (p :: fields ++ [h]) = [sep].intercalate (p :: fields) ++ sep :: h := by
  induction fields generalizing p with
  | nil =>
    rw [singleton_append, intercalate_cons (cons_ne_nil _ _), intercalate_singleton,
      intercalate_singleton]
  | cons q fields ih =>
    have htail := ih q
    have hhead : [sep].intercalate (p :: q :: fields) =
        p ++ sep :: [sep].intercalate (q :: fields) :=
      intercalate_cons (cons_ne_nil _ _) p
    rw [cons_append, intercalate_cons (by simp), htail, hhead, append_assoc, cons_append]

theorem mem_intercalate (fields : List (List α)) (hc : c ∈ [sep].intercalate fields) :
    c = sep ∨ ∃ p ∈ fields, c ∈ p := by
  induction fields with
  | nil => exact absurd hc not_mem_nil
  | cons p fields ih =>
    by_cases hne : fields = []
    · subst hne
      rw [intercalate_singleton] at hc
      exact .inr ⟨p, mem_cons_self, hc⟩
    · rw [intercalate_cons hne, mem_append, mem_cons] at hc
      rcases hc with hc | hc | hc
      · exact .inr ⟨p, mem_cons_self, hc⟩
      · exact .inl hc
      · rcases ih hc with hc | ⟨q, hq, hc⟩
        · exact .inl hc
        · exact .inr ⟨q, mem_cons_of_mem _ hq, hc⟩

theorem eq_of_intercalate_pair_eq (hh : sep ∉ h) (hh' : sep ∉ h') (qs : List (List α))
    (heq : [sep].intercalate [m, h] = [sep].intercalate (qs ++ [m', h'])) :
    h' = h ∧ (qs = [] ∧ m' = m ∨ ∃ a, m = a ++ sep :: m') := by
  rw [intercalate_cons (cons_ne_nil _ _), intercalate_singleton] at heq
  cases qs with
  | nil =>
    rw [nil_append, intercalate_cons (cons_ne_nil _ _), intercalate_singleton] at heq
    obtain ⟨rfl, rfl⟩ := append_sep_inj hh hh' heq
    exact ⟨rfl, .inl ⟨rfl, rfl⟩⟩
  | cons q qs =>
    have hassoc : q :: qs ++ [m', h'] = q :: (qs ++ [m']) ++ [h'] := by simp
    rw [hassoc, intercalate_concat, ← cons_append, intercalate_concat] at heq
    obtain ⟨rfl, rfl⟩ := append_sep_inj hh hh' heq
    exact ⟨rfl, .inr ⟨_, rfl⟩⟩

/-- What a joined text determines. -/
theorem eq_of_intercalate_eq (ps : List (List α)) (hps : ∀ p ∈ ps, sep ∉ p) (hh : sep ∉ h)
    (hh' : sep ∉ h') : ∀ {qs : List (List α)}, ps.length ≤ qs.length →
      [sep].intercalate (ps ++ [m, h]) = [sep].intercalate (qs ++ [m', h']) →
      h' = h ∧ (qs = ps ∧ m' = m ∨ ∃ a, m = a ++ sep :: m') := by
  induction ps with
  | nil => exact fun {qs} _ heq => eq_of_intercalate_pair_eq hh hh' qs heq
  | cons p ps ih =>
    intro qs hlen heq
    have ih := @ih fun p hp => hps p (mem_cons_of_mem _ hp)
    cases qs with
    | nil => exact absurd hlen (by simp)
    | cons q qs =>
      rw [length_cons, length_cons, Nat.add_le_add_iff_right] at hlen
      rw [cons_append, cons_append, intercalate_cons (by simp), intercalate_cons (by simp)] at heq
      rcases append_sep_cases (hps p mem_cons_self) heq with ⟨rfl, htail⟩ | ⟨q', rfl, htail⟩
      · obtain ⟨rfl, ⟨rfl, rfl⟩ | hpart⟩ := ih hlen htail.symm
        · exact ⟨rfl, .inl ⟨rfl, rfl⟩⟩
        · exact ⟨rfl, .inr hpart⟩
      · -- The field has taken in more than one, so there are too few left.
        rw [← intercalate_cons (by simp)] at htail
        have hlen' : ps.length ≤ (q' :: qs).length := Nat.le_succ_of_le hlen
        obtain ⟨rfl, ⟨hqs, -⟩ | hpart⟩ := ih hlen' htail
        · rw [← hqs] at hlen
          exact absurd hlen (Nat.not_succ_le_self _)
        · exact ⟨rfl, .inr hpart⟩

/-- With as many separators in each field, but the last two, a joined text determines its
fields. -/
theorem eq_of_intercalate_eq_of_count [DecidableEq α] (hh : sep ∉ h) (hh' : sep ∉ h')
    (ps : List (List α)) : ∀ {qs : List (List α)},
      ps.map (count sep) = qs.map (count sep) →
      [sep].intercalate (ps ++ [m, h]) = [sep].intercalate (qs ++ [m', h']) →
      ps = qs ∧ m = m' ∧ h = h' := by
  induction ps with
  | nil =>
    intro qs hcount heq
    obtain rfl := map_eq_nil_iff.1 hcount.symm
    rw [nil_append, nil_append, intercalate_cons (cons_ne_nil _ _),
      intercalate_cons (cons_ne_nil _ _), intercalate_singleton,
      intercalate_singleton] at heq
    exact ⟨rfl, append_sep_inj hh hh' heq⟩
  | cons p ps ih =>
    intro qs hcount heq
    cases qs with
    | nil => cases hcount
    | cons =>
      obtain ⟨hp, hps⟩ := cons.inj hcount
      rw [cons_append, cons_append, intercalate_cons (by simp), intercalate_cons (by simp)] at heq
      obtain ⟨rfl, htail⟩ := append_sep_inj_of_count hp heq
      obtain ⟨rfl, rfl, rfl⟩ := ih hps htail
      exact ⟨rfl, rfl, rfl⟩

theorem intercalate_append_cancel (ps : List (List α)) (hqs : qs ≠ [])
    (hqs' : qs' ≠ []) (heq : [sep].intercalate (ps ++ qs) = [sep].intercalate (ps ++ qs')) :
    [sep].intercalate qs = [sep].intercalate qs' := by
  induction ps with
  | nil => exact heq
  | cons p ps ih =>
    rw [cons_append, cons_append, intercalate_cons (by simp [hqs]),
      intercalate_cons (by simp [hqs'])] at heq
    exact ih (cons.inj (append_cancel_left heq)).2

/-- A field that is free of the separator, in the place of any other, with the fields after it the
same up to the last but one. -/
theorem eq_or_part_of_intercalate_eq (hn' : sep ∉ n') (gs : List (List α))
    (heq : [sep].intercalate (n :: gs ++ [m, h]) = [sep].intercalate (n' :: gs ++ [m', h])) :
    n = n' ∧ m = m' ∨ ∃ a, m' = a ++ sep :: m := by
  rw [cons_append, cons_append, intercalate_cons (by simp), intercalate_cons (by simp)] at heq
  rcases append_sep_cases hn' heq.symm with ⟨rfl, htail⟩ | ⟨q, -, htail⟩
  · have hpair := intercalate_append_cancel gs (cons_ne_nil _ _) (cons_ne_nil _ _) htail
    exact .inl ⟨rfl, append_cancel_right hpair⟩
  · refine .inr ?_
    cases gs with
    | nil =>
      rw [nil_append, nil_append, intercalate_cons (cons_ne_nil _ _),
        intercalate_cons (cons_ne_nil _ _), intercalate_singleton] at htail
      have hassoc : q ++ sep :: (m ++ sep :: h) = (q ++ sep :: m) ++ sep :: h := by simp
      rw [hassoc] at htail
      exact ⟨q, append_cancel_right htail⟩
    | cons g gs =>
      have hsplit (m) : [sep].intercalate (g :: gs ++ [m, h]) =
          [sep].intercalate (g :: gs) ++ sep :: m ++ sep :: h := by
        have hassoc : g :: gs ++ [m, h] = g :: (gs ++ [m]) ++ [h] := by simp
        rw [hassoc, intercalate_concat, ← cons_append, intercalate_concat]
      rw [hsplit, hsplit] at htail
      -- What stands after the fields is longer by `q` and a separator.
      generalize [sep].intercalate (g :: gs) = fields at htail
      have hassoc : q ++ sep :: (fields ++ sep :: m ++ sep :: h) =
          (q ++ sep :: fields ++ sep :: m) ++ sep :: h := by simp
      rw [hassoc] at htail
      have hend := append_cancel_right htail
      have hend : (fields ++ [sep]) ++ m' = (q ++ sep :: fields) ++ sep :: m := by simpa using hend
      rcases append_eq_append_iff.1 hend with ⟨a, -, ha⟩ | ⟨a, ha, hm⟩
      · exact ⟨a, ha⟩
      · have hlength := congrArg length ha
        simp only [length_append, length_cons, length_nil] at hlength
        obtain rfl : a = [] := eq_nil_of_length_eq_zero (by omega)
        exact ⟨[], hm.symm⟩

end

end Tunnet.Joined

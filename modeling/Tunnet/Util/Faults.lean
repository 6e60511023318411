import Mathlib.Logic.Nonempty

/-!
# Programs whose steps may fail or be the last

A program changes a state in named steps, each of which is taken at most once. What becomes of the
steps is an input: a step may be done, fail with an error that the program sees, or be where the
machine stops.

* `Faulty.bind_ok`, `Faulty.bind_error`, `Faulty.bind_stopped`: how a sequence goes on.
* `Faulty.bind_eq_ok` and its like: what a program did that came to its end.
* `Faulty.Fails`: a program that cannot come to its end.
* `Faulty.Keeps`: what every step keeps, the program keeps.
-/

namespace Tunnet

variable {ι σ ε α β : Type}

/-- What becomes of a step. -/
inductive Fate
  | done
  | failed
  | stopped
  deriving DecidableEq

/-- How a program ends: with a value, with an error, or where the machine stopped. -/
inductive Outcome (ε α : Type)
  | ok (a : α)
  | error (e : ε)
  | stopped

/-- The value, if the program came to its end. -/
def Outcome.toOption : Outcome ε α → Option α
  | ok a => some a
  | error _ => none
  | stopped => none

/-- A program with steps named by `ι` on a state `σ`. -/
def Faulty (ι σ ε α : Type) : Type := (ι → Fate) → σ → Outcome ε α × σ

variable {s : σ} {p q : Faulty ι σ ε α} {f : α → Faulty ι σ ε β} {x : Except ε α} {o : Option α}
  {b : β}

namespace Faulty

protected def bind (p : Faulty ι σ ε α) (f : α → Faulty ι σ ε β) : Faulty ι σ ε β := fun fate s =>
  match p fate s with
  | (.ok a, s') => f a fate s'
  | (.error e, s') => (.error e, s')
  | (.stopped, s') => (.stopped, s')

instance : Monad (Faulty ι σ ε) where
  pure a _ s := (.ok a, s)
  bind := Faulty.bind

/-- The state as it is. -/
def get : Faulty ι σ ε σ := fun _ s => (.ok s, s)

/-- Return an error. -/
def raise (e : ε) : Faulty ι σ ε α := fun _ s => (.error e, s)

/-- Go on with the value, or return the error. -/
def ofExcept : Except ε α → Faulty ι σ ε α
  | .ok a => pure a
  | .error e => raise e

def ofOption (e : ε) : Option α → Faulty ι σ ε α
  | some a => pure a
  | none => raise e

/-- A step that changes the state. A step that is not done leaves what `part` says. -/
def act (i : ι) (e : ε) (whole : σ → σ) (part : σ → σ := id) : Faulty ι σ ε Unit := fun fate s =>
  match fate i with
  | .done => (.ok (), whole s)
  | .failed => (.error e, part s)
  | .stopped => (.stopped, part s)

/-- A step that reads the state, and may find nothing there. -/
def query (i : ι) (e : ε) (f : σ → Option α) : Faulty ι σ ε α := fun fate s =>
  match fate i, f s with
  | .done, some a => (.ok a, s)
  | .stopped, _ => (.stopped, s)
  | _, _ => (.error e, s)

/-- Errors become values; a machine that stopped does not go on. -/
def attempt (p : Faulty ι σ ε α) : Faulty ι σ ε (Except ε α) := fun fate s =>
  match p fate s with
  | (.ok a, s') => (.ok (.ok a), s')
  | (.error e, s') => (.ok (.error e), s')
  | (.stopped, s') => (.stopped, s')

/-- The same program with its steps named otherwise. -/
def rename {κ : Type} (f : ι → κ) (p : Faulty ι σ ε α) : Faulty κ σ ε α := fun fate => p (fate ∘ f)

variable {fate : ι → Fate} {s' : σ} {e : ε} {a : α} {i : ι} {whole part : σ → σ}

@[simp] theorem pure_apply (a : α) : (pure a : Faulty ι σ ε α) fate s = (.ok a, s) := rfl

@[simp] theorem raise_apply (e : ε) : (raise e : Faulty ι σ ε α) fate s = (.error e, s) := rfl

@[simp] theorem get_apply : (get : Faulty ι σ ε σ) fate s = (.ok s, s) := rfl

theorem bind_ok (h : p fate s = (.ok a, s')) : (p >>= f) fate s = f a fate s' := by
  change Faulty.bind p f fate s = _
  rw [Faulty.bind, h]

theorem bind_error (h : p fate s = (.error e, s')) : (p >>= f) fate s = (.error e, s') := by
  change Faulty.bind p f fate s = _
  rw [Faulty.bind, h]

theorem bind_stopped (h : p fate s = (.stopped, s')) : (p >>= f) fate s = (.stopped, s') := by
  change Faulty.bind p f fate s = _
  rw [Faulty.bind, h]

theorem bind_congr {g : α → Faulty ι σ ε β} (hp : p fate s = q fate s)
    (hf : ∀ a t, q fate s = (.ok a, t) → f a fate t = g a fate t) :
    (p >>= f) fate s = (q >>= g) fate s := by
  rcases hq : q fate s with ⟨o, t⟩
  rw [hq] at hp
  cases o with
  | ok a => rw [bind_ok hp, bind_ok hq, hf a t hq]
  | error => rw [bind_error hp, bind_error hq]
  | stopped => rw [bind_stopped hp, bind_stopped hq]

theorem bind_pure_unit (q : Faulty ι σ ε Unit) : (q >>= fun _ => pure ()) fate s = q fate s := by
  rcases hq : q fate s with ⟨o, t⟩
  cases o with
  | ok => rw [bind_ok hq, pure_apply]
  | error => rw [bind_error hq]
  | stopped => rw [bind_stopped hq]

theorem bind_not_ok {o : Outcome ε α} (h : p fate s = (o, s')) (hne : ∀ a, o ≠ .ok a) :
    ∃ o', (p >>= f) fate s = (o', s') ∧ ∀ b, o' ≠ .ok b := by
  cases o with
  | ok a => exact absurd rfl (hne a)
  | error => exact ⟨_, bind_error h, nofun⟩
  | stopped => exact ⟨_, bind_stopped h, nofun⟩

theorem act_done (h : fate i = .done) : act i e whole part fate s = (.ok (), whole s) := by
  simp [act, h]

theorem act_failed (h : fate i = .failed) : act i e whole part fate s = (.error e, part s) := by
  simp [act, h]

theorem act_stopped (h : fate i = .stopped) : act i e whole part fate s = (.stopped, part s) := by
  simp [act, h]

theorem act_not_done (h : fate i ≠ .done) :
    ∃ o, act i e whole part fate s = (o, part s) ∧ ∀ u, o ≠ .ok u := by
  cases hfate : fate i with
  | done => exact absurd hfate h
  | failed => exact ⟨.error e, by simp [act, hfate], nofun⟩
  | stopped => exact ⟨.stopped, by simp [act, hfate], nofun⟩

theorem act_cases (i : ι) (e : ε) (whole part : σ → σ) (fate : ι → Fate) (s : σ) :
    (fate i ≠ .done ∧ ∃ o, act i e whole part fate s = (o, part s) ∧ ∀ u, o ≠ .ok u) ∨
      fate i = .done ∧ act i e whole part fate s = (.ok (), whole s) := by
  by_cases h : fate i = .done
  · exact .inr ⟨h, act_done h⟩
  · exact .inl ⟨h, act_not_done h⟩

theorem attempt_ok (h : p fate s = (.ok a, s')) : attempt p fate s = (.ok (.ok a), s') := by
  unfold attempt
  rw [h]

theorem attempt_error (h : p fate s = (.error e, s')) :
    attempt p fate s = (.ok (.error e), s') := by
  unfold attempt
  rw [h]

theorem attempt_of_ne_stopped (h : (p fate s).1 ≠ .stopped) :
    ∃ x, attempt p fate s = (.ok x, (p fate s).2) ∧ x.toOption = (p fate s).1.toOption := by
  unfold attempt
  rcases hp : p fate s with ⟨o, t⟩
  rw [hp] at h
  cases o with
  | ok a => exact ⟨.ok a, rfl, rfl⟩
  | error e => exact ⟨.error e, rfl, rfl⟩
  | stopped => exact absurd rfl h

theorem attempt_stopped (h : p fate s = (.stopped, s')) : attempt p fate s = (.stopped, s') := by
  unfold attempt
  rw [h]

/-! ### Programs that come to their end -/

@[simp] theorem raise_eq_ok : ¬ (raise e : Faulty ι σ ε α) fate s = (.ok a, s') := by
  simp

@[simp] theorem ofOption_eq_ok :
    (ofOption e o : Faulty ι σ ε α) fate s = (.ok a, s') ↔ o = some a ∧ s = s' := by
  cases o <;> simp [ofOption]

@[simp] theorem ofExcept_eq_ok :
    (ofExcept x : Faulty ι σ ε α) fate s = (.ok a, s') ↔ x = .ok a ∧ s = s' := by
  cases x <;> simp [ofExcept]

@[simp] theorem query_eq_ok {g : σ → Option α} :
    query i e g fate s = (.ok a, s') ↔ fate i = .done ∧ g s = some a ∧ s = s' := by
  unfold query
  cases fate i <;> cases g s <;> simp

theorem bind_eq_ok : (p >>= f) fate s = (.ok b, s') ↔
    ∃ a t, p fate s = (.ok a, t) ∧ f a fate t = (.ok b, s') := by
  constructor
  · intro h
    rcases hp : p fate s with ⟨o, t⟩
    cases o with
    | ok a => exact ⟨a, t, rfl, (bind_ok hp).symm.trans h⟩
    | error => simp [bind_error hp] at h
    | stopped => simp [bind_stopped hp] at h
  · rintro ⟨a, t, hp, h⟩
    rw [bind_ok hp, h]

end Faulty

/-! ### Programs that read -/

/-- What becomes of steps that are taken in order: the first one that is not done decides. -/
def fateOf (fate : ι → Fate) : List ι → Fate
  | [] => .done
  | i :: is => if fate i = .done then fateOf fate is else fate i

/-- How a program ends whose steps came to this. -/
def Fate.outcome (a : α) (e : ε) : Fate → Outcome ε α
  | done => .ok a
  | failed => .error e
  | stopped => .stopped

theorem fateOf_eq_done {fate : ι → Fate} {is : List ι} :
    fateOf fate is = .done ↔ ∀ i ∈ is, fate i = .done := by
  induction is with
  | nil => simp [fateOf]
  | cons i is ih =>
    by_cases hi : fate i = .done
    · simp [fateOf, hi, ih]
    · simp [fateOf, hi]

theorem fateOf_append (fate : ι → Fate) (is js : List ι) :
    fateOf fate (is ++ js) = if fateOf fate is = .done then fateOf fate js else fateOf fate is := by
  induction is with
  | nil => rfl
  | cons i is ih =>
    by_cases hi : fate i = .done
    · simp [fateOf, hi, ih]
    · simp [fateOf, hi]

namespace Faulty

variable {a : α} {e : ε} {i : ι} {is : List ι} {g : σ → Option α} {r : σ → σ → Prop}

theorem bind_outcome {fate : ι → Fate} {s' : σ} {f : Fate} {q : α → Faulty ι σ ε β}
    (hp : p fate s = (f.outcome a e, s')) (hf : f ≠ .done) (b : β) :
    (p >>= q) fate s = (f.outcome b e, s') := by
  cases f with
  | done => exact absurd rfl hf
  | failed => exact bind_error hp
  | stopped => exact bind_stopped hp

/-- In the state `s` the program reads `a` in the steps `is`, and changes nothing. -/
def Reads (p : Faulty ι σ ε α) (s : σ) (is : List ι) (a : α) : Prop :=
  ∀ fate, ∃ e, p fate s = ((fateOf fate is).outcome a e, s)

theorem reads_query (h : g s = some a) : (query i e g).Reads s [i] a := by
  intro fate
  refine ⟨e, ?_⟩
  unfold query fateOf
  rw [h]
  cases fate i <;> rfl

theorem Reads.bind {js : List ι} (hp : p.Reads s is a)
    (hf : (f a).Reads s js b) : (p >>= f).Reads s (is ++ js) b := by
  intro fate
  obtain ⟨e, he⟩ := hp fate
  obtain ⟨e', he'⟩ := hf fate
  rw [fateOf_append]
  cases hfate : fateOf fate is with
  | done =>
    rw [hfate] at he
    exact ⟨e', by rw [bind_ok he, if_pos rfl, he']⟩
  | failed =>
    rw [hfate] at he
    exact ⟨e, bind_error he⟩
  | stopped =>
    rw [hfate] at he
    exact ⟨e, bind_stopped he⟩

theorem Reads.cases (h : p.Reads s is a) (fate : ι → Fate) :
    ((∀ i ∈ is, fate i = .done) ∧ p fate s = (.ok a, s)) ∨
      ((¬ ∀ i ∈ is, fate i = .done) ∧ ∃ o, p fate s = (o, s) ∧ ∀ a, o ≠ .ok a) := by
  obtain ⟨e, he⟩ := h fate
  rw [← fateOf_eq_done]
  cases hfate : fateOf fate is with
  | done =>
    rw [hfate] at he
    exact .inl ⟨rfl, he⟩
  | failed | stopped =>
    rw [hfate] at he
    exact .inr ⟨nofun, _, he, nofun⟩

/-- In the state `s` the program does not come to its end, and changes nothing. -/
def Fails (p : Faulty ι σ ε α) (s : σ) : Prop :=
  ∀ fate, ∃ o, p fate s = (o, s) ∧ ∀ a, o ≠ .ok a

theorem fails_raise (e : ε) : (raise e : Faulty ι σ ε α).Fails s := fun _ => ⟨_, rfl, nofun⟩

theorem fails_query (h : g s = none) : (query i e g).Fails s := by
  intro fate
  unfold query
  rw [h]
  cases fate i with
  | done | failed | stopped => exact ⟨_, rfl, nofun⟩

theorem Fails.bind (h : p.Fails s) : (p >>= f).Fails s := by
  intro fate
  obtain ⟨o, ho, hne⟩ := h fate
  exact bind_not_ok ho hne

/-! ### What every step keeps -/

/-- The states before and after are related, whatever becomes of the steps. -/
def Keeps (r : σ → σ → Prop) (p : Faulty ι σ ε α) : Prop := ∀ fate s, r s (p fate s).2

section

variable [Std.Refl r]

theorem keeps_pure (a : α) : (pure a : Faulty ι σ ε α).Keeps r := fun _ => Std.Refl.refl

theorem keeps_raise (e : ε) : (raise e : Faulty ι σ ε α).Keeps r := fun _ => Std.Refl.refl

theorem keeps_get : (get : Faulty ι σ ε σ).Keeps r := fun _ => Std.Refl.refl

end

theorem keeps_act {whole part : σ → σ}
    (hwhole : ∀ s, r s (whole s)) (hpart : ∀ s, r s (part s)) : (act i e whole part).Keeps r := by
  intro fate s
  by_cases h : fate i = .done
  · rw [act_done h]
    exact hwhole s
  · obtain ⟨o, ho, -⟩ := act_not_done h
    rw [ho]
    exact hpart s

theorem Keeps.attempt (h : p.Keeps r) : (attempt p).Keeps r := by
  intro fate s
  have hs := h fate s
  unfold Faulty.attempt
  rcases hp : p fate s with ⟨o, t⟩
  rw [hp] at hs
  cases o <;> exact hs

theorem Keeps.bind [Trans r r r] (hp : p.Keeps r) (hf : ∀ a, (f a).Keeps r) :
    (p >>= f).Keeps r := by
  intro fate s
  have hs := hp fate s
  rcases hps : p fate s with ⟨o, t⟩
  rw [hps] at hs
  cases o with
  | ok a =>
    rw [bind_ok hps]
    exact Trans.trans hs (hf a fate t)
  | error =>
    rw [bind_error hps]
    exact hs
  | stopped =>
    rw [bind_stopped hps]
    exact hs

variable [Nonempty ε]

theorem reads_pure (a : α) : (pure a : Faulty ι σ ε α).Reads s [] a :=
  fun _ => ⟨Classical.arbitrary ε, rfl⟩

theorem Reads.map (h : p.Reads s is a) (g : α → β) :
    (p >>= fun x => pure (g x)).Reads s is (g a) := by
  rw [← List.append_nil is]
  exact h.bind (reads_pure (g a))

theorem reads_ofOption (h : o = some a) : (ofOption e o : Faulty ι σ ε α).Reads s [] a := by
  rw [h]
  exact reads_pure a

theorem reads_ofExcept (h : x = .ok a) : (ofExcept x : Faulty ι σ ε α).Reads s [] a := by
  rw [h]
  exact reads_pure a

end Faulty

end Tunnet

import Mathlib.Logic.Basic

/-!
# Steps that may fail

Code that goes through a list of checks and stops at the first one that fails. The lemmas say when
such a list of steps gets to its end, and with which error it stops.
-/

namespace Tunnet.Check

universe u v w

variable {ε : Type u} {α β : Type v} {x : Except ε α} {e e' : ε} {f : α → Except ε β} {a : α}
  {o : Option α} {c : Prop}

/-- Stop with `e` if `c` holds. -/
def failIf (c : Prop) [Decidable c] (e : ε) : Except ε Unit := if c then .error e else .ok ()

/-- `Option::ok_or`. -/
def okOr (o : Option α) (e : ε) : Except ε α :=
  match o with
  | none => .error e
  | some a => .ok a

@[simp] theorem failIf_eq_ok [Decidable c] {u : Unit} : failIf c e = .ok u ↔ ¬ c := by
  by_cases h : c <;> simp [failIf]

@[simp] theorem okOr_eq_ok : okOr o e = .ok a ↔ o = some a := by
  cases o <;> simp [okOr]

@[simp] theorem bind_eq_ok {b : β} : (x >>= f) = .ok b ↔ ∃ a, x = .ok a ∧ f a = .ok b := by
  cases x with
  | error => exact ⟨nofun, fun ⟨_, h, _⟩ => (nomatch h)⟩
  | ok a =>
    constructor
    · intro h
      exact ⟨a, rfl, h⟩
    · rintro ⟨a', ha, h⟩
      obtain rfl := Except.ok.inj ha
      exact h

@[simp] theorem mapError_eq_ok {ε' : Type w} {f : ε → ε'} : x.mapError f = .ok a ↔ x = .ok a := by
  cases x with
  | error => constructor <;> intro h <;> cases h
  | ok =>
    constructor
    · exact fun h => congrArg Except.ok (Except.ok.inj h)
    · exact fun h => congrArg Except.ok (Except.ok.inj h)

@[simp] theorem failIf_eq_error [Decidable c] : failIf c e = .error e' ↔ c ∧ e = e' := by
  by_cases h : c <;> simp [failIf, h]

@[simp] theorem okOr_eq_error : okOr o e = .error e' ↔ o = none ∧ e = e' := by
  cases o <;> simp [okOr]

@[simp] theorem bind_eq_error :
    (x >>= f) = .error e ↔ x = .error e ∨ ∃ a, x = .ok a ∧ f a = .error e := by
  cases x with
  | error =>
    constructor
    · intro h
      exact .inl (congrArg Except.error (Except.error.inj h))
    · rintro (h | ⟨a, ha, -⟩)
      · exact congrArg Except.error (Except.error.inj h)
      · exact nomatch ha
  | ok a =>
    constructor
    · intro h
      exact .inr ⟨a, rfl, h⟩
    · rintro (h | ⟨a', ha, h⟩)
      · exact nomatch h
      · obtain rfl := Except.ok.inj ha
        exact h

@[simp] theorem mapError_eq_error {ε' : Type w} {f : ε → ε'} {e : ε'} :
    x.mapError f = .error e ↔ ∃ e', x = .error e' ∧ f e' = e := by
  cases x with
  | error e' =>
    constructor
    · exact fun h => ⟨e', rfl, Except.error.inj h⟩
    · rintro ⟨e'', h, rfl⟩
      exact congrArg (fun e => Except.error (f e)) (Except.error.inj h)
  | ok =>
    constructor
    · intro h
      cases h
    · rintro ⟨e', h, -⟩
      cases h

theorem toOption_eq_some : x.toOption = some a ↔ x = .ok a := by
  cases x <;> simp [Except.toOption]

end Tunnet.Check

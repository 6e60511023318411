import Mathlib.Data.List.Basic

/-!
# Runs of a state machine

A machine takes a call in a state and gives the next state and a reply. A *history* lists the
calls made so far with their replies, the most recent one first. `Run step ok s₀ h s` says that
the machine, started in `s₀`, went through the history `h` and is now in `s`, every call having
met the condition `ok` (which sees the history and the state before the call).

* `Run.invariant`: what holds at the start and is kept by every step holds at the end of a run.
* `Run.forall_call`: what an invariant gives about the reply to one call holds of every call of
  a run, with the history as it was before that call.
* `exec` runs a list of calls, and `run_exec` says that it makes a run when `Meets` holds, which
  is decidable whenever `ok` is.
-/

namespace Tunnet

universe u v w

variable {σ : Type u} {ι : Type v} {ο : Type w} {step : σ → ι → σ × ο}
  {ok : List (ι × ο) → σ → ι → Prop} {s₀ s s' : σ} {h : List (ι × ο)} {I : List (ι × ο) → σ → Prop}

/-- Runs from `s₀` whose calls all meet `ok`. -/
inductive Run (step : σ → ι → σ × ο) (ok : List (ι × ο) → σ → ι → Prop) (s₀ : σ) :
    List (ι × ο) → σ → Prop
  | start : Run step ok s₀ [] s₀
  | call {h : List (ι × ο)} {s : σ} (i : ι) : Run step ok s₀ h s → ok h s i →
      Run step ok s₀ ((i, (step s i).2) :: h) (step s i).1

theorem Run.call_eq {i : ι} {o : ο} (hrun : Run step ok s₀ h s) (hok : ok h s i)
    (hstep : step s i = (s', o)) : Run step ok s₀ ((i, o) :: h) s' := by
  have hcall := call i hrun hok
  rw [hstep] at hcall
  exact hcall

/-- A history leads to one state. -/
theorem Run.unique (hrun : Run step ok s₀ h s) (hrun' : Run step ok s₀ h s') : s = s' := by
  induction hrun generalizing s' with
  | start =>
    cases hrun'
    rfl
  | @call _ s i _ _ ih =>
    generalize (step s i).2 = o at hrun'
    cases hrun' with
    | call _ hrun' _ => rw [ih hrun']

theorem Run.invariant (hstart : I [] s₀)
    (hcall : ∀ h s i, I h s → ok h s i → I ((i, (step s i).2) :: h) (step s i).1)
    (hrun : Run step ok s₀ h s) : I h s := by
  induction hrun with
  | start => exact hstart
  | call i _ hok ih => exact hcall _ _ i ih hok

theorem Run.forall_call {P : List (ι × ο) → ι → ο → Prop} (hinv : ∀ h s, Run step ok s₀ h s → I h s)
    (hP : ∀ h s i, I h s → ok h s i → P h i (step s i).2) (hrun : Run step ok s₀ h s) :
    ∀ later i o earlier, h = later ++ (i, o) :: earlier → P earlier i o := by
  induction hrun with
  | start => intro later i o earlier h; simp at h
  | call j hrun hok ih =>
    intro later i o earlier h
    cases later with
    | nil =>
      obtain ⟨⟨rfl, rfl⟩, rfl⟩ := h
      exact hP _ _ j (hinv _ _ hrun) hok
    | cons x later =>
      rw [List.cons_append, List.cons.injEq] at h
      exact ih later i o earlier h.2

/-! ### Executing a list of calls -/

/-- The history and the state after making the calls of a list in order. -/
def exec (step : σ → ι → σ × ο) : List (ι × ο) → σ → List ι → List (ι × ο) × σ
  | h, s, [] => (h, s)
  | h, s, i :: is => exec step ((i, (step s i).2) :: h) (step s i).1 is

/-- Every call of the list meets `ok` when it is made. -/
def Meets (step : σ → ι → σ × ο) (ok : List (ι × ο) → σ → ι → Prop) :
    List (ι × ο) → σ → List ι → Prop
  | _, _, [] => True
  | h, s, i :: is => ok h s i ∧ Meets step ok ((i, (step s i).2) :: h) (step s i).1 is

instance decidableMeets [∀ h s i, Decidable (ok h s i)] : ∀ h s is, Decidable (Meets step ok h s is)
  | _, _, [] => inferInstanceAs (Decidable True)
  | h, s, i :: is =>
    have := decidableMeets ((i, (step s i).2) :: h) (step s i).1 is
    inferInstanceAs (Decidable (_ ∧ _))

theorem run_exec_of_run (is : List ι) : ∀ {h : List (ι × ο)} {s : σ}, Run step ok s₀ h s →
    Meets step ok h s is → Run step ok s₀ (exec step h s is).1 (exec step h s is).2 := by
  induction is with
  | nil => intro h s hrun _; exact hrun
  | cons i is ih => intro h s hrun hm; exact ih (.call i hrun hm.1) hm.2

theorem run_exec {is : List ι} (hm : Meets step ok [] s₀ is) :
    Run step ok s₀ (exec step [] s₀ is).1 (exec step [] s₀ is).2 :=
  run_exec_of_run is .start hm

theorem meets_true (is : List ι) :
    ∀ {h : List (ι × ο)} {s : σ}, Meets step (fun _ _ _ => True) h s is := by
  induction is with
  | nil => exact trivial
  | cons i is ih => exact ⟨trivial, ih⟩

end Tunnet

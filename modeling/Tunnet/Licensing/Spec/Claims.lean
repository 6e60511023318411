import Tunnet.Licensing.Spec.Decoding

/-!
# The two ways of reading the claims

Rust reads a number that is written as an integer, up to `2 ^ 53`, and measures strings in bytes;
TypeScript reads a number whose double is an integer below `2 ^ 53`, and measures strings in UTF-16
code units.

* `Compared`: two readers give the same where the one's condition and the other's hold.
-/

namespace Tunnet.Licensing

open Function JsonValue Option Rust

/-! ### Numbers -/

namespace NumberLiteral

variable {x : NumberLiteral}

end NumberLiteral

/-! ### Comparing readers -/

universe u v

/-- Two readers compared: the values that `rust` gives where `P` holds are those that `ts` gives
where `Q` holds, and `P` holds of what both read. -/
structure Compared {β : Type u} {α : Type v} (rust ts : β → Option α) (P Q : β → Prop) : Prop where
  iff : ∀ x a, rust x = some a ∧ P x ↔ ts x = some a ∧ Q x
  both : ∀ x a b, rust x = some a → ts x = some b → P x

namespace Compared

variable {β : Type u} {α γ : Type v} {rust ts : β → Option α} {P Q : β → Prop}

theorem of_iff (h : ∀ x a, rust x = some a ↔ ts x = some a ∧ Q x) :
    Compared rust ts (fun _ => True) Q where
  iff x a := by rw [and_true, h]
  both _ _ _ _ _ := trivial

theorem bind (h : Compared rust ts P Q) (f : α → Option γ) :
    Compared (fun x => (rust x).bind f) (fun x => (ts x).bind f) P Q where
  iff x c := by
    simp only [bind_eq_some_iff]
    constructor
    · rintro ⟨⟨a, hrust, hf⟩, hP⟩
      obtain ⟨hts, hQ⟩ := (h.iff x a).1 ⟨hrust, hP⟩
      exact ⟨⟨a, hts, hf⟩, hQ⟩
    · rintro ⟨⟨a, hts, hf⟩, hQ⟩
      obtain ⟨hrust, hP⟩ := (h.iff x a).2 ⟨hts, hQ⟩
      exact ⟨⟨a, hrust, hf⟩, hP⟩
  both x c c' hrust hts := by
    obtain ⟨a, hrust, -⟩ := bind_eq_some_iff.1 hrust
    obtain ⟨b, hts, -⟩ := bind_eq_some_iff.1 hts
    exact h.both x a b hrust hts

theorem mapM (h : Compared rust ts (fun _ => True) Q) :
    Compared (fun xs : List β => xs.mapM rust) (fun xs => xs.mapM ts) (fun _ => True)
      (fun xs => ∀ x ∈ xs, Q x) := by
  refine .of_iff fun xs as => ?_
  have hiff (x) (a) : rust x = some a ↔ ts x = some a ∧ Q x := by
    rw [← h.iff, and_true]
  induction xs generalizing as with
  | nil => simp
  | cons x xs ih =>
    simp only [List.mapM_cons, bind_eq_bind, bind_eq_some_iff, hiff, ih, List.forall_mem_cons]
    constructor
    · rintro ⟨a, ⟨hx, hQ⟩, as', ⟨hxs, hQs⟩, heq⟩
      exact ⟨⟨a, hx, as', hxs, heq⟩, hQ, hQs⟩
    · rintro ⟨⟨a, hx, as', hxs, heq⟩, hQ, hQs⟩
      exact ⟨a, ⟨hx, hQ⟩, as', ⟨hxs, hQs⟩, heq⟩

theorem lookup {rust ts : Value → Option α} {P Q : Value → Prop} (h : Compared rust ts P Q)
    (key : String) :
    Compared (fun p : Fields => (p.lookup key).bind rust) (fun p => (p.lookup key).bind ts)
      (fun p => ∀ v, p.lookup key = some v → P v) (fun p => ∀ v, p.lookup key = some v → Q v) where
  iff p a := by
    cases p.lookup key with
    | none => simp
    | some v => simpa using h.iff v a
  both p a b := by
    cases p.lookup key with
    | none => simp
    | some v => simpa using h.both v a b

end Compared

variable {x : NumberLiteral}

variable {obj : Fields}

variable {limits : Limit → Option Int}

variable {limits : LimitMap} {obj : Fields}

variable (P : Value → Prop) (o : Option Value)

end Tunnet.Licensing

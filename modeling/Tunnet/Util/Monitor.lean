import Mathlib.Order.Basic
import Tunnet.Util.Run

/-!
# Tasks, locks and what they share

The program of a task is cut at its requests, exactly where other tasks may come in between.
Tasks work on *slots*, each behind a lock, and on a shared state that needs no lock and only moves
up in a preorder.

* `Prog.Ends post p g`: what is known when `p` ends, if it is started when the shared state is `g`.
  Before each answer the shared state may have moved up to any later one, and the answer is one that
  `serve` can give there.
* `Monitor.step` interleaves the tasks request by request. A task that was started can be delayed
  for ever but is never dropped in the middle of a piece: there is no event that cancels one.
* `Monitor.Move` is the machine as an observer sees it who knows only which piece each task is in.
-/

namespace Tunnet

variable {Q : Type} {A : Q → Type} {α β : Type}

/-- A program that returns an `α` and makes requests `q : Q`, answered by an `A q`. -/
inductive Prog (Q : Type) (A : Q → Type) (α : Type) where
  | ret (a : α)
  | ask (q : Q) (next : A q → Prog Q A α)

namespace Prog

variable {q : Q} {p : Prog Q A α}

/-- Run `p`, then what `f` makes of its result. -/
protected def bind : Prog Q A α → (α → Prog Q A β) → Prog Q A β
  | .ret a, f => f a
  | .ask q next, f => .ask q fun a => (next a).bind f

instance : Monad (Prog Q A) where
  pure := .ret
  bind := Prog.bind

/-- Make a request and return its answer. -/
def request (q : Q) : Prog Q A (A q) := .ask q .ret

@[simp]
theorem pure_eq (a : α) : (pure a : Prog Q A α) = .ret a := rfl

section Ends

variable {γ ε : Type} [Preorder γ] {serve : γ → (q : Q) → ε → Option (A q)}
  {post post' : α → γ → Prop} {g g' : γ}

/-- What holds whenever the program, started in `g`, ends. -/
def Ends (serve : γ → (q : Q) → ε → Option (A q)) (post : α → γ → Prop) : Prog Q A α → γ → Prop
  | .ret a, g => post a g
  | .ask q next, g => ∀ g', g ≤ g' → ∀ e a, serve g' q e = some a → (next a).Ends serve post g'

@[simp]
theorem ends_ret {a : α} : (ret a : Prog Q A α).Ends serve post g ↔ post a g := Iff.rfl

theorem ends_request {post : A q → γ → Prop} : (request q).Ends serve post g ↔
    ∀ g', g ≤ g' → ∀ e a, serve g' q e = some a → post a g' := Iff.rfl

theorem ends_request_bind {f : A q → Prog Q A β} {post : β → γ → Prop} :
    (request q >>= f).Ends serve post g ↔
      ∀ g', g ≤ g' → ∀ e a, serve g' q e = some a → (f a).Ends serve post g' := Iff.rfl

theorem Ends.mono (h : p.Ends serve post g)
    (himp : ∀ a g', g ≤ g' → post a g' → post' a g') : p.Ends serve post' g := by
  induction p generalizing g with
  | ret a => exact himp a g le_rfl h
  | ask q next ih =>
    intro g' hle e a ha
    exact ih a (h g' hle e a ha) fun b g'' hle' => himp b g'' (hle.trans hle')

theorem ends_bind_iff {f : α → Prog Q A β} {post : β → γ → Prop} :
    (p >>= f).Ends serve post g ↔ p.Ends serve (fun a g' => (f a).Ends serve post g') g := by
  induction p generalizing g with
  | ret => exact Iff.rfl
  | ask q next ih => exact forall₅_congr fun g' _ _ a _ => ih a

theorem Ends.of_le {next : A q → Prog Q A α} (h : (ask q next).Ends serve post g)
    (hle : g ≤ g') : (ask q next).Ends serve post g' :=
  fun g'' hle' => h g'' (hle.trans hle')

end Ends

end Prog

/-! ## Monitors

The code of a task is cut into pieces: a piece either runs outside all locks or is the critical
section of one slot. The requests of a piece read the shared state and can be separated by steps of
all other tasks; the effects of a piece take place when it ends, together with the release of its
slot. For the observer a piece takes place at one moment, and all that is known of it is a summary
of how it can end. The summary of a critical section may use a condition `Pre` on the slot it finds.
-/

open Function

/-- Where a task goes when a piece of its code ends. -/
inductive Next (κ ρ : Type) where
  | call (c : κ)
  | done (r : ρ)

/-- How a piece ends. -/
structure Exit (κ ρ W : Type) where
  next : Next κ ρ
  effects : List W := []

/-- The piece the task is in afterwards. -/
def Exit.piece {κ ρ W : Type} (x : Exit κ ρ W) : Option κ :=
  match x.next with
  | .call c => some c
  | .done _ => none

/-- A piece of code: outside all locks, or the critical section of the slot `k`. -/
inductive Piece (Q : Type) (A : Q → Type) (K : Type) (S : K → Type) (κ ρ W : Type) where
  | free (p : Prog Q A (Exit κ ρ W))
  | locked (k : K) (p : S k → Prog Q A (S k × Exit κ ρ W))

/-- How far a task is in its piece. -/
inductive Place (Q : Type) (A : Q → Type) (K : Type) (S : K → Type) (κ ρ W : Type) where
  | free (p : Prog Q A (Exit κ ρ W))
  | waiting (k : K) (p : S k → Prog Q A (S k × Exit κ ρ W))
  | inside (k : K) (p : Prog Q A (S k × Exit κ ρ W))

/-- The code of the tasks and the shared state they work with. -/
structure Monitor (γ ε η κ ρ W Q : Type) (A : Q → Type) (K : Type) (S : K → Type) where
  /-- The answer to a request, of those that are possible the one the environment chooses. -/
  serve : γ → (q : Q) → ε → Option (A q)
  /-- The effect of a piece on the shared state. -/
  apply : γ → W → γ
  /-- Whether a task may start with this piece, and what becomes of the shared state. -/
  enter : γ → κ → Option γ
  /-- Steps of the environment. -/
  env : γ → η → Option γ
  body : κ → Piece Q A K S κ ρ W

namespace Monitor

variable {γ ε η κ ρ W Q : Type} {A : Q → Type} {K : Type} {S : K → Type} {τ : Type}
  [DecidableEq K] [DecidableEq τ]

structure State (γ κ ρ W Q : Type) (A : Q → Type) (K : Type) (S : K → Type) (τ : Type) where
  glob : γ
  slots : (k : K) → S k
  locks : K → Option τ
  tasks : τ → Option (κ × Place Q A K S κ ρ W)

inductive Event (τ κ ε η : Type) where
  | start (t : τ) (c : κ)
  | run (t : τ) (e : ε)
  | env (n : η)

/-- A task at the beginning of a piece. -/
def entry : Piece Q A K S κ ρ W → Place Q A K S κ ρ W
  | .free p => .free p
  | .locked k p => .waiting k p

variable (M : Monitor γ ε η κ ρ W Q A K S) {o : Option (κ × Place Q A K S κ ρ W)}

variable (s : State γ κ ρ W Q A K S τ)

/-- The task ends its piece. -/
def leave (t : τ) (x : Exit κ ρ W) : State γ κ ρ W Q A K S τ × Option ρ :=
  let s := { s with glob := x.effects.foldl M.apply s.glob }
  match x.next with
  | .call c => ({ s with tasks := Function.update s.tasks t (some (c, entry (M.body c))) }, none)
  | .done r => ({ s with tasks := Function.update s.tasks t none }, some r)

/-- Where the next step of a task takes it, if it can take one. -/
def advance (e : ε) : Place Q A K S κ ρ W → Option (Place Q A K S κ ρ W)
  | .free (.ask q next) => (M.serve s.glob q e).map fun a => .free (next a)
  | .waiting k p => if s.locks k = none then some (.inside k (p (s.slots k))) else none
  | .inside k (.ask q next) => (M.serve s.glob q e).map fun a => .inside k (next a)
  | place => some place

/-- The task is at this place of its piece now; a piece that has returned ends at once. -/
def reach (t : τ) (c : κ) : Place Q A K S κ ρ W → State γ κ ρ W Q A K S τ × Option ρ
  | .free (.ret x) => M.leave s t x
  | .inside k (.ret (y, x)) =>
    M.leave { s with
      slots := Function.update s.slots k y
      locks := Function.update s.locks k none } t x
  | .inside k p =>
    ({ s with
      locks := Function.update s.locks k (some t)
      tasks := Function.update s.tasks t (some (c, .inside k p)) }, none)
  | place => ({ s with tasks := Function.update s.tasks t (some (c, place)) }, none)

/-- One step: a task starts, a task makes its next step, or the environment moves. A step that is
not possible changes nothing. -/
def step : Event τ κ ε η → State γ κ ρ W Q A K S τ × Option ρ
  | .start t c =>
    match s.tasks t, M.enter s.glob c with
    | none, some g =>
      ({ s with glob := g, tasks := Function.update s.tasks t (some (c, entry (M.body c))) }, none)
    | _, _ => (s, none)
  | .run t e =>
    match s.tasks t with
    | none => (s, none)
    | some (c, place) =>
      match M.advance s e place with
      | none => (s, none)
      | some place => M.reach s t c place
  | .env n =>
    match M.env s.glob n with
    | none => (s, none)
    | some g => ({ s with glob := g }, none)

/-- Nobody has started yet. -/
def initial (g : γ) (slots : (k : K) → S k) : State γ κ ρ W Q A K S τ where
  glob := g
  slots := slots
  locks _ := none
  tasks _ := none

theorem tasks_step_eq_none {M : Monitor γ ε η κ ρ W Q A K S} {s : State γ κ ρ W Q A K S τ} {t : τ}
    {i : Event τ κ ε η} (h : s.tasks t = none) (hi : ∀ c, i ≠ .start t c) :
    (M.step s i).1.tasks t = none := by
  have hupdate {u : τ} {o : Option (κ × Place Q A K S κ ρ W)} (hu : u ≠ t) :
      update s.tasks u o t = none := by
    rw [update_of_ne (symm hu), h]
  have hleave {g : γ} {slots : (k : K) → S k} {locks : K → Option τ} {u : τ} {x : Exit κ ρ W}
      (hu : u ≠ t) : (M.leave ⟨g, slots, locks, s.tasks⟩ u x).1.tasks t = none := by
    unfold leave
    cases x.next <;> exact hupdate hu
  cases i with
  | start u c =>
    have hu : u ≠ t := by
      rintro rfl
      exact hi c rfl
    cases htask : s.tasks u with
    | some => simp [step, htask, h]
    | none =>
      cases henter : M.enter s.glob c with
      | none => simp [step, henter, h]
      | some =>
        rw [step, htask, henter]
        exact hupdate hu
  | run u e =>
    cases htask : s.tasks u with
    | none => simp [step, htask, h]
    | some o =>
      obtain ⟨c, place⟩ := o
      have hu : u ≠ t := by
        rintro rfl
        rw [h] at htask
        cases htask
      cases hadvance : M.advance s e place with
      | none => simp [step, htask, hadvance, h]
      | some =>
        simp only [step, htask, hadvance]
        unfold reach
        split
        · exact hleave hu
        · exact hleave hu
        · exact hupdate hu
        · exact hupdate hu
  | env n =>
    cases henv : M.env s.glob n with
    | none | some => simp [step, henv, h]

/-! ### What an observer sees -/

/-- The shared state, the slots as their last holder left them, and the piece each task is in. -/
structure View (γ κ : Type) (K : Type) (S : K → Type) (τ : Type) where
  glob : γ
  slots : (k : K) → S k
  calls : τ → Option κ

def State.view : View γ κ K S τ where
  glob := s.glob
  slots := s.slots
  calls t := (s.tasks t).map Prod.fst

/-- The view when the task ends its piece. -/
def View.leave (v : View γ κ K S τ) (t : τ) (x : Exit κ ρ W) : View γ κ K S τ :=
  { v with
    glob := x.effects.foldl M.apply v.glob
    calls := Function.update v.calls t x.piece }

/-- The view when the slot has a new content. -/
def View.put (v : View γ κ K S τ) (k : K) (y : S k) : View γ κ K S τ :=
  { v with slots := Function.update v.slots k y }

/-- The shared state only moves up. -/
structure Monotone [Preorder γ] : Prop where
  le_apply : ∀ g w, g ≤ M.apply g w
  le_enter : ∀ {g c g'}, M.enter g c = some g' → g ≤ g'
  le_env : ∀ {g n g'}, M.env g n = some g' → g ≤ g'

/-- How the pieces can end: what is known of the exit of a free piece, and of the content and the
exit a critical section leaves, given the content it found (which meets `Pre` then) and the shared
state at its end. -/
structure Summary [Preorder γ] where
  Pre : κ → (k : K) → S k → γ → Prop
  Free : κ → Exit κ ρ W → γ → Prop
  Section : κ → (k : K) → S k → S k → Exit κ ρ W → γ → Prop
  free_ends : ∀ {c p}, M.body c = .free p → ∀ g, p.Ends M.serve (Free c) g
  section_ends : ∀ {c k p}, M.body c = .locked k p → ∀ y g, Pre c k y g →
    (p y).Ends M.serve (fun r g => Section c k y r.1 r.2 g) g

variable {M} [Preorder γ] (F : M.Summary)

/-- The moves an observer can see. -/
inductive Move : View γ κ K S τ → Event τ κ ε η → View γ κ K S τ → Prop
  | quiet {v i} : Move v i v
  | env {n g v} : M.env v.glob n = some g → Move v (.env n) { v with glob := g }
  | start {c g v t} : v.calls t = none → M.enter v.glob c = some g →
      Move v (.start t c) { v with glob := g, calls := Function.update v.calls t (some c) }
  | free {c x v t e} : v.calls t = some c → F.Free c x v.glob → Move v (.run t e) (v.leave M t x)
  | critical {c k y x v t e} : v.calls t = some c → F.Section c k (v.slots k) y x v.glob →
      Move v (.run t e) ((v.put k y).leave M t x)

/-- What is known of a task at a place of the piece `c`. -/
def PlaceOk (s : State γ κ ρ W Q A K S τ) (t : τ) (c : κ) : Place Q A K S κ ρ W → Prop
  | .free p => ∀ g, s.glob ≤ g → p.Ends M.serve (F.Free c) g
  | .waiting k p => M.body c = .locked k p
  | .inside k p => s.locks k = some t ∧
      ∀ g, s.glob ≤ g → p.Ends M.serve (fun r g => F.Section c k (s.slots k) r.1 r.2 g) g

/-- What holds in every state of a run. -/
def Sound (s : State γ κ ρ W Q A K S τ) : Prop :=
  ∀ t c place, s.tasks t = some (c, place) → PlaceOk F s t c place

/-! ### Every step is a move -/

section

variable {F} {s s' : State γ κ ρ W Q A K S τ} {t u : τ} {c : κ} {x : Exit κ ρ W}
  {place place' : Place Q A K S κ ρ W} {e : ε}

omit [DecidableEq K] [DecidableEq τ] in
theorem PlaceOk.mono (h : PlaceOk F s t c place) (hle : s.glob ≤ s'.glob)
    (hkeep : ∀ k, s.locks k = some t → s'.locks k = some t ∧ s'.slots k = s.slots k) :
    PlaceOk F s' t c place := by
  cases place with
  | free => exact fun g hg => h g (hle.trans hg)
  | waiting => exact h
  | inside k =>
    obtain ⟨hlock, hends⟩ := h
    obtain ⟨hlock', hslot⟩ := hkeep k hlock
    refine ⟨hlock', fun g hg => ?_⟩
    rw [hslot]
    exact hends g (hle.trans hg)

omit [DecidableEq K] [DecidableEq τ] in
theorem placeOk_entry : PlaceOk F s t c (entry (M.body c)) := by
  cases hbody : M.body c with
  | free => exact fun g _ => F.free_ends hbody g
  | locked => exact hbody

omit [DecidableEq K] in
theorem Monotone.le_effects (hM : M.Monotone) (g : γ) (ws : List W) : g ≤ ws.foldl M.apply g := by
  induction ws generalizing g with
  | nil => exact le_rfl
  | cons w ws ih => exact (hM.le_apply g w).trans (ih _)

omit [DecidableEq K] [DecidableEq τ] [Preorder γ] in
theorem calls_view (htask : s.tasks t = o) : s.view.calls t = o.map Prod.fst := by
  rw [← htask]
  rfl

omit [DecidableEq K] in
theorem calls_update (f : τ → Option (κ × Place Q A K S κ ρ W))
    (o : Option (κ × Place Q A K S κ ρ W)) : (fun u => (update f t o u).map Prod.fst) =
      update (fun u => (f u).map Prod.fst) t (o.map Prod.fst) := by
  funext u
  by_cases hu : u = t
  · rw [hu, update_self, update_self]
  · rw [update_of_ne hu, update_of_ne hu]

omit [DecidableEq K] [Preorder γ] in
theorem view_leave : (M.leave s t x).1.view = s.view.leave M t x := by
  unfold leave View.leave State.view Exit.piece
  cases x.next with
  | call => simp [calls_update]
  | done => simp [calls_update]

omit [DecidableEq K] in
theorem sound_of_update (htasks : s'.tasks = update s.tasks t o)
    (hother : ∀ u c place, u ≠ t → s.tasks u = some (c, place) → PlaceOk F s' u c place)
    (hself : ∀ c place, o = some (c, place) → PlaceOk F s' t c place) : Sound F s' := by
  intro u c place hu
  rw [htasks] at hu
  by_cases hut : u = t
  · subst hut
    rw [update_self] at hu
    exact hself c place hu
  · rw [update_of_ne hut] at hu
    exact hother u c place hut hu

omit [DecidableEq K] in
theorem sound_leave (hM : M.Monotone)
    (hother : ∀ u c place, u ≠ t → s.tasks u = some (c, place) → PlaceOk F s u c place) :
    Sound F (M.leave s t x).1 := by
  have hle : s.glob ≤ x.effects.foldl M.apply s.glob := hM.le_effects _ _
  unfold leave
  cases x.next with
  | call c =>
    refine sound_of_update rfl (fun u c place hu h => ?_) fun c place h => ?_
    · exact (hother u c place hu h).mono hle fun _ hk => ⟨hk, rfl⟩
    · obtain ⟨rfl, rfl⟩ := Prod.mk.inj (Option.some.inj h)
      exact placeOk_entry
  | done =>
    refine sound_of_update rfl (fun u c place hu h => ?_) nofun
    exact (hother u c place hu h).mono hle fun _ hk => ⟨hk, rfl⟩

/-- What is known of a place a task has just reached. -/
def Reached (F : M.Summary) (s : State γ κ ρ W Q A K S τ) (t : τ) (c : κ) :
    Place Q A K S κ ρ W → Prop
  | .free p => p.Ends M.serve (F.Free c) s.glob
  | .waiting _ _ => False
  | .inside k p => (s.locks k = none ∨ s.locks k = some t) ∧
      p.Ends M.serve (fun r g => F.Section c k (s.slots k) r.1 r.2 g) s.glob

omit [DecidableEq K] [DecidableEq τ] in
theorem reached_advance (hpre : ∀ k, F.Pre c k (s.slots k) s.glob) (h : PlaceOk F s t c place)
    (hadvance : M.advance s e place = some place') : Reached F s t c place' := by
  cases place with
  | free p =>
    cases p with
    | ret =>
      cases hadvance
      exact h s.glob le_rfl
    | ask =>
      obtain ⟨a, ha, rfl⟩ := Option.map_eq_some_iff.1 hadvance
      exact h s.glob le_rfl s.glob le_rfl e a ha
  | waiting k =>
    rw [advance] at hadvance
    split_ifs at hadvance with hfree
    cases hadvance
    exact ⟨.inl hfree, F.section_ends h (s.slots k) s.glob (hpre k)⟩
  | inside k p =>
    obtain ⟨hlock, hends⟩ := h
    cases p with
    | ret =>
      cases hadvance
      exact ⟨.inr hlock, hends s.glob le_rfl⟩
    | ask =>
      obtain ⟨a, ha, rfl⟩ := Option.map_eq_some_iff.1 hadvance
      exact ⟨.inr hlock, hends s.glob le_rfl s.glob le_rfl e a ha⟩

omit [DecidableEq K] [DecidableEq τ] [Preorder γ] in
theorem PlaceOk.lock_other {k : K} (hlock : s.locks k = none ∨ s.locks k = some t)
    (hu : u ≠ t) : s.locks k ≠ some u := by
  rcases hlock with hlock | hlock
  · rw [hlock]; nofun
  · rw [hlock]
    intro h
    exact hu (Option.some.inj h).symm

omit [DecidableEq K] [Preorder γ] in
theorem view_eq_of_calls {o : κ × Place Q A K S κ ρ W} (hcall : s.view.calls t = some o.1)
    (hglob : s'.glob = s.glob) (hslots : s'.slots = s.slots)
    (htasks : s'.tasks = update s.tasks t (some o)) : s'.view = s.view := by
  have hcalls : s'.view.calls = s.view.calls := by
    unfold State.view
    rw [htasks, calls_update]
    exact update_eq_self_iff.2 hcall.symm
  unfold State.view at hcalls ⊢
  rw [hglob, hslots]
  exact congrArg _ hcalls

theorem move_reach (hM : M.Monotone) (hs : Sound F s) (hcall : s.view.calls t = some c)
    (h : Reached F s t c place) : Move F s.view (.run t e) (M.reach s t c place).1.view ∧
      Sound F (M.reach s t c place).1 := by
  cases place with
  | free p =>
    cases p with
    | ret =>
      refine ⟨?_, sound_leave hM fun u c place _ => hs u c place⟩
      unfold reach
      rw [view_leave]
      exact .free hcall h
    | ask q next =>
      refine ⟨?_, sound_of_update rfl (fun u c place _ => hs u c place) fun c place h' => ?_⟩
      · have hview : (M.reach s t c (.free (.ask q next))).1.view = s.view :=
          view_eq_of_calls hcall rfl rfl rfl
        rw [hview]
        exact .quiet
      · obtain ⟨rfl, rfl⟩ := Prod.mk.inj (Option.some.inj h')
        exact fun g hg => h.of_le hg
  | waiting => exact h.elim
  | inside k p =>
    obtain ⟨hlock, hends⟩ := h
    have hkeep (u) (hu : u ≠ t) (k') (hk' : s.locks k' = some u) : k' ≠ k := by
      rintro rfl
      exact PlaceOk.lock_other hlock hu hk'
    cases p with
    | ret =>
      refine ⟨?_, sound_leave hM fun u c place hu hplace => ?_⟩
      · unfold reach
        rw [view_leave]
        exact .critical hcall hends
      · refine (hs u c place hplace).mono le_rfl fun k' hk' => ?_
        have hne := hkeep u hu k' hk'
        exact ⟨(update_of_ne hne _ _).trans hk', update_of_ne hne _ _⟩
    | ask q next =>
      refine ⟨?_, sound_of_update rfl (fun u c place hu hplace => ?_) fun c place h' => ?_⟩
      · have hview : (M.reach s t c (.inside k (.ask q next))).1.view = s.view :=
          view_eq_of_calls hcall rfl rfl rfl
        rw [hview]
        exact .quiet
      · refine (hs u c place hplace).mono le_rfl fun k' hk' => ?_
        exact ⟨(update_of_ne (hkeep u hu k' hk') _ _).trans hk', rfl⟩
      · obtain ⟨rfl, rfl⟩ := Prod.mk.inj (Option.some.inj h')
        exact ⟨update_self .., fun g hg => hends.of_le hg⟩

/-- Pieces look atomic: every step is a move, and what is known of the tasks is kept. -/
theorem step_move (hM : M.Monotone) (hs : Sound F s)
    (hpre : ∀ t c, s.view.calls t = some c → ∀ k, F.Pre c k (s.slots k) s.glob)
    (i : Event τ κ ε η) : Move F s.view i (M.step s i).1.view ∧ Sound F (M.step s i).1 := by
  cases i with
  | start t c =>
    cases htask : s.tasks t with
    | some =>
      rw [step, htask]
      exact ⟨.quiet, hs⟩
    | none =>
      cases henter : M.enter s.glob c with
      | none =>
        rw [step, htask, henter]
        exact ⟨.quiet, hs⟩
      | some =>
        rw [step, htask, henter]
        refine ⟨?_, sound_of_update rfl (fun u c place hu h => ?_) fun c place h => ?_⟩
        · have hmove : Move F s.view (.start t c) _ := .start (calls_view htask) henter
          unfold State.view at hmove ⊢
          rw [calls_update]
          exact hmove
        · exact (hs u c place h).mono (hM.le_enter henter) fun _ hk => ⟨hk, rfl⟩
        · obtain ⟨rfl, rfl⟩ := Prod.mk.inj (Option.some.inj h)
          exact placeOk_entry
  | run t e =>
    cases htask : s.tasks t with
    | none =>
      rw [step, htask]
      exact ⟨.quiet, hs⟩
    | some o =>
      obtain ⟨c, place⟩ := o
      cases hadvance : M.advance s e place with
      | none =>
        simp only [step, htask, hadvance]
        exact ⟨.quiet, hs⟩
      | some =>
        simp only [step, htask, hadvance]
        have hcall : s.view.calls t = some c := calls_view htask
        exact move_reach hM hs hcall (reached_advance (hpre t c hcall)
          (hs t c place htask) hadvance)
  | env n =>
    cases henv : M.env s.glob n with
    | none =>
      rw [step, henv]
      exact ⟨.quiet, hs⟩
    | some =>
      rw [step, henv]
      refine ⟨.env henv, fun t c place h => ?_⟩
      exact (hs t c place h).mono (hM.le_env henv) fun _ hk => ⟨hk, rfl⟩

/-- What every move keeps holds in every state of a run. -/
theorem run_invariant {I : View γ κ K S τ → Prop} (ok : View γ κ K S τ → Event τ κ ε η → Prop)
    {g : γ} {slots : (k : K) → S k} {h : List (Event τ κ ε η × Option ρ)} (F : M.Summary)
    (hM : M.Monotone) (hstart : I ⟨g, slots, fun _ => none⟩)
    (hpre : ∀ v, I v → ∀ t c, v.calls t = some c → ∀ k, F.Pre c k (v.slots k) v.glob)
    (hmove : ∀ v i v', I v → ok v i → Move F v i v' → I v')
    (hrun : Run M.step (fun _ s i => ok s.view i) (initial g slots) h s) : I s.view := by
  have hinv : I s.view ∧ Sound F s := by
    refine Run.invariant (I := fun _ s => I s.view ∧ Sound F s) ⟨hstart, nofun⟩ ?_ hrun
    rintro h s i ⟨hI, hsound⟩ hok
    obtain ⟨hview, hsound'⟩ := step_move hM hsound (hpre _ hI) i
    exact ⟨hmove _ _ _ hI hok hview, hsound'⟩
  exact hinv.1

end

end Monitor

end Tunnet

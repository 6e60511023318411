import Tunnet.Update.Spec.AllOrNothing
import Tunnet.Util.Run

/-!
# The health window

The new version is started and stopped at any times.

* `Life`: the disk, the clock and the agent's process, with the task that confirms the update.
-/

namespace Tunnet.Update

open Faulty

/-! ### Starts and stops -/

/-- The task that a start leaves behind. -/
structure Timer where
  due : ℤ
  pending : PendingUpdate

/-- The agent's process. `on_agent_start` is not the first thing that a process does. -/
inductive Agent
  | off
  | booting (running : Build)
  | up (timer : Option Timer)

structure Life where
  disk : CoreDisk
  clock : ℤ
  agent : Agent
  /-- The agent has stopped before the window was over. -/
  early : Bool

inductive LifeEvent
  | boot
  | check
  | tick
  | stop

namespace Life

variable (host : Host) (cut : Leftover)

variable (t : ℤ) (s : Life)

/-- A process of the daemon that is installed, if it runs. -/
def boot : Life :=
  match s.agent, (s.disk.unit .tunnetd).bind host.identify with
  | .off, some running => { s with clock := t, agent := .booting running }
  | _, _ => { s with clock := t }

def timerOf (check : HealthCheck) : Timer :=
  ⟨t + check.remaining * 1000000000, check.pending⟩

/-- An error of `on_agent_start` is logged only. -/
def check : Life :=
  match s.agent with
  | .booting running =>
    let result := onAgentStart host.windows cut running t (fun _ => .done) s.disk
    { s with disk := result.2, clock := t, agent := .up (result.1.toOption.join.map (timerOf t)) }
  | _ => { s with clock := t }

def tick : Life :=
  match s.agent with
  | .up (some timer) =>
    if timer.due ≤ t then
      { s with
        disk := (markUpdateSuccess cut timer.pending (fun _ => .done) s.disk).2
        clock := t
        agent := .up none }
    else { s with clock := t }
  | _ => { s with clock := t }

def stop (deadline t : ℤ) (s : Life) : Life :=
  match s.agent with
  | .off => { s with clock := t }
  | _ => { s with clock := t, agent := .off, early := s.early || decide (t < deadline) }

/-- One event at a time; `deadline` is when the window since the activation is over. -/
def step (deadline : ℤ) (s : Life) (i : ℤ × LifeEvent) : Life × Unit :=
  match i.2 with
  | .boot => (s.boot host i.1, ())
  | .check => (s.check host cut i.1, ())
  | .tick => (s.tick cut i.1, ())
  | .stop => (s.stop deadline i.1, ())

end Life

/-! ### What a start makes of a pending update -/

section

variable {d : CoreDisk} {old new : UnitName → Bytes} {q : PendingUpdate}

/-- The disk with an update that is not confirmed. -/
structure Activated (old new : UnitName → Bytes) (q : PendingUpdate) (d : CoreDisk) : Prop where
  unit : ∀ n, d.unit n = some (new n)
  previous : ∀ n, d.previousFile n = some (old n)
  pending : d.pending = some q

variable (h : Activated old new q d)

include h

theorem Activated.revertToPrevious (cut : Leftover) :
    ∃ d', revertToPrevious cut (fun _ => .done) d = (.ok (), d') ∧
      (∀ n, d'.unit n = some (old n)) ∧ d'.pending = none := by
  obtain ⟨d', heq, hrest, hunit⟩ := restoreUnit_done cut d
  refine ⟨{ d' with previous := none, pending := none }, ?_, fun n => ?_, rfl⟩
  · rw [Update.revertToPrevious, bind_ok get_apply, if_pos (isSome_previous h.previous),
      bind_ok heq]
    rfl
  · have hunit' : d'.unit n = some (old n) := by
      rw [hunit, h.previous]
      rfl
    exact hunit'

theorem Activated.rollback (windows : Bool) (cut : Leftover) :
    ∃ d', rollback windows cut (fun _ => .done) d = (.ok (), d') ∧
      (∀ n, d'.unit n = some (old n)) ∧ d'.pending = none := by
  obtain ⟨d', heq, hd'⟩ := h.revertToPrevious cut
  refine ⟨d', ?_, hd'⟩
  cases windows with
  | false => exact heq
  | true => rw [Update.rollback, if_pos rfl, bind_ok (copyWorker_eq _ h.previous _), heq]

theorem markUpdateSuccess_activated (cut : Leftover) (q' : PendingUpdate) :
    markUpdateSuccess cut q' (fun _ => .done) d =
      (.ok (), if q.toVersion = q'.toVersion then { d with previous := none, pending := none }
        else d) := by
  rw [markUpdateSuccess, bind_ok get_apply, h.pending]
  dsimp only
  split_ifs
  · rfl
  · rfl

/-- Every way in which a start of a pending update can end. -/
theorem onAgentStart_activated (windows : Bool) (cut : Leftover)
    (running : Build) (t : ℤ) : (∃ d', RollsBack q running t ∧
      onAgentStart windows cut running t (fun _ => .done) d = (.ok none, d') ∧
      (∀ n, d'.unit n = some (old n)) ∧ d'.pending = none) ∨
    (¬ RollsBack q running t ∧ ¬ q.Mismatch running ∧ q.window ≤ q.elapsed t ∧
      onAgentStart windows cut running t (fun _ => .done) d =
        (.ok none, { d with previous := none, pending := none })) ∨
    ¬ RollsBack q running t ∧ q.elapsed t < q.window ∧
      onAgentStart windows cut running t (fun _ => .done) d =
        (.ok (some ⟨q.window - q.elapsed t, q.boot⟩), { d with pending := some q.boot }) := by
  rw [onAgentStart_of_some h.pending rfl, checkPending]
  by_cases hmismatch : q.Mismatch running
  · obtain ⟨d', heq, hd'⟩ := h.rollback windows cut
    rw [if_pos hmismatch, bind_ok heq]
    exact .inl ⟨d', .inl hmismatch, rfl, hd'⟩
  rw [if_neg hmismatch, bind_ok (writePending_done q.boot rfl rfl)]
  have hboot : Activated old new q.boot { d with pending := some q.boot } :=
    ⟨h.unit, h.previous, rfl⟩
  by_cases hearly : 1 < q.boot.boots ∧ q.elapsed t < q.window
  · obtain ⟨d', heq, hd'⟩ := hboot.rollback windows cut
    rw [if_pos hearly, bind_ok heq]
    exact .inl ⟨d', .inr hearly, rfl, hd'⟩
  have hnot : ¬ RollsBack q running t := not_or.2 ⟨hmismatch, hearly⟩
  rw [if_neg hearly]
  by_cases hover : q.window ≤ q.elapsed t
  · rw [if_pos hover, bind_ok (markUpdateSuccess_activated hboot cut q.boot), if_pos rfl]
    exact .inr (.inl ⟨hnot, hmismatch, hover, rfl⟩)
  · rw [if_neg hover]
    exact .inr (.inr ⟨hnot, not_le.1 hover, rfl⟩)

omit h

theorem markUpdateSuccess_none (h : d.pending = none) (cut : Leftover) (q' : PendingUpdate) :
    (markUpdateSuccess cut q' (fun _ => .done) d).2 = d := by
  rw [markUpdateSuccess, bind_ok get_apply, h]
  rfl

end

/-! ### Runs -/

/-- When the window since the activation is over. -/
def windowOver (activated : ℤ) (q : PendingUpdate) : ℤ := activated + q.window * 1000000000

/-- An unhealthy update is rolled back. A version that has stopped before its window was over is
still there to be rolled back, as long as no start has looked at it; after that the old unit is. -/
def Heals (old new : UnitName → Bytes) (s : Life) : Prop :=
  s.early → (∀ n, s.disk.unit n = some (old n)) ∨
    (∃ q, Activated old new q s.disk) ∧ ∀ timer, s.agent ≠ .up timer

/-- No start or task confirms the update before the window since the activation is over, nor a start
after the version has stopped before that; and a version that stops before it was first counted does
not do so early. -/
def Heeded (deadline : ℤ) (s : Life) (t : ℤ) : LifeEvent → Prop
  | .boot => True
  | .check => ∀ q running, s.disk.pending = some q → s.agent = .booting running →
      ¬ q.Mismatch running → q.window ≤ q.elapsed t → s.early = false ∧ deadline ≤ t
  | .tick => ∀ timer, s.agent = .up (some timer) → timer.due ≤ t → deadline ≤ t
  | .stop => ∀ q running, s.disk.pending = some q → s.agent = .booting running → q.boots = 0 →
      deadline ≤ t

/-- What holds between the events. -/
inductive Phase (old new : UnitName → Bytes) (deadline : ℤ) (s : Life) : Prop
  | pending (q : PendingUpdate) (h : Activated old new q s.disk)
      (hup : ∀ timer, s.agent = .up timer → s.early = false ∧ 1 ≤ q.boots)
      (hearly : s.early → 1 ≤ q.boots)
  | restored (hunit : ∀ n, s.disk.unit n = some (old n)) (hpending : s.disk.pending = none)
  | confirmed (hpending : s.disk.pending = none) (hearly : s.early = false)
    (hover : deadline ≤ s.clock)

theorem Phase.heals {old new : UnitName → Bytes} {deadline : ℤ} {s : Life}
    (h : Phase old new deadline s) : Heals old new s := by
  intro hs
  cases h with
  | pending q h hup =>
    refine .inr ⟨⟨q, h⟩, fun timer htimer => ?_⟩
    rw [(hup timer htimer).1] at hs
    cases hs
  | restored hunit => exact .inl hunit
  | confirmed _ hearly =>
    rw [hearly] at hs
    cases hs

section

variable {host : Host} {cut : Leftover} {old new : UnitName → Bytes} {deadline t : ℤ} {s : Life}

variable (h : Phase old new deadline s)

include h

variable (hclock : s.clock ≤ t)

include hclock

/-- Time passes, and the process may be one that has not come to its check. -/
theorem Phase.wait {agent : Agent} (hagent : ∀ timer, agent = .up timer → s.agent = .up timer) :
    Phase old new deadline { s with clock := t, agent := agent } := by
  cases h with
  | pending q h hup hearly =>
    exact .pending q h (fun timer htimer => hup timer (hagent timer htimer)) hearly
  | restored hunit hpending => exact .restored hunit hpending
  | confirmed hpending hearly hover => exact .confirmed hpending hearly (hover.trans hclock)

theorem Phase.boot : Phase old new deadline (s.boot host t) := by
  unfold Life.boot
  split
  · exact h.wait hclock nofun
  · exact h.wait hclock fun _ => id

theorem Phase.stop (hok : Heeded deadline s t .stop) :
    Phase old new deadline (s.stop deadline t) := by
  unfold Life.stop
  split
  · exact h.wait hclock fun _ => id
  · rename_i hoff
    cases h with
    | pending q h hup hearly =>
      refine .pending q h (fun timer htimer => by cases htimer) fun hs => ?_
      rw [Bool.or_eq_true, decide_eq_true_eq] at hs
      rcases hs with hs | hlt
      · exact hearly hs
      -- a start that was not counted does not stop so early
      cases hagent : s.agent with
      | off => exact absurd hagent hoff
      | up timer => exact (hup timer hagent).2
      | booting running =>
        rw [Nat.one_le_iff_ne_zero]
        intro hboots
        exact absurd (hok q running h.pending hagent hboots) (not_le.2 hlt)
    | restored hunit hpending => exact .restored hunit hpending
    | confirmed hpending hearly hover =>
      have hlate : ¬ t < deadline := not_lt.2 (hover.trans hclock)
      refine .confirmed hpending ?_ (hover.trans hclock)
      rw [hearly, decide_eq_false hlate]
      rfl

theorem Phase.tick (hok : Heeded deadline s t .tick) : Phase old new deadline (s.tick cut t) := by
  unfold Life.tick
  split
  · rename_i timer hagent
    split_ifs with hdue
    · have hover := hok timer hagent hdue
      cases h with
      | pending q h hup hearly =>
        obtain ⟨hs, hboots⟩ := hup _ hagent
        rw [markUpdateSuccess_activated h]
        split_ifs
        · exact .confirmed rfl hs hover
        · exact .pending q h (fun _ _ => ⟨hs, hboots⟩) hearly
      | restored hunit hpending =>
        rw [markUpdateSuccess_none hpending]
        exact .restored hunit hpending
      | confirmed hpending hearly =>
        rw [markUpdateSuccess_none hpending]
        exact .confirmed hpending hearly hover
    · exact h.wait hclock fun _ => id
  · exact h.wait hclock fun _ => id

theorem Phase.check (hok : Heeded deadline s t .check) :
    Phase old new deadline (s.check host cut t) := by
  unfold Life.check
  split
  · rename_i running hagent
    cases h with
    | pending q h hup hearly =>
      rcases onAgentStart_activated h host.windows cut running t with
        ⟨d', -, heq, hunit, hpending⟩ | ⟨hnot, hmismatch, hpassed, heq⟩ | ⟨hnot, hwithin, heq⟩
      · rw [heq]
        exact .restored hunit hpending
      · rw [heq]
        obtain ⟨hs, hover⟩ := hok q running h.pending hagent hmismatch hpassed
        exact .confirmed rfl hs hover
      · rw [heq]
        -- a second start within the window would have rolled back
        have hfirst : ¬ 1 < q.boot.boots := fun hlt => hnot (.inr ⟨hlt, hwithin⟩)
        have hboots : q.boot.boots = min (q.boots + 1) 0xFFFFFFFF := rfl
        have hs : s.early = false := by
          rw [← Bool.not_eq_true]
          intro hs
          have hcounted := hearly hs
          omega
        refine .pending q.boot ⟨h.unit, h.previous, rfl⟩ (fun _ _ => ⟨hs, ?_⟩) fun hs' => ?_
        · omega
        · rw [hs] at hs'
          cases hs'
    | restored hunit hpending =>
      rw [onAgentStart_of_none hpending]
      exact .restored hunit hpending
    | confirmed hpending hearly hover =>
      rw [onAgentStart_of_none hpending]
      exact .confirmed hpending hearly (hover.trans hclock)
  · exact h.wait hclock fun _ => id

omit hclock

omit h

/-- An unhealthy update is rolled back in every run that is `Heeded`. -/
theorem unhealthy_update_rolled_back {d : CoreDisk} {activated : ℤ} {q : PendingUpdate}
    {h : List ((ℤ × LifeEvent) × Unit)} (hd : Activated old new q d)
    (hrun : Run (Life.step host cut (windowOver activated q))
      (fun _ s i => s.clock ≤ i.1 ∧ Heeded (windowOver activated q) s i.1 i.2)
      ⟨d, activated, .off, false⟩ h s) : Heals old new s := by
  have hphase : Phase old new (windowOver activated q) s := by
    refine hrun.invariant (I := fun _ s => Phase old new (windowOver activated q) s) ?_ ?_
    · exact .pending q hd (fun timer htimer => by cases htimer) fun hs => by cases hs
    · rintro h s ⟨t, e⟩ hphase ⟨hclock, hok⟩
      cases e with
      | boot => exact hphase.boot hclock
      | check => exact hphase.check hclock hok
      | tick => exact hphase.tick hclock hok
      | stop => exact hphase.stop hclock hok
  exact hphase.heals

end

namespace Demo

variable (activated : ℤ)

/-- The marker of an update at a time of the first second. -/
def marker : PendingUpdate := newPending activated "1" "2" 1 30

/-- The new unit is in its place and has not been started. -/
def justActivated : CoreDisk := { Demo.activated with pending := some (marker activated) }

def begun : Life := ⟨justActivated activated, activated, .off, false⟩

def lifeStep : Life → ℤ × LifeEvent → Life × Unit :=
  Life.step host ⟨0, fun _ => false⟩ (windowOver activated (marker activated))

def lived (events : List (ℤ × LifeEvent)) : List ((ℤ × LifeEvent) × Unit) × Life :=
  exec (lifeStep activated) [] (begun activated) events

/-- The version stops after five seconds, and there is a next start. -/
def restarted (next : ℤ) : List (ℤ × LifeEvent) :=
  [(1000000000, .boot), (1000000000, .check), (5000000000, .stop), (next, .boot), (next, .check)]

/-- The next start is in the window. -/
def crash : List (ℤ × LifeEvent) := restarted 6000000000

/-- The next start is ten seconds after the window. -/
def slowCrash : List (ℤ × LifeEvent) := restarted 40000000000

/-- The version stops before it comes to `on_agent_start`. -/
def crashAtBoot : List (ℤ × LifeEvent) :=
  [(1000000000, .boot), (2000000000, .stop), (3000000000, .boot), (3000000000, .check)]

/-- The version stops 29.6 seconds after an activation at 0.9 seconds, of which the marker has the
second only. -/
def crashAtEnd : List (ℤ × LifeEvent) :=
  [(1000000000, .boot), (1000000000, .check), (30000000000, .tick), (30500000000, .stop)]

def isUp : Agent → Bool
  | .up _ => true
  | _ => false

section

variable {s : Life} {deadline t : ℤ}

theorem not_heals (hearly : s.early) (hunit : s.disk.unit .tunnet = some [3])
    (hgone : s.disk.pending = none ∨ isUp s.agent) : ¬ Heals old new s := by
  intro h
  rcases h hearly with hold | ⟨⟨q, hq⟩, hnot⟩
  · have htunnet := hold .tunnet
    rw [hunit] at htunnet
    exact absurd htunnet (by decide)
  · rcases hgone with hnone | hup
    · rw [hq.pending] at hnone
      cases hnone
    · cases hagent : s.agent with
      | up timer => exact hnot timer hagent
      | off | booting running =>
        rw [hagent] at hup
        cases hup

theorem heeded_check {q : PendingUpdate} (hq : s.disk.pending = some q)
    (hlt : q.elapsed t < q.window) : Heeded deadline s t .check := by
  intro q' running hq' _ _ hle
  rw [hq] at hq'
  obtain rfl := Option.some.inj hq'
  exact absurd hle (not_le.2 hlt)

theorem heeded_stop (hup : isUp s.agent) : Heeded deadline s t .stop := by
  intro q running _ hagent
  rw [hagent] at hup
  cases hup

end

theorem unhealthy_update_rolled_back_crash :
    (lived 0 crash).2.early ∧ Heals old new (lived 0 crash).2 := by
  have hmeets : Meets (lifeStep 0)
      (fun _ s i => s.clock ≤ i.1 ∧ Heeded (windowOver 0 (marker 0)) s i.1 i.2) []
      (begun 0) crash := by
    refine ⟨⟨by decide, trivial⟩, ⟨by decide, ?_⟩, ⟨by decide, ?_⟩, ⟨by decide, trivial⟩,
      ⟨by decide, ?_⟩, trivial⟩
    · have hpending : (lived 0 (crash.take 1)).2.disk.pending = some (marker 0) := by
        decide
      exact heeded_check hpending (by decide)
    · have hup : isUp (lived 0 (crash.take 2)).2.agent := by
        decide
      exact heeded_stop hup
    · have hpending : (lived 0 (crash.take 4)).2.disk.pending = some (marker 0).boot := by
        decide
      exact heeded_check hpending (by decide)
  exact ⟨by decide,
    unhealthy_update_rolled_back ⟨fun _ => rfl, fun _ => rfl, rfl⟩ (run_exec hmeets)⟩

/-- The events are a run with a clock that does not go back. -/
def Lives (events : List (ℤ × LifeEvent)) : Prop :=
  Run (lifeStep activated) (fun _ s i => s.clock ≤ i.1) (begun activated)
    (lived activated events).1 (lived activated events).2

/-- A version that stopped early is confirmed by a start after the window; one that stops before it
is counted is not rolled back by the next start; and one that stops in the last second is confirmed
already. -/
theorem unhealthy_update_confirmed : (Lives 0 slowCrash ∧ ¬ Heals old new (lived 0 slowCrash).2) ∧
    (Lives 0 crashAtBoot ∧ ¬ Heals old new (lived 0 crashAtBoot).2) ∧
    Lives 900000000 crashAtEnd ∧ ¬ Heals old new (lived 900000000 crashAtEnd).2 := by
  refine ⟨⟨run_exec (by decide), ?_⟩, ⟨run_exec (by decide), ?_⟩, run_exec (by decide), ?_⟩
  · exact not_heals (by decide) (by decide) (.inl (by decide))
  · exact not_heals (by decide) (by decide) (.inr (by decide))
  · exact not_heals (by decide) (by decide) (.inl (by decide))

end Demo

end Tunnet.Update

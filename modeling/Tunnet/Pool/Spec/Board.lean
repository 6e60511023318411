import Tunnet.Pool.Spec.Transitions

/-!
# The pool as a state machine on cells

A *board* is the pool without the code that is running: the shared state, the cell of every slot
as the last holder of its lock left it, and the piece each task is in. `Board.Move` moves one
piece at a time, by `FreeExit` and `Transition`.

* `Grounded`: what the transitions rely on, and `Grounded.move`.
-/

namespace Tunnet.Pool

open Function Monitor

variable {own : EndpointId} {events : List PoolEvent}

/-- The pool at the granularity of pieces. -/
structure Board where
  glob : Shared
  cells : SlotKey → Cell
  calls : Nat → Option Call

def PoolView.board (v : PoolView) : Board where
  glob := v.glob
  cells k := cell (v.slots k)
  calls := v.calls

def PoolState.board (s : PoolState) : Board := PoolView.board s.view

/-- The board before any call. -/
def Board.initial (g : Shared) (now : Instant) : Board where
  glob := g
  cells k := cell (newSlot now k)
  calls _ := none

theorem Board.cells_initial (g : Shared) (now : Instant) (k : SlotKey) :
    (initial g now).cells k = ⟨⟨none, .idle, none⟩, [], 0⟩ := by
  cases k <;> rfl

/-- The moves of the board. -/
inductive Board.Move : Board → PoolEvent → Board → Prop
  | quiet {b : Board} {i : PoolEvent} : Move b i b
  | env {b : Board} {n : Env} {g : Shared} : env b.glob n = some g →
      Move b (.env n) { b with glob := g }
  | start {b : Board} {t : Nat} {c : Call} {g : Shared} : b.calls t = none →
      enter b.glob c = some g →
      Move b (.start t c) { b with glob := g, calls := Function.update b.calls t (some c) }
  | free {b : Board} {t : Nat} {e : Choice} {c : Call} {n : Option Call} {effects : List Effect} :
      b.calls t = some c → FreeExit c n effects b.glob →
      Move b (.run t e)
        { b with
          glob := effects.foldl apply b.glob
          calls := Function.update b.calls t n }
  | critical {b : Board} {t : Nat} {e : Choice} {c : Call} {k : SlotKey} {a : Cell}
      {n : Option Call} {effects : List Effect} : b.calls t = some c → c.key = some k →
      Transition c (b.cells k) a n effects b.glob →
      Move b (.run t e)
        { glob := effects.foldl apply b.glob
          cells := Function.update b.cells k a
          calls := Function.update b.calls t n }

theorem board_put (v : PoolView) (k : SlotKey) (y : SlotOf k) : PoolView.board (v.put k y) =
      { PoolView.board v with
        cells := update (PoolView.board v).cells k (cell y) } := by
  unfold PoolView.board View.put
  congr 1
  funext k'
  by_cases hk : k' = k
  · subst hk
    simp
  · simp [update_of_ne hk]

theorem board_leave (v : PoolView) (t : Nat) (x : PoolExit) :
    PoolView.board (v.leave (pool own) t x) =
      { PoolView.board v with
        glob := x.effects.foldl apply v.glob
        calls := update v.calls t x.piece } :=
  rfl

/-- What the pool does piece by piece are moves of the board. -/
theorem board_move {v v' : PoolView} {i : PoolEvent} (h : Move (poolSummary own) v i v') :
    Board.Move (PoolView.board v) i (PoolView.board v') := by
  cases h with
  | quiet => exact .quiet
  | env henv => exact .env henv
  | start hcalls henter => exact .start hcalls henter
  | free hcalls hexit => exact .free hcalls hexit
  | critical hcalls hsection =>
    obtain ⟨hkey, hmakes⟩ := hsection
    rw [board_leave, board_put]
    exact .critical hcalls hkey hmakes

/-! ### Local invariants -/

variable {b b' : Board} {c : Call} {i : PoolEvent} {n : Option Call} {g : Shared} {t : Nat}

theorem Board.Move.le (h : Move b i b') : b.glob ≤ b'.glob := by
  have hpool := pool_monotone ""
  cases h with
  | quiet => exact le_rfl
  | env henv => exact hpool.le_env henv
  | start _ henter => exact hpool.le_enter henter
  | free | critical => exact hpool.le_effects _ _

theorem forall_update_calls {calls : Nat → Option Call}
    {R : Nat → Call → Prop} (hn : ∀ c, n = some c → R t c)
    (hother : ∀ u c, u ≠ t → calls u = some c → R u c) (u : Nat) (c : Call)
    (h : update calls t n u = some c) : R u c := by
  by_cases hu : u = t
  · subst hu
    rw [update_self] at h
    exact hn c h
  · rw [update_of_ne hu] at h
    exact hother u c hu h

/-- Some task is in such a piece. -/
def Board.Running (b : Board) (S : Call → Prop) : Prop := ∃ t c, b.calls t = some c ∧ S c

section

variable {S S' : Call → Prop} {cells : SlotKey → Cell}

theorem Board.Running.mono (h : b.Running S) (hS : ∀ c, S c → S' c) : b.Running S' := by
  obtain ⟨t, c, hcall, hc⟩ := h
  exact ⟨t, c, hcall, hS c hc⟩

theorem running_self (calls : Nat → Option Call) (hc : S c) :
    Board.Running ⟨g, cells, update calls t (some c)⟩ S :=
  ⟨t, c, update_self .., hc⟩

theorem Board.Running.update (h : b.Running S) (hcall : b.calls t = some c)
    (hc : S c → ∃ c', n = some c' ∧ S c') : Running ⟨g, cells, update b.calls t n⟩ S := by
  obtain ⟨u, c', hu, hc'⟩ := h
  by_cases hut : u = t
  · subst hut
    rw [hcall] at hu
    cases hu
    obtain ⟨c'', rfl, hc''⟩ := hc hc'
    exact running_self _ hc''
  · refine ⟨u, c', ?_, hc'⟩
    simp only [update_of_ne hut]
    exact hu

theorem Board.Running.start (h : b.Running S) (hnone : b.calls t = none) :
    Running ⟨g, cells, Function.update b.calls t n⟩ S := by
  obtain ⟨u, c', hu, hc'⟩ := h
  have hut : u ≠ t := by
    rintro rfl
    rw [hnone] at hu
    cases hu
  refine ⟨u, c', ?_, hc'⟩
  simp only [update_of_ne hut]
  exact hu

end

/-- A condition on every cell and one on every piece that is running. -/
structure Local (P : SlotKey → Cell → Shared → Prop) (R : Call → Shared → Prop) (b : Board) :
    Prop where
  cells : ∀ k, P k (b.cells k) b.glob
  calls : ∀ t c, b.calls t = some c → R c b.glob

/-- Local conditions are kept if the pieces keep them and what else happens does not spoil them:
only steps of the environment (`henv`) can change the gate. -/
theorem Local.move {P : SlotKey → Cell → Shared → Prop} {R : Call → Shared → Prop}
    (hb : Local P R b) (h : Board.Move b i b') (hP : ∀ k a, P k a b.glob → P k a b'.glob)
    (henv : ∀ n, i = .env n → env b.glob n = some b'.glob → ∀ t c, b.calls t = some c →
      R c b.glob → R c b'.glob) (hR : b'.glob.gate = b.glob.gate → ∀ c, R c b.glob → R c b'.glob)
    (hstart : ∀ c g, enter b.glob c = some g → R c b.glob)
    (hfree : ∀ c n effects, R c b.glob → FreeExit c n effects b.glob →
      ∀ c', n = some c' → R c' b.glob)
    (hcritical : ∀ c k a n effects, R c b.glob → P k (b.cells k) b.glob → c.key = some k →
      Transition c (b.cells k) a n effects b.glob →
      P k a b.glob ∧ ∀ c', n = some c' → R c' b.glob) : Local P R b' := by
  cases h with
  | quiet => exact hb
  | env hstep =>
    exact ⟨fun k => hP _ _ (hb.cells k), fun t c hc => henv _ rfl hstep t c hc (hb.calls t c hc)⟩
  | start _ henter =>
    have hgate := gate_enter henter
    refine ⟨fun k => hP _ _ (hb.cells k), forall_update_calls (fun c hc => ?_) fun u c _ hu => ?_⟩
    · cases hc
      exact hR hgate _ (hstart _ _ henter)
    · exact hR hgate _ (hb.calls u c hu)
  | @free t e c n effects hcalls hexit =>
    have hgate := gate_effects b.glob effects
    refine ⟨fun k => hP _ _ (hb.cells k), forall_update_calls (fun c hc => ?_) fun u c _ hu => ?_⟩
    · exact hR hgate _ (hfree _ _ _ (hb.calls _ _ hcalls) hexit c hc)
    · exact hR hgate _ (hb.calls u c hu)
  | @critical t e c k a n effects hcalls hkey htrans =>
    have hgate := gate_effects b.glob effects
    obtain ⟨hcell, hnext⟩ := hcritical _ _ _ _ _ (hb.calls _ _ hcalls) (hb.cells k) hkey htrans
    refine ⟨fun k' => ?_, forall_update_calls (fun c hc => ?_) fun u c _ hu => ?_⟩
    · by_cases hk : k' = k
      · subst hk
        simp only [update_self]
        exact hP _ _ hcell
      · simp only [update_of_ne hk]
        exact hP _ _ (hb.cells k')
    · exact hR hgate _ (hnext c hc)
    · exact hR hgate _ (hb.calls u c hu)

/-! ### What the transitions rely on -/

/-- A peer's slot is idle only without a live connection. -/
def IdleDead (k : SlotKey) (a : Cell) (g : Shared) : Prop :=
  ∀ peer, k = .peer peer → a.state = .idle → a.NotLive g

/-- A reconciliation works with a generation that has been reached. -/
def Call.Reached (c : Call) (g : Shared) : Prop :=
  ∀ gen peers, c = .reconcilePeers gen peers → gen ≤ g.gateGeneration

/-- What the transitions rely on. -/
def Grounded (b : Board) : Prop := Local IdleDead Call.Reached b

section

variable {a a' : Cell} {effects : List Effect} {peer : EndpointId} {now : Instant} {r : Entered}
  {gen : Nat} {peers : List EndpointId}

theorem Cell.notLive_of_none (h : a.conn = none) : a.NotLive g := by
  intro c hc
  rw [h] at hc
  cases hc

theorem Enter.idle (h : Enter peer now a r a' effects g) (ha : a.state = .idle → a.NotLive g)
    (hidle : a'.state = .idle) : a'.NotLive g := by
  cases h with
  | used => exact ha hidle
  | restamped | revoked | rejected => cases hidle
  | ready => exact Cell.notLive_of_none rfl

theorem Transition.idle (h : Transition c a a' n effects g) (hkey : c.key = some (.peer peer))
    (ha : a.state = .idle → a.NotLive g) (hidle : a'.state = .idle) : a'.NotLive g := by
  cases h with
  | settled _ henter | waits _ henter | absorbed henter | full henter | queued henter
  | subscribes _ _ henter => exact henter.idle ha hidle
  | denied _ henter => split_ifs at hidle ⊢ <;> exact henter.idle ha hidle
  | asks => exact absurd hidle (by unfold askState; split <;> nofun)
  | superseded _ | unchanged _ | wakes _ _ | sleepsOn _ => exact ha hidle
  | cleared _ hlive => exact hlive
  | clearedExtra => cases hkey
  | closed _ _ | idled _ => exact Cell.notLive_of_none rfl
  | elected | dialDenied | dialDeniedAgain | dialRejectedLocally | dialRejected | backedOff
  | installed | installedExtra | adopted | restored | blocked | blockedAgain | revoked =>
    cases hidle

theorem Transition.reconcile (h : Transition c a a' (some (.reconcilePeers gen peers)) effects g) :
    ∃ peers', c = .reconcilePeers gen peers' := by
  generalize hn : some (Call.reconcilePeers gen peers) = n at h
  have hafter (c : Call) (h : c.after = some (.reconcilePeers gen peers)) :
      ∃ peers', c = .reconcilePeers gen peers' := by
    unfold Call.after at h
    split at h <;> cases h
    exact ⟨_, rfl⟩
  cases h with
  | settled _ _ _ hnext => rcases hnext with rfl | ⟨_, _, rfl⟩ <;> cases hn
  | cleared _ _ | restored _ _ =>
    cases hn
    exact ⟨_, rfl⟩
  | blocked _ _ | blockedAgain _ _ | closed _ _ | unchanged _ => exact hafter _ hn.symm
  | _ => cases hn

theorem FreeExit.reconcile_le (h : FreeExit c (some (.reconcilePeers gen peers)) effects g) :
    gen ≤ g.gateGeneration := by
  generalize hn : some (Call.reconcilePeers gen peers) = n at h
  cases h with
  | received hnext => rcases hnext with rfl | ⟨_, rfl⟩ | ⟨_, _, rfl⟩ <;> cases hn
  | reconcile hgen =>
    cases hn
    exact hgen
  | background _ hnext => exact (hnext _ hn.symm).elim
  | _ => cases hn

theorem Grounded.move (hb : Grounded b) (h : Board.Move b i b') : Grounded b' := by
  have hreached (c : Call) (hc : c.Reached b.glob) : c.Reached b'.glob :=
    fun gen peers heq => (hc gen peers heq).trans h.le.generation
  refine Local.move hb h (fun k a ha peer hk hstate => (ha peer hk hstate).mono h.le)
    (fun _ _ _ _ c _ => hreached c) (fun _ => hreached) ?_ ?_ ?_
  · rintro c g henter gen peers rfl
    cases henter
  · rintro c n effects _ hexit c' rfl gen peers rfl
    exact hexit.reconcile_le
  · rintro c k a n effects hc hcell hkey htrans
    refine ⟨?_, ?_⟩
    · rintro peer rfl
      exact htrans.idle hkey (hcell peer rfl)
    · rintro c' rfl gen peers rfl
      obtain ⟨peers', rfl⟩ := htrans.reconcile
      exact hc gen peers' rfl

theorem grounded_initial (g : Shared) (now : Instant) : Grounded (Board.initial g now) := by
  refine ⟨fun k peer _ _ => Cell.notLive_of_none ?_, nofun⟩
  rw [Board.cells_initial]

end

theorem board_invariant {J : Board → Prop} (ok : Board → PoolEvent → Prop)
    {now : Instant} {h : List (PoolEvent × Option Reply)} {s : PoolState}
    (hinitial : J (Board.initial g now)) (hmove : ∀ b i b', J b → ok b i → Board.Move b i b' → J b')
    (hrun : Run (pool own).step (fun _ s i => ok (PoolState.board s) i)
      (initial g (newSlot now)) h s) : J (PoolState.board s) := by
  have hinv : Grounded (PoolState.board s) ∧ J (PoolState.board s) := by
    refine run_invariant (I := fun v => Grounded (PoolView.board v) ∧ J (PoolView.board v))
      (fun v i => ok (PoolView.board v) i) (poolSummary own) (pool_monotone own)
      ⟨grounded_initial g now, hinitial⟩ ?_ ?_ hrun
    · rintro v ⟨hground, _⟩ t c hcall k
      exact ⟨hground.cells k, hground.calls t c hcall⟩
    · rintro v i v' ⟨hground, hJ⟩ hok hm
      have hm' := board_move hm
      exact ⟨hground.move hm', hmove _ _ _ hJ hok hm'⟩
  exact hinv.2

/-- The pool forgets no connection: however the tasks are interleaved and whatever happens around
them, the slot of a peer is idle only without a live connection. -/
theorem idleDead_exec (own : EndpointId) (g : Shared) (now : Instant) (events : List PoolEvent)
    (k : SlotKey) :
    let s := (exec (pool own).step [] (initial g (newSlot now)) events).2
    IdleDead k (cell (s.slots k)) s.glob :=
  (board_invariant (fun _ _ => True) (grounded_initial g now) (fun _ _ _ hb _ => hb.move)
    (run_exec (meets_true events))).cells k

namespace Demo

/-- Everybody is a member, or nobody. -/
def members (allowed : Bool) (generation : Nat) : TransportAuth := ⟨fun _ => allowed, generation⟩

/-- A new pool to whose network everybody belongs. -/
def fresh : Shared where
  gate := some (members true 0)
  now := 0
  closed _ := none
  chans _ := .unused
  armed := []
  known _ := false
  incarnation _ := 0
  policy := ⟨false, 0, fun _ => false⟩

/-- The pool of the endpoint `00` after these events. -/
def pool00 (events : List PoolEvent) : PoolState :=
  (exec (pool "00").step [] (Monitor.initial fresh (newSlot 0)) events).2

theorem run_pool00 (events : List PoolEvent) : ∃ h, Run (pool "00").step (fun _ _ _ => True)
    (initial fresh (newSlot 0)) h (pool00 events) :=
  ⟨_, run_exec (meets_true events)⟩

/-- A call and its first four steps. -/
def calling (t : Nat) (c : Call) : List PoolEvent := .start t c :: .replicate 4 (.run t .none)

/-- The peer `aa` is dialled. -/
def dialling : List PoolEvent := calling 0 (.get "aa" .get) ++ [.run 0 (.channel 3)]

theorem tasks_exec (hevents : ∀ c, .start t c ∉ events) :
    ∀ {h : List (PoolEvent × Option Reply)} {s : PoolState}, s.tasks t = none →
      (exec (pool "00").step h s events).2.tasks t = none := by
  induction events with
  | nil => exact id
  | cons i events ih =>
    intro h s hs
    refine ih (fun c hc => hevents c (List.mem_cons_of_mem _ hc)) (tasks_step_eq_none hs ?_)
    rintro c rfl
    exact hevents c List.mem_cons_self

/-- The event starts none of the tasks from `n` on. -/
def startsBelow (n : Nat) : PoolEvent → Bool
  | .start t _ => t < n
  | .run .. | .env _ => true

theorem not_running_pool00 {S : Call → Prop} (n : Nat) (hevents : events.all (startsBelow n))
    (h : ∀ t < n, ((pool00 events).tasks t).isNone) :
    ¬ (PoolState.board (pool00 events)).Running S := by
  rintro ⟨t, c, hcall, -⟩
  have hnone : (pool00 events).tasks t = none := by
    by_cases ht : t < n
    · exact Option.isNone_iff_eq_none.1 (h t ht)
    · refine tasks_exec (fun c hc => ht ?_) rfl
      have hstart := List.all_eq_true.1 hevents _ hc
      exact of_decide_eq_true hstart
  obtain ⟨o, ho, -⟩ := Option.map_eq_some_iff.1 hcall
  rw [hnone] at ho
  cases ho

end Demo

end Tunnet.Pool

import Tunnet.Pool.Spec.Dialing

/-!
# Packets that wait for a connection

`send_or_buffer` queues a packet while its peer has no connection. Something has to come for it
then: a dial in flight, a call that is about to dial, or the wakeup of a backoff.

* `Bounded`, `bounded_move`: the buffer keeps its bounds and its byte count in every run.
-/

namespace Tunnet.Pool

open Function List

/-! ### The size of the buffer -/

/-- The buffer is within its bounds and its byte count is right. -/
structure Bounded (buffer : List Packet) (bytes : Nat) : Prop where
  packets : buffer.length ≤ MAX_BUFFER_PACKETS
  bytes_le : bytes ≤ MAX_BUFFER_BYTES
  bytes_eq : bytes = (buffer.map List.length).sum

/-- The clock readings a task goes by are not ahead of the clock. -/
structure Call.OnTime (c : Call) (g : Shared) : Prop where
  send : ∀ peer packet now, c = .sendLocked peer packet now → now ≤ g.now
  wakeup : ∀ peer until', c = .wakeup peer until' → until' ≤ g.now

variable {a a' : Cell} {b b' : Board} {c : Call} {n : Option Call} {effects : List Effect}
  {g g' : Shared} {i : PoolEvent} {peer : EndpointId} {now : Instant}

section

variable {r : Entered}

theorem bounded_nil : Bounded [] 0 := ⟨Nat.zero_le _, Nat.zero_le _, rfl⟩

theorem Cell.Room.bounded {packet : Packet} (h : a.Room packet) (ha : Bounded a.buffer a.bytes) :
    Bounded (a.push packet).buffer (a.push packet).bytes := by
  obtain ⟨hpackets, hbytes⟩ := h
  refine ⟨?_, hbytes, ?_⟩
  · unfold push
    rw [length_append]
    exact hpackets
  · unfold push
    rw [ha.bytes_eq, map_append, sum_append]
    rfl

theorem Enter.bounded (h : Enter peer now a r a' effects g) (ha : Bounded a.buffer a.bytes) :
    Bounded a'.buffer a'.bytes := by
  cases h with
  | used | restamped | rejected | ready => exact ha
  | revoked => exact bounded_nil

theorem Transition.bounded (h : Transition c a a' n effects g) (ha : Bounded a.buffer a.bytes) :
    Bounded a'.buffer a'.bytes := by
  cases h with
  | settled _ henter | waits _ henter | full henter | subscribes _ _ henter
  | elected _ _ henter => exact henter.bounded ha
  | denied _ henter =>
    split_ifs
    · exact bounded_nil
    · exact henter.bounded ha
  | absorbed henter hroom | queued henter hroom | asks henter hroom =>
    exact hroom.bounded (henter.bounded ha)
  | dialDenied | dialDeniedAgain | dialRejectedLocally | dialRejected | backedOff | installed
  | superseded | blocked | blockedAgain | revoked | closed => exact bounded_nil
  | installedExtra | adopted | cleared | restored | clearedExtra | idled | unchanged | wakes
  | sleepsOn => exact ha

theorem Call.OnTime.mono (h : c.OnTime g) (hle : g ≤ g') : c.OnTime g' :=
  ⟨fun peer packet now hc => (h.send peer packet now hc).trans hle.now,
    fun peer until' hc => (h.wakeup peer until' hc).trans hle.now⟩

theorem FreeExit.onTime (h : FreeExit c n effects g) (c' : Call) (hn : n = some c') :
    c'.OnTime g := by
  cases h with
  | received hnext =>
    rcases hnext with rfl | ⟨_, rfl⟩ | ⟨_, _, rfl⟩ <;> cases hn <;> exact ⟨nofun, nofun⟩
  | send =>
    cases hn
    refine ⟨?_, nofun⟩
    rintro _ _ _ ⟨⟩
    exact le_rfl
  | background _ hnext =>
    have hback := hnext c' hn
    refine ⟨?_, ?_⟩
    · rintro _ _ _ rfl
      exact hback.elim
    · rintro _ _ rfl
      exact hback.elim
  | _ => cases hn <;> exact ⟨nofun, nofun⟩

theorem Transition.onTime (h : Transition c a a' n effects g) (c' : Call) (hn : n = some c') :
    c'.OnTime g := by
  have hafter (c : Call) (h : c.after = some c') : c'.OnTime g := by
    unfold Call.after at h
    split at h <;> cases h <;> exact ⟨nofun, nofun⟩
  cases h with
  | settled _ _ _ hnext => rcases hnext with rfl | ⟨_, _, rfl⟩ <;> cases hn; exact ⟨nofun, nofun⟩
  | blocked _ _ | blockedAgain _ _ | closed _ _ | unchanged _ => exact hafter _ hn
  | _ => cases hn <;> exact ⟨nofun, nofun⟩

theorem onTime_enter (h : enter g c = some g') : c.OnTime g := by
  cases c with
  | sendLocked => cases h
  | wakeup =>
    unfold enter at h
    dsimp only at h
    split_ifs at h with harmed
    refine ⟨nofun, ?_⟩
    rintro _ _ ⟨⟩
    exact harmed.2
  | _ => exact ⟨nofun, nofun⟩

theorem bounded_move (hb : Local (fun _ a _ => Bounded a.buffer a.bytes) Call.OnTime b)
    (h : Board.Move b i b') : Local (fun _ a _ => Bounded a.buffer a.bytes) Call.OnTime b' := by
  refine hb.move h (fun _ _ ha => ha) (fun _ _ _ _ _ _ hc => hc.mono h.le)
    (fun _ _ hc => hc.mono h.le) (fun _ _ => onTime_enter) (fun _ _ _ _ hexit => hexit.onTime) ?_
  intro c k a n effects _ ha _ htrans
  exact ⟨htrans.bounded ha, htrans.onTime⟩

variable {OnTime : Call → Shared → Prop}

theorem bounded_initial (g : Shared) (now : Instant) :
    Local (fun _ a _ => Bounded a.buffer a.bytes) OnTime (Board.initial g now) := by
  refine ⟨fun k => ?_, nofun⟩
  rw [Board.cells_initial]
  exact bounded_nil

end

/-! ### What comes for the packets -/

/-- The wakeup for the backoff until `until'` is asleep, or has woken up and is yet to look. -/
def Alarm (b : Board) (peer : EndpointId) (until' : Instant) : Prop :=
  (peer, until') ∈ b.glob.armed ∨ b.Running (· = .wakeup peer until')

/-- The call is about to look at the slot of the peer and will not be told to wait. -/
def Call.Enters (peer : EndpointId) (state : PeerConnState) (g : Shared) : Call → Prop
  | .get p _ => p = peer ∧ Ripe state g.now
  | .getLocked p now _ => p = peer ∧ Ripe state now
  | _ => False

/-- Something comes for the packets of the peer. -/
inductive Covered (b : Board) (peer : EndpointId) : Prop
  | inFlight : InFlight b (.peer peer) → Covered b peer
  | enters : b.Running (Call.Enters peer (b.cells (.peer peer)).state b.glob) → Covered b peer
  | alarm (u : Instant) (step : Nat) : (b.cells (.peer peer)).state = .backoff u step →
      Alarm b peer u → Covered b peer

/-- What holds of the slot of a peer. -/
structure Tended (b : Board) (peer : EndpointId) : Prop where
  covered : (b.cells (.peer peer)).buffer ≠ [] → Covered b peer
  -- A connection is used without a look at the buffer: only the end of a dial empties it.
  connected : (b.cells (.peer peer)).conn ≠ none → (b.cells (.peer peer)).buffer ≠ [] →
    InFlight b (.peer peer)
  blocked : ∀ gen, (b.cells (.peer peer)).state = .blocked gen → (b.cells (.peer peer)).buffer = []
  alarm : ∀ u step, (b.cells (.peer peer)).state = .backoff u step → u ≤ b.glob.now ∨ Alarm b peer u

/-- A packet that is queued in this state by a task whose reading of the clock is `now` is not
forgotten. No wakeup is armed for a peer that has rejected us, and the one for a backoff that is
over by the clock has come and gone. -/
def PeerConnState.Remembers (generation : Nat) (now clock : Instant) : PeerConnState → Prop
  | .rejected gen _ retryAfter => gen = generation → retryAfter ≤ now
  | .backoff u _ => now < u → clock < u
  | .connected _ | .dialing | .idle | .blocked _ => True

instance (generation : Nat) (now clock : Instant) :
    DecidablePred (PeerConnState.Remembers generation now clock)
  | .rejected gen _ retryAfter => inferInstanceAs (Decidable (gen = generation → retryAfter ≤ now))
  | .backoff u _ => inferInstanceAs (Decidable (now < u → clock < u))
  | .connected _ | .dialing | .idle | .blocked _ => inferInstanceAs (Decidable True)

/-- The critical section leaves no packets with nothing to come for them. -/
def Call.Safe (b : Board) : Call → Prop
  | .sendLocked peer _ now =>
    (b.cells (.peer peer)).state.Remembers b.glob.gateGeneration now b.glob.now
  -- A connection is accepted while packets wait for a dial that has not begun.
  | .adoptAllowed peer _ =>
    (b.cells (.peer peer)).buffer = [] ∨ (b.cells (.peer peer)).dialWaiters ≠ none
  | .dialDenied k _ =>
    (b.cells k).state = .blocked b.glob.gateGeneration → (b.cells k).dialWaiters = none
  | _ => True

instance (b : Board) : DecidablePred (Call.Safe b) := by
  intro c
  cases c <;> unfold Call.Safe <;> infer_instance

/-- The steps of critical sections are safe. -/
def NoneStranded (b : Board) : PoolEvent → Prop
  | .run t _ => ∀ c ∈ b.calls t, c.Safe b
  | .start .. | .env _ => True

instance (b : Board) : DecidablePred (NoneStranded b)
  | .run .. | .start .. | .env _ => by unfold NoneStranded; infer_instance

theorem NoneStranded.noneDeniedTwice (h : NoneStranded b i) : NoneDeniedTwice b i := by
  cases i with
  | run =>
    intro k hk
    obtain ⟨c, hcall, hc⟩ := Option.bind_eq_some_iff.1 hk
    unfold Call.denied at hc
    split at hc
    · cases hc
      exact h _ hcall
    · cases hc
  | start | env => trivial

/-! ### How a critical section leaves packets in the buffer -/

/-- Packets for which there is a dial in flight after a critical section. -/
inductive Dialled (peer : EndpointId) (c : Call) (a : Cell) (n : Option Call) : Prop
  | connected : a.conn ≠ none → a.buffer ≠ [] → c.dialing = none → Dialled peer c a n
  | awaited : a.dialWaiters ≠ none → c.dialing = none → Dialled peer c a n
  | adopted (conn : ConnId) : c = .adoptAllowed peer conn → a.buffer ≠ [] → Dialled peer c a n
  | begins (ctx : DialContext) (caller : Caller) : n = some (.dial (.peer peer) ctx caller) →
      Dialled peer c a n

/-- How packets come to be in the buffer after a critical section. -/
inductive Queue (peer : EndpointId) (c : Call) (a a' : Cell) (n : Option Call) (g : Shared) : Prop
  /-- They were there, and the section takes away nothing that comes for them. -/
  | kept : a.buffer ≠ [] → c.dialing = none → (a'.conn ≠ none → a.conn ≠ none) →
      (∀ u step, a.state = .backoff u step → a'.state = .backoff u step ∧ c ≠ .wakeup peer u) →
      (∀ now, Ripe a.state now → Ripe a'.state now) → ¬ c.Enters peer a.state g →
      Queue peer c a a' n g
  | dialled : Dialled peer c a n → Queue peer c a a' n g
  | asks (caller : Caller) : n = some (.get peer caller) → Ripe a'.state g.now →
      c.dialing = none → (a'.conn ≠ none → a.conn ≠ none ∧ a.buffer ≠ []) → Queue peer c a a' n g
  | absorbed (packet : Packet) (now : Instant) : c = .sendLocked peer packet now →
      a'.state = a.state → a'.conn = none → Ready g.gateGeneration now a.state .wait a.state →
      Queue peer c a a' n g

section

variable {k : SlotKey} {state : PeerConnState}

theorem ripe_askState (h : Ripe state now) : Ripe (askState state) now := by
  unfold askState
  split
  · exact h
  · exact h
  · exact ⟨nofun, nofun⟩

variable {state' : PeerConnState} {generation step : Nat} {u : Instant}

theorem askState_backoff (h : askState state = .backoff u step) : state = .backoff u step := by
  cases state with
  | backoff => exact h
  | connected | dialing | idle | blocked | rejected => cases h

theorem enters_of_entry (hentry : c.entry = some (k, now)) (h : c.Enters peer state g) :
    Ripe state now := by
  unfold Call.entry at hentry
  split at hentry
  · cases hentry
    exact h.2
  · exact h.elim
  · exact h.elim
  · cases hentry

theorem wakeup_ne_of_entry (hentry : c.entry = some (k, now)) : c ≠ .wakeup peer u := by
  rintro rfl
  cases hentry

theorem Ready.waits (h : Ready generation now state .wait state') :
    state' = state ∧ ¬ Ripe state now ∧ ∀ gen, state ≠ .blocked gen := by
  cases h with
  | backoff hstate hlt =>
    refine ⟨rfl, fun hripe => absurd (hripe.backoff _ _ hstate) (not_le.2 hlt), ?_⟩
    rw [hstate]
    nofun
  | rejected hstate hlt =>
    refine ⟨rfl, fun hripe => absurd (hripe.rejected _ _ _ hstate) (not_le.2 hlt), ?_⟩
    rw [hstate]
    nofun

/-- A dial may start in a ripe slot. -/
theorem Ready.dials (h : Ready generation now state .dial state') :
    Ripe state' now ∧ (∀ now, Ripe state now → Ripe state' now) ∧
      (∀ u step, state = .backoff u step → state' = .backoff u step) ∧
      ∀ gen, state' ≠ .blocked gen := by
  cases h with
  | reset hne =>
    exact ⟨ripe_idle now, fun now _ => ripe_idle now, fun u step h => absurd h (hne u step), nofun⟩
  | dial hripe hne => exact ⟨hripe, fun _ => id, fun _ _ => id, hne⟩

theorem Ready.blocked_eq
    (h : Ready generation now state (.deny false) state') : state = .blocked generation := by
  cases h with
  | blocked hstate => exact hstate

theorem Ready.backoff_of_eq {q : Readiness}
    (h : Ready generation now state q state') (hstate : state' = .backoff u step) :
    state = .backoff u step := by
  cases h with
  | block | reset _ => cases hstate
  | blocked _ | dial _ _ | backoff _ _ | rejected _ _ => exact hstate

theorem Call.Steady.not_enters (h : c.Steady) : ¬ c.Enters peer state g := by
  unfold Steady at h
  split at h <;> first | exact id | exact h.elim

theorem Call.Steady.ne_wakeup (h : c.Steady) : c ≠ .wakeup peer u := by
  rintro rfl
  exact h

variable (h : Transition c a a' n effects g)

include h

theorem Transition.queue (hkey : c.key = some (.peer peer))
    (hc : c.OnTime g) (hblocked : ∀ gen, a.state = .blocked gen → a.buffer = [])
    (ha' : a'.buffer ≠ []) : Queue peer c a a' n g := by
  cases h with
  | settled hentry henter hne =>
    have hdialing := dialing_of_entry hentry
    cases henter with
    | used hconn | restamped hconn _ | rejected hconn =>
      exact .dialled (.connected (hconn ▸ Option.some_ne_none _) ha' hdialing)
    | revoked => exact absurd rfl ha'
    | ready => exact absurd rfl (hne _)
  | denied hentry henter =>
    split_ifs at ha' ⊢ with hshed
    · exact absurd rfl ha'
    · rw [Bool.not_eq_true] at hshed
      subst hshed
      obtain ⟨-, hbuffer, hready⟩ := henter.enterReady
      exact absurd (hbuffer.trans (hblocked _ hready.blocked_eq)) ha'
  | waits hentry henter =>
    obtain ⟨hconn, hbuffer, hready⟩ := henter.enterReady
    obtain ⟨heq, hripe, -⟩ := hready.waits
    rw [hbuffer] at ha'
    refine .kept ha' (dialing_of_entry hentry) (fun h => absurd hconn h) ?_ ?_ ?_
    · exact fun u step hstate => ⟨heq.trans hstate, wakeup_ne_of_entry hentry⟩
    · exact fun now hripe => heq ▸ hripe
    · exact fun henters => hripe (enters_of_entry hentry henters)
  | absorbed henter =>
    obtain ⟨hconn, -, hready⟩ := henter.enterReady
    cases hkey
    have heq := hready.waits.1
    exact .absorbed _ _ rfl heq hconn (heq ▸ hready)
  | full henter =>
    obtain ⟨hconn, hbuffer, hready⟩ := henter.enterReady
    obtain ⟨-, hripe, hbackoff, -⟩ := hready.dials
    rw [hbuffer] at ha'
    exact .kept ha' rfl (fun h => absurd hconn h)
      (fun u step hstate => ⟨hbackoff u step hstate, nofun⟩) hripe id
  | queued henter _ hwaiters => exact .dialled (.awaited (henter.waiters ▸ hwaiters) rfl)
  | asks henter =>
    obtain ⟨hconn, -, hready⟩ := henter.enterReady
    cases hkey
    have hnow := hc.send _ _ _ rfl
    exact .asks _ rfl ((ripe_askState hready.dials.1).mono hnow) rfl fun h => absurd hconn h
  | subscribes hentry _ henter htx =>
    refine .dialled (.awaited ?_ (dialing_of_entry hentry))
    rw [← henter.waiters, htx]
    nofun
  | elected hentry =>
    rw [key_of_entry hentry] at hkey
    cases hkey
    exact .dialled (.begins _ _ rfl)
  | adopted =>
    cases hkey
    exact .dialled (.adopted _ rfl ha')
  | cleared hne =>
    exact .kept ha' rfl id (fun u step hstate => absurd hstate (hne u step))
      (fun now _ => ripe_idle now) id
  | restored hconn => exact .dialled (.connected (hconn ▸ Option.some_ne_none _) ha' rfl)
  | idled hstate =>
    refine .kept ha' rfl (fun h => absurd rfl h) (fun u step hstate' => ?_)
      (fun now _ => ripe_idle now) id
    rw [hstate] at hstate'
    cases hstate'
  | unchanged hsteady =>
    exact .kept ha' hsteady.dialing id (fun u step hstate => ⟨hstate, hsteady.ne_wakeup⟩)
      (fun _ => id) hsteady.not_enters
  | wakes hstate =>
    cases hkey
    refine .asks _ rfl ⟨fun u step hstate' => ?_, fun gen first r hstate' => ?_⟩ rfl
      fun h => ⟨h, ha'⟩
    · rw [hstate] at hstate'
      cases hstate'
      exact hc.wakeup _ _ rfl
    · rw [hstate] at hstate'
      cases hstate'
  | sleepsOn hempty =>
    refine .kept ha' rfl id (fun u step hstate => ⟨hstate, ?_⟩) (fun _ => id) id
    rintro ⟨⟩
    exact ha' (hempty ⟨step, hstate⟩)
  | dialDenied | dialDeniedAgain | dialRejectedLocally | dialRejected | backedOff | installed
  | superseded | blocked | blockedAgain | revoked | closed => exact absurd rfl ha'
  | installedExtra | clearedExtra => cases hkey

theorem Transition.blocked_buffer {gen : Nat}
    (hblocked : ∀ gen, a.state = .blocked gen → a.buffer = []) (hstate : a'.state = .blocked gen) :
    a'.buffer = [] := by
  cases h with
  | settled _ henter hne =>
    cases henter with
    | used => exact hblocked gen hstate
    | restamped | rejected => cases hstate
    | revoked => rfl
    | ready => exact absurd rfl (hne _)
  | denied _ henter =>
    split_ifs at hstate ⊢ with hshed
    · rfl
    · rw [Bool.not_eq_true] at hshed
      subst hshed
      obtain ⟨-, hbuffer, hready⟩ := henter.enterReady
      exact hbuffer.trans (hblocked _ hready.blocked_eq)
  | waits _ henter | absorbed henter =>
    obtain ⟨heq, -, hne⟩ := henter.enterReady.ready.waits
    exact absurd (heq.symm.trans hstate) (hne gen)
  | full henter | queued henter | subscribes _ _ henter =>
    exact absurd hstate (henter.enterReady.ready.dials.2.2.2 gen)
  | asks => exact absurd hstate (by unfold askState; split <;> nofun)
  | dialDenied | dialDeniedAgain | dialRejectedLocally | blocked | blockedAgain | revoked
  | superseded => rfl
  | unchanged _ | wakes _ _ | sleepsOn _ => exact hblocked gen hstate
  | elected | dialRejected | backedOff | installed | installedExtra | adopted | cleared | restored
  | clearedExtra | closed | idled => cases hstate

theorem Transition.backoff
    (hkey : c.key = some (.peer peer)) (hstate : a'.state = .backoff u step) :
    a.state = .backoff u step ∨ .arm peer u ∈ effects := by
  cases h with
  | settled _ henter hne =>
    cases henter with
    | used => exact .inl hstate
    | restamped | rejected | revoked => cases hstate
    | ready => exact absurd rfl (hne _)
  | denied _ henter =>
    split_ifs at hstate <;> exact .inl (henter.enterReady.ready.backoff_of_eq hstate)
  | waits _ henter | absorbed henter | full henter | queued henter | subscribes _ _ henter =>
    exact .inl (henter.enterReady.ready.backoff_of_eq hstate)
  | asks henter => exact .inl (henter.enterReady.ready.backoff_of_eq (askState_backoff hstate))
  | backedOff =>
    cases hkey
    cases hstate
    exact .inr (mem_append_right _ (mem_singleton_self _))
  | superseded _ | unchanged _ | wakes _ _ | sleepsOn _ => exact .inl hstate
  | elected | dialDenied | dialDeniedAgain | dialRejectedLocally | dialRejected | installed
  | installedExtra | adopted | cleared | restored | clearedExtra | blocked | blockedAgain | revoked
  | closed | idled => cases hstate

omit h

/-! ### Wakeups -/

variable {x : EndpointId × Instant}

theorem armed_apply (w : Effect) (h : x ∈ g.armed) : x ∈ (apply g w).armed := by
  cases w with
  | close =>
    unfold apply Shared.close
    dsimp only
    split <;> exact h
  | openChannel =>
    unfold apply
    dsimp only
    split <;> exact h
  | send tx result | dropSender tx =>
    unfold apply Shared.settle
    dsimp only
    split <;> exact h
  | arm => exact mem_cons_of_mem _ h
  | know | forgetExtra => exact h

theorem armed_effects (effects : List Effect) (h : x ∈ g.armed) :
    x ∈ (effects.foldl apply g).armed := by
  induction effects generalizing g with
  | nil => exact h
  | cons w effects ih => exact ih (armed_apply w h)

theorem armed_of_mem (h : .arm peer u ∈ effects) : (peer, u) ∈ (effects.foldl apply g).armed := by
  induction effects generalizing g with
  | nil => cases h
  | cons w effects ih =>
    rcases mem_cons.1 h with rfl | h
    · exact armed_effects effects mem_cons_self
    · exact ih h

theorem armed_env {m : Env} (h : env g m = some g') : g'.armed = g.armed := by
  unfold env at h
  split at h
  · split at h
    · cases h
    · split_ifs at h
      cases h
      rfl
  · split_ifs at h
    cases h
    rfl
  · cases h
    unfold Shared.close
    split <;> rfl
  · cases h
    rfl

theorem armed_enter (h : enter g c = some g') (hx : x ∈ g.armed) :
    x ∈ g'.armed ∨ c = .wakeup x.1 x.2 := by
  cases c with
  | wakeup peer u =>
    unfold enter at h
    dsimp only at h
    split_ifs at h
    cases h
    by_cases hpeer : x = (peer, u)
    · subst hpeer
      exact .inr rfl
    · exact .inl ((mem_erase_of_ne hpeer).2 hx)
  | get peer caller =>
    cases caller with
    | get =>
      cases h
      exact .inl hx
    | send | wakeup => cases h
  | getExtra | send | adopt | reconcile | revokePeer | closeAll | sweep | touchPeer
  | setPeerKeepAlive =>
    cases h
    exact .inl hx
  | _ => cases h

variable {t : Nat} {cells : SlotKey → Cell}

section

variable {u : Instant}

theorem Alarm.update (h : Alarm b peer u) (hcall : b.calls t = some c) (hc : c ≠ .wakeup peer u) :
    Alarm ⟨effects.foldl apply b.glob, cells, update b.calls t n⟩ peer u := by
  rcases h with harmed | hrunning
  · exact .inl (armed_effects effects harmed)
  · exact .inr (hrunning.update hcall fun h => absurd h hc)

theorem Alarm.start (h : Alarm b peer u) (hnone : b.calls t = none)
    (henter : enter b.glob c = some g) :
    Alarm ⟨g, cells, Function.update b.calls t (some c)⟩ peer u := by
  rcases h with harmed | hrunning
  · rcases armed_enter henter harmed with harmed' | rfl
    · exact .inl harmed'
    · exact .inr (running_self _ rfl)
  · exact .inr (hrunning.start hnone)

end

theorem Call.Enters.mono (h : c.Enters peer state g) (hle : g ≤ g') : c.Enters peer state g' := by
  unfold Enters at h ⊢
  split at h
  · exact ⟨h.1, h.2.mono hle.now⟩
  · exact h
  · exact h

theorem FreeExit.enters (hexit : FreeExit c n effects g) (h : c.Enters peer state g) :
    ∃ c', n = some c' ∧ c'.Enters peer state g := by
  unfold Call.Enters at h
  split at h
  · cases hexit with
    | get => exact ⟨_, rfl, h⟩
    | background hback => exact hback.elim
  · cases hexit with
    | background hback => exact hback.elim
  · exact h.elim

theorem Call.Enters.key_eq (h : c.Enters peer state g) (hkey : c.key = some k) :
    k = .peer peer := by
  unfold Enters at h
  split at h
  · cases hkey
  · obtain ⟨rfl, -⟩ := h
    cases hkey
    rfl
  · exact h.elim

/-! ### Something comes for every packet -/

theorem InFlight.update (h : InFlight b k) (hcall : b.calls t = some c)
    (hdialing : c.dialing = none) : InFlight ⟨g, cells, update b.calls t n⟩ k := by
  refine Board.Running.update h hcall fun hc => ?_
  rw [hdialing] at hc
  cases hc

theorem Covered.kept (h : Covered b peer) (hcall : b.calls t = some c) (hdialing : c.dialing = none)
    (hbackoff : ∀ u step, (b.cells (.peer peer)).state = .backoff u step →
      a.state = .backoff u step ∧ c ≠ .wakeup peer u)
    (hripe : ∀ now, Ripe (b.cells (.peer peer)).state now → Ripe a.state now)
    (henters : ¬ c.Enters peer (b.cells (.peer peer)).state b.glob) :
    Covered ⟨effects.foldl apply b.glob, update b.cells (.peer peer) a,
      update b.calls t n⟩ peer := by
  cases h with
  | inFlight hflight => exact .inFlight (hflight.update hcall hdialing)
  | enters hrunning =>
    have hle := (pool_monotone "").le_effects b.glob effects
    refine .enters ((hrunning.update hcall fun hc => absurd hc henters).mono fun c' hc' => ?_)
    simp only [update_self]
    have hc'' := hc'.mono hle
    unfold Call.Enters at hc'' ⊢
    split at hc''
    · exact ⟨hc''.1, hripe _ hc''.2⟩
    · exact ⟨hc''.1, hripe _ hc''.2⟩
    · exact hc''
  | alarm u step hstate halarm =>
    obtain ⟨hstate', hne⟩ := hbackoff u step hstate
    refine .alarm u step ?_ (halarm.update hcall hne)
    simp only [update_self]
    exact hstate'

theorem Dialled.inFlight (h : Dialled peer c (b.cells (.peer peer)) n) (hb : Tended b peer)
    (hattended : Attended b) (hcall : b.calls t = some c) (hsafe : c.Safe b) :
    InFlight ⟨g, cells, update b.calls t n⟩ (.peer peer) := by
  cases h with
  | connected hconn hbuffer hdialing => exact (hb.connected hconn hbuffer).update hcall hdialing
  | awaited hwaiters hdialing => exact (hattended.inFlight _ hwaiters).update hcall hdialing
  | adopted conn hc hbuffer =>
    subst hc
    have hwaiters := hsafe.resolve_left hbuffer
    exact (hattended.inFlight _ hwaiters).update hcall rfl
  | begins ctx caller hn =>
    subst hn
    exact running_self _ rfl

theorem Queue.covered (hq : Queue peer c (b.cells (.peer peer)) a n b.glob) (hb : Tended b peer)
    (hattended : Attended b) (hcall : b.calls t = some c) (hsafe : c.Safe b) :
    Covered ⟨effects.foldl apply b.glob, update b.cells (.peer peer) a,
      update b.calls t n⟩ peer := by
  cases hq with
  | kept hbuffer hdialing _ hbackoff hripe henters =>
    exact (hb.covered hbuffer).kept hcall hdialing hbackoff hripe henters
  | dialled hdialled => exact .inFlight (hdialled.inFlight hb hattended hcall hsafe)
  | asks caller hn hripe =>
    subst hn
    have hle := (pool_monotone "").le_effects b.glob effects
    refine .enters (running_self _ ⟨rfl, ?_⟩)
    simp only [update_self]
    exact hripe.mono hle.now
  | absorbed packet now hc hstate _ hready =>
    subst hc
    cases hready with
    | @backoff u step hbackoff hlt =>
      rw [Call.Safe, hbackoff] at hsafe
      rcases hb.alarm u step hbackoff with hpast | halarm
      · exact absurd (hsafe hlt) (not_lt.2 hpast)
      · refine .alarm u step ?_ (halarm.update hcall nofun)
        simp only [update_self]
        exact hstate.trans hbackoff
    | rejected hrejected hlt =>
      simp only [Call.Safe, hrejected, PeerConnState.Remembers] at hsafe
      exact absurd (hsafe trivial) (not_le.2 hlt)

theorem Queue.inFlight (hq : Queue peer c (b.cells (.peer peer)) a n b.glob) (hb : Tended b peer)
    (hattended : Attended b) (hcall : b.calls t = some c) (hsafe : c.Safe b)
    (hconn : a.conn ≠ none) : InFlight ⟨g, cells, update b.calls t n⟩ (.peer peer) := by
  cases hq with
  | kept hbuffer hdialing hconn' =>
    exact (hb.connected (hconn' hconn) hbuffer).update hcall hdialing
  | dialled hdialled => exact hdialled.inFlight hb hattended hcall hsafe
  | asks caller hn _ hdialing hconn' =>
    obtain ⟨hconn', hbuffer⟩ := hconn' hconn
    exact (hb.connected hconn' hbuffer).update hcall hdialing
  | absorbed _ _ _ _ hnone => exact absurd hnone hconn

variable (hb : Tended b peer)

include hb

theorem Tended.critical (hattended : Attended b)
    (hcall : b.calls t = some c) (hkey : c.key = some (.peer peer)) (hsafe : c.Safe b)
    (hc : c.OnTime b.glob) (h : Transition c (b.cells (.peer peer)) a n effects b.glob) :
    Tended ⟨effects.foldl apply b.glob, update b.cells (.peer peer) a,
      update b.calls t n⟩ peer := by
  have hle := (pool_monotone "").le_effects b.glob effects
  refine ⟨fun hbuffer => ?_, fun hconn hbuffer => ?_, fun gen hstate => ?_,
    fun u step hstate => ?_⟩ <;> simp only [update_self] at *
  · exact (h.queue hkey hc hb.blocked hbuffer).covered hb hattended hcall hsafe
  · exact (h.queue hkey hc hb.blocked hbuffer).inFlight hb hattended hcall hsafe hconn
  · exact h.blocked_buffer hb.blocked hstate
  · rcases h.backoff hkey hstate with hold | harm
    · rcases hb.alarm u step hold with hpast | halarm
      · exact .inl (hpast.trans hle.now)
      · by_cases hwakeup : c = .wakeup peer u
        · exact .inl ((hc.wakeup peer u hwakeup).trans hle.now)
        · exact .inr (halarm.update hcall hwakeup)
    · exact .inr (.inl (armed_of_mem harm))

theorem Tended.frame
    (hcell : b'.cells (.peer peer) = b.cells (.peer peer)) (hle : b.glob ≤ b'.glob)
    (hflight : InFlight b (.peer peer) → InFlight b' (.peer peer))
    (henters : ∀ state, b.Running (Call.Enters peer state b.glob) →
      b'.Running (Call.Enters peer state b'.glob))
    (halarm : ∀ u, Alarm b peer u → Alarm b' peer u) : Tended b' peer := by
  refine ⟨fun hbuffer => ?_, ?_, ?_, ?_⟩
  · rw [hcell] at hbuffer
    cases hb.covered hbuffer with
    | inFlight h => exact .inFlight (hflight h)
    | enters h => exact .enters (hcell ▸ henters _ h)
    | alarm u step hstate h => exact .alarm u step (hcell ▸ hstate) (halarm u h)
  · rw [hcell]
    exact fun hconn hbuffer => hflight (hb.connected hconn hbuffer)
  · rw [hcell]
    exact hb.blocked
  · rw [hcell]
    exact fun u step hstate => (hb.alarm u step hstate).imp (fun h => h.trans hle.now) (halarm u)

theorem Tended.move (hattended : Attended b)
    (honTime : ∀ t c, b.calls t = some c → c.OnTime b.glob) (hok : NoneStranded b i)
    (h : Board.Move b i b') : Tended b' peer := by
  have hle := h.le
  cases h with
  | quiet => exact hb
  | env henv =>
    refine hb.frame rfl hle id (fun state h => h.mono fun c hc => hc.mono hle) fun u h => ?_
    exact h.imp (fun h => armed_env henv ▸ h) id
  | start hnone henter =>
    refine hb.frame rfl hle (fun h => h.start hnone) (fun state h => ?_) fun u h => ?_
    · exact (h.start hnone).mono fun c hc => hc.mono hle
    · exact h.start hnone henter
  | free hcall hexit =>
    refine hb.frame rfl hle (fun h => Board.Running.update h hcall hexit.dialing)
      (fun state h => ?_) fun u h => h.update hcall ?_
    · exact (h.update hcall hexit.enters).mono fun c hc => hc.mono hle
    · rintro rfl
      cases hexit with
      | background hback => exact hback.elim
  | @critical t e c k a n effects hcall hkey htrans =>
    by_cases hk : k = .peer peer
    · subst hk
      exact hb.critical hattended hcall hkey (hok c hcall) (honTime t c hcall) htrans
    · refine hb.frame (update_of_ne (symm hk) ..) hle (fun h => ?_) (fun state h => ?_)
        fun u h => h.update hcall ?_
      · exact Board.Running.update h hcall fun hc => absurd (key_of_dialing hkey hc).symm hk
      · exact (h.update hcall fun hc => absurd (hc.key_eq hkey) hk).mono fun c hc => hc.mono hle
      · rintro rfl
        cases hkey
        exact hk rfl

end

/-- The peer a call is about. -/
def Call.about : Call → Option EndpointId
  | .get peer _ | .getLocked peer _ _ | .getExtra peer _ | .getExtraLocked peer _ _ _
  | .install peer _ _ _ | .send peer _ | .sendLocked peer _ _ | .adopt peer _
  | .adoptAllowed peer _ | .revokePeer peer | .revokeLocked peer _ | .sweepLocked _ peer _
  | .touchPeer peer | .setPeerKeepAlive peer _ | .wakeup peer _ => some peer
  | .awaitDial k _ _ | .dial k _ _ | .dialDenied k _ | .dialAllowed k _ _
  | .dialFailed k _ _ _ _ => some k.endpoint
  | .reconcilePeers _ (peer :: _) | .closePeers (peer :: _) => some peer
  | _ => none

theorem about_of_dialing (h : c.dialing = some (.peer peer)) : c.about = some peer := by
  unfold Call.dialing at h
  split at h <;> cases h <;> rfl

theorem Call.Enters.about {state : PeerConnState}
    (h : c.Enters peer state g) : c.about = some peer := by
  unfold Enters at h
  split at h
  · exact congrArg some h.1
  · exact congrArg some h.1
  · exact h.elim

theorem tended_initial (g : Shared) (now : Instant) (peer : EndpointId) :
    Tended (Board.initial g now) peer := by
  refine ⟨?_, ?_, ?_, ?_⟩ <;> rw [Board.cells_initial]
  · exact fun hbuffer => absurd rfl hbuffer
  · exact fun hconn => absurd rfl hconn
  · exact fun _ _ => rfl
  · nofun

/-- Packets do not wait for nothing: in every run the buffers are within their bounds; and in
every run whose steps are safe, a peer that no call is about has an empty buffer or the wakeup of
its present backoff is armed. -/
theorem buffer_tended {own : EndpointId} {g : Shared} {now : Instant}
    {h : List (PoolEvent × Option Reply)} {s : PoolState}
    (hrun : Run (pool own).step (fun _ _ _ => True) (Monitor.initial g (newSlot now)) h s)
    (peer : EndpointId) : Bounded (s.slots (.peer peer)).buffer (s.slots (.peer peer)).bufferBytes ∧
      (Run (pool own).step (fun _ s i => NoneStranded (PoolState.board s) i)
          (Monitor.initial g (newSlot now)) h s →
        ¬ (PoolState.board s).Running (fun c => c.about = some peer) →
        (s.slots (.peer peer)).buffer = [] ∨
          ∃ u step, (s.slots (.peer peer)).state = .backoff u step ∧ (peer, u) ∈ s.glob.armed) := by
  have hbounded : Local (fun _ a _ => Bounded a.buffer a.bytes) Call.OnTime (PoolState.board s) :=
    board_invariant (fun _ _ => True) (bounded_initial g now) (fun _ _ _ hb _ => bounded_move hb)
      hrun
  refine ⟨hbounded.cells (.peer peer), fun hrun hquiet => ?_⟩
  have htended : Tended (PoolState.board s) peer := by
    have hinv : Attended (PoolState.board s) ∧
        Local (fun _ a _ => Bounded a.buffer a.bytes) Call.OnTime (PoolState.board s) ∧
        Tended (PoolState.board s) peer := by
      refine board_invariant (J := fun b => Attended b ∧
        Local (fun _ a _ => Bounded a.buffer a.bytes) Call.OnTime b ∧ Tended b peer) NoneStranded
        ⟨attended_initial g now, bounded_initial g now, tended_initial g now peer⟩ ?_ hrun
      rintro b i b' ⟨hattended, hlocal, htended⟩ hok hmove
      exact ⟨hattended.move hok.noneDeniedTwice hmove, bounded_move hlocal hmove,
        htended.move hattended hlocal.calls hok hmove⟩
    exact hinv.2.2
  by_contra hstranded
  obtain ⟨hbuffer, hbackoff⟩ := not_or.1 hstranded
  cases htended.covered hbuffer with
  | inFlight h => exact hquiet (h.mono fun c => about_of_dialing)
  | enters h => exact hquiet (h.mono fun c hc => hc.about)
  | alarm u step hstate halarm =>
    rcases halarm with harmed | hrunning
    · exact hbackoff ⟨u, step, hstate, harmed⟩
    · refine hquiet (hrunning.mono fun c hc => ?_)
      rw [hc]
      rfl

namespace Demo

theorem buffer_tended_backoff :
    let s := pool00 (dialling ++ [.run 0 (.connect .timedOut), .run 0 .none, .run 0 (.random 0),
      .run 0 .none] ++ calling 1 (.send "aa" [1]))
    (s.slots (.peer "aa")).buffer = [[1]] ∧
      ∃ u step, (s.slots (.peer "aa")).state = .backoff u step ∧ ("aa", u) ∈ s.glob.armed := by
  intro s
  have hbuffer : (s.slots (.peer "aa")).buffer = [[1]] := by decide
  refine ⟨hbuffer, Or.resolve_left ((buffer_tended (run_exec (meets_true _)) "aa").2
    (run_exec (by decide)) (not_running_pool00 2 rfl (by decide))) ?_⟩
  exact ne_of_eq_of_ne hbuffer (cons_ne_nil _ _)

/-- The peer rejects our dial as that of a stranger. A packet sent before the next retry is due
is queued; no wakeup is armed and no call is under way. -/
theorem rejected_peer_strands_packet : ∃ (h : List (PoolEvent × Option Reply)) (s : PoolState),
    Run (pool "00").step (fun _ _ _ => True) (Monitor.initial fresh (newSlot 0)) h s ∧
      ¬ (PoolState.board s).Running (fun c => c.about = some "aa") ∧
      (s.slots (.peer "aa")).buffer = [[1]] ∧ s.glob.armed = [] := by
  obtain ⟨h, hrun⟩ := run_pool00 (dialling ++
    [.run 0 (.connect (.failed (.connection (.applicationClosed 403 CLOSE_NOT_MEMBER_REASON)) "")),
    .run 0 .none, .run 0 .none, .run 0 .none, .run 0 (.random 0)] ++ calling 1 (.send "aa" [1]))
  exact ⟨h, _, hrun, not_running_pool00 2 rfl (by decide), by decide⟩

end Demo

end Tunnet.Pool

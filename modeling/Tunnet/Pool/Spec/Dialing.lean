import Tunnet.Pool.Spec.Board

/-!
# Waiting for a dial

The first task that finds a slot without a connection dials and leaves a channel in
`dial_waiters`; whoever comes later waits on it. So the channel has to go when the dial ends.

* `Waiters`: all a critical section can do to the channel of its slot.
-/

namespace Tunnet.Pool

open ConnSlot Function

variable {caller : Caller} {tx : ChanId} {g' g : Shared} {k' : SlotKey} {chan : Chan} {t : Nat}

/-- A dial for the slot is in flight. -/
def InFlight (b : Board) (k : SlotKey) : Prop := b.Running fun c => c.dialing = some k

/-- The slot in which a dial ends that the gate denies. -/
def Call.denied : Call → Option SlotKey
  | .dialDenied k _ => some k
  | _ => none

/-- A dial that is denied when it ends does not find its slot blocked at the current generation,
or finds it without waiters. -/
def NoneDeniedTwice (b : Board) : PoolEvent → Prop
  | .run t _ => ∀ k ∈ (b.calls t).bind Call.denied,
      (b.cells k).state = .blocked b.glob.gateGeneration → (b.cells k).dialWaiters = none
  | .start .. | .env _ => True

instance (b : Board) : DecidablePred (NoneDeniedTwice b) := by
  intro i
  cases i <;> unfold NoneDeniedTwice <;> infer_instance

/-! ### Channels -/

/-- The channel an effect settles. -/
def Effect.settles : Effect → Option ChanId
  | .send tx _ | .dropSender tx => some tx
  | _ => none

theorem Chan.eq_opened (hused : chan ≠ .unused) (hsettled : ¬ chan.Settled) : chan = .opened := by
  cases chan with
  | unused => exact absurd rfl hused
  | opened => rfl
  | sent | dropped => exact absurd trivial hsettled

theorem settled_settle (hused : g.chans tx ≠ .unused)
    (hchan : chan.Settled) : ((g.settle tx chan).chans tx).Settled := by
  unfold Shared.settle
  split
  · simp only [update_self]
    exact hchan
  · rename_i hopened
    by_contra hsettled
    exact hopened (Chan.eq_opened hused hsettled)

theorem settled_effects {effects : List Effect} {w : Effect}
    (hused : g.chans tx ≠ .unused) (hmem : w ∈ effects) (hw : w.settles = some tx) :
    ((effects.foldl apply g).chans tx).Settled := by
  induction effects generalizing g with
  | nil => cases hmem
  | cons w' effects ih =>
    rcases List.mem_cons.1 hmem with rfl | hmem
    · -- What comes after the effect only moves the shared state up.
      have hle := (pool_monotone "").le_effects (apply g w) effects
      refine hle.settled tx ?_
      cases w with
      | send tx' result | dropSender tx' =>
        cases hw
        exact settled_settle hused trivial
      | close | openChannel | arm | know | forgetExtra => cases hw
    · exact ih ((Shared.le_apply g w').used tx hused) hmem

theorem opened_of_le (hle : g ≤ g') (hused : g.chans tx ≠ .unused)
    (hopened : g'.chans tx = .opened) : g.chans tx = .opened := by
  refine Chan.eq_opened hused fun hsettled => ?_
  have h := hle.settled tx hsettled
  rw [hopened] at h
  exact h

/-! ### The channel of a slot -/

/-- What a critical section does to the channel of its slot. -/
inductive Waiters (c : Call) (k : SlotKey) (a a' : Cell) (n : Option Call) (effects : List Effect)
    (g : Shared) : Prop
  | kept : a'.dialWaiters = a.dialWaiters → c.dialing = none → Waiters c k a a' n effects g
  | left (caller : Caller) : a'.dialWaiters = a.dialWaiters → c = .dialDenied k caller →
      a.state = .blocked g.gateGeneration → Waiters c k a a' n effects g
  | made (tx : ChanId) (ctx : DialContext) (caller : Caller) : a.dialWaiters = none →
      a'.dialWaiters = some tx → n = some (.dial k ctx caller) → effects = [.openChannel tx] →
      g.chans tx = .unused → Waiters c k a a' n effects g
  | taken : a'.dialWaiters = none →
      (∀ tx, a.dialWaiters = some tx → ∃ w ∈ effects, w.settles = some tx) →
      Waiters c k a a' n effects g

section

variable {a a' : Cell} {b b' : Board} {c : Call} {k : SlotKey} {n : Option Call}
  {effects l l' : List Effect} {i : PoolEvent} {peer : EndpointId} {now : Instant} {r : Entered}
  {o : Option ChanId} {result : DialResult}

theorem settles_sending (h : o = some tx) : ∃ w ∈ sending o result, w.settles = some tx := by
  subst h
  exact ⟨_, List.mem_singleton_self _, rfl⟩

theorem settles_dropping (h : o = some tx) : ∃ w ∈ dropping o, w.settles = some tx := by
  subst h
  exact ⟨_, List.mem_singleton_self _, rfl⟩

theorem exists_settles_left (h : ∃ w ∈ l, w.settles = some tx) :
    ∃ w ∈ l ++ l', w.settles = some tx := by
  obtain ⟨w, hw, hsettles⟩ := h
  exact ⟨w, List.mem_append_left _ hw, hsettles⟩

theorem exists_settles_right (h : ∃ w ∈ l', w.settles = some tx) :
    ∃ w ∈ l ++ l', w.settles = some tx := by
  obtain ⟨w, hw, hsettles⟩ := h
  exact ⟨w, List.mem_append_right _ hw, hsettles⟩

theorem Enter.waiters (h : Enter peer now a r a' effects g) : a'.dialWaiters = a.dialWaiters := by
  cases h <;> rfl

theorem dialing_of_entry (h : c.entry = some (k, now)) : c.dialing = none := by
  unfold Call.entry at h
  split at h <;> first | rfl | cases h

theorem dialing_of_after (h : c.after ≠ none) : c.dialing = none := by
  unfold Call.after at h
  split at h <;> first | rfl | exact absurd rfl h

theorem Call.Steady.dialing (h : c.Steady) : c.dialing = none := by
  unfold Steady at h
  split at h <;> first | rfl | cases h

theorem key_of_dialing (hkey : c.key = some k) (hdialing : c.dialing = some k') : k' = k := by
  unfold Call.dialing at hdialing
  split at hdialing <;> cases hdialing <;> cases hkey <;> rfl

theorem Transition.waiters (h : Transition c a a' n effects g) (hkey : c.key = some k) :
    Waiters c k a a' n effects g := by
  cases h with
  | settled hentry henter | waits hentry henter | subscribes hentry _ henter =>
    exact .kept henter.waiters (dialing_of_entry hentry)
  | denied hentry henter =>
    refine .kept ?_ (dialing_of_entry hentry)
    split_ifs <;> exact henter.waiters
  | absorbed henter | full henter | queued henter | asks henter => exact .kept henter.waiters rfl
  | elected hentry _ henter _ hnone hunused =>
    rw [key_of_entry hentry] at hkey
    cases hkey
    exact .made _ _ _ (henter.waiters ▸ hnone) rfl rfl rfl hunused
  | dialDenied => exact .taken rfl fun tx htx => exists_settles_right (settles_dropping htx)
  | dialDeniedAgain hblocked =>
    cases hkey
    exact .left _ rfl rfl hblocked
  | dialRejectedLocally => exact .taken rfl fun tx htx => exists_settles_right (settles_sending htx)
  | dialRejected | installedExtra => exact .taken rfl fun tx htx => settles_sending htx
  | backedOff => exact .taken rfl fun tx htx => exists_settles_left (settles_sending htx)
  | installed => exact .taken rfl fun tx htx => exists_settles_right (settles_sending htx)
  | superseded => exact .taken rfl fun tx htx => exists_settles_left (settles_sending htx)
  | adopted _ | cleared _ _ | restored _ _ | clearedExtra | idled _ | wakes _ _ | sleepsOn _ =>
    exact .kept rfl rfl
  | blocked => exact .taken rfl fun tx htx => exists_settles_right (settles_dropping htx)
  | blockedAgain hsteady _ | unchanged hsteady => exact .kept rfl hsteady.dialing
  | revoked =>
    exact .taken rfl fun tx htx => exists_settles_left (exists_settles_right (settles_dropping htx))
  | closed _ hafter => exact .kept rfl (dialing_of_after hafter)

theorem Transition.awaits
    (h : Transition c a a' (some (.awaitDial k' tx caller)) effects g) (hkey : c.key = some k) :
    k' = k ∧ a.dialWaiters = some tx ∧ a'.dialWaiters = some tx ∧ effects = [] := by
  generalize hn : some (Call.awaitDial k' tx caller) = n at h
  have hafter (c : Call) (h : c.after = some (.awaitDial k' tx caller)) : False := by
    unfold Call.after at h
    split at h <;> cases h
  cases h with
  | settled _ _ _ hnext => rcases hnext with rfl | ⟨_, _, rfl⟩ <;> cases hn
  | subscribes hentry _ henter htx =>
    cases hn
    rw [key_of_entry hentry] at hkey
    cases hkey
    exact ⟨rfl, henter.waiters ▸ htx, htx, rfl⟩
  | blocked _ _ | blockedAgain _ _ | closed _ _ | unchanged _ => exact (hafter _ hn.symm).elim
  | _ => cases hn

/-! ### Dials in flight -/

/-- The channel of a slot has been used and means a dial in flight, and whoever waits on an open
channel waits on that of the slot. -/
structure Attended (b : Board) : Prop where
  inFlight : ∀ k, (b.cells k).dialWaiters ≠ none → InFlight b k
  used : ∀ k tx, (b.cells k).dialWaiters = some tx → b.glob.chans tx ≠ .unused
  awaiting : ∀ t c, b.calls t = some c → ∀ k tx caller, c = .awaitDial k tx caller →
    b.glob.chans tx ≠ .unused ∧
      (b.glob.chans tx = .opened → (b.cells k).dialWaiters = some tx)

theorem Attended.of_opened (h : Attended b)
    (hcall : b.calls t = some (.awaitDial k tx caller)) (hopened : b.glob.chans tx = .opened) :
    InFlight b k := by
  obtain ⟨-, hwaiters⟩ := h.awaiting t _ hcall k tx caller rfl
  refine h.inFlight k ?_
  rw [hwaiters hopened]
  nofun

theorem FreeExit.dialing (h : FreeExit c n effects g) (hc : c.dialing = some k) :
    ∃ c', n = some c' ∧ c'.dialing = some k := by
  cases h with
  | dialAllowed _ | dialDenied | dialFailed | stamp => exact ⟨_, rfl, hc⟩
  | background hback =>
    unfold Call.dialing at hc
    split at hc <;> first | exact hback.elim | cases hc
  | _ => cases hc

theorem FreeExit.not_awaitDial : ¬ FreeExit c (some (.awaitDial k tx caller)) effects g := by
  generalize hn : some (Call.awaitDial k tx caller) = n
  intro h
  cases h with
  | received hnext => rcases hnext with rfl | ⟨_, rfl⟩ | ⟨_, _, rfl⟩ <;> cases hn
  | background _ hnext => exact (hnext _ hn.symm).elim
  | _ => cases hn

theorem Attended.awaiting_of_le (hb : Attended b) (hle : b.glob ≤ g')
    (hcall : b.calls t = some (.awaitDial k tx caller)) :
    g'.chans tx ≠ .unused ∧ (g'.chans tx = .opened → (b.cells k).dialWaiters = some tx) := by
  obtain ⟨hused, hopened⟩ := hb.awaiting t _ hcall k tx caller rfl
  exact ⟨hle.used tx hused, fun h => hopened (opened_of_le hle hused h)⟩

section Critical

variable {e : Choice}

theorem Attended.inFlight_critical (hb : Attended b) (hok : NoneDeniedTwice b (.run t e))
    (hcall : b.calls t = some c) (hkey : c.key = some k)
    (h : Transition c (b.cells k) a n effects b.glob) (ha : a.dialWaiters ≠ none)
    {cells : SlotKey → Cell} : InFlight ⟨g', cells, update b.calls t n⟩ k := by
  cases h.waiters hkey with
  | kept heq hnone =>
    rw [heq] at ha
    refine (hb.inFlight k ha).update hcall fun hc => ?_
    rw [hnone] at hc
    cases hc
  | left caller heq hc hblocked =>
    subst hc
    rw [heq] at ha
    refine absurd (hok k ?_ hblocked) ha
    rw [hcall]
    rfl
  | made tx ctx caller _ _ hn =>
    subst hn
    exact running_self _ rfl
  | taken hnone => exact absurd hnone ha

theorem Attended.used_critical (hb : Attended b) (hkey : c.key = some k)
    (h : Transition c (b.cells k) a n effects b.glob) (ha : a.dialWaiters = some tx) :
    (effects.foldl apply b.glob).chans tx ≠ .unused := by
  have hle := (pool_monotone "").le_effects b.glob effects
  cases h.waiters hkey with
  | kept heq _ | left _ heq _ _ => exact hle.used tx (hb.used k tx (heq ▸ ha))
  | made tx' ctx caller _ hsome _ heffects hunused =>
    rw [hsome] at ha
    cases ha
    subst heffects
    simp [apply, hunused]
  | taken hnone =>
    rw [hnone] at ha
    cases ha

theorem Attended.awaiting_critical (hb : Attended b) (hkey : c.key = some k)
    (h : Transition c (b.cells k) a n effects b.glob) (htx : (b.cells k).dialWaiters = some tx)
    (hopened : (effects.foldl apply b.glob).chans tx = .opened) : a.dialWaiters = some tx := by
  cases h.waiters hkey with
  | kept heq _ | left _ heq _ _ => exact heq.trans htx
  | made _ _ _ hnone =>
    rw [hnone] at htx
    cases htx
  | taken _ hsettles =>
    obtain ⟨w, hw, hwtx⟩ := hsettles tx htx
    have hsettled := settled_effects (hb.used k tx htx) hw hwtx
    rw [hopened] at hsettled
    exact hsettled.elim

end Critical

theorem Attended.move (hb : Attended b) (hok : NoneDeniedTwice b i) (h : Board.Move b i b') :
    Attended b' := by
  have hle := h.le
  have hused (k) (tx) (htx : (b.cells k).dialWaiters = some tx) :
      b'.glob.chans tx ≠ .unused := hle.used tx (hb.used k tx htx)
  cases h with
  | quiet => exact hb
  | env =>
    refine ⟨hb.inFlight, hused, ?_⟩
    rintro t _ hcall k tx caller rfl
    exact hb.awaiting_of_le hle hcall
  | @start t c g hnone henter =>
    refine ⟨fun k hk => (hb.inFlight k hk).start hnone, hused, forall_update_calls ?_ ?_⟩
    · rintro _ ⟨⟩ k tx caller rfl
      cases henter
    · rintro u _ _ hcall k tx caller rfl
      exact hb.awaiting_of_le hle hcall
  | @free t e c n effects hcall hexit =>
    refine ⟨fun k hk => (hb.inFlight k hk).update hcall hexit.dialing, hused,
      forall_update_calls ?_ ?_⟩
    · rintro _ rfl k tx caller rfl
      exact absurd hexit FreeExit.not_awaitDial
    · rintro u _ _ hcall' k tx caller rfl
      exact hb.awaiting_of_le hle hcall'
  | @critical t e c k a n effects hcall hkey htrans =>
    refine ⟨fun k' hk' => ?_, fun k' tx htx => ?_, forall_update_calls ?_ ?_⟩
    · by_cases hk : k' = k
      · subst hk
        simp only [update_self] at hk'
        exact hb.inFlight_critical hok hcall hkey htrans hk'
      · simp only [update_of_ne hk] at hk'
        exact (hb.inFlight k' hk').update hcall fun hc => absurd (key_of_dialing hkey hc) hk
    · by_cases hk : k' = k
      · subst hk
        simp only [update_self] at htx
        exact hb.used_critical hkey htrans htx
      · simp only [update_of_ne hk] at htx
        exact hused k' tx htx
    · rintro _ rfl k' tx caller rfl
      obtain ⟨rfl, htx, hatx, rfl⟩ := htrans.awaits hkey
      refine ⟨hused k' tx htx, fun _ => ?_⟩
      simp only [update_self]
      exact hatx
    · rintro u _ _ hcall' k' tx caller rfl
      obtain ⟨hused', hopened⟩ := hb.awaiting_of_le hle hcall'
      refine ⟨hused', fun htx => ?_⟩
      by_cases hk : k' = k
      · subst hk
        simp only [update_self]
        exact hb.awaiting_critical hkey htrans (hopened htx) htx
      · simp only [update_of_ne hk]
        exact hopened htx

theorem attended_initial (g : Shared) (now : Instant) : Attended (Board.initial g now) := by
  refine ⟨fun k hk => ?_, fun k tx hk => ?_, nofun⟩ <;> rw [Board.cells_initial] at hk
  · exact absurd rfl hk
  · cases hk

end

/-- Nobody waits on a dial that has ended: in every run in which no dial is denied in a slot
that is blocked already and has waiters, a slot has a channel for waiters only while a dial for
it is in flight, and so does every task that waits on an open channel. -/
theorem dial_in_flight {own : EndpointId} {g : Shared} {now : Instant}
    {h : List (PoolEvent × Option Reply)} {s : PoolState}
    (hrun : Run (pool own).step (fun _ s i => NoneDeniedTwice (PoolState.board s) i)
      (Monitor.initial g (newSlot now)) h s) :
    (∀ k, (link (s.slots k)).dialWaiters ≠ none → InFlight (PoolState.board s) k) ∧
      ∀ t k tx caller, (PoolState.board s).calls t = some (.awaitDial k tx caller) →
        s.glob.chans tx = .opened → InFlight (PoolState.board s) k := by
  have hinv : Attended (PoolState.board s) :=
    board_invariant NoneDeniedTwice (attended_initial g now) (fun b i b' => Attended.move) hrun
  refine ⟨fun k hk => hinv.inFlight k ?_, fun t k tx caller hcall => hinv.of_opened hcall⟩
  rwa [← dialWaiters_cell] at hk

namespace Demo

theorem dial_in_flight_awaited :
    let s := pool00 (dialling ++ .env (.membership (members true 1)) :: calling 1 (.get "aa" .get))
    (link (s.slots (.peer "aa"))).dialWaiters = some 3 ∧
      InFlight (PoolState.board s) (.peer "aa") := by
  intro s
  have hwaiters : (link (s.slots (.peer "aa"))).dialWaiters = some 3 := by decide
  refine ⟨hwaiters, (dial_in_flight (run_exec (by decide))).1 (.peer "aa") ?_⟩
  exact ne_of_eq_of_ne hwaiters (Option.some_ne_none 3)

/-- The peer is revoked while it is dialled and a second call finds it blocked; then the dial
succeeds, is denied, and leaves its channel behind. -/
theorem denied_dial_leaves_waiters : ∃ (h : List (PoolEvent × Option Reply)) (s : PoolState),
    Run (pool "00").step (fun _ _ _ => True) (Monitor.initial fresh (newSlot 0)) h s ∧
      (link (s.slots (.peer "aa"))).dialWaiters = some 3 ∧
      ¬ InFlight (PoolState.board s) (.peer "aa") := by
  obtain ⟨h, hrun⟩ := run_pool00 (dialling ++ .env (.membership (members false 1)) ::
    calling 1 (.get "aa" .get) ++ .run 0 (.connect (.connected 9)) :: .replicate 4 (.run 0 .none))
  exact ⟨h, _, hrun, by decide, not_running_pool00 2 rfl (by decide)⟩

end Demo

end Tunnet.Pool

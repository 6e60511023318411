import Tunnet.Pool.Spec.Board

/-!
# Connections of revoked peers

A slot marked `connected` at the current generation is used without asking the gate again, so the
mark has to imply that the gate allows the peer (`Shared.Valid`). `locked_live` and `reconcile`
read the generation first and the permission afterwards, which makes the mark sound. `adopt` and
the end of a dial read the permission first; a revocation between the two reads is stamped as
approved.
-/

namespace Tunnet.Pool

open ConnSlot

/-- The peer whose permission the task has read and whose stamp it has yet to read. -/
def Call.permitted : Call → Option EndpointId
  | .adoptAllowed peer _ => some peer
  | .dialAllowed k _ _ => some k.endpoint
  | _ => none

/-- A membership change revokes no peer that a task is about to stamp. -/
def NoneRevokedUnstamped (b : Board) : PoolEvent → Prop
  | .env (.membership auth) => ∀ t c peer, b.calls t = some c → c.permitted = some peer →
      auth.allowed peer
  | _ => True

/-- The mark of a cell is sound. -/
def StampValid (k : SlotKey) (a : Cell) (g : Shared) : Prop :=
  ∀ gen, a.state = .connected gen → g.Valid k.endpoint gen

/-- What a task knows of the peer it is about to mark as connected. -/
structure Call.Cleared (c : Call) (g : Shared) : Prop where
  permitted : ∀ peer, c.permitted = some peer → g.gateAllows peer
  install : ∀ peer conn gen caller, c = .install peer conn gen caller → g.Valid peer gen

section

variable {a a' : Cell} {c : Call} {k : SlotKey} {n : Option Call} {effects : List Effect}
  {g g' : Shared} {now : Instant} {r : Entered} {gen generation : Nat}

theorem Ready.connected {state state' : PeerConnState} {q : Readiness}
    (h : Ready generation now state q state') (hstate : state' = .connected gen) :
    state = .connected gen := by
  cases h with
  | block | reset _ => cases hstate
  | blocked _ | dial _ _ | backoff _ _ | rejected _ _ => exact hstate

theorem Enter.stampValid (h : Enter k.endpoint now a r a' effects g) (ha : StampValid k a g) :
    StampValid k a' g := by
  intro gen hstate
  cases h with
  | used => exact ha gen hstate
  | restamped hconn hvalid =>
    cases hstate
    exact hvalid
  | revoked | rejected => cases hstate
  | ready => exact ha gen ((ready_readinessOf ..).connected hstate)

theorem Transition.stampValid (h : Transition c a a' n effects g) (hkey : c.key = some k)
    (hc : c.Cleared g) (ha : StampValid k a g) : StampValid k a' g := by
  intro gen hstate
  cases h with
  | settled hentry henter | waits hentry henter | subscribes hentry _ henter =>
    rw [key_of_entry hentry] at hkey
    cases hkey
    exact henter.stampValid ha gen hstate
  | denied hentry henter =>
    rw [key_of_entry hentry] at hkey
    cases hkey
    split_ifs at hstate <;> exact henter.stampValid ha gen hstate
  | absorbed henter | full henter | queued henter =>
    cases hkey
    exact Enter.stampValid (k := .peer _) henter ha gen hstate
  | asks => exact absurd hstate (by unfold askState; split <;> nofun)
  | installed =>
    cases hkey
    cases hstate
    exact hc.install _ _ _ _ rfl
  | installedExtra =>
    cases hkey
    cases hstate
    exact .of_allows le_rfl (hc.permitted _ rfl)
  | adopted hgen =>
    cases hkey
    cases hstate
    exact .of_allows hgen (hc.permitted _ rfl)
  | restored _ hvalid =>
    cases hkey
    cases hstate
    exact hvalid
  | superseded _ | unchanged _ | wakes _ _ | sleepsOn _ => exact ha gen hstate
  | elected | dialDenied | dialDeniedAgain | dialRejectedLocally | dialRejected | backedOff
  | cleared | clearedExtra | blocked | blockedAgain | revoked | closed | idled => cases hstate

theorem FreeExit.cleared (h : FreeExit c n effects g) (hc : c.Cleared g) (c' : Call)
    (hn : n = some c') : c'.Cleared g := by
  cases h with
  | received hnext => rcases hnext with rfl | ⟨_, rfl⟩ | ⟨_, _, rfl⟩ <;> cases hn <;>
    exact ⟨nofun, nofun⟩
  | dialAllowed hallows | adoptAllowed hallows =>
    cases hn
    refine ⟨?_, nofun⟩
    rintro _ ⟨⟩
    exact hallows
  | stamp =>
    cases hn
    refine ⟨nofun, ?_⟩
    rintro _ _ _ _ ⟨⟩
    exact .of_allows le_rfl (hc.permitted _ rfl)
  | background _ hnext =>
    have hback := hnext c' hn
    refine ⟨?_, ?_⟩
    · intro peer hpeer
      unfold Call.permitted at hpeer
      split at hpeer <;> first | exact hback.elim | cases hpeer
    · rintro _ _ _ _ rfl
      exact hback.elim
  | _ => cases hn <;> exact ⟨nofun, nofun⟩

theorem Transition.cleared_next (h : Transition c a a' n effects g) (c' : Call)
    (hn : n = some c') : c'.Cleared g := by
  have hafter (c : Call) (h : c.after = some c') : c'.Cleared g := by
    unfold Call.after at h
    split at h <;> cases h <;> exact ⟨nofun, nofun⟩
  cases h with
  | settled _ _ _ hnext => rcases hnext with rfl | ⟨_, _, rfl⟩ <;> cases hn; exact ⟨nofun, nofun⟩
  | blocked _ _ | blockedAgain _ _ | closed _ _ | unchanged _ => exact hafter _ hn
  | _ => cases hn <;> exact ⟨nofun, nofun⟩

theorem Call.Cleared.of_gate_eq (hc : c.Cleared g) (hle : g ≤ g') (hgate : g'.gate = g.gate) :
    c.Cleared g' := by
  refine ⟨fun peer hpeer => ?_, fun peer conn gen caller hcall => ?_⟩
  · unfold Shared.gateAllows
    rw [hgate]
    exact hc.permitted peer hpeer
  · exact (hc.install peer conn gen caller hcall).mono hle

end

theorem stampValid_move {b b' : Board} {i : PoolEvent} (hb : Local StampValid Call.Cleared b)
    (hok : NoneRevokedUnstamped b i) (h : Board.Move b i b') :
    Local StampValid Call.Cleared b' := by
  refine hb.move h (fun k a ha gen hstate => (ha gen hstate).mono h.le) ?_
    (fun hgate c hc => hc.of_gate_eq h.le hgate) ?_
    (fun c n effects hc hexit => hexit.cleared hc) ?_
  · rintro n rfl henv t c hcall hc
    rcases gate_env henv with hgate | ⟨auth, rfl, hgate⟩
    · exact hc.of_gate_eq h.le hgate
    · refine ⟨fun peer hpeer => ?_, fun peer conn gen caller heq => ?_⟩
      · unfold Shared.gateAllows
        rw [hgate]
        exact hok t c peer hcall hpeer
      · exact (hc.install peer conn gen caller heq).mono h.le
  · rintro c g henter
    unfold enter at henter
    split at henter <;> first | contradiction | exact ⟨nofun, nofun⟩
  · intro c k a n effects hc ha hkey htrans
    exact ⟨htrans.stampValid hkey hc ha, htrans.cleared_next⟩

/-- A revoked peer's connection is not used: in every run in which no peer is revoked between
the read of its permission and that of the generation it is stamped with, a slot that is marked
as connected at the current generation belongs to a peer the gate allows. -/
theorem connected_authorized {own : EndpointId} {g : Shared} {now : Instant}
    {h : List (PoolEvent × Option Reply)} {s : PoolState}
    (hrun : Run (pool own).step (fun _ s i => NoneRevokedUnstamped (PoolState.board s) i)
      (Monitor.initial g (newSlot now)) h s)
    (k : SlotKey) (hstate : (link (s.slots k)).state = .connected s.glob.gateGeneration) :
    s.glob.gateAllows k.endpoint := by
  have hinv : Local StampValid Call.Cleared (PoolState.board s) := by
    refine board_invariant NoneRevokedUnstamped ⟨fun k gen hgen => ?_, nofun⟩
      (fun b i b' => stampValid_move) hrun
    rw [Board.cells_initial] at hgen
    cases hgen
  rw [← state_cell] at hstate
  exact (hinv.cells k _ hstate).allows rfl

namespace Demo

theorem connected_authorized_adopted : let s := pool00 [.start 0 (.adopt "aa" 7), .run 0 .none,
      .env (.membership (members true 1)), .run 0 .none, .run 0 .none, .run 0 .none]
    (link (s.slots (.peer "aa"))).state = .connected s.glob.gateGeneration ∧
      s.glob.gateAllows "aa" := by
  intro s
  have hstate : (link (s.slots (.peer "aa"))).state = .connected s.glob.gateGeneration := by
    decide
  refine ⟨hstate, connected_authorized (run_exec ?_) (.peer "aa") hstate⟩
  exact ⟨trivial, trivial, fun _ _ _ _ _ => rfl, trivial, trivial, trivial, trivial⟩

/-- A peer that is revoked while its connection is accepted is stamped with the generation that
revokes it. -/
theorem adopt_stamps_revoked : ∃ (h : List (PoolEvent × Option Reply)) (s : PoolState),
    Run (pool "00").step (fun _ _ _ => True) (Monitor.initial fresh (newSlot 0)) h s ∧
      (link (s.slots (.peer "aa"))).state = .connected s.glob.gateGeneration ∧
      s.glob.gateAllows "aa" = false := by
  obtain ⟨h, hrun⟩ := run_pool00 [.start 0 (.adopt "aa" 7), .run 0 .none,
    .env (.membership (members false 1)), .run 0 .none, .run 0 .none, .run 0 .none]
  exact ⟨h, _, hrun, by decide⟩

end Demo

end Tunnet.Pool

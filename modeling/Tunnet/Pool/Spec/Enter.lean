import Tunnet.Pool.Spec.Shared

/-!
# Entering a slot

A slot is looked at through its `Cell`: connection, state, waiters and queued packets. `Enter`
says how the common beginning of `get_alpn`, `get_extra` and `send_or_buffer` can turn out,
whatever the gate and the connections do meanwhile (`ends_enterSlot`), and `ends_elect` what comes
of the choice between dialling and waiting for another task's dial.
-/

namespace Tunnet.Pool

open ConnSlot Prog

/-- What the transitions tell of a slot. -/
structure Cell extends Link where
  buffer : List Packet
  bytes : Nat

/-- Slots with a cell. -/
class CellSlot (S : Type) extends ConnSlot S where
  cell : S → Cell
  toLink_cell : ∀ slot, (cell slot).toLink = link slot
  cell_setLink : ∀ slot l, cell (setLink slot l) = { cell slot with toLink := l }
  cell_touchSlot : ∀ slot now, cell (touchSlot slot now) = cell slot
  cell_dropQueued : ∀ slot, cell (dropQueued slot) = { cell slot with buffer := [], bytes := 0 }

export CellSlot (cell)

instance : CellSlot PeerSlot where
  cell slot := ⟨slot.toLink, slot.buffer, slot.bufferBytes⟩
  toLink_cell _ := rfl
  cell_setLink _ _ := rfl
  cell_touchSlot _ _ := rfl
  cell_dropQueued _ := rfl

instance : CellSlot ExtraSlot where
  cell slot := ⟨slot.toLink, [], 0⟩
  toLink_cell _ := rfl
  cell_setLink _ _ := rfl
  cell_touchSlot _ _ := rfl
  cell_dropQueued _ := rfl

instance (k : SlotKey) : CellSlot (SlotOf k) where
  toConnSlot := inferInstance
  cell := match k with
    | .peer _ => fun slot : PeerSlot => cell slot
    | .extra .. => fun slot : ExtraSlot => cell slot
  toLink_cell := by cases k <;> exact fun _ => rfl
  cell_setLink := by cases k <;> exact fun _ _ => rfl
  cell_touchSlot := by cases k <;> exact fun _ _ => rfl
  cell_dropQueued := by cases k <;> exact fun _ => rfl

/-- The cell without its queued packets. -/
def Cell.drop (a : Cell) : Cell := { a with buffer := [], bytes := 0 }

/-- The cell of a peer that is blocked. -/
def Cell.block (a : Cell) (generation : Nat) : Cell :=
  { a with conn := none, state := .blocked generation }

variable {S : Type} {a a' : Cell} {now now' : Instant}

section

variable [CellSlot S] (slot : S)

@[simp]
theorem conn_cell : (cell slot).conn = (link slot).conn := by rw [CellSlot.toLink_cell]

@[simp]
theorem state_cell : (cell slot).state = (link slot).state := by rw [CellSlot.toLink_cell]

@[simp]
theorem dialWaiters_cell : (cell slot).dialWaiters = (link slot).dialWaiters := by
  rw [CellSlot.toLink_cell]

@[simp]
theorem cell_touchSlot (now : Instant) : cell (touchSlot slot now) = cell slot :=
  CellSlot.cell_touchSlot ..

@[simp]
theorem cell_dropQueued : cell (dropQueued slot) = (cell slot).drop := CellSlot.cell_dropQueued ..

@[simp]
theorem cell_setConn (conn : Option ConnId) : cell (setConn slot conn) =
    { cell slot with conn } := by
  unfold setConn
  rw [CellSlot.cell_setLink, ← CellSlot.toLink_cell]

@[simp]
theorem cell_setState (state : PeerConnState) :
    cell (setState slot state) = { cell slot with state } := by
  unfold setState
  rw [CellSlot.cell_setLink, ← CellSlot.toLink_cell]

@[simp]
theorem cell_setWaiters (dialWaiters : Option ChanId) :
    cell (setWaiters slot dialWaiters) = { cell slot with dialWaiters } := by
  unfold setWaiters
  rw [CellSlot.cell_setLink, ← CellSlot.toLink_cell]

@[simp]
theorem cell_markLocalBlocked (generation : Nat) :
    cell (markLocalBlocked slot generation).1 = (cell slot).block generation := by
  unfold markLocalBlocked
  rw [cell_setState, cell_setConn]
  rfl

theorem fresh_markLocalBlocked (generation : Nat) :
    (markLocalBlocked slot generation).2.1 = ((cell slot).state != .blocked generation) := by
  rw [state_cell]
  rfl

theorem effects_markLocalBlocked (generation : Nat) :
    (markLocalBlocked slot generation).2.2 = closing (cell slot).conn := by
  rw [conn_cell]
  rfl

end

/-- The connection of the cell, if there is one, is closed. -/
def Cell.NotLive (a : Cell) (g : Shared) : Prop := ∀ c, a.conn = some c → g.closed c ≠ none

theorem Cell.NotLive.mono {g g' : Shared} (h : a.NotLive g) (hle : g ≤ g') : a.NotLive g' :=
  fun c hc => hle.closed c (h c hc)

/-! ### Entering a slot -/

/-- How the common beginning of `get_alpn`, `get_extra` and `send_or_buffer` turns out. -/
inductive Enter (peer : EndpointId) (now : Instant) (a : Cell) :
    Entered → Cell → List Effect → Shared → Prop
  | used {conn g} : a.conn = some conn → Enter peer now a (.use conn) a [] g
  | restamped {conn gen g} : a.conn = some conn → g.Valid peer gen →
      Enter peer now a (.use conn) { a with state := .connected gen } [] g
  | revoked {conn gen g} :
      a.conn = some conn → Enter peer now a .revoked (a.drop.block gen) [.close conn] g
  | rejected {conn gen first retryAfter g} : a.conn = some conn → Enter peer now a .rejected
        { a with conn := none, state := .rejected gen first retryAfter } [] g
  | ready {g allows} : a.NotLive g →
      Enter peer now a (.ready (readinessOf a.state allows g.gateGeneration now).1)
        { a with
          conn := none
          state := (readinessOf a.state allows g.gateGeneration now).2 } [] g

/-- The slot need not wait for a retry. -/
structure Ripe (state : PeerConnState) (now : Instant) : Prop where
  backoff : ∀ u step, state = .backoff u step → u ≤ now
  rejected : ∀ gen first retryAfter, state = .rejected gen first retryAfter → retryAfter ≤ now

variable {state : PeerConnState}

theorem Ripe.mono (h : Ripe state now) (hle : now ≤ now') : Ripe state now' :=
  ⟨fun u step hs => (h.backoff u step hs).trans hle,
    fun gen first r hs => (h.rejected gen first r hs).trans hle⟩

theorem ripe_idle (now : Instant) : Ripe .idle now := ⟨nofun, nofun⟩

/-- The decisions of `readiness` with the state they leave. -/
inductive Ready (generation : Nat) (now : Instant) (state : PeerConnState) :
    Readiness → PeerConnState → Prop
  | blocked : state = .blocked generation → Ready generation now state (.deny false) state
  | block : Ready generation now state (.deny true) (.blocked generation)
  | reset : (∀ u step, state ≠ .backoff u step) → Ready generation now state .dial .idle
  | dial : Ripe state now → (∀ gen, state ≠ .blocked gen) → Ready generation now state .dial state
  | backoff {u : Instant} {step : Nat} : state = .backoff u step → now < u →
      Ready generation now state .wait state
  | rejected {first retryAfter : Instant} : state = .rejected generation first retryAfter →
      now < retryAfter → Ready generation now state .wait state

theorem ready_readinessOf (state : PeerConnState) (allows : Bool) (generation : Nat)
    (now : Instant) : Ready generation now state (readinessOf state allows generation now).1
      (readinessOf state allows generation now).2 := by
  cases allows with
  | false =>
    simp only [readinessOf, Bool.not_false, if_true]
    split_ifs with hblocked
    · exact .blocked hblocked
    · exact .block
  | true =>
    cases state with
    | blocked => exact .reset nofun
    | rejected =>
      simp only [readinessOf, Bool.not_true, Bool.false_eq_true, if_false]
      split_ifs with hgen hretry
      · exact .reset nofun
      · refine .dial ⟨nofun, ?_⟩ nofun
        rintro _ _ _ ⟨⟩
        exact hretry
      · obtain rfl := not_not.1 hgen
        exact .rejected rfl (not_le.1 hretry)
    | backoff =>
      simp only [readinessOf, Bool.not_true, Bool.false_eq_true, if_false]
      split_ifs with hwait
      · exact .backoff rfl hwait
      · refine .dial ⟨?_, nofun⟩ nofun
        rintro _ _ ⟨⟩
        exact not_lt.1 hwait
    | connected | dialing | idle => exact .dial ⟨nofun, nofun⟩ nofun

/-- What is known of a slot that needs a connection. -/
structure EnterReady (now : Instant) (a : Cell) (q : Readiness) (a' : Cell) (g : Shared) :
    Prop where
  conn : a'.conn = none
  buffer : a'.buffer = a.buffer
  ready : Ready g.gateGeneration now a.state q a'.state

theorem Enter.enterReady {peer : EndpointId} {q : Readiness}
    {effects : List Effect} {g : Shared} (h : Enter peer now a (.ready q) a' effects g) :
    EnterReady now a q a' g := by
  generalize hr : Entered.ready q = r at h
  cases h with
  | used | restamped | revoked | rejected => cases hr
  | ready =>
    cases hr
    exact ⟨rfl, rfl, ready_readinessOf ..⟩

section

variable [CellSlot S] {slot : S} {peer : EndpointId} {g : Shared}

theorem ends_lockedLive {post : LiveUse × S × List Effect → Shared → Prop}
    (hused : ∀ g' conn n, g ≤ g' → (link slot).conn = some conn →
      post (.use conn, touchSlot slot n, []) g')
    (hrestamped : ∀ g' conn gen n, g ≤ g' → (link slot).conn = some conn → g'.Valid peer gen →
      post (.use conn, touchSlot (setState slot (.connected gen)) n, []) g')
    (hrevoked : ∀ g' conn gen slot', g ≤ g' → (link slot).conn = some conn →
      cell slot' = (cell slot).drop.block gen → post (.revoked, slot', [.close conn]) g')
    (habsent : ∀ g', g ≤ g' → (cell slot).NotLive g' → post (.absent, slot, []) g') :
    (lockedLive slot peer).Ends serve post g := by
  unfold lockedLive
  rw [ends_bind_iff]
  refine ends_liveConn (fun g₁ conn h₁ hconn _ => ?_) fun g₁ h₁ hdead => ?_
  · rw [ends_gateGeneration]
    intro g₂ h₂
    split_ifs
    · exact ends_instantNow.2 fun g₃ h₃ => hused g₃ conn _ (h₁.trans (h₂.trans h₃)) hconn
    · rw [ends_gateAllows]
      intro g₃ h₃
      split_ifs with hallows
      · rw [ends_instantNow]
        intro g₄ h₄
        refine hrestamped g₄ conn _ _ (h₁.trans (h₂.trans (h₃.trans h₄))) hconn ?_
        exact (Shared.Valid.of_allows h₃.generation hallows).mono h₄
      · have heffects : closing (link slot).conn ++
            (markLocalBlocked (dropQueued (setConn slot none)) g₂.gateGeneration).2.2 =
              [.close conn] := by
          simp [markLocalBlocked, closing, hconn, setConn]
        dsimp only
        rw [heffects]
        refine hrevoked g₃ conn g₂.gateGeneration _ (h₁.trans (h₂.trans h₃)) hconn ?_
        rw [cell_markLocalBlocked, cell_dropQueued, cell_setConn]
        rfl
  · refine habsent g₁ h₁ fun c hc => hdead c ?_
    rw [← conn_cell, hc]

theorem ends_noteDeadConn {dead : ConnId} {post : Bool × PeerConnState → Shared → Prop}
    (hfail : ∀ g' gen first retryAfter, g ≤ g' → post (true, .rejected gen first retryAfter) g')
    (hgoOn : ∀ g', g ≤ g' → post (false, state) g') :
    (noteDeadConn state dead).Ends serve post g := by
  have hother (g₁) (gen) (h₁ : g ≤ g₁) :
      (noteDeadConn.other state dead gen).Ends serve post g₁ := by
    unfold noteDeadConn.other
    rw [ends_closeReason]
    intro g₂ h₂
    split
    · exact hgoOn g₂ (h₁.trans h₂)
    · split_ifs
      · rw [ends_instantNow]
        intro g₃ h₃
        exact ends_random fun g₄ n h₄ => hfail g₄ _ _ _ (h₁.trans (h₂.trans (h₃.trans h₄)))
      · exact hgoOn g₂ (h₁.trans h₂)
  unfold noteDeadConn
  rw [ends_gateGeneration]
  intro g₁ h₁
  split
  · split_ifs
    · exact hfail g₁ _ _ _ h₁
    · exact hother g₁ _ h₁
  · exact hother g₁ _ h₁

variable {post : Entered × S × List Effect → Shared → Prop}

theorem ends_ready (hcell : cell slot = { a with conn := none }) (hdead : a.NotLive g)
    (h : ∀ g' r slot' effects, g ≤ g' → Enter peer now a r (cell slot') effects g' →
      post (r, slot', effects) g') : (enterSlot.ready peer now slot).Ends serve post g := by
  unfold enterSlot.ready readiness
  rw [ends_bind_iff, ends_gateAllows]
  intro g₁ h₁
  rw [ends_gateGeneration]
  intro g₂ h₂
  have hle := h₁.trans h₂
  have hstate : (link slot).state = a.state := by rw [← state_cell, hcell]
  refine h g₂ _ _ _ hle ?_
  rw [cell_setState, hcell, hstate]
  exact .ready (hdead.mono hle)

/-- The beginning of `get_alpn`, `get_extra` and `send_or_buffer` ends as `Enter` says. -/
theorem ends_enterSlot
    (h : ∀ g' r slot' effects, g ≤ g' → Enter peer now (cell slot) r (cell slot') effects g' →
      post (r, slot', effects) g') : (enterSlot slot peer now).Ends serve post g := by
  unfold enterSlot
  rw [ends_bind_iff]
  refine ends_lockedLive ?_ ?_ ?_ ?_
  · intro g₁ conn n h₁ hconn
    refine h g₁ _ _ _ h₁ ?_
    rw [cell_touchSlot]
    exact .used ((conn_cell slot).trans hconn)
  · intro g₁ conn gen n h₁ hconn hvalid
    refine h g₁ _ _ _ h₁ ?_
    rw [cell_touchSlot, cell_setState]
    exact .restamped ((conn_cell slot).trans hconn) hvalid
  · intro g₁ conn gen slot' h₁ hconn hcell
    refine h g₁ _ _ _ h₁ ?_
    rw [hcell]
    exact .revoked ((conn_cell slot).trans hconn)
  · intro g₁ h₁ hdead
    dsimp only
    cases hconn : (link slot).conn with
    | none =>
      refine ends_ready ?_ hdead fun g₂ r slot' effects h₂ => h g₂ r slot' effects (h₁.trans h₂)
      rw [← conn_cell] at hconn
      rw [← hconn]
    | some dead =>
      have hconn' : (cell slot).conn = some dead := (conn_cell slot).trans hconn
      have hstate : (link (setConn slot none)).state = (cell slot).state := by
        rw [← state_cell, cell_setConn]
      rw [ends_bind_iff]
      refine ends_noteDeadConn (fun g₂ gen first retryAfter h₂ => ?_) fun g₂ h₂ => ?_
      · refine h g₂ _ _ _ (h₁.trans h₂) ?_
        rw [cell_setState, cell_setConn]
        exact .rejected hconn'
      · refine ends_ready ?_ (hdead.mono h₂) fun g₃ r slot' effects h₃ =>
          h g₃ r slot' effects (h₁.trans (h₂.trans h₃))
        rw [cell_setState, cell_setConn, hstate]

theorem ends_elect {post : Elected × S × List Effect → Shared → Prop}
    (hwaiter : ∀ tx, (cell slot).dialWaiters = some tx → post (.waiter tx, slot, []) g)
    (hdialer : ∀ g' tx ctx slot', g ≤ g' → (cell slot).dialWaiters = none →
      g'.chans tx = .unused →
      cell slot' = { cell slot with dialWaiters := some tx, state := .dialing } →
      post (.dialer ctx, slot', [.openChannel tx]) g') :
    (elect slot).Ends serve post g := by
  unfold elect
  cases hwaiters : (link slot).dialWaiters with
  | some tx => exact hwaiter tx ((dialWaiters_cell slot).trans hwaiters)
  | none =>
    refine ends_channel fun g' tx hle hunused => ?_
    refine hdialer g' tx _ _ hle ((dialWaiters_cell slot).trans hwaiters) hunused ?_
    rw [cell_setState, cell_setWaiters]

end

end Tunnet.Pool

import Tunnet.Pool.Spec.Enter

/-!
# The state machine of a slot

What every critical section of the pool can do to the cell of its slot, with the exit it takes, and
how every piece outside the locks can end.

* `Transition`, `FreeExit`: all transitions.
* `poolSummary`: the code of the pool makes no others.
-/

namespace Tunnet.Pool

open Prog

/-! ### The relations -/

/-- The slot and the clock reading of a call that enters a slot. -/
def Call.entry : Call → Option (SlotKey × Instant)
  | .getLocked peer now _ => some (.peer peer, now)
  | .getExtraLocked peer alpn incarnation now => some (.extra peer alpn incarnation, now)
  | .sendLocked peer _ now => some (.peer peer, now)
  | _ => none

/-- The slot in whose critical section a call is. -/
def Call.key : Call → Option SlotKey
  | .getLocked peer _ _ | .install peer _ _ _ | .sendLocked peer _ _ | .adoptAllowed peer _
  | .reconcilePeers _ (peer :: _) | .revokeLocked peer _ | .closePeers (peer :: _)
  | .sweepLocked _ peer _ | .touchPeer peer | .setPeerKeepAlive peer _ | .wakeup peer _ =>
    some (.peer peer)
  | .getExtraLocked peer alpn incarnation _
  | .reconcileExtra _ ((peer, alpn, incarnation) :: _) |
    .closeExtra ((peer, alpn, incarnation) :: _) =>
    some (.extra peer alpn incarnation)
  | .dialDenied k _ | .dialAllowed k _ _ | .dialFailed k _ _ _ _ => some k
  | _ => none

theorem key_of_entry {c : Call} {k : SlotKey} {now : Instant} (h : c.entry = some (k, now)) :
    c.key = some k := by
  unfold Call.entry at h
  split at h <;> cases h <;> rfl

/-- Who gets the result of a call that may dial. -/
def Call.caller : Call → Option Caller
  | .getLocked _ _ caller => some caller
  | .getExtraLocked .. => some .get
  | _ => none

/-- The slot for which a dial is in flight: from the election of the dialer to the end of the
critical section in which its outcome is recorded. -/
def Call.dialing : Call → Option SlotKey
  | .dial k _ _ | .dialDenied k _ | .dialAllowed k _ _ | .dialFailed k _ _ _ _ => some k
  | .install peer _ _ _ => some (.peer peer)
  | _ => none

/-- Critical sections that may leave their slot as it is. -/
def Call.Steady : Call → Prop
  | .adoptAllowed .. | .reconcilePeers .. | .reconcileExtra .. | .sweepLocked .. | .touchPeer _
  | .setPeerKeepAlive .. => True
  | _ => False

/-- Where a call that visits one slot after the other goes on. -/
def Call.after : Call → Option Call
  | .reconcilePeers gen (_ :: peers) => some (.reconcilePeers gen peers)
  | .reconcileExtra gen (_ :: slots) => some (.reconcileExtra gen slots)
  | .closePeers (_ :: peers) => some (.closePeers peers)
  | .closeExtra (_ :: slots) => some (.closeExtra slots)
  | .sweepLocked timeout _ peers => some (.sweepPeers timeout peers)
  | _ => none

/-- Pieces on which nothing depends. -/
def Call.Background : Call → Prop
  | .reconcileExtra _ [] | .closeAll | .closePeers _ | .closeExtra _ | .sweep | .sweepPeers ..
  | .sweepLocked .. => True
  | _ => False

/-- The cell with one more packet. -/
def Cell.push (a : Cell) (packet : Packet) : Cell :=
  { a with buffer := a.buffer ++ [packet], bytes := a.bytes + packet.length }

/-- There is room for the packet. -/
def Cell.Room (a : Cell) (packet : Packet) : Prop :=
  a.buffer.length < MAX_BUFFER_PACKETS ∧ a.bytes + packet.length ≤ MAX_BUFFER_BYTES

/-- Only the slots with a buffer get a wakeup. -/
def arming (k : SlotKey) (until' : Instant) : List Effect :=
  match k with
  | .peer peer => [.arm peer until']
  | .extra .. => []

/-- What a critical section can do to the cell of its slot, with the next piece of the task and the
effects, when it ends in a given shared state. -/
inductive Transition : Call → Cell → Cell → Option Call → List Effect → Shared → Prop
  -- Entering a slot, and what becomes of it.
  | settled {k now a r b effects g n c} :
      c.entry = some (k, now) → Enter k.endpoint now a r b effects g → (∀ q, r ≠ .ready q) →
      (n = none ∨ ∃ conn packet, n = some (.sendDatagram conn packet)) →
      Transition c a b n effects g
  | denied {k now a shed b effects g c} :
      c.entry = some (k, now) → Enter k.endpoint now a (.ready (.deny shed)) b effects g →
      Transition c a (if shed then b.drop else b) none effects g
  | waits {k now a b effects g c} : c.entry = some (k, now) →
      Enter k.endpoint now a (.ready .wait) b effects g → Transition c a b none effects g
  | absorbed {peer now a b effects g packet} :
      Enter peer now a (.ready .wait) b effects g → b.Room packet →
      Transition (.sendLocked peer packet now) a (b.push packet) none effects g
  | full {peer now a b effects g packet} : Enter peer now a (.ready .dial) b effects g →
      Transition (.sendLocked peer packet now) a b none effects g
  | queued {peer now a b effects g packet} :
      Enter peer now a (.ready .dial) b effects g → b.Room packet → b.dialWaiters ≠ none →
      Transition (.sendLocked peer packet now) a (b.push packet) none effects g
  | asks {peer now a b effects g packet} :
      Enter peer now a (.ready .dial) b effects g → b.Room packet → b.dialWaiters = none →
      Transition (.sendLocked peer packet now) a { b.push packet with state := askState b.state }
        (some (.get peer .send)) effects g
  | subscribes {k now caller a b effects g tx c} : c.entry = some (k, now) →
      c.caller = some caller → Enter k.endpoint now a (.ready .dial) b effects g →
      b.dialWaiters = some tx → Transition c a b (some (.awaitDial k tx caller)) [] g
  | elected {k now caller a b effects g₁ g tx c ctx} :
      c.entry = some (k, now) → c.caller = some caller →
      Enter k.endpoint now a (.ready .dial) b effects g₁ → g₁ ≤ g → b.dialWaiters = none →
      g.chans tx = .unused → Transition c a { b with dialWaiters := some tx, state := .dialing }
        (some (.dial k ctx caller)) [.openChannel tx] g
  -- The end of a dial.
  | dialDenied {k caller a g} :
      a.state ≠ .blocked g.gateGeneration → Transition (.dialDenied k caller) a
        { a.drop.block g.gateGeneration with dialWaiters := none } none
        (closing a.conn ++ dropping a.dialWaiters) g
  | dialDeniedAgain {k caller a g} : a.state = .blocked g.gateGeneration →
      Transition (.dialDenied k caller) a (a.drop.block g.gateGeneration) none (closing a.conn) g
  | dialRejectedLocally {k ctx err caller a gen g} {failure : DialFailure} :
      Transition (.dialFailed k ctx failure err caller) a
        { a.drop.block gen with dialWaiters := none } none
        (closing a.conn ++ sending a.dialWaiters (.error err)) g
  | dialRejected {k ctx err caller a gen first retryAfter g} {failure : DialFailure} :
      Transition (.dialFailed k ctx failure err caller) a
        { a.drop with state := .rejected gen first retryAfter, dialWaiters := none } none
        (sending a.dialWaiters (.error err)) g
  | backedOff {k ctx err caller a until' step g} {failure : DialFailure} :
      Transition (.dialFailed k ctx failure err caller) a
        { a.drop with state := .backoff until' step, dialWaiters := none } none
        (sending a.dialWaiters (.error err) ++ arming k until') g
  | installed {peer conn gen caller a closed g} : Transition (.install peer conn gen caller) a
        { a.drop with conn := some conn, state := .connected gen, dialWaiters := none }
        (some (.flush conn a.buffer caller))
        (closing closed ++ sending a.dialWaiters (.ok conn)) g
  | superseded {existing peer conn gen caller a g} : a.conn = some existing →
      Transition (.install peer conn gen caller) a { a.drop with dialWaiters := none }
        (some (.flush existing a.buffer caller))
        (sending a.dialWaiters (.ok existing) ++ [.close conn]) g
  | installedExtra {peer alpn incarnation conn caller a g} :
      Transition (.dialAllowed (.extra peer alpn incarnation) conn caller) a
        { a with
          conn := some conn
          state := .connected g.gateGeneration
          dialWaiters := none } none (sending a.dialWaiters (.ok conn)) g
  -- Accepted connections.
  | adopted {gen peer conn a closed g} :
      gen ≤ g.gateGeneration → Transition (.adoptAllowed peer conn) a
        { a with conn := some conn, state := .connected gen } none (closing closed) g
  -- Membership changes.
  | cleared {gen peer peers a g} : (∀ u step, a.state ≠ .backoff u step) → a.NotLive g →
      Transition (.reconcilePeers gen (peer :: peers)) a { a with state := .idle }
        (some (.reconcilePeers gen peers)) [] g
  | restored {conn gen peer peers a g} : a.conn = some conn → g.Valid peer gen →
      Transition (.reconcilePeers gen (peer :: peers)) a { a with state := .connected gen }
        (some (.reconcilePeers gen peers)) [] g
  | clearedExtra {gen peer alpn incarnation slots a g} :
      Transition (.reconcileExtra gen ((peer, alpn, incarnation) :: slots)) a
        { a with state := .idle } (some (.reconcileExtra gen slots)) [] g
  | blocked {c a gen g} : c.Steady → c.after ≠ none →
      Transition c a { a.drop.block gen with dialWaiters := none } c.after
        (closing a.conn ++ dropping a.dialWaiters) g
  | blockedAgain {c a gen g} : c.Steady → c.after ≠ none →
      Transition c a (a.drop.block gen) c.after (closing a.conn) g
  | revoked {peer gen a g} :
      Transition (.revokeLocked peer gen) a { a.drop.block gen with dialWaiters := none } none
        (closing a.conn ++ dropping a.dialWaiters ++ [.forgetExtra peer]) g
  -- Housekeeping.
  | closed {c a g} : c.Background → c.after ≠ none →
      Transition c a { a.drop with conn := none, state := .idle } c.after (closing a.conn) g
  | idled {timeout peer peers a g gen} : a.state = .connected gen →
      Transition (.sweepLocked timeout peer peers) a { a with conn := none, state := .idle }
        (some (.sweepPeers timeout peers)) (closing a.conn) g
  | unchanged {c a g} : c.Steady → Transition c a a c.after [] g
  | wakes {peer until' a g step} : a.state = .backoff until' step → a.buffer ≠ [] →
      Transition (.wakeup peer until') a a (some (.get peer .wakeup)) [] g
  | sleepsOn {peer until' a g} : ((∃ step, a.state = .backoff until' step) → a.buffer = []) →
      Transition (.wakeup peer until') a a none [] g

/-- How a piece outside the locks can end. -/
inductive FreeExit : Call → Option Call → List Effect → Shared → Prop
  | get {peer caller g} :
      FreeExit (.get peer caller) (some (.getLocked peer g.now caller)) [.know (.peer peer)] g
  | getExtra {peer alpn incarnation g} :
      FreeExit (.getExtra peer alpn) (some (.getExtraLocked peer alpn incarnation g.now))
        [.know (.extra peer alpn incarnation)] g
  | received {n k tx caller g} : (n = none ∨ (∃ peer, n = some (.get peer caller)) ∨
        ∃ peer alpn, n = some (.getExtra peer alpn)) → FreeExit (.awaitDial k tx caller) n [] g
  | dialAllowed {k ctx caller conn g} : g.gateAllows k.endpoint →
      FreeExit (.dial k ctx caller) (some (.dialAllowed k conn caller)) [] g
  | dialDenied {k ctx caller conn g} :
      FreeExit (.dial k ctx caller) (some (.dialDenied k caller)) [.close conn] g
  | dialFailed {k ctx caller err g} {failure : DialFailure} :
      FreeExit (.dial k ctx caller) (some (.dialFailed k ctx failure err caller)) [] g
  | stamp {peer conn caller g} : FreeExit (.dialAllowed (.peer peer) conn caller)
        (some (.install peer conn g.gateGeneration caller)) [] g
  | flushed {conn packets caller g} : FreeExit (.flush conn packets caller) none [] g
  | send {peer packet g} :
      FreeExit (.send peer packet) (some (.sendLocked peer packet g.now)) [.know (.peer peer)] g
  | sent {conn packet g} : FreeExit (.sendDatagram conn packet) none [] g
  | adoptAllowed {peer conn g} : g.gateAllows peer →
      FreeExit (.adopt peer conn) (some (.adoptAllowed peer conn)) [.know (.peer peer)] g
  | adoptDenied {peer conn g} : FreeExit (.adopt peer conn) none [.close conn] g
  | reconcile {gen peers g} :
      gen ≤ g.gateGeneration → FreeExit .reconcile (some (.reconcilePeers gen peers)) [] g
  | reconcileExtra {gen slots g} :
      FreeExit (.reconcilePeers gen []) (some (.reconcileExtra gen slots)) [] g
  | revoke {peer gen g} : FreeExit (.revokePeer peer) (some (.revokeLocked peer gen)) [] g
  | revokeUnknown {peer g} : FreeExit (.revokePeer peer) none [.forgetExtra peer] g
  | background {n c g} : c.Background → (∀ c', n = some c' → c'.Background) → FreeExit c n [] g

/-! ### The code makes no other transitions -/

variable {k : SlotKey} {p : SlotOf k → Code (SlotOf k × PoolExit)} {incarnation : Nat}
  {own : EndpointId} {c : Call} {alpn : Alpn} {peers : List EndpointId} {ctx : DialContext}
  {packet : Packet}

/-- The critical section ends with a transition of the call. -/
def Makes (c : Call) {S : Type} [CellSlot S] (slot : S) (r : S × PoolExit) (g : Shared) : Prop :=
  Transition c (cell slot) (cell r.1) r.2.piece r.2.effects g

theorem pushBuf_eq_some {slot slot' : PeerSlot} (h : slot.pushBuf packet = some slot') :
    (cell slot).Room packet ∧ cell slot' = (cell slot).push packet := by
  unfold PeerSlot.pushBuf at h
  split_ifs at h
  cases h
  refine ⟨?_, rfl⟩
  unfold Cell.Room
  dsimp only [cell]
  omega

section

variable {g : Shared} {peer : EndpointId} {caller : Caller} {now until' : Instant} {conn : ConnId}
  {gen timeout : Nat}

variable (slot : PeerSlot)

theorem makes_getLocked : (getLocked peer now caller slot).Ends serve
    (Makes (.getLocked peer now caller) slot) g := by
  have hentry : (Call.getLocked peer now caller).entry = some (.peer peer, now) := rfl
  unfold getLocked
  rw [ends_bind_iff]
  refine ends_enterSlot fun g₁ r slot' effects h₁ henter => ?_
  match r with
  | .use _ | .revoked | .rejected => exact .settled hentry henter nofun (.inl rfl)
  | .ready (.deny true) | .ready (.deny false) => exact .denied hentry henter
  | .ready .wait => exact .waits hentry henter
  | .ready .dial =>
    rw [ends_bind_iff]
    refine ends_elect (fun tx htx => ?_) fun g₂ tx ctx slot'' h₂ hnone hunused hcell => ?_
    · exact .subscribes hentry rfl henter htx
    · simp only [pure_eq, ends_ret, Makes, hcell]
      exact .elected hentry rfl henter h₂ hnone hunused

theorem makes_getExtraLocked (slot : ExtraSlot) :
    (getExtraLocked peer alpn incarnation now slot).Ends serve
      (Makes (.getExtraLocked peer alpn incarnation now) slot) g := by
  have hentry : (Call.getExtraLocked peer alpn incarnation now).entry =
      some (.extra peer alpn incarnation, now) := rfl
  unfold getExtraLocked
  rw [ends_bind_iff]
  refine ends_enterSlot fun g₁ r slot' effects h₁ henter => ?_
  match r with
  | .use _ | .revoked | .rejected => exact .settled hentry henter nofun (.inl rfl)
  | .ready (.deny true) | .ready (.deny false) => exact .denied hentry henter
  | .ready .wait => exact .waits hentry henter
  | .ready .dial =>
    rw [ends_bind_iff]
    refine ends_elect (fun tx htx => ?_) fun g₂ tx ctx slot'' h₂ hnone hunused hcell => ?_
    · exact .subscribes hentry rfl henter htx
    · simp only [pure_eq, ends_ret, Makes, hcell]
      exact .elected hentry rfl henter h₂ hnone hunused

theorem makes_sendLocked :
    (sendLocked peer packet now slot).Ends serve (Makes (.sendLocked peer packet now) slot) g := by
  have hentry : (Call.sendLocked peer packet now).entry = some (.peer peer, now) := rfl
  unfold sendLocked
  rw [ends_bind_iff]
  refine ends_enterSlot fun g₁ r slot' effects h₁ henter => ?_
  match r with
  | .use c => exact .settled hentry henter nofun (.inr ⟨c, packet, rfl⟩)
  | .revoked | .rejected => exact .settled hentry henter nofun (.inl rfl)
  | .ready (.deny true) | .ready (.deny false) => exact .denied hentry henter
  | .ready .wait =>
    cases hpush : slot'.pushBuf packet with
    | none =>
      simp only [hpush]
      exact .waits hentry henter
    | some =>
      obtain ⟨hroom, hcell⟩ := pushBuf_eq_some hpush
      simp only [hpush, pure_eq, ends_ret, Makes, hcell]
      exact .absorbed henter hroom
  | .ready .dial =>
    cases hpush : slot'.pushBuf packet with
    | none =>
      simp only [hpush]
      exact .full henter
    | some slot'' =>
      obtain ⟨hroom, hcell⟩ := pushBuf_eq_some hpush
      have hwaiters : slot''.dialWaiters = (cell slot').dialWaiters := by
        change (cell slot'').dialWaiters = _
        rw [hcell]
        rfl
      simp only [hpush]
      split_ifs with hsome
      · rw [pure_eq, ends_ret, Makes, hcell]
        refine .queued henter hroom fun hnone => ?_
        rw [hwaiters, hnone] at hsome
        cases hsome
      · have hnone : (cell slot').dialWaiters = none := by
          rw [← hwaiters]
          exact Option.not_isSome_iff_eq_none.1 hsome
        have hstate : slot''.state = (cell slot').state := by
          change (cell slot'').state = _
          rw [hcell]
          rfl
        have hcell' : cell ({ slot'' with state := askState slot''.state } : PeerSlot) =
            { (cell slot').push packet with state := askState (cell slot').state } := by
          rw [← hcell, ← hstate]
          rfl
        rw [pure_eq, ends_ret, Makes, hcell']
        exact .asks henter hroom hnone

theorem makes_dialDenied {S : Type} [CellSlot S] (slot : S) :
    (dialDenied k caller slot).Ends serve (Makes (.dialDenied k caller) slot) g := by
  unfold dialDenied
  rw [ends_gateGeneration]
  intro g₁ h₁
  dsimp only
  rw [fresh_markLocalBlocked, effects_markLocalBlocked, ← dialWaiters_cell, cell_dropQueued]
  split_ifs with hfresh
  · rw [pure_eq, ends_ret, Makes, cell_setWaiters, cell_markLocalBlocked, cell_dropQueued]
    exact .dialDenied (bne_iff_ne.1 hfresh)
  · rw [pure_eq, ends_ret, Makes, cell_markLocalBlocked, cell_dropQueued]
    rw [bne_iff_ne, not_ne_iff] at hfresh
    exact .dialDeniedAgain hfresh

theorem makes_dialFailed {S : Type} [CellSlot S] {failure : DialFailure} {err : String} (slot : S) :
    (dialFailed k ctx failure err caller slot).Ends serve
      (Makes (.dialFailed k ctx failure err caller) slot) g := by
  unfold dialFailed
  cases failure with
  | localDenied =>
    unfold markLocalDenied
    rw [ends_bind_iff, ends_gateGeneration]
    intro g₁ h₁
    dsimp only
    rw [effects_markLocalBlocked, ← dialWaiters_cell, pure_eq, ends_ret, pure_eq,
      ends_ret, Makes, cell_setWaiters, cell_markLocalBlocked, cell_dropQueued]
    exact .dialRejectedLocally
  | remoteRejected =>
    unfold markRemoteRejected
    rw [ends_bind_iff, ends_instantNow]
    intro g₁ h₁
    rw [ends_gateGeneration]
    intro g₂ h₂
    rw [ends_bind_iff]
    refine ends_random fun g₃ n h₃ => ?_
    rw [← dialWaiters_cell, pure_eq, ends_ret]
    dsimp only
    rw [pure_eq, ends_ret, Makes, cell_setState, cell_setWaiters, cell_dropQueued]
    exact .dialRejected
  | transient =>
    unfold markBackoff
    rw [ends_bind_iff, ends_bind_iff]
    refine ends_random fun g₁ n h₁ => ?_
    rw [ends_instantNow]
    intro g₂ h₂
    rw [← dialWaiters_cell, pure_eq, ends_ret]
    have hmake (until') (step) : Transition
        (.dialFailed k ctx .transient err caller) (cell slot)
        { (cell slot).drop with state := .backoff until' step, dialWaiters := none } none
        (sending (cell slot).dialWaiters (.error err) ++ arming k until') g₂ := .backedOff
    cases k with
    | peer =>
      dsimp only
      rw [pure_eq, ends_ret, Makes, cell_setState, cell_setWaiters, cell_dropQueued]
      exact hmake _ _
    | extra =>
      dsimp only
      rw [pure_eq, ends_ret, Makes, cell_setState, cell_setWaiters, cell_dropQueued]
      simp only [arming, List.append_nil] at hmake
      exact hmake _ _

theorem makes_install : (install own peer conn gen caller slot).Ends serve
    (Makes (.install peer conn gen caller) slot) g := by
  have hinstalled (closed) (n) (g) :
      Makes (.install peer conn gen caller) slot
        (installed slot conn gen n, goOn (.flush conn slot.buffer caller)
          (closing closed ++ sending slot.dialWaiters (.ok conn))) g := .installed
  unfold install
  rw [ends_bind_iff]
  refine ends_liveConn (fun g₁ existing h₁ hconn _ => ?_) fun g₁ h₁ _ => ?_
  · split_ifs
    · exact ends_instantNow.2 fun g₂ h₂ => hinstalled slot.conn _ g₂
    · exact .superseded hconn
  · exact ends_instantNow.2 fun g₂ h₂ => hinstalled none _ g₂

theorem makes_installExtra (slot : ExtraSlot) : (installExtra conn caller slot).Ends serve
      (Makes (.dialAllowed (.extra peer alpn incarnation) conn caller) slot) g := by
  exact ends_gateGeneration.2 fun g₁ h₁ => .installedExtra

theorem makes_adoptLocked : (adoptLocked own peer conn slot).Ends serve
    (Makes (.adoptAllowed peer conn) slot) g := by
  have hadopting (closed) (g) :
      (adoptLocked.adopting conn slot (closing closed)).Ends serve
        (Makes (.adoptAllowed peer conn) slot) g := by
    unfold adoptLocked.adopting
    rw [ends_gateGeneration]
    intro g₁ h₁
    exact ends_instantNow.2 fun g₂ h₂ => .adopted h₂.generation
  unfold adoptLocked
  rw [ends_bind_iff]
  refine ends_liveConn (fun g₁ existing h₁ hconn _ => ?_) fun g₁ h₁ _ => hadopting none g₁
  dsimp only
  split_ifs
  · exact ends_instantNow.2 fun g₂ h₂ => .unchanged trivial
  · exact hadopting slot.conn g₁
  · exact .unchanged trivial

theorem makes_reconcilePeer (hgen : gen ≤ g.gateGeneration) :
    (reconcilePeer peer gen (.reconcilePeers gen peers) slot).Ends serve
      (Makes (.reconcilePeers gen (peer :: peers)) slot) g := by
  have hclears (next : Option ConnId → PeerConnState) (hsome : ∀ c, next (some c) = .connected gen)
      (hnone : next none = .idle) (hstate : ∀ u step, slot.state ≠ .backoff u step) (g₁)
      (hvalid : g₁.Valid peer gen) :
      (liveConn slot.conn >>= fun live => (pure ({ slot with state := next live },
        goOn (.reconcilePeers gen peers) []) : Code (PeerSlot × PoolExit))).Ends serve
          (Makes (.reconcilePeers gen (peer :: peers)) slot) g₁ := by
    rw [ends_bind_iff]
    refine ends_liveConn (fun g₂ c h₂ hconn _ => ?_) fun g₂ h₂ hdead => ?_
    · rw [hsome]
      exact .restored hconn (hvalid.mono h₂)
    · rw [hnone]
      exact .cleared hstate hdead
  unfold reconcilePeer
  rw [ends_gateAllows]
  intro g₁ h₁
  split_ifs with hallows
  · have hvalid := Shared.Valid.of_allows (hgen.trans h₁.generation) hallows
    cases hstate : slot.state with
    | blocked | rejected => exact hclears _ (fun _ => rfl) rfl (by simp [hstate]) g₁ hvalid
    | _ => exact .unchanged trivial
  · dsimp only
    split_ifs
    · exact .blocked trivial (Option.some_ne_none _)
    · exact .blockedAgain trivial (Option.some_ne_none _)

theorem makes_reconcileExtraSlot {slots : List (EndpointId × Alpn × Nat)} (slot : ExtraSlot) :
    (reconcileExtraSlot peer gen (.reconcileExtra gen slots) slot).Ends serve
      (Makes (.reconcileExtra gen ((peer, alpn, incarnation) :: slots)) slot) g := by
  unfold reconcileExtraSlot
  rw [ends_gateAllows]
  intro g₁ h₁
  split_ifs
  · cases slot.state with
    | blocked | rejected => exact .clearedExtra
    | _ => exact .unchanged trivial
  · dsimp only
    split_ifs
    · exact .blocked trivial nofun
    · exact .blockedAgain trivial nofun

theorem makes_sweepLocked : (sweepLocked timeout (.sweepPeers timeout peers) slot).Ends serve
      (Makes (.sweepLocked timeout peer peers) slot) g := by
  unfold sweepLocked
  split_ifs
  · exact .unchanged trivial
  · cases hstate : slot.state with
    | connected =>
      rw [ends_instantNow]
      intro g₁ h₁
      split_ifs
      · exact .unchanged trivial
      · exact .idled hstate
    | _ => exact .unchanged trivial

theorem makes_touchLocked (hidle : slot.state = .idle → (cell slot).NotLive g) :
    (touchLocked slot).Ends serve (Makes (.touchPeer peer) slot) g := by
  unfold touchLocked
  rw [ends_instantNow]
  intro g₁ h₁
  cases hstate : slot.state with
  | idle =>
    simp only [PeerSlot.touch, hstate]
    rw [ends_bind_iff]
    refine ends_liveConn (fun g₂ c h₂ hconn hlive => ?_) fun g₂ h₂ hdead => .unchanged trivial
    exact absurd hlive ((hidle hstate).mono (h₁.trans h₂) c hconn)
  | _ =>
    simp only [PeerSlot.touch, hstate]
    exact .unchanged trivial

theorem makes_wakeupLocked :
    (wakeupLocked peer until' slot).Ends serve (Makes (.wakeup peer until') slot) g := by
  unfold wakeupLocked
  dsimp only
  split_ifs with hqueued
  · cases hstate : slot.state with
    | backoff =>
      simp only [hstate, Bool.and_eq_true, decide_eq_true_eq, Bool.not_eq_true',
        List.isEmpty_eq_false_iff] at hqueued
      exact .wakes (hqueued.1 ▸ hstate) hqueued.2
    | _ => simp [hstate] at hqueued
  · refine .sleepsOn fun ⟨step, hstate⟩ => ?_
    have hstate' : slot.state = .backoff until' step := hstate
    simpa [hstate', cell] using hqueued

/-- The piece ends as `FreeExit` says. -/
def Exits (c : Call) (e : PoolExit) (g : Shared) : Prop := FreeExit c e.piece e.effects g

theorem exits_awaitDial {tx : ChanId} :
    (awaitDial k tx caller).Ends serve (Exits (.awaitDial k tx caller)) g := by
  refine ends_request_bind.2 fun g₁ h₁ e r _ => ?_
  cases r with
  | some => exact .received (.inl rfl)
  | none =>
    cases k with
    | peer p => exact .received (.inr (.inl ⟨p, rfl⟩))
    | extra p alpn => exact .received (.inr (.inr ⟨p, alpn, rfl⟩))

theorem exits_dial : (dial k ctx caller).Ends serve (Exits (.dial k ctx caller)) g := by
  have honce (post)
      (hok : ∀ g' conn, post (.ok conn) g') (herror : ∀ g' e, post (.error e) g') :
      (dialOnce k).Ends serve post g := by
    refine ends_request_bind.2 fun g₁ h₁ e outcome _ => ?_
    cases outcome with
    | connected =>
      rw [ends_closeReason]
      intro g₂ h₂
      split
      · split_ifs <;> exact herror _ _
      · exact hok _ _
    | failed | timedOut => exact herror _ _
  unfold dial
  rw [ends_bind_iff]
  refine honce _ (fun g₁ conn => ?_) fun g₁ e => .dialFailed
  rw [ends_gateAllows]
  intro g₂ h₂
  split_ifs with hallows
  · exact .dialAllowed hallows
  · exact .dialDenied

end

/-- What a critical section can take for granted of the slot it finds: an idle slot of a peer has
no live connection, and the generation `reconcile` started with is not ahead of the gate. -/
structure Takes (c : Call) (k : SlotKey) (slot : SlotOf k) (g : Shared) : Prop where
  idle : ∀ peer, k = .peer peer → (cell slot).state = .idle → (cell slot).NotLive g
  reconcile : ∀ gen peers, c = .reconcilePeers gen peers → gen ≤ g.gateGeneration

/-- The body of a call makes a transition, or ends as `FreeExit` says. -/
theorem ends_body (own : EndpointId) (c : Call) : match body own c with
    | .free p => ∀ g, p.Ends serve (Exits c) g
    | .locked k p => ∀ slot g, Takes c k slot g → (p slot).Ends serve (Makes c slot) g := by
  cases c with
  | get => exact fun g => ends_instantNow.2 fun g₁ h₁ => .get
  | getLocked => exact fun slot g _ => makes_getLocked slot
  | getExtra =>
    refine fun g => ends_request_bind.2 fun g₁ h₁ e i _ => ?_
    exact ends_instantNow.2 fun g₂ h₂ => .getExtra
  | getExtraLocked => exact fun slot g _ => makes_getExtraLocked slot
  | awaitDial => exact fun g => exits_awaitDial
  | dial => exact fun g => exits_dial
  | dialDenied => exact fun slot g _ => makes_dialDenied slot
  | dialAllowed k =>
    cases k with
    | peer => exact fun g => ends_gateGeneration.2 fun g₁ h₁ => .stamp
    | extra => exact fun slot g _ => makes_installExtra slot
  | install => exact fun slot g _ => makes_install slot
  | dialFailed => exact fun slot g _ => makes_dialFailed slot
  | flush => exact fun _ _ _ _ _ _ => .flushed
  | send => exact fun g => ends_instantNow.2 fun g₁ h₁ => .send
  | sendLocked => exact fun slot g _ => makes_sendLocked slot
  | sendDatagram => exact fun _ _ _ _ _ _ => .sent
  | adopt =>
    refine fun g => ends_gateAllows.2 fun g₁ h₁ => ?_
    split_ifs with hallows
    · exact .adoptAllowed hallows
    · exact .adoptDenied
  | adoptAllowed => exact fun slot g _ => makes_adoptLocked slot
  | reconcile =>
    refine fun g => ends_gateGeneration.2 fun g₁ h₁ => ?_
    exact fun g₂ h₂ _ _ _ => .reconcile h₂.generation
  | reconcilePeers gen peers =>
    cases peers with
    | nil => exact fun _ _ _ _ _ _ => .reconcileExtra
    | cons peer peers =>
      exact fun slot g htakes => makes_reconcilePeer slot (htakes.reconcile gen (peer :: peers) rfl)
  | reconcileExtra gen slots =>
    cases slots with
    | nil => exact fun g => .background trivial nofun
    | cons => exact fun slot g _ => makes_reconcileExtraSlot slot
  | revokePeer =>
    refine fun g => ends_gateGeneration.2 fun g₁ h₁ => ?_
    refine ends_request_bind.2 fun g₂ h₂ e known _ => ?_
    cases known with
    | true => exact .revoke
    | false => exact .revokeUnknown
  | revokeLocked => exact fun slot g _ => .revoked
  | closeAll =>
    refine fun g => ends_request_bind.2 fun g₁ h₁ e peers _ => ?_
    exact .background trivial (by rintro _ ⟨⟩; trivial)
  | closePeers peers =>
    cases peers with
    | nil =>
      refine fun g => ends_request_bind.2 fun g₁ h₁ e slots _ => ?_
      exact .background trivial (by rintro _ ⟨⟩; trivial)
    | cons => exact fun slot g _ => .closed trivial nofun
  | closeExtra slots =>
    cases slots with
    | nil => exact fun g => .background trivial nofun
    | cons => exact fun slot g _ => .closed trivial nofun
  | sweep =>
    refine fun g => ends_request_bind.2 fun g₁ h₁ e policy _ => ?_
    split_ifs
    · exact .background trivial nofun
    · refine ends_request_bind.2 fun g₂ h₂ e peers _ => ?_
      exact .background trivial (by rintro _ ⟨⟩; trivial)
  | sweepPeers timeout peers =>
    cases peers with
    | nil => exact fun g => .background trivial nofun
    | cons =>
      refine fun g => ends_request_bind.2 fun g₁ h₁ e policy _ => ?_
      split_ifs <;> exact .background trivial (by rintro _ ⟨⟩; trivial)
  | sweepLocked => exact fun slot g _ => makes_sweepLocked slot
  | touchPeer peer => exact fun slot g htakes => makes_touchLocked slot (htakes.idle peer rfl)
  | setPeerKeepAlive => exact fun slot g _ => .unchanged trivial
  | wakeup => exact fun slot g _ => makes_wakeupLocked slot

theorem key_of_body (hbody : body own c = .locked k p) : c.key = some k := by
  unfold body at hbody
  split at hbody <;> cases hbody <;> rfl

/-- The pool makes no other transitions: what the code of the pool can do, whatever comes in
between. -/
def poolSummary (own : EndpointId) : (pool own).Summary where
  Pre := Takes
  Free := Exits
  Section c k slot slot' e g := c.key = some k ∧ Makes c slot (slot', e) g
  free_ends {c p} hbody := by
    have hends := ends_body own c
    rw [show body own c = .free p from hbody] at hends
    exact hends
  section_ends {c k p} hbody slot g htakes := by
    have hends := ends_body own c
    rw [show body own c = .locked k p from hbody] at hends
    exact (hends slot g htakes).mono fun _ _ _ h => ⟨key_of_body hbody, h⟩

end Tunnet.Pool

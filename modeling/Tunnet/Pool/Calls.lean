import Tunnet.Pool.Program

/-!
# The calls of the connection pool

`tunnet-core/src/iroh_pool.rs`. The functions of the pool, each divided into pieces where it takes
or releases the lock of a slot (`Call`). What a piece does to connections, channels and timers
takes effect when it ends.

`pool` puts them together: any number of tasks run the pieces, interleaved request by request with
each other and with membership changes.
-/

namespace Tunnet.Pool

open ConnSlot

/-! ### Calls and replies -/

/-- Who awaits a `get`: its caller, `send_or_buffer`, or a wakeup. -/
inductive Caller
  | get
  | send
  | wakeup

inductive Reply
  | conn (result : DialResult)
  | unit (result : Except String Unit)
  | adopted (kept : Bool)
  | finished

/-- What becomes of the result of a `get`. -/
def Caller.reply (result : DialResult) : Caller → Reply
  | .get => .conn result
  | .send => .unit (result.map fun _ => ())
  | .wakeup => .finished

/-- The pieces of the pool's functions. A name with `Locked`, or that of a stage after a read of
the gate, is a piece that another one continues with; the others are calls from outside. -/
inductive Call
  | get (peer : EndpointId) (caller : Caller)
  | getLocked (peer : EndpointId) (now : Instant) (caller : Caller)
  | getExtra (peer : EndpointId) (alpn : Alpn)
  | getExtraLocked (peer : EndpointId) (alpn : Alpn) (incarnation : Nat) (now : Instant)
  | awaitDial (k : SlotKey) (tx : ChanId) (caller : Caller)
  | dial (k : SlotKey) (ctx : DialContext) (caller : Caller)
  | dialDenied (k : SlotKey) (caller : Caller)
  | dialAllowed (k : SlotKey) (conn : ConnId) (caller : Caller)
  | install (peer : EndpointId) (conn : ConnId) (generation : Nat) (caller : Caller)
  | dialFailed (k : SlotKey) (ctx : DialContext) (failure : DialFailure) (err : String)
      (caller : Caller)
  | flush (conn : ConnId) (packets : List Packet) (caller : Caller)
  | send (peer : EndpointId) (packet : Packet)
  | sendLocked (peer : EndpointId) (packet : Packet) (now : Instant)
  | sendDatagram (conn : ConnId) (packet : Packet)
  | adopt (peer : EndpointId) (conn : ConnId)
  | adoptAllowed (peer : EndpointId) (conn : ConnId)
  | reconcile
  | reconcilePeers (generation : Nat) (peers : List EndpointId)
  | reconcileExtra (generation : Nat) (slots : List (EndpointId × Alpn × Nat))
  | revokePeer (peer : EndpointId)
  | revokeLocked (peer : EndpointId) (generation : Nat)
  | closeAll
  | closePeers (peers : List EndpointId)
  | closeExtra (slots : List (EndpointId × Alpn × Nat))
  | sweep
  | sweepPeers (timeout : Nat) (peers : List EndpointId)
  | sweepLocked (timeout : Nat) (peer : EndpointId) (peers : List EndpointId)
  | touchPeer (peer : EndpointId)
  | setPeerKeepAlive (peer : EndpointId) (enabled : Bool)
  | wakeup (peer : EndpointId) (until' : Instant)

abbrev PoolExit := Exit Call Reply Effect

/-- Go on with another piece. -/
def goOn (c : Call) (effects : List Effect) : PoolExit := ⟨.call c, effects⟩

def finish (r : Reply) (effects : List Effect) : PoolExit := ⟨.done r, effects⟩

/-- Calls from outside can be made at any time; a wakeup runs once its time has come. -/
def enter (g : Shared) : Call → Option Shared
  | .get _ .get | .getExtra .. | .send .. | .adopt .. | .reconcile | .revokePeer _ | .closeAll
  | .sweep | .touchPeer _ | .setPeerKeepAlive .. => some g
  | .wakeup peer until' =>
    if (peer, until') ∈ g.armed ∧ until' ≤ g.now then
      some { g with armed := g.armed.erase (peer, until') }
    else none
  | _ => none

/-! ### Dialling -/

variable (peer : EndpointId)

/-- The default-ALPN part of `get_alpn` under the lock. -/
def getLocked (now : Instant) (caller : Caller) (guard : PeerSlot) :
    Code (PeerSlot × PoolExit) := do
  let (entered, guard, effects) ← enterSlot guard peer now
  match entered with
  | .use c => return (guard, finish (caller.reply (.ok c)) effects)
  | .revoked => return (guard, finish (caller.reply (.error (notAuthorized peer))) effects)
  | .rejected => return (guard, finish (caller.reply (.error (notAuthorizedRemote peer))) effects)
  | .ready (.deny shed) =>
    let guard := if shed then guard.dropBuf else guard
    return (guard, finish (caller.reply (.error (notAuthorized peer))) effects)
  | .ready .wait =>
    let err := s!"dial to {peer} suppressed by backoff"
    return (guard, finish (caller.reply (.error err)) effects)
  | .ready .dial =>
    let (elected, guard, effects) ← elect guard
    match elected with
    | .waiter tx => return (guard, goOn (.awaitDial (.peer peer) tx caller) effects)
    | .dialer ctx => return (guard, goOn (.dial (.peer peer) ctx caller) effects)

/-- `get_extra` under the lock. -/
def getExtraLocked (alpn : Alpn) (incarnation : Nat) (now : Instant)
    (guard : ExtraSlot) : Code (ExtraSlot × PoolExit) := do
  let k := SlotKey.extra peer alpn incarnation
  let (entered, guard, effects) ← enterSlot guard peer now
  match entered with
  | .use c => return (guard, finish (.conn (.ok c)) effects)
  | .revoked => return (guard, finish (.conn (.error (notAuthorized peer))) effects)
  | .rejected => return (guard, finish (.conn (.error (notAuthorizedRemote peer))) effects)
  | .ready (.deny _) => return (guard, finish (.conn (.error (notAuthorized peer))) effects)
  | .ready .wait =>
    return (guard, finish (.conn (.error s!"dial to {peer} suppressed by backoff")) effects)
  | .ready .dial =>
    let (elected, guard, effects) ← elect guard
    match elected with
    | .waiter tx => return (guard, goOn (.awaitDial k tx .get) effects)
    | .dialer ctx => return (guard, goOn (.dial k ctx .get) effects)

/-- Await the result of another task's dial; a sender that was dropped makes the caller decide
again. -/
def awaitDial (k : SlotKey) (tx : ChanId) (caller : Caller) : Code PoolExit := do
  match ← Prog.request (Request.recv tx) with
  | some result => return finish (caller.reply result) []
  | none =>
    match k with
    | .peer peer => return goOn (.get peer caller) []
    | .extra peer alpn _ => return goOn (.getExtra peer alpn) []

/-- One classified dial. A connection may come back dead. -/
def dialOnce (k : SlotKey) : Code (Except (DialFailure × String) ConnId) := do
  let peer := k.endpoint
  match ← Prog.request (Request.connect k) with
  | .connected conn =>
    match ← closeReason conn with
    | some reason =>
      let debug := reason.debug
      let msg := s!"connection to {peer} dead on arrival: {debug}"
      if isAuthCloseError reason.error then return .error (.remoteRejected, msg)
      else return .error (.transient, msg)
    | none => return .ok conn
  | .failed e display => return .error (classifyConnectError e, s!"connect to {peer}: {display}")
  | .timedOut => return .error (.transient, s!"reconnect to {peer} timed out")

/-- The dial, and the read of the gate after it. -/
def dial (k : SlotKey) (ctx : DialContext) (caller : Caller) : Code PoolExit := do
  match ← dialOnce k with
  | .ok conn =>
    if ← gateAllows k.endpoint then return goOn (.dialAllowed k conn caller) []
    else return goOn (.dialDenied k caller) [.close conn]
  | .error (failure, err) => return goOn (.dialFailed k ctx failure err caller) []

/-- The peer was revoked while dialling. -/
def dialDenied {S : Type} [ConnSlot S] (k : SlotKey) (caller : Caller) (guard : S) :
    Code (S × PoolExit) := do
  let guard := dropQueued guard
  let generation ← gateGeneration
  let (guard, fresh, effects) := markLocalBlocked guard generation
  let reply := finish (caller.reply (.error (notAuthorized k.endpoint)))
  if fresh then
    return (setWaiters guard none, reply (effects ++ dropping (link guard).dialWaiters))
  else return (guard, reply effects)

/-- The dial failed. -/
def dialFailed {S : Type} [ConnSlot S] (k : SlotKey) (ctx : DialContext) (failure : DialFailure)
    (err : String) (caller : Caller) (guard : S) : Code (S × PoolExit) := do
  let guard := dropQueued guard
  let reply := finish (caller.reply (.error err))
  match failure with
  | .localDenied =>
    let (guard, effects) ← markLocalDenied guard err
    return (guard, reply effects)
  | .remoteRejected =>
    let (guard, effects) ← markRemoteRejected guard ctx.rejected err
    return (guard, reply effects)
  | .transient =>
    let (guard, effects, until') ← markBackoff guard ctx.backoffStep err
    match k with
    | .peer peer => return (guard, reply (effects ++ [.arm peer until']))
    | .extra .. => return (guard, reply effects)

/-- The connection opened by the canonical initiator, the smaller of the two ids, is preferred so
that both ends converge. -/
def preferIncoming (own peer : EndpointId) (existingOpenedByUs incomingOpenedByUs : Bool) : Bool :=
  let wantOpenedByUs : Bool := own < peer
  let existingOk := existingOpenedByUs == wantOpenedByUs
  let incomingOk := incomingOpenedByUs == wantOpenedByUs
  !existingOk && incomingOk

/-- The dialled connection goes into the slot. -/
def installed (guard : PeerSlot) (conn : ConnId) (generation : Nat) (now : Instant) : PeerSlot :=
  { guard with
    conn := some conn
    openedByUs := true
    state := .connected generation
    lastActivity := now
    dialWaiters := none
    buffer := []
    bufferBytes := 0 }

/-- The end of a successful dial: install the connection, or keep the one that was accepted
meanwhile, and take what waits in the buffer. -/
def install (own peer : EndpointId) (conn : ConnId) (generation : Nat) (caller : Caller)
    (guard : PeerSlot) : Code (PeerSlot × PoolExit) := do
  match ← liveConn guard.conn with
  | some existing =>
    if preferIncoming own peer guard.openedByUs true then
      let now ← instantNow
      return (installed guard conn generation now,
        goOn (.flush conn guard.buffer caller)
          (closing guard.conn ++ sending guard.dialWaiters (.ok conn)))
    else
      let (buffered, guard') := { guard with dialWaiters := none : PeerSlot }.takeBuf
      return (guard', goOn (.flush existing buffered caller)
        (sending guard.dialWaiters (.ok existing) ++ [.close conn]))
  | none =>
    let now ← instantNow
    return (installed guard conn generation now,
      goOn (.flush conn guard.buffer caller) (sending guard.dialWaiters (.ok conn)))

/-- The end of a successful dial of a secondary ALPN. -/
def installExtra (conn : ConnId) (caller : Caller) (guard : ExtraSlot) :
    Code (ExtraSlot × PoolExit) := do
  let generation ← gateGeneration
  return ({ conn := some conn, state := .connected generation, dialWaiters := none },
    finish (caller.reply (.ok conn)) (sending guard.dialWaiters (.ok conn)))

/-! ### Sending -/

/-- The state in which `send_or_buffer` leaves a slot: the dialer finds the rejection episode and
the backoff step in it. -/
def askState : PeerConnState → PeerConnState
  | .rejected generation first retryAfter => .rejected generation first retryAfter
  | .backoff until' step => .backoff until' step
  | _ => .dialing

/-- `send_or_buffer` under the lock. -/
def sendLocked (packet : Packet) (now : Instant) (guard : PeerSlot) :
    Code (PeerSlot × PoolExit) := do
  let (entered, guard, effects) ← enterSlot guard peer now
  let full := finish (.unit (.error s!"on-demand buffer full for {peer}")) effects
  match entered with
  | .use c => return (guard, goOn (.sendDatagram c packet) effects)
  | .revoked => return (guard, finish (.unit (.error (notAuthorized peer))) effects)
  | .rejected => return (guard, finish (.unit (.error (notAuthorizedRemote peer))) effects)
  | .ready (.deny shed) =>
    let guard := if shed then guard.dropBuf else guard
    return (guard, finish (.unit (.error (notAuthorized peer))) effects)
  | .ready .wait =>
    match guard.pushBuf packet with
    | none => return (guard, full)
    | some guard => return (guard, finish (.unit (.ok ())) effects)
  | .ready .dial =>
    match guard.pushBuf packet with
    | none => return (guard, full)
    | some guard =>
      if guard.dialWaiters.isSome then return (guard, finish (.unit (.ok ())) effects)
      else
        return ({ guard with state := askState guard.state }, goOn (.get peer .send) effects)

/-! ### Accepted connections -/

/-- `adopt` under the lock. -/
def adoptLocked (own peer : EndpointId) (conn : ConnId) (guard : PeerSlot) :
    Code (PeerSlot × PoolExit) := do
  match ← liveConn guard.conn with
  | some existing =>
    if existing = conn then
      return (guard.touch (← instantNow), finish (.adopted true) [])
    else if preferIncoming own peer guard.openedByUs false then
      adopting (closing guard.conn)
    else return (guard, finish (.adopted false) [])
  | none => adopting []
where
  adopting (effects : List Effect) : Code (PeerSlot × PoolExit) := do
    let generation ← gateGeneration
    let now ← instantNow
    return ({ guard with
      conn := some conn
      openedByUs := false
      state := .connected generation
      lastActivity := now }, finish (.adopted true) effects)

/-! ### Membership changes -/

variable (generation : Nat) (next : Call) (guard : PeerSlot)

/-- One round of `reconcile` over the slots of the default ALPN. -/
def reconcilePeer : Code (PeerSlot × PoolExit) := do
  if ← gateAllows peer then
    match guard.state with
    | .blocked _ | .rejected .. =>
      let state := match ← liveConn guard.conn with
        | some _ => .connected generation
        | none => .idle
      return ({ guard with state }, goOn next [])
    | _ => return (guard, goOn next [])
  else
    let (guard, fresh, effects) := markLocalBlocked guard.dropBuf generation
    if fresh then
      return ({ guard with dialWaiters := none }, goOn next (effects ++ dropping guard.dialWaiters))
    else return (guard, goOn next effects)

/-- One round of `reconcile` over the slots of secondary ALPNs. -/
def reconcileExtraSlot (generation : Nat) (next : Call) (guard : ExtraSlot) :
    Code (ExtraSlot × PoolExit) := do
  if ← gateAllows peer then
    match guard.state with
    | .blocked _ | .rejected .. => return ({ guard with state := .idle }, goOn next [])
    | _ => return (guard, goOn next [])
  else
    let (guard, fresh, effects) := markLocalBlocked guard generation
    if fresh then
      return ({ guard with dialWaiters := none }, goOn next (effects ++ dropping guard.dialWaiters))
    else return (guard, goOn next effects)

/-- `revoke_peer` under the lock; the secondary slots are thrown away afterwards. -/
def revokeLocked : Code (PeerSlot × PoolExit) :=
  let (guard, _, effects) := markLocalBlocked guard.dropBuf generation
  return ({ guard with dialWaiters := none },
    finish .finished (effects ++ dropping guard.dialWaiters ++ [.forgetExtra peer]))

/-! ### Housekeeping -/

/-- One round of `close_all` over the slots of the default ALPN. -/
def closePeer : Code (PeerSlot × PoolExit) :=
  return ({ guard.dropBuf with conn := none, openedByUs := false, state := .idle },
    goOn next (closing guard.conn))

/-- One round of `close_all` over the slots of secondary ALPNs. -/
def closeExtraSlot (next : Call) (guard : ExtraSlot) : Code (ExtraSlot × PoolExit) :=
  return ({ guard with conn := none, state := .idle }, goOn next (closing guard.conn))

/-- One round of the idle sweeper under the lock. -/
def sweepLocked (timeout : Nat) (next : Call) (guard : PeerSlot) : Code (PeerSlot × PoolExit) := do
  if guard.peerKeepAlive then return (guard, goOn next [])
  else
    match guard.state with
    | .connected _ =>
      let now ← instantNow
      if now - guard.lastActivity < timeout then return (guard, goOn next [])
      else return ({ guard with conn := none, state := .idle }, goOn next (closing guard.conn))
    | _ => return (guard, goOn next [])

/-- `touch_peer` with the lock: only idle slots are promoted. -/
def touchLocked : Code (PeerSlot × PoolExit) := do
  let guard := guard.touch (← instantNow)
  match guard.state with
  | .idle =>
    match ← liveConn guard.conn with
    | some _ =>
      let generation ← gateGeneration
      return ({ guard with state := .connected generation }, finish .finished [])
    | none => return (guard, finish .finished [])
  | _ => return (guard, finish .finished [])

/-- A wakeup dials only if packets wait in the very episode it was armed for. -/
def wakeupLocked (until' : Instant) (guard : PeerSlot) : Code (PeerSlot × PoolExit) :=
  let queued := match guard.state with
    | .backoff u _ => u = until' && !guard.buffer.isEmpty
    | _ => false
  if queued then return (guard, goOn (.get peer .wakeup) [])
  else return (guard, finish .finished [])

/-! ### The pool -/

/-- The code of each piece. -/
def body (own : EndpointId) : Call → Piece Request Answer SlotKey SlotOf Call Reply Effect
  | .get peer caller => .free do
    let now ← instantNow
    return goOn (.getLocked peer now caller) [.know (.peer peer)]
  | .getLocked peer now caller => .locked (.peer peer) (getLocked peer now caller)
  | .getExtra peer alpn => .free do
    let incarnation ← Prog.request (Request.extraSlot peer alpn)
    let now ← instantNow
    return goOn (.getExtraLocked peer alpn incarnation now) [.know (.extra peer alpn incarnation)]
  | .getExtraLocked peer alpn incarnation now =>
    .locked (.extra peer alpn incarnation) (getExtraLocked peer alpn incarnation now)
  | .awaitDial k tx caller => .free (awaitDial k tx caller)
  | .dial k ctx caller => .free (dial k ctx caller)
  | .dialDenied k caller => .locked k (dialDenied k caller)
  | .dialAllowed (.peer peer) conn caller => .free do
    let generation ← gateGeneration
    return goOn (.install peer conn generation caller) []
  | .dialAllowed (.extra peer alpn incarnation) conn caller =>
    .locked (.extra peer alpn incarnation) (installExtra conn caller)
  | .install peer conn generation caller =>
    .locked (.peer peer) (install own peer conn generation caller)
  | .dialFailed k ctx failure err caller => .locked k (dialFailed k ctx failure err caller)
  | .flush conn packets caller => .free do
    let _ ← Prog.request (Request.datagrams conn packets)
    return finish (caller.reply (.ok conn)) []
  | .send peer packet => .free do
    let now ← instantNow
    return goOn (.sendLocked peer packet now) [.know (.peer peer)]
  | .sendLocked peer packet now => .locked (.peer peer) (sendLocked peer packet now)
  | .sendDatagram conn packet => .free do
    return finish (.unit (← Prog.request (Request.datagram conn packet))) []
  | .adopt peer conn => .free do
    if ← gateAllows peer then return goOn (.adoptAllowed peer conn) [.know (.peer peer)]
    else return finish (.adopted false) [.close conn]
  | .adoptAllowed peer conn => .locked (.peer peer) (adoptLocked own peer conn)
  | .reconcile => .free do
    let generation ← gateGeneration
    return goOn (.reconcilePeers generation (← Prog.request Request.peers)) []
  | .reconcilePeers generation [] => .free do
    return goOn (.reconcileExtra generation (← Prog.request Request.extra)) []
  | .reconcilePeers generation (peer :: peers) =>
    .locked (.peer peer) (reconcilePeer peer generation (.reconcilePeers generation peers))
  | .reconcileExtra _ [] => .free (return finish .finished [])
  | .reconcileExtra generation ((peer, alpn, incarnation) :: slots) =>
    .locked (.extra peer alpn incarnation)
      (reconcileExtraSlot peer generation (.reconcileExtra generation slots))
  | .revokePeer peer => .free do
    let generation ← gateGeneration
    if ← Prog.request (Request.known (.peer peer)) then
      return goOn (.revokeLocked peer generation) []
    else return finish .finished [.forgetExtra peer]
  | .revokeLocked peer generation => .locked (.peer peer) (revokeLocked peer generation)
  | .closeAll => .free do return goOn (.closePeers (← Prog.request Request.peers)) []
  | .closePeers [] => .free do return goOn (.closeExtra (← Prog.request Request.extra)) []
  | .closePeers (peer :: peers) => .locked (.peer peer) (closePeer (.closePeers peers))
  | .closeExtra [] => .free (return finish .finished [])
  | .closeExtra ((peer, alpn, incarnation) :: slots) =>
    .locked (.extra peer alpn incarnation) (closeExtraSlot (.closeExtra slots))
  | .sweep => .free do
    let policy ← Prog.request Request.policy
    if policy.keepAlive then return finish .finished []
    else return goOn (.sweepPeers policy.idleTimeout (← Prog.request Request.peers)) []
  | .sweepPeers _ [] => .free (return finish .finished [])
  | .sweepPeers timeout (peer :: peers) => .free do
    let policy ← Prog.request Request.policy
    if policy.keepAlivePeers peer then return goOn (.sweepPeers timeout peers) []
    else return goOn (.sweepLocked timeout peer peers) []
  | .sweepLocked timeout peer peers =>
    .locked (.peer peer) (sweepLocked timeout (.sweepPeers timeout peers))
  | .touchPeer peer => .locked (.peer peer) touchLocked
  | .setPeerKeepAlive peer enabled => .locked (.peer peer) fun guard =>
    return ({ guard with peerKeepAlive := enabled }, finish .finished [])
  | .wakeup peer until' => .locked (.peer peer) (wakeupLocked peer until')

/-- The pool of the endpoint `own`. -/
def pool (own : EndpointId) :
    Monitor Shared Choice Env Call Reply Effect Request Answer SlotKey SlotOf where
  serve := serve
  apply := apply
  enter := enter
  env := env
  body := body own

/-- Every slot as it is before anybody uses it. -/
def newSlot (now : Instant) : (k : SlotKey) → SlotOf k
  | .peer _ => PeerSlot.new now
  | .extra .. => ExtraSlot.new

abbrev PoolEvent := Monitor.Event Nat Call Choice Env

abbrev PoolState := Monitor.State Shared Call Reply Effect Request Answer SlotKey SlotOf Nat

abbrev PoolView := Monitor.View Shared Call SlotKey SlotOf Nat

end Tunnet.Pool

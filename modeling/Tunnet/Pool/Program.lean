import Tunnet.Net.Ip
import Tunnet.Util.Monitor
import Tunnet.Util.Str

/-!
# The slots of the connection pool

`tunnet-core/src/iroh_pool.rs`. The pool keeps one slot for each peer (default ALPN), with the
packets that wait for a connection, and one for each peer and secondary ALPN. Both kinds have a
connection, a retry state and the waiters of a dial in common (`Link`), and the functions that
enforce authorisation are written once for both (`ConnSlot`).

An endpoint id is the hexadecimal form of its key, whose order is that of the keys. Instants and
durations are nanoseconds.
-/

namespace Tunnet.Pool

abbrev EndpointId := String

/-- The stable id of a connection. -/
abbrev ConnId := Nat

/-- A broadcast channel on which the result of a dial is sent. -/
abbrev ChanId := Nat

abbrev Packet := List UInt8

abbrev Alpn := List UInt8

def MAX_BUFFER_PACKETS : Nat := 64

def MAX_BUFFER_BYTES : Nat := 1024 * 1024

/-! ### Closed connections -/

/-- Why a connection is closed, as far as the pool tells the reasons apart. -/
inductive ConnectionError
  | applicationClosed (errorCode : Nat) (reason : List UInt8)
  | locallyClosed
  | other

/-- The reason with its debug form, which error messages carry. -/
structure CloseReason where
  error : ConnectionError
  debug : String

def CLOSE_NOT_MEMBER : Nat := 403
def CLOSE_NOT_MEMBER_REASON : List UInt8 := Str.asBytes "not_member"
def CLOSE_AUTH_REQUIRED : Nat := 401
def CLOSE_AUTH_REQUIRED_REASON : List UInt8 := Str.asBytes "auth_required"
def CLOSE_LEGACY_POLICY_DENY_REASON : List UInt8 := Str.asBytes "policy_deny"

/-- An application close that carries an authorisation rejection. -/
def isAuthorizationClose (code : Nat) (reason : List UInt8) : Bool :=
  if code = CLOSE_NOT_MEMBER then
    reason = CLOSE_NOT_MEMBER_REASON || reason = CLOSE_LEGACY_POLICY_DENY_REASON
  else if code = CLOSE_AUTH_REQUIRED then reason = CLOSE_AUTH_REQUIRED_REASON
  else false

def isAuthCloseError : ConnectionError → Bool
  | .applicationClosed errorCode reason =>
    isAuthorizationClose (if errorCode < 2 ^ 32 then errorCode else 2 ^ 32 - 1) reason
  | _ => false

/-! ### Failed dials -/

inductive DialFailure
  | localDenied
  | remoteRejected
  | transient

/-- The errors of a connection attempt, as far as the classifier tells them apart. -/
inductive ConnectError
  | connectLocallyRejected
  | connectingLocallyRejected
  | connectingConnectionError (source : ConnectionError)
  | connection (source : ConnectionError)
  | other

def classifyConnectError : ConnectError → DialFailure
  | .connectLocallyRejected | .connectingLocallyRejected => .localDenied
  | .connectingConnectionError source | .connection source =>
    if isAuthCloseError source then .remoteRejected else .transient
  | .other => .transient

/-- Bounded exponential backoff with jitter, from a random `u64`. -/
def backoffDelay (step : Nat) (random : Nat) : Nat :=
  let shift := min step 8
  let base := 200 * 2 ^ shift
  let capped := min base 30000
  let jitter := random % (capped / 2 + 1)
  (capped / 2 + jitter) * 1000000

/-- Bounded re-probe schedule for remote rejections. -/
def remoteRetryDelay (elapsedSinceFirst : Nat) (random : Nat) : Nat :=
  let shift := min (elapsedSinceFirst / 1000000000 / 10) 5
  let base := 10 * 1000 * 2 ^ shift
  let capped := min base 300000
  let jitter := random % (capped / 2 + 1)
  (capped / 2 + jitter) * 1000000

/-! ### Slots -/

inductive PeerConnState
  | connected (authGen : Nat)
  | dialing
  | idle
  | backoff (until' : Instant) (step : Nat)
  | blocked (generation : Nat)
  | rejected (generation : Nat) (first retryAfter : Instant)
deriving DecidableEq

/-- What slots of both kinds have. -/
structure Link where
  conn : Option ConnId
  state : PeerConnState
  dialWaiters : Option ChanId

structure PeerSlot extends Link where
  /-- The live connection was opened by our dial. -/
  openedByUs : Bool
  lastActivity : Instant
  peerKeepAlive : Bool
  buffer : List Packet
  bufferBytes : Nat

namespace PeerSlot

def new (now : Instant) : PeerSlot where
  conn := none
  openedByUs := false
  state := .idle
  lastActivity := now
  peerKeepAlive := false
  buffer := []
  bufferBytes := 0
  dialWaiters := none

variable (slot : PeerSlot)

def touch (now : Instant) : PeerSlot :=
  { slot with lastActivity := now }

/-- The slot with the packet queued, if there is room. -/
def pushBuf (packet : Packet) : Option PeerSlot :=
  if slot.buffer.length ≥ MAX_BUFFER_PACKETS ∨
      slot.bufferBytes + packet.length > MAX_BUFFER_BYTES then
    none
  else
    some { slot with
      bufferBytes := slot.bufferBytes + packet.length
      buffer := slot.buffer ++ [packet] }

def takeBuf : List Packet × PeerSlot :=
  (slot.buffer, { slot with bufferBytes := 0, buffer := [] })

def dropBuf : PeerSlot :=
  { slot with buffer := [], bufferBytes := 0 }

end PeerSlot

structure ExtraSlot extends Link

def ExtraSlot.new : ExtraSlot where
  conn := none
  dialWaiters := none
  state := .idle

/-- Slots on which the pool enforces authorisation. -/
class ConnSlot (S : Type) where
  link : S → Link
  setLink : S → Link → S
  touchSlot : S → Instant → S
  dropQueued : S → S
  link_setLink : ∀ slot l, link (setLink slot l) = l
  link_dropQueued : ∀ slot, link (dropQueued slot) = link slot

attribute [simp] ConnSlot.link_setLink ConnSlot.link_dropQueued

instance : ConnSlot PeerSlot where
  link slot := slot.toLink
  setLink slot l := { slot with toLink := l }
  touchSlot slot now := slot.touch now
  dropQueued slot := slot.dropBuf
  link_setLink _ _ := rfl
  link_dropQueued _ := rfl

instance : ConnSlot ExtraSlot where
  link slot := slot.toLink
  setLink _ l := { toLink := l }
  touchSlot slot _ := slot
  dropQueued slot := slot
  link_setLink _ _ := rfl
  link_dropQueued _ := rfl

namespace ConnSlot

variable {S : Type} [ConnSlot S]

def setConn (slot : S) (conn : Option ConnId) : S := setLink slot { link slot with conn }

def setState (slot : S) (state : PeerConnState) : S := setLink slot { link slot with state }

def setWaiters (slot : S) (dialWaiters : Option ChanId) : S :=
  setLink slot { link slot with dialWaiters }

end ConnSlot

/-- Which slot: that of a peer, or one of a secondary ALPN. The slots of the secondary ALPNs of a
peer are thrown away when it is revoked; `incarnation` counts how often that happened. -/
inductive SlotKey
  | peer (peer : EndpointId)
  | extra (peer : EndpointId) (alpn : Alpn) (incarnation : Nat)
deriving DecidableEq

def SlotKey.endpoint : SlotKey → EndpointId
  | .peer p => p
  | .extra p _ _ => p

@[reducible]
def SlotOf : SlotKey → Type
  | .peer _ => PeerSlot
  | .extra .. => ExtraSlot

instance : (k : SlotKey) → ConnSlot (SlotOf k)
  | .peer _ => inferInstanceAs (ConnSlot PeerSlot)
  | .extra .. => inferInstanceAs (ConnSlot ExtraSlot)

/-! ## What the tasks share

Every function of the pool is a program cut where others can come in between: at its reads of the
gate, of the clock, of the state of a connection, and at awaits. The requests `allows` and
`generation` are the two reads of the membership gate; the membership can change between one and the
next. -/

open ConnSlot

abbrev DialResult := Except String ConnId

/-- The membership gate: who may be connected, and a number that grows with every change. -/
structure TransportAuth where
  allowed : EndpointId → Bool
  generation : Nat

/-- A channel: its sender is still there, has sent, or was dropped. -/
inductive Chan
  | unused
  | opened
  | sent (result : DialResult)
  | dropped

structure PoolPolicy where
  keepAlive : Bool
  idleTimeout : Nat
  keepAlivePeers : EndpointId → Bool

structure Shared where
  gate : Option TransportAuth
  now : Instant
  closed : ConnId → Option CloseReason
  chans : ChanId → Chan
  /-- The wakeups that are asleep. -/
  armed : List (EndpointId × Instant)
  /-- The slots in the maps of the pool. -/
  known : SlotKey → Bool
  /-- How often the secondary slots of a peer were thrown away. -/
  incarnation : EndpointId → Nat
  policy : PoolPolicy

variable (g : Shared)

variable (peer : EndpointId)

def Shared.gateAllows : Bool :=
  match g.gate with
  | none => true
  | some auth => auth.allowed peer

def Shared.gateGeneration : Nat :=
  match g.gate with
  | none => 0
  | some auth => auth.generation

/-! ### Requests and effects -/

/-- What a connection attempt comes back with. -/
inductive ConnectOutcome
  | connected (conn : ConnId)
  | failed (e : ConnectError) (display : String)
  | timedOut

inductive Request
  | allows (peer : EndpointId)
  | generation
  | now
  | random
  | closeReason (conn : ConnId)
  | channel
  | connect (k : SlotKey)
  | recv (tx : ChanId)
  | datagram (conn : ConnId) (packet : Packet)
  | datagrams (conn : ConnId) (packets : List Packet)
  | known (k : SlotKey)
  | extraSlot (peer : EndpointId) (alpn : Alpn)
  | peers
  | extra
  | policy

@[reducible]
def Answer : Request → Type
  | .allows _ => Bool
  | .generation => Nat
  | .now => Instant
  | .random => Nat
  | .closeReason _ => Option CloseReason
  | .channel => ChanId
  | .connect _ => ConnectOutcome
  | .recv _ => Option DialResult
  | .datagram .. => Except String Unit
  | .datagrams .. => Nat
  | .known _ => Bool
  | .extraSlot .. => Nat
  | .peers => List EndpointId
  | .extra => List (EndpointId × Alpn × Nat)
  | .policy => PoolPolicy

/-- What the environment chooses: random numbers, the id of a new channel, the outcome of network
operations, and in which order the entries of a map come. -/
inductive Choice
  | none
  | random (n : Nat)
  | channel (tx : ChanId)
  | connect (outcome : ConnectOutcome)
  | datagram (result : Except String Unit)
  | datagrams (accepted : Nat)
  | peers (peers : List EndpointId)
  | extra (slots : List (EndpointId × Alpn × Nat))

def serve : (q : Request) → Choice → Option (Answer q)
  | .allows peer, _ => some (g.gateAllows peer)
  | .generation, _ => some g.gateGeneration
  | .now, _ => some g.now
  | .random, .random n => some n
  | .closeReason conn, _ => some (g.closed conn)
  | .channel, .channel tx =>
    match g.chans tx with
    | .unused => some tx
    | _ => none
  | .connect _, .connect outcome => some outcome
  | .recv tx, _ =>
    -- A receiver waits while the sender is there and has not sent.
    match g.chans tx with
    | .sent result => some (some result)
    | .dropped => some none
    | _ => none
  | .datagram .., .datagram result => some result
  | .datagrams .., .datagrams accepted => some accepted
  | .known k, _ => some (g.known k)
  | .extraSlot peer _, _ => some (g.incarnation peer)
  | .peers, .peers peers => if peers.all fun p => g.known (.peer p) then some peers else none
  | .extra, .extra slots =>
    if slots.all fun s => g.known (.extra s.1 s.2.1 s.2.2) && s.2.2 == g.incarnation s.1 then
      some slots
    else none
  | .policy, _ => some g.policy
  | _, _ => none

inductive Effect
  | close (conn : ConnId)
  | openChannel (tx : ChanId)
  | send (tx : ChanId) (result : DialResult)
  | dropSender (tx : ChanId)
  | arm (peer : EndpointId) (until' : Instant)
  | know (k : SlotKey)
  | forgetExtra (peer : EndpointId)

/-- The first reason for which a connection was closed stays. -/
def Shared.close (conn : ConnId) (reason : CloseReason) : Shared :=
  match g.closed conn with
  | none => { g with closed := Function.update g.closed conn (some reason) }
  | some _ => g

/-- The only sender of a channel sends its one message or is dropped. -/
def Shared.settle (tx : ChanId) (chan : Chan) : Shared :=
  match g.chans tx with
  | .opened => { g with chans := Function.update g.chans tx chan }
  | _ => g

def apply : Effect → Shared
  | .close conn => g.close conn ⟨.locallyClosed, "LocallyClosed"⟩
  | .openChannel tx =>
    match g.chans tx with
    | .unused => { g with chans := Function.update g.chans tx .opened }
    | _ => g
  | .send tx result => g.settle tx (.sent result)
  | .dropSender tx => g.settle tx .dropped
  | .arm peer until' => { g with armed := (peer, until') :: g.armed }
  | .know k => { g with known := Function.update g.known k true }
  | .forgetExtra peer =>
    { g with incarnation := Function.update g.incarnation peer (g.incarnation peer + 1) }

/-- Steps of the environment: the membership changes, time passes, a connection is closed by the
other side or the network, the policy changes. -/
inductive Env
  | membership (auth : TransportAuth)
  | tick (now : Instant)
  | closed (conn : ConnId) (reason : CloseReason)
  | policy (policy : PoolPolicy)

/-- Every membership change increases the generation. -/
def env : Env → Option Shared
  | .membership auth =>
    match g.gate with
    | none => none
    | some old =>
      if old.generation < auth.generation then some { g with gate := some auth } else none
  | .tick now => if g.now ≤ now then some { g with now } else none
  | .closed conn reason => some (g.close conn reason)
  | .policy policy => some { g with policy }

/-! ### Functions shared by the two kinds of slots -/

abbrev Code := Prog Request Answer

def gateAllows : Code Bool := .request (Request.allows peer)

def gateGeneration : Code Nat := .request Request.generation

def instantNow : Code Instant := .request Request.now

def random : Code Nat := .request Request.random

def closeReason (conn : ConnId) : Code (Option CloseReason) := .request (Request.closeReason conn)

def notAuthorized : String :=
  s!"not_authorized: {peer} is not an authorized peer"

def notAuthorizedRemote : String :=
  s!"not_authorized: {peer} rejected the connection"

/-- The connection of a slot if it has not been closed. -/
def liveConn (conn : Option ConnId) : Code (Option ConnId) :=
  match conn with
  | none => return none
  | some c => do
    match ← closeReason c with
    | none => return some c
    | some _ => return none

/-- Close a connection that was taken out of a slot. -/
def closing : Option ConnId → List Effect
  | none => []
  | some c => [.close c]

/-- Fail or complete the waiters that were taken out of a slot. -/
def sending (waiters : Option ChanId) (result : DialResult) : List Effect :=
  match waiters with
  | none => []
  | some tx => [.send tx result]

/-- Drop the waiters of a slot: its receivers run their decision again. -/
def dropping : Option ChanId → List Effect
  | none => []
  | some tx => [.dropSender tx]

section ConnSlot

variable {S : Type} [ConnSlot S]

/-- Pin locally-blocked at `generation`, closing any connection. The flag says whether this is a
new episode. -/
def markLocalBlocked (slot : S) (generation : Nat) : S × Bool × List Effect :=
  let effects := closing (link slot).conn
  let fresh := (link slot).state != .blocked generation
  (setState (setConn slot none) (.blocked generation), fresh, effects)

inductive LiveUse
  | use (conn : ConnId)
  | revoked
  | absent

variable (slot : S) (peer : EndpointId)

/-- The live connection of a locked slot, after membership revalidation: the gate is consulted
only when the generation moved. -/
def lockedLive : Code (LiveUse × S × List Effect) := do
  match ← liveConn (link slot).conn with
  | none => return (.absent, slot, [])
  | some c =>
    let generation ← gateGeneration
    if (link slot).state = .connected generation then
      return (.use c, touchSlot slot (← instantNow), [])
    else if ← gateAllows peer then
      return (.use c, touchSlot (setState slot (.connected generation)) (← instantNow), [])
    else
      let effects := closing (link slot).conn
      let slot := dropQueued (setConn slot none)
      let (slot, _, effects') := markLocalBlocked slot generation
      return (.revoked, slot, effects ++ effects')

/-- Classify an observed-dead connection. The flag says that the caller must fail fast. -/
def noteDeadConn (state : PeerConnState) (dead : ConnId) : Code (Bool × PeerConnState) := do
  let generation ← gateGeneration
  match state with
  | .rejected g _ _ => if g = generation then return (true, state) else other generation
  | _ => other generation
where
  other (generation : Nat) : Code (Bool × PeerConnState) := do
    match ← closeReason dead with
    | none => return (false, state)
    | some reason =>
      if isAuthCloseError reason.error then
        let now ← instantNow
        let delay := remoteRetryDelay 0 (← random)
        return (true, .rejected generation now (now + delay))
      else return (false, state)

inductive Readiness
  | dial
  | deny (shed : Bool)
  | wait

/-- Whether a dial may start, from what was read of the gate. -/
def readinessOf (state : PeerConnState) (allows : Bool) (generation : Nat) (now : Instant) :
    Readiness × PeerConnState :=
  if !allows then
    if state = .blocked generation then (.deny false, state)
    else (.deny true, .blocked generation)
  else
    match state with
    | .blocked _ => (.dial, .idle)
    | .rejected rejectedAt _ retryAfter =>
      if rejectedAt ≠ generation then (.dial, .idle)
      else if now ≥ retryAfter then (.dial, state)
      else (.wait, state)
    | .backoff until' _ => if now < until' then (.wait, state) else (.dial, state)
    | _ => (.dial, state)

/-- Dial-readiness, shared by `get`, `get_extra` and the packet path. -/
def readiness (state : PeerConnState) (peer : EndpointId) (now : Instant) :
    Code (Readiness × PeerConnState) := do
  let allows ← gateAllows peer
  let generation ← gateGeneration
  return readinessOf state allows generation now

/-- Record a remote rejection. `prev` is the generation and the start of the episode when the
dial began. -/
def markRemoteRejected (prev : Option (Nat × Instant)) (err : String) : Code (S × List Effect) := do
  let now ← instantNow
  let generation ← gateGeneration
  let first := match prev with
    | some (g, first) => if g = generation then first else now
    | none => now
  let delay := remoteRetryDelay (now - first) (← random)
  let slot' := setState (setWaiters slot none) (.rejected generation first (now + delay))
  return (slot', sending (link slot).dialWaiters (.error err))

/-- Record a transient failure; returns the deadline of the backoff. -/
def markBackoff (step : Nat) (err : String) : Code (S × List Effect × Instant) := do
  let wait := backoffDelay step (← random)
  let until' := (← instantNow) + wait
  let slot' := setState (setWaiters slot none) (.backoff until' (min (step + 1) (2 ^ 32 - 1)))
  return (slot', sending (link slot).dialWaiters (.error err), until')

/-- Record a local denial. -/
def markLocalDenied (err : String) : Code (S × List Effect) := do
  let generation ← gateGeneration
  let (slot', _, effects) := markLocalBlocked slot generation
  return (setWaiters slot' none, effects ++ sending (link slot).dialWaiters (.error err))

/-- The common beginning of `get_alpn`, `get_extra` and `send_or_buffer` under the lock. -/
inductive Entered
  | use (conn : ConnId)
  | revoked
  | rejected
  | ready (r : Readiness)

def enterSlot (now : Instant) : Code (Entered × S × List Effect) := do
  let (live, slot, effects) ← lockedLive slot peer
  match live with
  | .use c => return (.use c, slot, effects)
  | .revoked => return (.revoked, slot, effects)
  | .absent =>
    match (link slot).conn with
    | none => ready slot
    | some dead =>
      let slot := setConn slot none
      let (failFast, state) ← noteDeadConn (link slot).state dead
      let slot := setState slot state
      if failFast then return (.rejected, slot, []) else ready slot
where
  ready (slot : S) : Code (Entered × S × List Effect) := do
    let (r, state) ← readiness (link slot).state peer now
    return (.ready r, setState slot state, [])

/-- What a dialer takes along: the rejection episode and the backoff step when it was elected. -/
structure DialContext where
  rejected : Option (Nat × Instant)
  backoffStep : Nat

inductive Elected
  | waiter (tx : ChanId)
  | dialer (ctx : DialContext)

/-- Subscribe to the dial in flight, or become the dialer. -/
def elect : Code (Elected × S × List Effect) := do
  match (link slot).dialWaiters with
  | some tx => return (.waiter tx, slot, [])
  | none =>
    let tx ← Prog.request Request.channel
    let ctx : DialContext :=
      { rejected := match (link slot).state with
          | .rejected generation first _ => some (generation, first)
          | _ => none
        backoffStep := match (link slot).state with
          | .backoff _ step => step
          | _ => 0 }
    return (.dialer ctx, setState (setWaiters slot (some tx)) .dialing, [.openChannel tx])

end ConnSlot

end Tunnet.Pool

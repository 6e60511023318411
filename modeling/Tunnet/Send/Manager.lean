import Tunnet.Send.Inbox
import Tunnet.Util.Map
import Tunnet.Util.Run

/-!
# The send manager

`tunnet-core/src/send.rs`. Transfer records and pending offers are kept in two maps under the id of
the transfer, which for an inbound offer the remote side chooses.

Connections, outbound transfers and the decisions of the operator are tasks that run concurrently.
The code of a task is cut where it awaits something: a piece accesses the two maps at most once, and
what it got from outside (the answers of peers, of the blob store and of the file system) is in its
`Answers`.
-/

namespace Tunnet.Send

inductive TransferStatus
  | offered
  | pending
  | transferring
  | completed
  | failed
  | rejected
deriving DecidableEq

/-- `Completed`, `Failed` or `Rejected`. -/
def TransferStatus.isTerminal : TransferStatus → Bool
  | .completed | .failed | .rejected => true
  | .offered | .pending | .transferring => false

inductive TransferDirection
  | outbound
  | inbound
deriving DecidableEq

/-- The value of `percent`, by the expression it was computed from. -/
inductive Percent
  | zero
  | ratio (bytes total : Nat)
  | hundred
deriving DecidableEq

structure TransferRecord where
  transferId : String
  direction : TransferDirection
  peerEndpointId : String
  peerHostname : Option String
  fileName : String
  size : Nat
  hash : String
  format : SendBlobFormat
  isDirectory : Bool
  status : TransferStatus
  percent : Percent
  bytesTransferred : Nat
  message : Option String
  error : Option String
  inboxPath : Option String
  startedAt : Nat
  completedAt : Option Nat
deriving DecidableEq

/-- A pending inbound offer waiting for prompt consent. -/
structure PendingOffer where
  offer : TransferOffer
  peer : String

/-! ### Tasks -/

/-- Who waits for the end of `accept_offer_inner`. -/
inductive Caller
  | handler
  | operator

/-- The piece of code a task is about to run. -/
inductive Task
  /-- `handle_offer_connection` with the offer it has read. -/
  | offered (offer : TransferOffer) (peer : String)
  | consenting (offer : TransferOffer) (peer : String)
  | denying (offer : TransferOffer) (peer : String)
  | queueing (offer : TransferOffer) (peer : String)
  /-- `accept_offer_inner`. -/
  | accepting (offer : TransferOffer) (peer : String) (caller : Caller)
  | downloading (offer : TransferOffer) (peer : String) (caller : Caller)
  | exporting (offer : TransferOffer) (peer : String) (caller : Caller)
  | completing (offer : TransferOffer) (peer : String) (caller : Caller) (inbox : String)
  | failing (offer : TransferOffer) (peer : String) (caller : Caller) (error : String)
  /-- The end of `accept_pending`. -/
  | answering (id : String)
  /-- `reject_pending`. -/
  | rejecting (id reason : String)
  /-- `run_outbound`. -/
  | outbound (id : String)
  | awaitingDone (id : String)

/-- How far a download is. -/
inductive Download
  | progress (bytes : Nat)
  | done
  | failed (error : String)

/-- What `run_outbound` reads as the receiver's decision: accepted, or the reason. -/
structure Decision where
  accepted : Bool
  reason : Option String

/-- What `run_outbound` reads at the end. -/
structure Done where
  status : String
  error : Option String
  inboxPath : Option String

/-- What a piece gets from outside. -/
structure Answers where
  now : Nat
  hostname : Option String
  /-- Parsing the endpoint id of the peer to send to. -/
  endpoint : Except String Unit
  sharesTag : Bool
  /-- Writing to the stream, with the text of the error. -/
  write : Except String Unit
  /-- `Hash::from_str`. -/
  hash : Except String Unit
  download : Download
  /-- `export_to_inbox`. -/
  exported : Except String String
  decision : Except String Decision
  done : Except String Done

inductive Reply
  | registered (offer : TransferOffer) (peer : String)
  | running (offer : TransferOffer) (peer : String)
  | accepted (record : TransferRecord)
  | ok
  | error (text : String)
deriving DecidableEq

/-- What a piece does to the two maps. -/
inductive Access
  | none
  | upsert (record : TransferRecord)
  | updateStatus (id : String) (status : TransferStatus) (error inbox : Option String) (now : Nat)
  | updateProgress (id : String) (bytes total : Nat)
  | insertPending (pending : PendingOffer)
  | removePending (id : String)

/-- The end of a piece. -/
structure PieceEnd where
  access : Access
  next : Option Task
  reply : Option Reply

structure SendManager where
  consent : SendConsentMode
  transfers : Map String TransferRecord
  pending : Map String PendingOffer
  tasks : Nat → Option Task

/-! ### The two maps -/

/-- A record with a new status. -/
def TransferRecord.withStatus (t : TransferRecord) (status : TransferStatus)
    (error inbox : Option String) (now : Nat) : TransferRecord :=
  let t := { t with status := status, error := error }
  let t := if inbox.isSome then { t with inboxPath := inbox } else t
  if status.isTerminal then
    let t := { t with completedAt := some now }
    if status = .completed then { t with percent := .hundred } else t
  else t

def TransferRecord.withProgress (t : TransferRecord) (bytes total : Nat) : TransferRecord :=
  let t := { t with bytesTransferred := bytes, status := .transferring }
  if total > 0 then { t with percent := .ratio bytes total } else t

namespace SendManager

variable (m : SendManager)

def upsert (record : TransferRecord) : SendManager :=
  { m with transfers := m.transfers.insert record.transferId record }

def updateStatus (id : String) (status : TransferStatus) (error inbox : Option String)
    (now : Nat) : SendManager :=
  { m with transfers := m.transfers.modify id fun t => t.withStatus status error inbox now }

def updateProgress (id : String) (bytes total : Nat) : SendManager :=
  { m with transfers := m.transfers.modify id fun t => t.withProgress bytes total }

def access : Access → SendManager
  | .none => m
  | .upsert record => m.upsert record
  | .updateStatus id status error inbox now => m.updateStatus id status error inbox now
  | .updateProgress id bytes total => m.updateProgress id bytes total
  | .insertPending pending =>
    { m with pending := m.pending.insert pending.offer.transferId pending }
  | .removePending id => { m with pending := m.pending.erase id }

end SendManager

/-! ### The code -/

variable (offer : TransferOffer) (peer : String) (a : Answers)

/-- The record of an inbound offer. -/
def inboundRecord : TransferRecord where
  transferId := offer.transferId
  direction := .inbound
  peerEndpointId := peer
  peerHostname := a.hostname
  fileName := offer.fileName
  size := offer.size
  hash := offer.hash
  format := offer.format
  isDirectory := offer.isDirectory
  status := .pending
  percent := .zero
  bytesTransferred := 0
  message := offer.message
  error := none
  inboxPath := none
  startedAt := a.now
  completedAt := none

/-- The record of an outbound transfer, from the offer that will be sent. -/
def outboundRecord : TransferRecord where
  transferId := offer.transferId
  direction := .outbound
  peerEndpointId := peer
  peerHostname := a.hostname
  fileName := offer.fileName
  size := offer.size
  hash := offer.hash
  format := offer.format
  isDirectory := offer.isDirectory
  status := .offered
  percent := .zero
  bytesTransferred := 0
  message := offer.message
  error := none
  inboxPath := none
  startedAt := a.now
  completedAt := none

/-- The task that carries out the consent of an offer. -/
def consentTask : ConsentDecision → Task
  | .accept => .accepting offer peer .handler
  | .deny => .denying offer peer
  | .prompt => .queueing offer peer

/-- `accept_offer_inner` returns without an error. -/
def Caller.returns (id : String) : Caller → Option Task
  | .handler => none
  | .operator => some (.answering id)

/-- `accept_offer_inner` returns an error: the handler logs it, `accept_pending` passes it on. -/
def Caller.fails (error : String) : Caller → Option Reply
  | .handler => none
  | .operator => some (.error error)

/-- One piece of code. -/
def Task.run (m : SendManager) (a : Answers) : Task → PieceEnd
  | .offered offer peer =>
    ⟨.upsert (inboundRecord offer peer a), some (.consenting offer peer),
      some (.registered offer peer)⟩
  | .consenting offer peer =>
    ⟨.none, some (consentTask offer peer (m.consent.decide a.sharesTag)), none⟩
  | .denying offer _ =>
    ⟨.updateStatus offer.transferId .rejected (some "denied") none a.now, none, none⟩
  | .queueing offer peer => ⟨.insertPending ⟨offer, peer⟩, none, none⟩
  | .accepting offer peer caller =>
    match a.write with
    | .error e => ⟨.none, none, caller.fails e⟩
    | .ok () =>
      let access := .updateStatus offer.transferId .transferring none none a.now
      match a.hash with
      | .error e => ⟨access, none, caller.fails ("invalid hash: " ++ e)⟩
      | .ok () => ⟨access, some (.downloading offer peer caller), none⟩
  | .downloading offer peer caller =>
    match a.download with
    | .progress bytes =>
      ⟨.updateProgress offer.transferId bytes offer.size, some (.downloading offer peer caller),
        none⟩
    | .done => ⟨.none, some (.exporting offer peer caller), none⟩
    | .failed e => ⟨.none, some (.failing offer peer caller e), none⟩
  | .exporting offer peer caller =>
    match a.exported with
    | .error e => ⟨.none, none, caller.fails ("export to inbox: " ++ e)⟩
    | .ok inbox => ⟨.none, some (.completing offer peer caller inbox), none⟩
  | .completing offer _ caller inbox =>
    ⟨.updateStatus offer.transferId .completed none (some inbox) a.now,
      caller.returns offer.transferId, none⟩
  | .failing offer _ caller e =>
    ⟨.updateStatus offer.transferId .failed (some e) none a.now, none, caller.fails e⟩
  | .answering id =>
    match m.transfers.lookup id with
    | some record => ⟨.none, none, some (.accepted record)⟩
    | none => ⟨.none, none, some (.error "transfer missing after accept")⟩
  | .rejecting id reason =>
    match a.write with
    | .error e => ⟨.none, none, some (.error e)⟩
    | .ok () => ⟨.updateStatus id .rejected (some reason) none a.now, none, some .ok⟩
  | .outbound id =>
    match a.decision with
    | .error e => ⟨.updateStatus id .failed (some e) none a.now, none, none⟩
    | .ok d =>
      if d.accepted then
        ⟨.updateStatus id .transferring none none a.now, some (.awaitingDone id), none⟩
      else ⟨.updateStatus id .rejected d.reason none a.now, none, none⟩
  | .awaitingDone id =>
    match a.done with
    | .error e => ⟨.updateStatus id .failed (some e) none a.now, none, none⟩
    | .ok d =>
      if d.status = "completed" then
        ⟨.updateStatus id .completed none d.inboxPath a.now, none, none⟩
      else ⟨.updateStatus id .failed d.error none a.now, none, none⟩

inductive SendEvent
  /-- A permitted peer has sent an offer. -/
  | connect (t : Nat) (offer : TransferOffer) (peer : String)
  /-- `send_file_with_id`, for one of its peers. -/
  | send (t : Nat) (offer : TransferOffer) (peer : String) (a : Answers)
  | acceptPending (t : Nat) (id : String)
  | rejectPending (t : Nat) (id : String) (reason : Option String)
  | setConfig (consent : SendConsentMode)
  /-- The task runs its next piece. -/
  | run (t : Nat) (a : Answers)

namespace SendManager

def initial (consent : SendConsentMode) : SendManager := ⟨consent, ∅, ∅, fun _ => none⟩

variable (m : SendManager)

/-- The end of a piece of the task. -/
def finish (t : Nat) (e : PieceEnd) : SendManager × Option Reply :=
  ({ m.access e.access with tasks := Function.update m.tasks t e.next }, e.reply)

/-- The piece an event runs, and for which task. -/
def piece : SendEvent → Option (Nat × PieceEnd)
  | .connect t offer peer => some (t, ⟨.none, some (.offered offer peer), none⟩)
  | .send t offer peer a =>
    let access := .upsert (outboundRecord offer peer a)
    match a.endpoint with
    | .error e => some (t, ⟨access, none, some (.error ("parse peer endpoint id: " ++ e))⟩)
    | .ok () => some (t, ⟨access, some (.outbound offer.transferId), none⟩)
  | .acceptPending t id =>
    match m.pending.lookup id with
    | none => some (t, ⟨.none, none, some (.error ("no pending transfer `" ++ id ++ "`"))⟩)
    | some p =>
      some (t, ⟨.removePending id, some (.accepting p.offer p.peer .operator),
        some (.running p.offer p.peer)⟩)
  | .rejectPending t id reason =>
    match m.pending.lookup id with
    | none => some (t, ⟨.none, none, some (.error ("no pending transfer `" ++ id ++ "`"))⟩)
    | some _ => some (t, ⟨.removePending id, some (.rejecting id (reason.getD "rejected")), none⟩)
  | .setConfig _ => none
  | .run t a => (m.tasks t).map fun task => (t, task.run m a)

/-- Whether the event starts a task under a number that is in use. -/
def busy : SendEvent → Bool
  | .connect t _ _ | .send t _ _ _ | .acceptPending t _ | .rejectPending t _ _ =>
    (m.tasks t).isSome
  | .setConfig _ | .run _ _ => false

/-- One step. An event that is not possible changes nothing. -/
def step (i : SendEvent) : SendManager × Option Reply :=
  if m.busy i then (m, none)
  else
    match i, m.piece i with
    | .setConfig consent, _ => ({ m with consent := consent }, none)
    | _, none => (m, none)
    | _, some (t, e) => m.finish t e

end SendManager

end Tunnet.Send

import Tunnet.Direct.Membership

/-!
# The join authority of a coordinator

One authority per network owns the invites, the pending joins, the approvals and the address
reservations. Its methods run under one lock, so each is a function from the state to the next
state and a result. What a call takes from outside (the clock, fresh randomness, whether the
state file could be written) is an argument of the call.

A method changes the state in memory first and writes it afterwards: when the write fails the
change in memory stays, and it is lost when the authority is loaded again.
-/

namespace Tunnet.Direct

inductive InviteAdmission
  | immediate
  | approvalRequired
deriving DecidableEq

structure InviteCode where
  genesis : Genesis
  inviteSecret : String
  expiresAt : Timestamp
  coordinatorAddr : Option String
  admission : InviteAdmission

def inviteSecretHash (blake3 : List UInt8 → List UInt8) (secretHex : String) : String :=
  Hex.encode (blake3 (Str.asBytes (Str.trim secretHex)))

structure PendingJoin where
  endpointId : String
  hostname : String
  inviteHash : String
deriving DecidableEq

/-- Operators name a pending join by endpoint id or by hostname. -/
def PendingJoin.named (peer : String) (p : PendingJoin) : Bool :=
  p.endpointId == peer || p.hostname == peer

structure InviteRecord where
  secretHash : String
  reusable : Bool
  admission : InviteAdmission
  expiresAt : Timestamp
  revoked : Bool
  /-- One-time: the first presenter is bound. -/
  boundEndpoint : Option String
  allocatedIp : Option Ipv4Addr
  claimed : Bool
  createdAt : Timestamp
deriving DecidableEq

structure AuthorityDisk where
  networkId : Uuid
  invites : Map String InviteRecord
  pending : List PendingJoin
  approved : Finset String
  /-- Invite hash to the endpoint ids denied on that invite. -/
  rejected : Map String (Finset String)
deriving DecidableEq

structure Inner where
  disk : AuthorityDisk
  /-- What the state file holds; `none` before the first write. -/
  file : Option AuthorityDisk
  /-- The counters on which joiners wait for a decision. -/
  waiters : Map String UInt64
deriving DecidableEq

structure JoinSnapshot where
  members : List MembershipEntry
  revoked : Finset String

inductive JoinDecision
  | denied (reason : String)
  | pending
  | admitted (entry : MembershipEntry) (recover : Bool)
deriving DecidableEq

inductive AuthorityError
  | bail (message : String)
  /-- The state file could not be written. -/
  | persist
deriving DecidableEq

/-- What a call reads of the outside: the clock, once when it starts and once more if it needs a
second reading, and whether the state file can be written. -/
structure Outside where
  now : Timestamp
  later : Timestamp
  written : Bool

structure DirectAuthority where
  blake3 : List UInt8 → List UInt8
  networkId : Uuid
  genesis : Genesis

/-! ### State updates -/

namespace Inner

/-- Write the state file and go on, or stop with `err` and the state in memory as it is. -/
def persistThen {ε α : Type} (o : Outside) (err : ε) (g : Inner)
    (next : Inner → Inner × Except ε α) : Inner × Except ε α :=
  if o.written then next { g with file := some g.disk } else (g, .error err)

def notify (endpointId : String) (g : Inner) : Inner :=
  { g with waiters := g.waiters.modify endpointId (· + 1) }

def updateInvite (hash : String) (f : InviteRecord → InviteRecord) (g : Inner) : Inner :=
  { g with disk := { g.disk with invites := g.disk.invites.modify hash f } }

/-- `pending.retain` -/
def retainPending (keep : PendingJoin → Bool) (g : Inner) : Inner :=
  { g with disk := { g.disk with pending := g.disk.pending.filter keep } }

def pushPending (p : PendingJoin) (g : Inner) : Inner :=
  { g with disk := { g.disk with pending := g.disk.pending ++ [p] } }

/-- Take the first pending join that `peer` names. -/
def takePending (peer : String) (g : Inner) : Option (PendingJoin × Inner) :=
  match g.disk.pending.find? (·.named peer) with
  | none => none
  | some p =>
    let pending := g.disk.pending.eraseP (·.named peer)
    some (p, { g with disk := { g.disk with pending := pending } })

end Inner

namespace DirectAuthority

variable (A : DirectAuthority)

def load (file : Option AuthorityDisk) : Inner where
  disk := match file with
    | some disk => { disk with networkId := A.networkId }
    | none => ⟨A.networkId, ∅, [], ∅, ∅⟩
  file := file
  waiters := ∅

variable (o : Outside)

/-- `secret` is the random value the new invite's secret is the hex of. -/
def issueInvite (reusable requireApproval : Bool) (expires : Int)
    (secret : List UInt8) (g : Inner) : Inner × Except AuthorityError InviteCode :=
  if reusable && !requireApproval then
    (g, .error (.bail "reusable invites always require approval"))
  else if expires ≤ 0 then
    (g, .error (.bail "invite expiry must be positive"))
  else match o.now.checkedAdd expires with
    | none => (g, .error (.bail "invite expiry is outside the representable timestamp range"))
    | some expiresAt =>
      -- a reusable invite requires approval in any case
      let admission : InviteAdmission :=
        if reusable || requireApproval then .approvalRequired else .immediate
      let secret := Hex.encode secret
      let secretHash := inviteSecretHash A.blake3 secret
      let rec' : InviteRecord :=
        { secretHash, reusable, admission, expiresAt, revoked := false, boundEndpoint := none,
          allocatedIp := none, claimed := false, createdAt := o.later }
      let g := { g with disk := { g.disk with invites := g.disk.invites.insert secretHash rec' } }
      g.persistThen o .persist fun g =>
        (g, .ok ⟨A.genesis, secret, expiresAt, none, admission⟩)

variable (endpointId : String) (g : Inner)

/-- The joiner's counter, made on first use. -/
def subscribeAdmission : Inner × UInt64 :=
  match g.waiters.lookup endpointId with
  | some n => (g, n)
  | none => ({ g with waiters := g.waiters.insert endpointId 0 }, 0)

def revokeInviteSecret (inviteSecret : String) (g : Inner) : Inner × Except AuthorityError Unit :=
  let hash := inviteSecretHash A.blake3 inviteSecret
  match g.disk.invites.lookup hash with
  | none => (g, .error (.bail "unknown invite"))
  | some _ =>
    let g := g.updateInvite hash fun r => { r with revoked := true }
    let pendingIds := (g.disk.pending.filter (·.inviteHash == hash)).map (·.endpointId)
    (g.retainPending (·.inviteHash != hash)).persistThen o .persist fun g =>
      (pendingIds.foldl (fun g id => g.notify id) g, .ok ())

def approve : Inner × Except AuthorityError PendingJoin :=
  match g.takePending endpointId with
  | none => (g, .error (.bail "pending peer not found"))
  | some (pending, g) =>
    -- from here on it is forgotten on which invite the endpoint was approved
    let approved := insert pending.endpointId g.disk.approved
    let g := { g with disk := { g.disk with approved := approved } }
    g.persistThen o .persist fun g => (g.notify pending.endpointId, .ok pending)

def deny : Inner × Except AuthorityError Unit :=
  match g.takePending endpointId with
  | none => (g, .error (.bail "pending peer not found"))
  | some (pending, g) =>
    let denied := (g.disk.rejected.lookup pending.inviteHash).getD ∅
    let rejected := g.disk.rejected.insert pending.inviteHash (insert pending.endpointId denied)
    let g := { g with disk := { g.disk with rejected := rejected } }
    let g := g.updateInvite pending.inviteHash fun r =>
      -- a one-time invite the denied peer had not yet used up is free again
      if !r.reusable && r.boundEndpoint == some pending.endpointId && !r.claimed then
        { r with boundEndpoint := none, allocatedIp := none }
      else r
    g.persistThen o .persist fun g => (g.notify pending.endpointId, .ok ())

def confirm (endpointId : String) (ipv4 : Ipv4Addr) (g : Inner) :
    Inner × Except AuthorityError Unit :=
  let g := { g with disk := { g.disk with approved := g.disk.approved.erase endpointId } }
  let g := g.retainPending (·.endpointId != endpointId)
  -- every invite bound to the endpoint counts as used, not only the one it joined with
  let invites := g.disk.invites.mapVal fun _ r =>
    if r.boundEndpoint == some endpointId then { r with claimed := true, allocatedIp := some ipv4 }
    else r
  let g := { g with disk := { g.disk with invites := invites } }
  g.persistThen o .persist fun g => (g, .ok ())

/-! ### Deciding a join -/

/-- The member of the snapshot that `endpointId` already is, unless it was kicked. -/
def existingMember (snapshot : JoinSnapshot) (endpointId : String) : Option MembershipEntry :=
  snapshot.members.find? fun m => m.endpointId == endpointId && m.status != "kicked"

def existingJoinedOrNow (snapshot : JoinSnapshot) (endpointId : String) : Timestamp :=
  match snapshot.members.find? (·.endpointId == endpointId) with
  | some m => m.joinedAt
  | none => o.later

def newEntry (endpointId hostname : String) (ipv4 : Ipv4Addr) (joinedAt : Timestamp) :
    MembershipEntry where
  endpointId := endpointId
  hostname := hostname
  ipv4 := ipv4
  tags := []
  joinedAt := joinedAt
  coordinator := false
  status := "active"
  sshHostKey := none

/-- Bind a one-time invite to the first endpoint that presents it. -/
def bindInvite (hash endpointId : String) (r : InviteRecord) (g : Inner) : Except String Inner :=
  if r.reusable then .ok g
  else if r.boundEndpoint.any (· != endpointId) then .error "invite_claimed"
  else .ok (g.updateInvite hash fun r => { r with boundEndpoint := some endpointId })

/-- The address reserved on a one-time invite that `endpointId` has used up. -/
def reserved (hash endpointId : String) (g : Inner) : Option Ipv4Addr :=
  (g.disk.invites.lookup hash).bind fun r =>
    if !r.reusable && r.claimed && r.boundEndpoint == some endpointId then r.allocatedIp else none

/-- The last part of `decide_locked`: choose an address and admit. -/
def admitNew (hash endpointId hostname : String) (reusable : Bool)
    (snapshot : JoinSnapshot) (g : Inner) : Inner × Except String JoinDecision :=
  -- addresses reserved on other invites do not count as occupied
  let occupied := (snapshot.members.map (·.ipv4)).toFinset
  let carried := (g.disk.invites.lookup hash).bind (·.allocatedIp)
  let ipv4 : Except AddressPlanError Ipv4Addr := match carried with
    | some ip => .ok ip
    | none =>
      allocatePeerIp A.blake3 A.genesis.addressPlan A.genesis.networkId endpointId occupied
  match ipv4 with
  | .error _ => (g, .error "pool_exhausted")
  | .ok ipv4 =>
    -- a reusable invite keeps the address as well, and offers it to its next user
    let g := g.updateInvite hash fun r =>
      { r with allocatedIp := some ipv4, claimed := r.claimed || !reusable }
    g.persistThen o "persist_failed" fun g =>
      (g, .ok (.admitted (newEntry endpointId hostname ipv4 o.later) false))

/-- `decide_locked` once the invite `r` is bound to the endpoint, if it is to be bound. -/
def decideBound (hash endpointId hostname : String) (r : InviteRecord)
    (snapshot : JoinSnapshot) (g : Inner) : Inner × Except String JoinDecision :=
  match existingMember snapshot endpointId with
  | some existing =>
    -- also a reusable invite takes the member's address here
    let g := g.updateInvite hash fun r =>
      { r with allocatedIp := some existing.ipv4, claimed := true }
    g.persistThen o "persist_failed" fun g =>
      (g, .ok (.admitted { existing with hostname := hostname } true))
  | none =>
    match reserved hash endpointId g with
    | some ip =>
      -- approvals are not looked at on this path
      g.persistThen o "persist_failed" fun g =>
        let joinedAt := existingJoinedOrNow o snapshot endpointId
        (g, .ok (.admitted (newEntry endpointId hostname ip joinedAt) false))
    | none =>
      if r.admission = .approvalRequired ∧ endpointId ∉ g.disk.approved then
        let g := g.retainPending (·.endpointId != endpointId)
        (g.pushPending ⟨endpointId, hostname, hash⟩).persistThen o "persist_failed" fun g =>
          (g, .ok .pending)
      else A.admitNew o hash endpointId hostname r.reusable snapshot g

def decideLocked (endpointId hostname inviteSecret : String)
    (snapshot : JoinSnapshot) (g : Inner) : Inner × Except String JoinDecision :=
  let hash := inviteSecretHash A.blake3 inviteSecret
  match g.disk.invites.lookup hash with
  | none => (g, .error "invalid_or_used_invite")
  | some r =>
    if r.revoked then (g, .error "invite_revoked")
    else if r.expiresAt < o.now then
      -- an expired invite takes its pending joins with it
      (g.retainPending (·.inviteHash != hash)).persistThen o "persist_failed" fun g =>
        (g, .error "invite_expired")
    else if endpointId ∈ snapshot.revoked then (g, .error "revoked")
    else if endpointId ∈ (g.disk.rejected.lookup hash).getD ∅ then (g, .error "rejected")
    else match bindInvite hash endpointId r g with
      | .error reason => (g, .error reason)
      | .ok g => A.decideBound o hash endpointId hostname r snapshot g

def decide (endpointId hostname inviteSecret : String) (snapshot : JoinSnapshot)
    (g : Inner) : Inner × JoinDecision :=
  match A.decideLocked o endpointId hostname inviteSecret snapshot g with
  | (g, .ok d) => (g, d)
  | (g, .error reason) => (g, .denied reason)

end DirectAuthority

/-! ### The authority as a machine -/

inductive AuthorityCall
  /-- The process starts again and reads the state file. -/
  | load
  | issueInvite (o : Outside) (reusable requireApproval : Bool) (expires : Int)
      (secret : List UInt8)
  | subscribeAdmission (endpointId : String)
  | revokeInviteSecret (o : Outside) (inviteSecret : String)
  | approve (o : Outside) (endpointId : String)
  | deny (o : Outside) (endpointId : String)
  | decide (o : Outside) (endpointId hostname inviteSecret : String) (snapshot : JoinSnapshot)
  | confirm (o : Outside) (endpointId : String) (ipv4 : Ipv4Addr)

inductive AuthorityReply
  | loaded
  | issued (result : Except AuthorityError InviteCode)
  | subscribed (count : UInt64)
  | revoked (result : Except AuthorityError Unit)
  | approved (result : Except AuthorityError PendingJoin)
  | denied (result : Except AuthorityError Unit)
  | decision (result : JoinDecision)
  | confirmed (result : Except AuthorityError Unit)

abbrev AuthorityHistory := List (AuthorityCall × AuthorityReply)

namespace DirectAuthority

variable (A : DirectAuthority)

def step (g : Inner) : AuthorityCall → Inner × AuthorityReply
  | .load => (A.load g.file, .loaded)
  | .issueInvite o reusable requireApproval expires secret =>
    (A.issueInvite o reusable requireApproval expires secret g).map id .issued
  | .subscribeAdmission e => (subscribeAdmission e g).map id .subscribed
  | .revokeInviteSecret o secret => (A.revokeInviteSecret o secret g).map id .revoked
  | .approve o e => (approve o e g).map id .approved
  | .deny o e => (deny o e g).map id .denied
  | .decide o e hostname secret snapshot =>
    (A.decide o e hostname secret snapshot g).map id .decision
  | .confirm o e ip => (confirm o e ip g).map id .confirmed

end DirectAuthority

end Tunnet.Direct

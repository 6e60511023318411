import Tunnet.Net.Ip
import Tunnet.Util.Map
import Tunnet.Util.Str

/-!
# Re-authentication for SSH

A destination agent asks whether the last authentication of a peer is fresh enough (`evaluate`).
If it is not, a challenge is stored, which the user completes in a browser; that gives a proof
token, which the destination agent then sends for verification (`verify`). The requests of all
agents run concurrently, and a request is cut into its database statements.
-/

namespace Tunnet.Control

inductive ChallengeStatus
  | pending
  | completed
  | expired
  | failed
deriving DecidableEq

/-- A row of `ssh_auth_challenges`, with times in microseconds. -/
structure Challenge where
  token : String
  endpointId : String
  dstEndpointId : String
  status : ChallengeStatus
  proofToken : Option String
  proofExpiresAt : Option Int
  proofConsumedAt : Option Int
  expiresAt : Int
  createdAt : Int

structure VerifyRequest where
  /-- The endpoint of the agent that sends the request. -/
  dst : String
  peerEndpointId : String
  checkPeriodSecs : Nat
  authToken : Option String

/-- A request, before its next statement. -/
inductive SshTask
  | evaluateSharing (dst peer : String) (period : Nat)
  | evaluateLastAuth (dst peer : String) (period : Nat)
  | evaluateInsert (dst peer : String)
  | verifySharing (r : VerifyRequest)
  | verifyProof (r : VerifyRequest) (token : String)
  | verifyConsume (r : VerifyRequest) (token : String)
  | verifyLastAuth (r : VerifyRequest)

/-- The answer to a request. -/
inductive SshBody
  | error (code : Nat) (text : String)
  | evaluateOk (authenticatedAt : Timestamp)
  | reauthUrl (challengeToken : String) (expiresAt : Timestamp)
  | okProof
  | okLastAuth (authenticatedAt : Timestamp)
  | reauthRequired
deriving DecidableEq

inductive SshOutput
  | none
  /-- The answer to a request of the agent, with the proof token it sent. -/
  | response (dst : String) (authToken : Option String) (body : SshBody)
  /-- A proof token was issued for a challenge of the destination. -/
  | completed (proof dst : String)
deriving DecidableEq

/-- What a statement finds outside: the clock, a database error, whether the two endpoints share an
active network, and a random token. -/
structure SshAnswers where
  now : Timestamp
  db : Except String Unit
  shared : Bool
  random : String

/-- What a statement writes. -/
inductive SshWrite
  | none
  | insert (c : Challenge)
  | consume (token : String) (now : Int)

structure SshEnd where
  write : SshWrite
  next : Option SshTask
  output : SshOutput

structure SshAuth where
  challenges : List Challenge
  /-- `ssh_auth_checks`: when an endpoint has authenticated, in microseconds. -/
  checks : Map String Int
  tasks : Nat → Option SshTask

/-! ### The code -/

/-- `validate_endpoint_id`. -/
def validateEndpointId (s : String) : Bool :=
  s.utf8ByteSize == 64 && s.toList.all fun c =>
    c.isDigit || ('a' ≤ c && c ≤ 'f') || ('A' ≤ c && c ≤ 'F')

/-- The authentication is not older than the period. -/
def isFresh (now authenticatedAt : Timestamp) (period : Nat) : Bool :=
  let age := (now - authenticatedAt).tdiv 1000000000
  decide (0 ≤ age) && decide (age < period)

/-- The proof of a row is accepted for the peer. -/
def Challenge.accepts (c : Challenge) (peer : String) (now : Timestamp) : Bool :=
  c.status == .completed && Str.eqIgnoreAsciiCase c.endpointId peer && c.proofConsumedAt.isNone &&
    (((c.proofExpiresAt.bind Timestamp.fromMicrosecond).map fun expiry =>
      decide (now ≤ expiry)).getD true)

namespace SshEnd

/-- The request goes on. -/
def goOn (next : SshTask) : SshEnd := ⟨.none, some next, .none⟩

/-- The request is answered. -/
def answer (dst : String) (token : Option String) (body : SshBody) : SshEnd :=
  ⟨.none, none, .response dst token body⟩

def dbError (dst : String) (token : Option String) (e : String) : SshEnd :=
  answer dst token (.error 500 ("db: " ++ e))

end SshEnd

/-- What follows the check of the networks: the proof, if one is sent, or the last
authentication. -/
def VerifyRequest.afterSharing (r : VerifyRequest) : SshTask :=
  match r.authToken.filter (· ≠ "") with
  | some token => .verifyProof r token
  | none => .verifyLastAuth r

/-- One statement, with the code up to the next one. -/
def SshTask.run (s : SshAuth) (a : SshAnswers) : SshTask → SshEnd
  | .evaluateSharing dst peer period =>
    match a.db with
    | .error e => .dbError dst none e
    | .ok () =>
      if a.shared then .goOn (.evaluateLastAuth dst peer period)
      else .answer dst none (.error 403 "no shared active network")
  | .evaluateLastAuth dst peer period =>
    match a.db with
    | .error e => .dbError dst none e
    | .ok () =>
      match s.checks.lookup peer with
      | none => .goOn (.evaluateInsert dst peer)
      | some micros =>
        match Timestamp.fromMicrosecond micros with
        | none => .answer dst none (.error 500 "db time")
        | some authenticatedAt =>
          if isFresh a.now authenticatedAt period then
            .answer dst none (.evaluateOk authenticatedAt)
          else .goOn (.evaluateInsert dst peer)
  | .evaluateInsert dst peer =>
    match a.db with
    | .error e => .dbError dst none e
    | .ok () =>
      let expires := a.now + 600 * 1000000000
      if s.challenges.any (·.token == a.random) then .dbError dst none "duplicate key"
      else
        { write := .insert ⟨a.random, peer, dst, .pending, none, none, none,
            Timestamp.asMicrosecond expires, Timestamp.asMicrosecond a.now⟩
          next := none
          output := .response dst none (.reauthUrl a.random expires) }
  | .verifySharing r =>
    match a.db with
    | .error e => .dbError r.dst r.authToken e
    | .ok () =>
      if a.shared then .goOn r.afterSharing
      else .answer r.dst r.authToken (.error 403 "no shared active network")
  | .verifyProof r token =>
    match a.db with
    | .error e => .dbError r.dst r.authToken e
    | .ok () =>
      match s.challenges.find? (·.proofToken == some token) with
      | some c =>
        if c.accepts r.peerEndpointId a.now then .goOn (.verifyConsume r token)
        -- Fall through to last-auth check if proof invalid.
        else .goOn (.verifyLastAuth r)
      | none => .goOn (.verifyLastAuth r)
  | .verifyConsume r token =>
    -- The result of the update is not looked at.
    match a.db with
    | .error _ => .answer r.dst r.authToken .okProof
    | .ok () =>
      ⟨.consume token (Timestamp.asMicrosecond a.now), none, .response r.dst r.authToken .okProof⟩
  | .verifyLastAuth r =>
    match a.db with
    | .error e => .dbError r.dst r.authToken e
    | .ok () =>
      match s.checks.lookup r.peerEndpointId with
      | none => .answer r.dst r.authToken .reauthRequired
      | some micros =>
        match Timestamp.fromMicrosecond micros with
        | none => .answer r.dst r.authToken (.error 500 "db time")
        | some authenticatedAt =>
          if isFresh a.now authenticatedAt r.checkPeriodSecs then
            .answer r.dst r.authToken (.okLastAuth authenticatedAt)
          else .answer r.dst r.authToken .reauthRequired

/-! ### Steps -/

inductive SshEvent
  | evaluate (t : Nat) (dst peer : String) (period : Nat)
  | verify (t : Nat) (r : VerifyRequest)
  /-- The request runs its next statement. -/
  | run (t : Nat) (a : SshAnswers)
  /-- The user has authenticated: the transaction of `completeChallenge`. -/
  | complete (challenge proof : String) (now : Int)
  /-- A pending challenge expires. -/
  | expire (challenge : String)
  /-- The browser pages mark a challenge as expired or failed. -/
  | mark (challenge : String) (status : ChallengeStatus)
  /-- `purge_expired_ephemera`. -/
  | purge (now : Int)

namespace SshAuth

def initial : SshAuth := ⟨[], ∅, fun _ => none⟩

variable (s : SshAuth)

/-- `UPDATE ssh_auth_challenges … WHERE token = …`. -/
def update (challenge : String) (f : Challenge → Challenge) : SshAuth :=
  { s with challenges := s.challenges.map fun c => if c.token = challenge then f c else c }

/-- Mark the proof as consumed, unless it is. -/
def consume (token : String) (now : Int) : SshAuth :=
  { s with
    challenges := s.challenges.map fun c =>
      if c.proofToken = some token ∧ c.proofConsumedAt = none then
        { c with proofConsumedAt := some now }
      else c }

def write : SshWrite → SshAuth
  | .none => s
  | .insert c => { s with challenges := s.challenges ++ [c] }
  | .consume token now => s.consume token now

/-- The request `t` has run a statement. -/
def finish (t : Nat) (e : SshEnd) : SshAuth × SshOutput :=
  ({ s.write e.write with tasks := Function.update s.tasks t e.next }, e.output)

/-- The row is to be purged. -/
def isPurged (now : Int) (c : Challenge) : Bool :=
  decide (c.expiresAt < now) ||
    (c.status != .pending && decide (c.createdAt < now - 7 * 24 * 3600 * 1000000)) ||
    (c.proofExpiresAt.any (decide <| · < now) && c.proofConsumedAt.isSome)

/-- What the start of a request leads to. -/
def start : SshEvent → Option (Nat × SshEnd)
  | .evaluate t dst peer period =>
    if period = 0 then some (t, .answer dst none (.error 400 "checkPeriodSecs must be > 0"))
    else if validateEndpointId peer then some (t, .goOn (.evaluateSharing dst peer period))
    else some (t, .answer dst none (.error 400 "invalid peerEndpointId"))
  | .verify t r =>
    if validateEndpointId r.peerEndpointId then some (t, .goOn (.verifySharing r))
    else some (t, .answer r.dst r.authToken (.error 400 "invalid peerEndpointId"))
  | _ => none

/-- One step. An event that is not possible changes nothing. -/
def step (i : SshEvent) : SshAuth × SshOutput :=
  match i with
  | .evaluate _ _ _ _ | .verify _ _ =>
    match start i with
    | some (t, e) => if (s.tasks t).isSome then (s, .none) else s.finish t e
    | none => (s, .none)
  | .run t a =>
    match s.tasks t with
    | some task => s.finish t (task.run s a)
    | none => (s, .none)
  | .complete challenge proof now =>
    match s.challenges.find? (·.token == challenge) with
    | some c =>
      ({ s.update challenge fun c =>
          { c with status := .completed, proofToken := some proof,
                   proofExpiresAt := some (now + 120 * 1000000) } with
          checks := s.checks.insert c.endpointId now },
        .completed proof c.dstEndpointId)
    | none => (s, .none)
  | .expire challenge =>
    (s.update challenge fun c => if c.status = .pending then { c with status := .expired } else c,
      .none)
  | .mark challenge status => (s.update challenge fun c => { c with status := status }, .none)
  | .purge now =>
    ({ s with challenges := s.challenges.filter fun c => !isPurged now c }, .none)

end SshAuth

end Tunnet.Control

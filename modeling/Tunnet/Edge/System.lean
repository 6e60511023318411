import Tunnet.Net.Ip
import Tunnet.Util.Base64
import Tunnet.Util.Map

/-!
# The public edge

Agents connect and register, each in a session of its own, heartbeats bring the tunnels the control
plane has assigned, and clients connect over HTTPS. A session is cut where it waits: after the
registration is accepted, while it is connected, and between taking its tunnel out of the registry
and dropping its transport.

The edge keeps two maps by subdomain: the tokens and settings it expects (`AuthStore`), which
heartbeats and registrations write, and the tunnels that are connected (`TunnelRegistry`), which
agent sessions write.
-/

namespace Tunnet.Edge

structure RedirectRule where
  pathPattern : String
  targetPort : UInt16
  targetIpv4 : Option Ipv4Addr
deriving DecidableEq

/-- Public TCP port mapping on the public edge. -/
structure PortMapping where
  externalPort : UInt16
  targetPort : UInt16
  /-- When set, the agent dials this mesh IP instead of localhost. -/
  targetIpv4 : Option Ipv4Addr
deriving DecidableEq

structure TunnelAuth where
  tunnelId : String
  authToken : String
  localPort : UInt16
  protocol : String
  basicAuthUser : Option String
  basicAuthPasswordHash : Option String
  redirectRules : List RedirectRule
  portMappings : List PortMapping

/-! ### The expected tokens -/

/-- Expected auth tokens and tunnel metadata keyed by subdomain. -/
abbrev AuthStore := Map String TunnelAuth

namespace AuthStore

variable (store : AuthStore) (subdomain : String)

def insert (auth : TunnelAuth) : AuthStore :=
  Finmap.insert (Str.toAsciiLowercase subdomain) auth store

def get : Option TunnelAuth :=
  store.lookup (Str.toAsciiLowercase subdomain)

def verify (token : String) : Bool :=
  match store.lookup (Str.toAsciiLowercase subdomain) with
  | some expected => expected.authToken == token
  -- Open mode when empty: accept reasonably long tokens.
  | none => store.isEmpty && decide (16 ≤ token.utf8ByteSize)

def retainSubdomains (keep : List String) : AuthStore :=
  let keepLower := keep.map Str.toAsciiLowercase
  store.retain fun k _ => keepLower.any (· == k)

end AuthStore

/-! ### The connected tunnels -/

/-- A tunnel of a connected agent. The transport is that of the session. -/
structure TunnelSlot where
  session : Nat
  tunnelId : String
  subdomain : String
deriving DecidableEq

abbrev TunnelRegistry := Map String TunnelSlot

def normalizeHost (host : String) : String :=
  Str.toAsciiLowercase (Str.trim (Str.before ':' host))

namespace TunnelRegistry

variable (registry : TunnelRegistry)

def insert (slot : TunnelSlot) : TunnelRegistry :=
  Finmap.insert (Str.toAsciiLowercase slot.subdomain) slot registry

/-- Exact subdomain match, or first label of FQDN. -/
def get (host : String) : Option TunnelSlot :=
  let key := normalizeHost host
  match registry.lookup key with
  | some slot => some slot
  | none => registry.lookup (Str.before '.' key)

def removeTunnel (tunnelId : String) : TunnelRegistry :=
  registry.retain fun _ slot => slot.tunnelId != tunnelId

end TunnelRegistry

/-! ### Heartbeats -/

/-- One tunnel of a heartbeat response. -/
structure HeartbeatTunnelAuth where
  tunnelId : String
  subdomain : String
  authToken : String
  localPort : UInt16
  protocol : String
  basicAuthUser : Option String
  basicAuthPasswordHash : Option String
  redirectRules : List RedirectRule
  portMappings : List PortMapping
deriving DecidableEq

/-- The answer to a heartbeat request. -/
inductive HeartbeatAnswer
  /-- No answer, or one whose status is no success. -/
  | failed
  /-- A success whose body cannot be parsed. -/
  | unparseable
  | tunnels (ts : List HeartbeatTunnelAuth)

/-- `ControlClient::heartbeat`. -/
def heartbeat : HeartbeatAnswer → Option (List HeartbeatTunnelAuth)
  | .failed => none
  | .unparseable => some []
  | .tunnels ts => some ts

/-- The port mappings of a tunnel; a TCP tunnel without any is mapped to its own port. -/
def HeartbeatTunnelAuth.maps (t : HeartbeatTunnelAuth) : List PortMapping :=
  if t.protocol = "tcp" ∧ t.portMappings = [] ∧ 0 < t.localPort then
    [⟨t.localPort, t.localPort, none⟩]
  else t.portMappings

/-- What is expected of the agent of a tunnel. -/
def HeartbeatTunnelAuth.auth (t : HeartbeatTunnelAuth) : TunnelAuth where
  tunnelId := t.tunnelId
  authToken := t.authToken
  localPort := t.localPort
  protocol := t.protocol
  basicAuthUser := t.basicAuthUser
  basicAuthPasswordHash := t.basicAuthPasswordHash
  redirectRules := t.redirectRules
  portMappings := t.maps

namespace AuthStore

/-- What the heartbeat loop does with the tunnels of a response. -/
def applyHeartbeat (store : AuthStore) (ts : List HeartbeatTunnelAuth) : AuthStore :=
  let store := ts.foldl (fun store t => store.insert t.subdomain t.auth) store
  store.retainSubdomains (ts.map (·.subdomain))

end AuthStore

/-! ## Basic authentication at the public listener

The first bytes of a connection are read, and if the tunnel has basic authentication they must have
the credentials. `passwords` gives the password of a hash: the check of a password is exact. -/

abbrev Bytes := List UInt8

/-- The first of the header lines with the name, in lower case. -/
def findHeader (nameLower : String) : List String → Option String
  | [] => none
  | line :: rest =>
    if line = "" ∨ line = "\r" then none
    else
      match Str.splitOnce ':' (Str.trimEndMatches '\r' line) with
      | none => findHeader nameLower rest
      | some (k, v) =>
        if Str.eqIgnoreAsciiCase (Str.trim k) nameLower then some (Str.trim v)
        else findHeader nameLower rest

def extractHeader (buf : Bytes) (name : String) : Option String := do
  let text ← Str.fromUtf8 buf
  findHeader (Str.toAsciiLowercase name) ((Str.lines text).drop 1)

/-- The user and the password of a request. -/
def credentials (buf : Bytes) : Option (String × String) := do
  let value ← extractHeader buf "authorization"
  let encoded ← (Str.stripPrefix "Basic " value).or (Str.stripPrefix "basic " value)
  let decoded ← Base64.decode (Str.trim encoded)
  let pair ← Str.fromUtf8 decoded
  Str.splitOnce ':' pair

def verifyBasicAuth (passwords : String → Option String) (buf : Bytes)
    (expectedUser passwordHash : String) : Bool :=
  match credentials buf with
  | none => false
  | some (user, password) => user == expectedUser && passwords passwordHash == some password

def unauthorizedResponse : String :=
  "HTTP/1.1 401 Unauthorized\r\nWWW-Authenticate: Basic realm=\"Tunnet\"\r\n" ++
    "Content-Type: text/plain\r\nContent-Length: 13\r\nConnection: close\r\n\r\nUnauthorized\n"

/-- What becomes of a client connection. -/
inductive Splice
  | unauthorized (response : String)
  /-- What is sent to the agent. -/
  | spliced (sent : List Bytes)
deriving DecidableEq

/-- `splice_tls_to_agent`, given what each read from the client returns until one of the sides
fails; an empty read is the end. -/
def spliceTlsToAgent (passwords : String → Option String) (basicUser basicHash : Option String)
    (reads : List Bytes) : Splice :=
  let peek := reads.headD []
  let spliced := .spliced ((if peek = [] then [] else [peek]) ++ reads.tail.takeWhile (· ≠ []))
  match basicUser, basicHash with
  | some user, some hash =>
    if peek = [] ∨ verifyBasicAuth passwords peek user hash = false then
      .unauthorized unauthorizedResponse
    else spliced
  | _, _ => spliced

/-! ## Sessions, heartbeats and clients -/

/-- `EdgeCtrl::Register`. -/
structure Register where
  tunnelId : String
  subdomain : String
  authToken : String
  localPort : UInt16
  protocol : String

/-- How far an agent session is. -/
inductive Phase
  /-- The token is accepted, and the answer has still to be sent. -/
  | accepted
  | connected
  /-- The tunnel is out of the registry, and the transport is still there. -/
  | leaving
deriving DecidableEq

structure Session where
  tunnelId : String
  subdomain : String
  phase : Phase
deriving DecidableEq

/-- The state of the edge. -/
structure EdgeState where
  auth : AuthStore
  registry : TunnelRegistry
  sessions : Nat → Option Session

inductive EdgeEvent
  | heartbeat (answer : HeartbeatAnswer)
  /-- The agent of a new session has sent its registration. -/
  | register (n : Nat) (reg : Register)
  /-- The answer to an accepted registration is sent, or cannot be sent. -/
  | welcome (n : Nat) (sent : Bool)
  /-- The control stream of the session has ended. -/
  | leave (n : Nat)
  | dropTransport (n : Nat)
  /-- A client connects: the name it asks for, whether a stream to the agent opens, and what it
  sends. -/
  | client (host : Option String) (opens : Bool) (reads : List Bytes)

/-- What becomes of a client. -/
inductive ClientEnd
  | noServerName
  | noTunnel
  | notConnected
  | openFailed
  | proxied (slot : TunnelSlot) (splice : Splice)
deriving DecidableEq

inductive EdgeReply
  | done
  /-- The token of a registration is accepted. -/
  | accepted
  /-- The answer "invalid auth token". -/
  | invalidAuthToken
  | client (result : ClientEnd)
deriving DecidableEq

namespace EdgeState

def initial : EdgeState := ⟨∅, ∅, fun _ => none⟩

/-- The store after an accepted registration: the token is refreshed, the settings stay. -/
def refresh (store : AuthStore) (reg : Register) : AuthStore :=
  let stored := store.get reg.subdomain
  store.insert reg.subdomain
    { tunnelId := reg.tunnelId
      authToken := reg.authToken
      localPort := reg.localPort
      protocol := reg.protocol
      basicAuthUser := stored.bind (·.basicAuthUser)
      basicAuthPasswordHash := stored.bind (·.basicAuthPasswordHash)
      redirectRules := (stored.map (·.redirectRules)).getD []
      portMappings := (stored.map (·.portMappings)).getD [] }

/-- `handle_agent`, up to the answer. -/
def register (e : EdgeState) (n : Nat) (reg : Register) : EdgeState × EdgeReply :=
  if e.auth.verify reg.subdomain reg.authToken then
    ({ e with
        auth := refresh e.auth reg
        sessions := Function.update e.sessions n (some ⟨reg.tunnelId, reg.subdomain, .accepted⟩) },
      .accepted)
  else (e, .invalidAuthToken)

/-- Whether the slot of a session has a transport. -/
def hasTransport (e : EdgeState) (n : Nat) : Bool :=
  match e.sessions n with
  | some s => s.phase == .connected || s.phase == .leaving
  | none => false

variable (passwords : String → Option String) (e : EdgeState)

/-- `handle_https_client`. -/
def handleHttpsClient (host : Option String) (opens : Bool) (reads : List Bytes) : ClientEnd :=
  match host with
  | none => .noServerName
  | some host =>
    match e.registry.get host with
    | none => .noTunnel
    | some slot =>
      if e.hasTransport slot.session then
        let tunnelAuth := e.auth.get slot.subdomain
        if opens then
          .proxied slot (spliceTlsToAgent passwords (tunnelAuth.bind (·.basicAuthUser))
            (tunnelAuth.bind (·.basicAuthPasswordHash)) reads)
        else .openFailed
      else .notConnected

/-- One step. An event that is not possible changes nothing. -/
def step : EdgeEvent → EdgeState × EdgeReply
  | .heartbeat answer =>
    match heartbeat answer with
    | some ts => ({ e with auth := e.auth.applyHeartbeat ts }, .done)
    | none => (e, .done)
  | .register n reg =>
    match e.sessions n with
    | none => e.register n reg
    | some _ => (e, .done)
  | .welcome n sent =>
    match e.sessions n with
    | some ⟨tunnelId, subdomain, .accepted⟩ =>
      if sent then
        ({ e with
            registry := e.registry.insert ⟨n, tunnelId, subdomain⟩
            sessions := Function.update e.sessions n (some ⟨tunnelId, subdomain, .connected⟩) },
          .done)
      else ({ e with sessions := Function.update e.sessions n none }, .done)
    | _ => (e, .done)
  | .leave n =>
    match e.sessions n with
    | some ⟨tunnelId, subdomain, .connected⟩ =>
      ({ e with
          registry := e.registry.removeTunnel tunnelId
          sessions := Function.update e.sessions n (some ⟨tunnelId, subdomain, .leaving⟩) },
        .done)
    | _ => (e, .done)
  | .dropTransport n =>
    match e.sessions n with
    | some ⟨_, _, .leaving⟩ => ({ e with sessions := Function.update e.sessions n none }, .done)
    | _ => (e, .done)
  | .client host opens reads => (e, .client (e.handleHttpsClient passwords host opens reads))

end EdgeState

end Tunnet.Edge

import Tunnet.Acl.Engine

/-!
# The stream proxy of a gateway

A peer opens a stream and names a host and a port; the gateway decides what to connect to, asks the
policy, and connects. The resolution of names and what can be reached are the network's.
-/

namespace Tunnet.Stream

open Policy Acl
open Routing (Tables)

def pingHost : String := "__tunnet_ping__"

structure StreamHeader where
  dstPort : UInt16
  host : String

structure AcceptedStream where
  header : StreamHeader
  peerHex : String

/-- What a connection is opened to: an address in text or a name. -/
inductive ConnectHost
  | ip (ip : Ipv4Addr)
  | name (host : String)

/-- The network of the gateway. -/
structure Network where
  resolve : String → List IpAddr
  reachable : IpAddr → UInt16 → Bool

/-- `TcpStream::connect`: the first address that answers. -/
def Network.connect (net : Network) (host : ConnectHost) (port : UInt16) : Option IpAddr :=
  let addrs : List IpAddr := match host with
    | .ip ip => [.v4 ip]
    | .name host => net.resolve host
  addrs.find? (net.reachable · port)

/-- Why a destination is refused. -/
inductive Refusal
  /-- Destination not routable here. -/
  | notRoutable
  /-- Not our hostname route. -/
  | notOurRoute
deriving DecidableEq

inductive StreamEnd
  | ping
  | refused (reason : Refusal)
  /-- Flow policy denies the destination. -/
  | denied
  | connectFailed
  | proxied (addr : IpAddr)
deriving DecidableEq

variable (routes : Tables)

/-- What to connect to, and the address that the policy is asked about. -/
def destination (host : String) : Except Refusal (ConnectHost × Option Ipv4Addr) :=
  match Ipv4Addr.parse host with
  | some ip =>
    if routes.isAdvertisedDestination ip then .ok (.ip ip, some ip) else .error .notRoutable
  | none =>
    match routes.lookupHostnameRoute host with
    | some info =>
      if routes.isAdvertisedHostname host then
        match info.targetIp with
        | some target => .ok (.ip target, some target)
        | none => .ok (.name host, none)
      else .error .notOurRoute
    | none =>
      if routes.isAdvertisedHostname host then .ok (.name host, none) else .error .notRoutable

/-- The flow of a proxied stream: the requesting peer as source principal, the target as
destination. -/
def streamFlow (acl : AclEngine) (peerHex : String) (dstIp : Option Ipv4Addr)
    (dstPort : UInt16) : FlowContext where
  src := acl.peerEndpoint routes peerHex
  dst := .external dstIp
  protocol := .tcp
  dstPort := some dstPort
  srcPostureOk := true

def authorizeStream (clock : Clock) (peerHex : String) (dstIp : Option Ipv4Addr)
    (dstPort : UInt16) (acl : AclEngine) : AclEngine × Bool :=
  acl.allowFlow clock (streamFlow routes acl peerHex dstIp dstPort) peerHex

def handleAccepted (clock : Clock) (net : Network) (accepted : AcceptedStream)
    (acl : AclEngine) : AclEngine × StreamEnd :=
  let host := accepted.header.host
  let port := accepted.header.dstPort
  if host = pingHost then (acl, .ping)
  else
    match destination routes host with
    | .error reason => (acl, .refused reason)
    | .ok (connectHost, dstIp) =>
      let out := authorizeStream routes clock accepted.peerHex dstIp port acl
      if out.2 then
        match net.connect connectHost port with
        | some addr => (out.1, .proxied addr)
        | none => (out.1, .connectFailed)
      else (out.1, .denied)

end Tunnet.Stream

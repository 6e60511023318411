import Tunnet.Acl.Engine
import Tunnet.Direct.AuthCache
import Tunnet.Direct.Firewall

/-!
# The inbound reader

What happens to a datagram read from a peer's connection: it is parsed, its source is compared
with the peer's mesh address, the access-control engine and the firewall of the network are
asked, and what is left goes to the TUN device. `serveDatagram` is the body of the reader's loop.
-/

namespace Tunnet.Agent

open Routing (Tables PeerInfo)
open Acl (AclEngine Clock)
open Direct (FirewallEngine FirewallText)

/-- The authorisation cache, whose sets of ids are iterated in an order of the hash set's choice. -/
structure AuthCache extends Direct.AuthCache where
  enumerate : Finset Uuid → List Uuid
  mem_enumerate : ∀ s id, id ∈ enumerate s ↔ id ∈ s

/-! ### Spoofing -/

/-- The source of a packet is the mesh address of its peer. -/
def sourceMatchesPeer (packetSrc peerMeshIp : Ipv4Addr) : Bool := packetSrc == peerMeshIp

/-- Counts of spoofed packets, with a warning at most once in a window. -/
structure SpoofTracker where
  byPeer : Map String UInt64
  total : UInt64
  lastLog : Instant
  window : Nat

namespace SpoofTracker

/-- Count a packet, and say whether a warning is due. -/
def record (now : Instant) (peerHex : String) (t : SpoofTracker) : SpoofTracker × Bool :=
  let count := (t.byPeer.lookup peerHex).getD 0
  let t := { t with total := t.total + 1, byPeer := t.byPeer.insert peerHex (count + 1) }
  if t.window ≤ now - t.lastLog then ({ t with lastLog := now }, true) else (t, false)

/-- The counts start again; what they were is only logged. -/
def drainWindowCounts (t : SpoofTracker) : SpoofTracker :=
  { t with byPeer := t.byPeer.mapVal fun _ _ => 0 }

end SpoofTracker

/-! ### The reader -/

/-- The parts of the data plane that work on bytes: the packet parser, the firewall's texts and
answers, and the rewriting of intercepted connections. -/
structure Wire where
  parse : List UInt8 → Except ParseError Packet
  text : FirewallText
  rewriteInbound : List UInt8 → List UInt8

/-- What the reader of a connection fixes when it starts. -/
structure Reader where
  remoteHex : String
  inboundNetwork : Option Uuid

/-- The network of a connection is one that the peer has authenticated for, or else the one that
the tables have the peer in. -/
def Reader.start (directAuth : Option AuthCache) (routes : Tables) (remoteHex : String) : Reader :=
  ⟨remoteHex, (directAuth.bind fun a => (a.enumerate (a.networksFor remoteHex)).head?) <|>
    (routes.lookupEndpoint remoteHex).map (·.networkId)⟩

structure InboundState where
  acl : AclEngine
  firewalls : Map Uuid FirewallEngine
  spoofs : Map Uuid SpoofTracker

/-- What handling one datagram reads of the outside. -/
structure Moment where
  clock : Clock
  /-- The TUN device was taken down before the packet could be sent. -/
  cancelled : Bool

inductive Outcome
  /-- The packet is counted under `reason`; a nonempty `reply` goes back to the peer. -/
  | dropped (reason : String) (reply : List UInt8)
  /-- The bytes are handed to the TUN device. -/
  | sent (bytes : List UInt8)
  /-- The reader ends without sending. -/
  | stopped
deriving DecidableEq

namespace Reader

variable (r : Reader) (w : Wire) (routes : Tables) (m : Moment)

variable (src : Ipv4Addr)

/-- The peer that the source of a packet is compared with: whoever holds the source address in
the connection's network, or else the peer at the other end. -/
def peerInfo : Option PeerInfo :=
  (r.inboundNetwork.bind fun nid => routes.lookupNetworkIp nid src) <|>
    routes.lookupEndpoint r.remoteHex

def isSpoofed : Bool :=
  (r.peerInfo routes src).any fun p => !sourceMatchesPeer src p.ip

def recordSpoof (s : InboundState) : InboundState :=
  match r.inboundNetwork <|> (r.peerInfo routes src).map (·.networkId) with
  | none => s
  | some nid =>
    { s with spoofs := s.spoofs.modify nid fun tracker =>
      let out := tracker.record m.clock.now r.remoteHex
      if out.2 then out.1.drainWindowCounts else out.1 }

def deliver (dg : List UInt8) (s : InboundState) : InboundState × Outcome :=
  if m.cancelled then (s, .stopped) else (s, .sent (w.rewriteInbound dg))

/-- The network whose firewall is asked. -/
def peerNet : Option Uuid :=
  (r.peerInfo routes src).map (·.networkId) <|> r.inboundNetwork

variable (dg : List UInt8) (pkt : Packet) (src : Ipv4Addr) (s : InboundState)

def filter : InboundState × Outcome :=
  match r.peerNet routes src with
  | none => deliver w m dg s
  | some nid =>
    match s.firewalls.lookup nid with
    | none => deliver w m dg s
    | some fw =>
      -- the endpoint is the one at the other end, the hostname is that of the source's holder
      let out := fw.evaluate w.text m.clock.now .inbound pkt (some r.remoteHex)
        ((r.peerInfo routes src).map (·.hostname)) (some nid)
      let s := { s with firewalls := s.firewalls.insert nid out.1 }
      match out.2 with
      | .allow => deliver w m dg s
      | .deny => (s, .dropped "fw_deny_in" [])
      | .reject reply => (s, .dropped "fw_reject_in" reply)

def serveV4 : InboundState × Outcome :=
  if r.isSpoofed routes src then (r.recordSpoof routes m src s, .dropped "antispoof" [])
  else
    let acl := s.acl.allowPacket routes m.clock r.remoteHex .inbound pkt
    let s := { s with acl := acl.1 }
    if acl.2 then r.filter w routes m dg pkt src s else (s, .dropped "policy_deny_in" [])

def serveDatagram : InboundState × Outcome :=
  match w.parse dg with
  | .error e => (s, .dropped e.dropReason [])
  | .ok pkt =>
    match pkt.ip.v4Src with
    | none => (s, .dropped "ipv6_unsupported_in" [])
    | some src => r.serveV4 w routes m dg pkt src s

end Reader

end Tunnet.Agent

import Tunnet.Packet.Conntrack
import Tunnet.Policy.Evaluate
import Tunnet.Routing.Tables

/-!
# The access-control engine

Policy for the packets of the data plane: fragments are resolved, packets of a tracked flow pass,
and everything else is a flow between this node and a peer that the policy bundle decides. The
routing tables and the clock are arguments of a call.
-/

namespace Tunnet.Acl

open Policy Conntrack
open Routing (Tables)

def denyLogCap : Nat := 64

structure SelfIdentity where
  endpointHex : String
  ip : Ipv4Addr
  tags : List String
  network : String

structure AclDenyRecord where
  peerEndpoint : String
  dstPort : Option UInt16
  protocol : String
  reason : String
  ruleSlug : Option String
  scope : Option String
  atUnix : Int

structure AclEngine where
  selfId : SelfIdentity
  bundle : PolicyBundle
  stale : Bool
  /-- When false, rules that require a source posture do not match. -/
  srcPostureOk : Bool
  denyLog : List AclDenyRecord
  conntrack : Conntrack.Table
  fragments : FragmentTable

/-- The clocks a call reads: the monotonic one, and the wall clock in seconds. -/
structure Clock where
  now : Instant
  unix : Int

/-- `format!("{proto:?}").to_lowercase()` -/
def protocolName : Protocol → String
  | .tcp => "tcp"
  | .udp => "udp"
  | .icmp => "icmp"
  | .icmpv6 => "icmpv6"
  | .any => "any"
  | .other n => "other(" ++ toString n.toNat ++ ")"

def reasonName : EvalReason → String
  | .orgDeny => "org_deny"
  | .networkDeny => "network_deny"
  | .networkAllow => "network_allow"
  | .defaultAllow => "default_allow"
  | .defaultDeny => "default_deny"
  | .icmpPolicy => "icmp_policy"
  | .postureSkip => "posture_skip"

def scopeName : RuleScope → String
  | .organization => "organization"
  | .network => "network"

def protoNum : Protocol → Option UInt8
  | .tcp => some 6
  | .udp => some 17
  | .icmp => some 1
  | .icmpv6 => some 58
  | .other n => some n
  | .any => none

/-- Both directions of an ICMP exchange have one key; the other protocols have one for each. -/
def flowKey (proto : Protocol) (src dst : Ipv4Addr) (srcPort dstPort : Option UInt16) :
    Option FlowKey :=
  (protoNum proto).map fun proto =>
    if proto = 1 then ⟨proto, Ipv4Addr.min src dst, srcPort.getD 0, Ipv4Addr.max src dst, 0⟩
    else ⟨proto, src, srcPort.getD 0, dst, dstPort.getD 0⟩

/-- `FlowKey::reverse` -/
def reverse (k : FlowKey) : FlowKey := ⟨k.proto, k.dst, k.dport, k.src, k.sport⟩

/-- A verdict no rule was asked for. -/
def verdict (action : Action) (reason : EvalReason) : EvalVerdict := ⟨action, reason, none, none⟩

namespace AclEngine

variable (selfId : SelfIdentity) (bundle : PolicyBundle)

def withPostureFlag (srcPostureOk : Bool) : AclEngine where
  selfId := selfId
  bundle := bundle
  stale := false
  srcPostureOk := srcPostureOk
  denyLog := []
  conntrack := ∅
  fragments := .default

def new : AclEngine :=
  withPostureFlag selfId bundle true

/-- One tick of the task that `spawn_gc` starts. -/
def collect (now : Instant) (a : AclEngine) : AclEngine :=
  { a with conntrack := a.conntrack.retain fun _ st => !isExpired st now }

/-- The flows that the bundle before had opened are forgotten. -/
def replaceBundle (a : AclEngine) : AclEngine :=
  { a with bundle := bundle, stale := false, conntrack := ∅, fragments := a.fragments.clear }

def replaceSelfTags (tags : List String) (a : AclEngine) : AclEngine :=
  if a.selfId.tags = tags then a else { a with selfId := { a.selfId with tags } }

variable (routes : Tables) (clock : Clock)

def selfEndpoint (a : AclEngine) : FlowEndpoint :=
  ⟨a.selfId.endpointHex, a.selfId.tags, a.selfId.network, some a.selfId.ip⟩

variable (peerHex : String)

/-- The identity of a mesh peer; an unknown one has no tags and no address. -/
def peerEndpoint (a : AclEngine) : FlowEndpoint :=
  match routes.lookupEndpoint peerHex with
  | some p => ⟨peerHex, p.tags, a.selfId.network, some p.ip⟩
  | none => ⟨peerHex, [], a.selfId.network, none⟩

def recordDeny (dstPort : Option UInt16) (proto : Protocol) (v : EvalVerdict)
    (a : AclEngine) : AclEngine :=
  let log := if denyLogCap ≤ a.denyLog.length then a.denyLog.drop 1 else a.denyLog
  { a with denyLog := log ++ [⟨peerHex, dstPort, protocolName proto, reasonName v.reason,
      v.ruleSlug, v.scope.map scopeName, clock.unix⟩] }

/-- An open network without rules stays open while the policy cannot be refreshed. -/
def failsOpen (a : AclEngine) : Bool :=
  a.stale && a.bundle.rules.isEmpty && a.bundle.defaultAction == .allow

def evaluateFlow (flow : FlowContext) (peerHex : String) (a : AclEngine) :
    AclEngine × EvalVerdict :=
  -- a bundle that asks for no posture anywhere does not depend on the device's
  let postureRequired := !a.bundle.defaultSrcPosture.isEmpty ||
    a.bundle.rules.any fun r => !r.srcPosture.isEmpty
  let flow := { flow with srcPostureOk := if postureRequired then flow.srcPostureOk else true }
  let v := Policy.evaluateFlow a.bundle flow
  if v.action = .deny then
    if a.failsOpen then (a, verdict .allow .defaultAllow)
    else (a.recordDeny clock peerHex flow.dstPort flow.protocol v, v)
  else (a, v)

def allowFlow (flow : FlowContext) (peerHex : String) (a : AclEngine) : AclEngine × Bool :=
  (a.evaluateFlow clock flow peerHex).map id (·.action == .allow)

variable (src dst : Ipv4Addr) (direction : Direction) (l4 : ResolvedL4)

/-- The flow of a packet; its own addresses say more about the peer's side than the tables. -/
def packetFlow (a : AclEngine) : FlowContext :=
  let peer := a.peerEndpoint routes peerHex
  match direction with
  | .outbound =>
    ⟨a.selfEndpoint, { peer with ip := some dst }, l4.protocol, l4.dstPort, a.srcPostureOk⟩
  | .inbound =>
    ⟨{ peer with ip := some src }, a.selfEndpoint, l4.protocol, l4.dstPort, a.srcPostureOk⟩

/-- The flow is tracked and live. -/
def conntrackAllows (key : Option FlowKey) (flags : UInt8) (a : AclEngine) : AclEngine × Bool :=
  match key with
  | none => (a, false)
  | some key =>
    let out := Conntrack.allows clock.now direction key (reverse key) flags a.conntrack
    ({ a with conntrack := out.1 }, out.2)

def openOrRefreshFlow (key : Option FlowKey) (proto : Protocol) (flags : UInt8) (a : AclEngine) :
    AclEngine :=
  match key with
  | none => a
  | some key =>
    { a with conntrack := Conntrack.openOrRefresh clock.now key proto flags a.conntrack }

def check (a : AclEngine) : AclEngine × EvalVerdict :=
  let flags := (l4.tcpFlags.map (·.bits)).getD 0
  let key := flowKey l4.protocol src dst l4.srcPort l4.dstPort
  let tracked := a.conntrackAllows clock direction key flags
  let a := tracked.1
  if tracked.2 then (a, verdict .allow .defaultAllow)
  else
    let out := a.evaluateFlow clock (a.packetFlow routes peerHex src dst direction l4) peerHex
    if out.2.action = .deny then out
    -- what the policy allows opens the way for the answers
    else (out.1.openOrRefreshFlow clock key l4.protocol flags, out.2)

def evaluatePacket (packet : Packet) (a : AclEngine) : AclEngine × EvalVerdict :=
  match packet.ip.v4Src, packet.ip.v4Dst with
  | some src, some dst =>
    let resolved := a.fragments.resolve clock.now packet
    let a := { a with fragments := resolved.1 }
    match resolved.2 with
    -- a later fragment whose first one was not seen
    | none => (a, verdict .deny .defaultDeny)
    | some l4 => a.check routes clock peerHex src dst direction l4
  | _, _ => (a, verdict .deny .defaultDeny)

def allowPacket (packet : Packet) (a : AclEngine) : AclEngine × Bool :=
  (a.evaluatePacket routes clock peerHex direction packet).map id (·.action == .allow)

end AclEngine

end Tunnet.Acl

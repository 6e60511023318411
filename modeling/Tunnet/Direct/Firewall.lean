import Tunnet.Packet.Conntrack

/-!
# The direct firewall

A stateful packet filter of each direct network. Packets of a tracked flow pass; then the local
rules are tried, then the suggested ones, and the default lets everything out and everything from
a known peer in.
-/

namespace Tunnet.Direct

open Policy (Protocol PortRange Direction)
open Conntrack (FlowKey)

inductive FirewallDirection
  | in
  | out
deriving DecidableEq

inductive FirewallAction
  | allow
  | deny
  | reject
deriving DecidableEq

inductive PeerFilter
  | any
  | endpoint (id : String)
  | hostname (name : String)
  | networkId (id : String)
deriving DecidableEq

structure FirewallRule where
  direction : FirewallDirection
  action : FirewallAction
  protocol : Protocol
  /-- Empty means any port. -/
  ports : List PortRange
  peer : PeerFilter
deriving DecidableEq

structure FirewallConfig where
  enabled : Bool
  rules : List FirewallRule
  version : UInt64

def defaultFirewall : FirewallConfig := ⟨true, [], 1⟩

inductive EvalResult
  | allow
  | deny
  /-- With the packet that tells the sender, if one can be made. -/
  | reject (reply : List UInt8)
deriving DecidableEq

structure FirewallEngine where
  enabled : Bool
  localRules : List FirewallRule
  suggestedRules : List FirewallRule
  version : UInt64
  conntrack : Conntrack.Table
  fragments : FragmentTable
  allowed : UInt64
  denied : UInt64
  rejected : UInt64

/-- How network ids are written and read, and how the answer to a rejected packet is made. -/
structure FirewallText where
  uuidToString : Uuid → String
  parseUuid : String → Option Uuid
  synthesizeReject : Packet → Option (List UInt8)

namespace Firewall

variable (src dst : Ipv4Addr) (l4 : ResolvedL4)

/-- Both directions of an ICMP exchange have one key. -/
def forward : Option FlowKey :=
  l4.protocol.ipNumber.map fun proto =>
    if l4.protocol.isIcmp then
      ⟨proto, Ipv4Addr.min src dst, l4.icmpId.getD 0, Ipv4Addr.max src dst, 0⟩
    else ⟨proto, src, l4.srcPort.getD 0, dst, l4.dstPort.getD 0⟩

def reverse : Option FlowKey :=
  if l4.protocol.isIcmp then forward src dst l4
  else l4.protocol.ipNumber.map fun proto =>
    ⟨proto, dst, l4.dstPort.getD 0, src, l4.srcPort.getD 0⟩

def tcpFlags : UInt8 := (l4.tcpFlags.map (·.bits)).getD 0

def peerMatches (text : FirewallText) (filter : PeerFilter) (peerHex peerHostname : Option String)
    (networkId : Option Uuid) : Bool :=
  match filter with
  | .any => true
  | .endpoint id => peerHex.any (Str.eqIgnoreAsciiCase · id)
  | .hostname h => peerHostname.any (Str.eqIgnoreAsciiCase · h)
  | .networkId n =>
    networkId.any fun id =>
      Str.eqIgnoreAsciiCase (text.uuidToString id) n || text.parseUuid n == some id

def wantDirection : Direction → FirewallDirection
  | .inbound => .in
  | .outbound => .out

def portMatches (rule : FirewallRule) : Bool :=
  -- ICMP has no port: a port list does not keep a rule from matching it
  rule.ports.isEmpty || l4.protocol.isIcmp ||
    l4.dstPort.any fun port => rule.ports.any (·.contains port)

def ruleMatches (text : FirewallText) (direction : Direction) (l4 : ResolvedL4)
    (peerHex peerHostname : Option String) (networkId : Option Uuid) (rule : FirewallRule) : Bool :=
  rule.direction == wantDirection direction && l4.protocol.matchesRule (some rule.protocol) &&
    portMatches l4 rule && peerMatches text rule.peer peerHex peerHostname networkId

/-- The action of the first rule that matches. -/
def matchRules (text : FirewallText) (rules : List FirewallRule) (direction : Direction)
    (l4 : ResolvedL4) (peerHex peerHostname : Option String) (networkId : Option Uuid) :
    Option FirewallAction :=
  (rules.find? (ruleMatches text direction l4 peerHex peerHostname networkId)).map (·.action)

def defaultPolicy (direction : Direction) (l4 : ResolvedL4) (peerHex : Option String) :
    FirewallAction :=
  match direction with
  | .outbound => .allow
  | .inbound =>
    if peerHex.isSome then .allow
    -- echo requests and replies pass even without a known peer
    else if l4.protocol = .icmp ∧ (l4.icmpType = some 0 ∨ l4.icmpType = some 8) then .allow
    else .deny

end Firewall

namespace FirewallEngine

open Firewall

def fromConfig (cfg : FirewallConfig) : FirewallEngine where
  enabled := cfg.enabled
  localRules := cfg.rules
  suggestedRules := []
  version := cfg.version
  conntrack := ∅
  fragments := .default
  allowed := 0
  denied := 0
  rejected := 0

/-- One tick of the task that `spawn_gc` starts. -/
def collect (now : Instant) (f : FirewallEngine) : FirewallEngine :=
  { f with conntrack := f.conntrack.retain fun _ st => !Conntrack.isExpired st now }

def reloadLocal (cfg : FirewallConfig) (f : FirewallEngine) : FirewallEngine :=
  { f with enabled := cfg.enabled, localRules := cfg.rules, version := cfg.version }

def setSuggested (rules : List FirewallRule) (f : FirewallEngine) : FirewallEngine :=
  { f with suggestedRules := rules }

def clearSuggested (f : FirewallEngine) : FirewallEngine := { f with suggestedRules := [] }

def flushConntrack (f : FirewallEngine) : FirewallEngine :=
  { f with conntrack := ∅, fragments := f.fragments.clear }

variable (text : FirewallText) (now : Instant)

variable (direction : Direction) (src dst : Ipv4Addr) (l4 : ResolvedL4)

def conntrackAllows (f : FirewallEngine) : FirewallEngine × Bool :=
  match forward src dst l4, reverse src dst l4 with
  | some fwd, some rev =>
    let out := Conntrack.allows now direction fwd rev (tcpFlags l4) f.conntrack
    ({ f with conntrack := out.1 }, out.2)
  | _, _ => (f, false)

def openOrRefreshFlow (f : FirewallEngine) : FirewallEngine :=
  match forward src dst l4 with
  | none => f
  | some key =>
    { f with conntrack := Conntrack.openOrRefresh now key l4.protocol (tcpFlags l4) f.conntrack }

def applyAction (action : FirewallAction) (packet : Packet) (src dst : Ipv4Addr) (l4 : ResolvedL4)
    (f : FirewallEngine) : FirewallEngine × EvalResult :=
  match action with
  | .allow =>
    let f := f.openOrRefreshFlow now src dst l4
    ({ f with allowed := f.allowed + 1 }, .allow)
  | .deny => ({ f with denied := f.denied + 1 }, .deny)
  | .reject =>
    ({ f with rejected := f.rejected + 1 }, .reject ((text.synthesizeReject packet).getD []))

/-- The action for a packet of no tracked flow. -/
def chooseAction (peerHex peerHostname : Option String)
    (networkId : Option Uuid) (f : FirewallEngine) : FirewallAction :=
  match matchRules text f.localRules direction l4 peerHex peerHostname networkId with
  | some action => action
  | none =>
    match matchRules text f.suggestedRules direction l4 peerHex peerHostname networkId with
    | some action => action
    | none => defaultPolicy direction l4 peerHex

def evaluate (packet : Packet) (peerHex peerHostname : Option String)
    (networkId : Option Uuid) (f : FirewallEngine) : FirewallEngine × EvalResult :=
  if !f.enabled then ({ f with allowed := f.allowed + 1 }, .allow)
  else match packet.ip.v4Src, packet.ip.v4Dst with
    | some src, some dst =>
      let resolved := f.fragments.resolve now packet
      let f := { f with fragments := resolved.1 }
      match resolved.2 with
      -- a later fragment whose first one was not seen
      | none => ({ f with denied := f.denied + 1 }, .deny)
      | some l4 =>
        let tracked := f.conntrackAllows now direction src dst l4
        let f := tracked.1
        if tracked.2 then ({ f with allowed := f.allowed + 1 }, .allow)
        else
          let action := f.chooseAction text direction l4 peerHex peerHostname networkId
          f.applyAction text now action packet src dst l4
    | _, _ => ({ f with denied := f.denied + 1 }, .deny)

end FirewallEngine

end Tunnet.Direct

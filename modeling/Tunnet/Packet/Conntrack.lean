import Tunnet.Packet.Fragment

/-!
# Connection tracking

The table of live flows. The access-control engine and the direct firewall keep one each, with
the same phases and lifetimes; they differ in how they make the key of a packet, so the two
functions here take the keys of both directions as arguments.
-/

namespace Tunnet.Conntrack

open Policy (Protocol Direction)

structure FlowKey where
  proto : UInt8
  src : Ipv4Addr
  sport : UInt16
  dst : Ipv4Addr
  dport : UInt16
deriving DecidableEq

inductive TcpPhase
  | synSent
  | established
  | timeWait
deriving DecidableEq

inductive FlowPhase
  | tcp (phase : TcpPhase)
  | udp
  | icmp
deriving DecidableEq

structure FlowState where
  phase : FlowPhase
  lastSeen : Instant

abbrev Table := Map FlowKey FlowState

/-- How long a silent flow lives. -/
def FlowPhase.ttl : FlowPhase → Nat
  | tcp .timeWait => seconds 10
  | tcp _ => seconds 300
  | udp => seconds 30
  | icmp => seconds 10

def isExpired (st : FlowState) (now : Instant) : Bool := st.phase.ttl < now - st.lastSeen

/-- A flag bit is set. -/
def has (flags bit : UInt8) : Bool := flags &&& bit != 0

variable (now : Instant) (direction : Direction)

/-- The flow after another packet of it. -/
def FlowState.advance (flags : UInt8) (st : FlowState) : FlowState :=
  let closing := has flags TcpFlags.RST || has flags TcpFlags.FIN
  match st.phase with
  | .tcp .synSent =>
    -- any packet from the other side counts as an answer
    if direction = .inbound ∨ has flags TcpFlags.ACK ∨ has flags TcpFlags.RST then
      ⟨.tcp (if closing then .timeWait else .established), now⟩
    else { st with lastSeen := now }
  | .tcp .established => ⟨.tcp (if closing then .timeWait else .established), now⟩
  | .tcp .timeWait => { st with lastSeen := now }
  | .udp => { st with lastSeen := now }
  | .icmp => { st with lastSeen := now }

/-- The key under which a flow with these keys is tracked. -/
def trackedKey (fwd rev : FlowKey) (t : Table) : Option FlowKey :=
  if (t.lookup fwd).isSome then some fwd
  else if (t.lookup rev).isSome then some rev
  else none

/-- `conntrack_allows`: a packet of a live flow passes and refreshes it; an expired flow is
removed. -/
def allows (fwd rev : FlowKey) (flags : UInt8) (t : Table) : Table × Bool :=
  match trackedKey fwd rev t with
  | none => (t, false)
  | some key =>
    match t.lookup key with
    | none => (t, false)
    | some st =>
      if isExpired st now then (t.erase key, false)
      else (t.insert key (st.advance now direction flags), true)

/-- The phase in which a packet opens a flow; other protocols are not tracked. -/
def openingPhase (proto : Protocol) (flags : UInt8) : Option FlowPhase :=
  match proto with
  | .tcp =>
    if has flags TcpFlags.SYN && !has flags TcpFlags.ACK then some (.tcp .synSent)
    -- a connection met in the middle is taken as established
    else if has flags TcpFlags.FIN || has flags TcpFlags.RST then some (.tcp .timeWait)
    else some (.tcp .established)
  | .udp => some .udp
  | .icmp => some .icmp
  | .icmpv6 => some .icmp
  | .any => none
  | .other _ => none

/-- A flow already tracked, when a packet with the opening phase `phase` is let through. -/
def FlowState.refresh (phase : FlowPhase) (st : FlowState) : FlowState :=
  let opened := st.phase = .tcp .synSent ∧ phase = .tcp .established
  ⟨if opened ∨ phase = .tcp .timeWait then phase else st.phase, now⟩

/-- `open_or_refresh_flow` -/
def openOrRefresh (key : FlowKey) (proto : Protocol) (flags : UInt8) (t : Table) : Table :=
  match openingPhase proto flags with
  | none => t
  | some phase =>
    match t.lookup key with
    | none => t.insert key ⟨phase, now⟩
    | some st => t.insert key (st.refresh now phase)

end Tunnet.Conntrack

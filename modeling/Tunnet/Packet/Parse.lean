import Tunnet.Packet.Types

/-!
# Parsing packets

From the slices that the `etherparse` crate hands over to the view of a packet that the data plane
works on. The crate is a parameter (`Etherparse`): what it reads at each layer, or that it fails.
It reads the transport header of unfragmented packets only; for a first fragment the header is
guessed from the bytes at hand, and when they do not hold it the packet is of an `other` transport,
without ports.
-/

namespace Tunnet

/-! ### What `etherparse` reads -/

structure TcpSlice where
  sourcePort : UInt16
  destinationPort : UInt16
  sequenceNumber : UInt32
  acknowledgmentNumber : UInt32
  fin : Bool
  syn : Bool
  rst : Bool
  psh : Bool
  ack : Bool
  urg : Bool
  headerLen : Nat
  payloadLen : Nat

structure UdpSlice where
  sourcePort : UInt16
  destinationPort : UInt16
  payloadLen : Nat

structure Icmpv4Slice where
  typeU8 : UInt8
  codeU8 : UInt8
  /-- The identifier and the sequence number of an echo request or reply. -/
  echo : Option (UInt16 × UInt16)
  payloadLen : Nat

structure Icmpv6Slice where
  typeU8 : UInt8
  codeU8 : UInt8
  payloadLen : Nat

structure IgmpSlice where
  sliceLen : Nat
  headerLen : Nat

inductive TransportSlice
  | tcp (tcp : TcpSlice)
  | udp (udp : UdpSlice)
  | icmpv4 (icmp : Icmpv4Slice)
  | icmpv6 (icmp : Icmpv6Slice)
  | igmp (igmp : IgmpSlice)

structure IpPayloadSlice where
  ipNumber : UInt8
  fragmented : Bool
  payload : List UInt8

structure Ipv4Slice where
  totalLen : UInt16
  identification : UInt16
  fragmentsOffset : UInt16
  moreFragments : Bool
  ihl : UInt8
  ttl : UInt8
  sourceAddr : Ipv4Addr
  destinationAddr : Ipv4Addr
  payload : IpPayloadSlice

/-- A fragment header among the extensions of an IPv6 packet. -/
structure Ipv6Fragment where
  identification : UInt32
  fragmentOffset : UInt16
  moreFragments : Bool

structure Ipv6Slice where
  payloadLength : UInt16
  hopLimit : UInt8
  sourceAddr : Ipv6Addr
  destinationAddr : Ipv6Addr
  /-- The fragment headers among the extensions, in order. -/
  fragments : List Ipv6Fragment
  payload : IpPayloadSlice

inductive NetSlice
  | ipv4 (v4 : Ipv4Slice)
  | ipv6 (v6 : Ipv6Slice)
  | other

structure SlicedPacket where
  net : Option NetSlice
  transport : Option TransportSlice

/-- The layer in which bytes are missing. -/
inductive Layer
  | tcpHeader
  | udpHeader
  | ipv4Packet
  | ipv6Packet
  | other

inductive SliceError
  | len (layer : Layer)
  | unsupportedIpVersion (version : UInt8)
  | headerLengthSmallerThanHeader
  | unexpectedVersion (version : UInt8)
  | tcp
  | other

/-- The functions of the crate that the parser calls. -/
structure Etherparse where
  fromIp : List UInt8 → Except SliceError SlicedPacket
  tcpFromSlice : List UInt8 → Option TcpSlice
  udpFromSlice : List UInt8 → Option UdpSlice
  icmpv4FromSlice : List UInt8 → Option Icmpv4Slice
  icmpv6FromSlice : List UInt8 → Option Icmpv6Slice

/-! ### The parser -/

namespace Parse

def tcpTransport (tcp : TcpSlice) : Transport :=
  let flag (set : Bool) (bit : UInt8) : UInt8 := if set then bit else 0
  .tcp tcp.sourcePort tcp.destinationPort
    ⟨flag tcp.fin TcpFlags.FIN ||| flag tcp.syn TcpFlags.SYN ||| flag tcp.rst TcpFlags.RST |||
      flag tcp.psh TcpFlags.PSH ||| flag tcp.ack TcpFlags.ACK ||| flag tcp.urg TcpFlags.URG⟩
    tcp.sequenceNumber tcp.acknowledgmentNumber tcp.headerLen tcp.payloadLen

def udpTransport (udp : UdpSlice) : Transport :=
  .udp udp.sourcePort udp.destinationPort udp.payloadLen

def decodeTransport (payload : IpPayloadSlice) : Option TransportSlice → Transport
  | some (.tcp tcp) => tcpTransport tcp
  | some (.udp udp) => udpTransport udp
  | some (.icmpv4 icmp) =>
    .icmpv4 icmp.typeU8 icmp.codeU8 (icmp.echo.map (·.1)) (icmp.echo.map (·.2)) icmp.payloadLen
  | some (.icmpv6 icmp) => .icmpv6 icmp.typeU8 icmp.codeU8 icmp.payloadLen
  | some (.igmp igmp) => .other payload.ipNumber (igmp.sliceLen - igmp.headerLen)
  | none => .other payload.ipNumber payload.payload.length

variable (E : Etherparse)

/-- Read the transport header where the crate did not. -/
def guessTransport (payload : IpPayloadSlice) : Option TransportSlice :=
  if payload.payload.isEmpty then none
  else if payload.ipNumber = 6 then (E.tcpFromSlice payload.payload).map .tcp
  else if payload.ipNumber = 17 then (E.udpFromSlice payload.payload).map .udp
  else if payload.ipNumber = 1 then (E.icmpv4FromSlice payload.payload).map .icmpv4
  else if payload.ipNumber = 58 then (E.icmpv6FromSlice payload.payload).map .icmpv6
  else none

def parseIpv4 (raw : List UInt8) (v4 : Ipv4Slice) (transport : Option TransportSlice) : Packet :=
  let identification := v4.identification.toUInt32
  let offset := v4.fragmentsOffset
  let more := v4.moreFragments
  let fragmentation : Fragmentation := if offset = 0 ∧ more = false then .none
    else if offset = 0 then .first identification more
    else .later identification offset more
  { raw := raw
    wireLen := v4.totalLen.toNat
    ip := .v4 v4.sourceAddr v4.destinationAddr v4.payload.ipNumber v4.identification
      (v4.ihl.toNat * 4) v4.ttl
    fragmentation := fragmentation
    transport :=
      if fragmentation.isLater then
        .laterFragment v4.payload.ipNumber identification offset more
      else decodeTransport v4.payload (transport.or (guessTransport E v4.payload)) }

def parseIpv6 (raw : List UInt8) (v6 : Ipv6Slice) (transport : Option TransportSlice) : Packet :=
  -- the last fragment header counts
  let fragment := v6.fragments.getLast?
  let identification := (fragment.map (·.identification)).getD 0
  let offset := (fragment.map (·.fragmentOffset)).getD 0
  let more := (fragment.map (·.moreFragments)).getD false
  let fragmentation : Fragmentation := if !v6.payload.fragmented then .none
    else if offset = 0 then .first identification more
    else .later identification offset more
  { raw := raw
    wireLen := v6.payloadLength.toNat + 40
    ip := .v6 v6.sourceAddr v6.destinationAddr v6.payload.ipNumber v6.hopLimit
      (raw.length - v6.payload.payload.length) (fragment.map (·.identification))
    fragmentation := fragmentation
    transport :=
      if fragmentation.isLater then
        .laterFragment v6.payload.ipNumber identification offset more
      else decodeTransport v6.payload (transport.or (guessTransport E v6.payload)) }

def mapSliceErr : SliceError → ParseError
  | .len .tcpHeader => .malformedTcp
  | .len .udpHeader => .malformedUdp
  | .len .ipv4Packet => .invalidTotalLength
  | .len .ipv6Packet => .invalidTotalLength
  | .len .other => .truncated
  | .unsupportedIpVersion version => .unsupportedVersion version
  | .headerLengthSmallerThanHeader => .invalidIhl
  | .unexpectedVersion version => .unsupportedVersion version
  | .tcp => .malformedTcp
  | .other => .invalidIpHeader

def parse (data : List UInt8) : Except ParseError Packet :=
  match data with
  | [] => .error .truncated
  | b :: _ =>
    let version := b >>> 4
    if version ≠ 4 ∧ version ≠ 6 then .error (.unsupportedVersion version)
    else match E.fromIp data with
      | .error e => .error (mapSliceErr e)
      | .ok sliced =>
        match sliced.net with
        | some (.ipv4 v4) => .ok (parseIpv4 E data v4 sliced.transport)
        | some (.ipv6 v6) => .ok (parseIpv6 E data v6 sliced.transport)
        | _ => .error .invalidIpHeader

end Parse

end Tunnet

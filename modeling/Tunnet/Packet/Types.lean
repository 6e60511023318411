import Tunnet.Policy.Types

/-!
# Packets

The view of an IP packet that the data plane works on. Slicing the bytes is left to an external
parser; what it hands over are the headers as below. A later fragment carries no transport
header, so no ports can be read from it.
-/

namespace Tunnet

/-- The flag byte of a TCP header. -/
structure TcpFlags where
  bits : UInt8
deriving DecidableEq

namespace TcpFlags

def FIN : UInt8 := 0x01
def SYN : UInt8 := 0x02
def RST : UInt8 := 0x04
def PSH : UInt8 := 0x08
def ACK : UInt8 := 0x10
def URG : UInt8 := 0x20

end TcpFlags

inductive IpMeta
  | v4 (src dst : Ipv4Addr) (protocol : UInt8) (identification : UInt16) (headerLen : Nat)
      (ttl : UInt8)
  | v6 (src dst : Ipv6Addr) (nextHeader : UInt8) (hopLimit : UInt8) (headerLen : Nat)
      (identification : Option UInt32)

namespace IpMeta

def src : IpMeta → IpAddr
  | v4 src .. => .v4 src
  | v6 src .. => .v6 src

def dst : IpMeta → IpAddr
  | v4 _ dst .. => .v4 dst
  | v6 _ dst .. => .v6 dst

def v4Src : IpMeta → Option Ipv4Addr
  | v4 src .. => some src
  | v6 .. => none

def v4Dst : IpMeta → Option Ipv4Addr
  | v4 _ dst .. => some dst
  | v6 .. => none

def ipProtocol : IpMeta → UInt8
  | v4 _ _ protocol .. => protocol
  | v6 _ _ nextHeader .. => nextHeader

end IpMeta

inductive Fragmentation
  | none
  /-- Offset 0 with more to come. -/
  | first (identification : UInt32) (more : Bool)
  /-- Nonzero offset: the payload is not a transport header. -/
  | later (identification : UInt32) (offset : UInt16) (more : Bool)

namespace Fragmentation

def identification : Fragmentation → Option UInt32
  | none => .none
  | first identification _ => some identification
  | later identification _ _ => some identification

def isFirst : Fragmentation → Bool
  | first .. => true
  | _ => false

def isLater : Fragmentation → Bool
  | later .. => true
  | _ => false

end Fragmentation

inductive Transport
  | tcp (srcPort dstPort : UInt16) (flags : TcpFlags) (seq ack : UInt32)
      (headerLen payloadLen : Nat)
  | udp (srcPort dstPort : UInt16) (payloadLen : Nat)
  | icmpv4 (type code : UInt8) (echoId echoSeq : Option UInt16) (payloadLen : Nat)
  | icmpv6 (type code : UInt8) (payloadLen : Nat)
  | other (protocol : UInt8) (payloadLen : Nat)
  | laterFragment (protocol : UInt8) (identification : UInt32) (offset : UInt16) (more : Bool)

def Transport.isLaterFragment : Transport → Bool
  | laterFragment .. => true
  | _ => false

structure Packet where
  raw : List UInt8
  /-- The length the IP header gives, not that of `raw`. -/
  wireLen : Nat
  ip : IpMeta
  fragmentation : Fragmentation
  transport : Transport

inductive ParseError
  | truncated
  | unsupportedVersion (version : UInt8)
  | invalidIpHeader
  | invalidIhl
  | invalidTotalLength
  | malformedTcp
  | malformedUdp
  | malformedTransport

def ParseError.dropReason : ParseError → String
  | truncated => "truncated"
  | unsupportedVersion _ => "unsupported_ip_version"
  | invalidIpHeader => "malformed_ip"
  | invalidIhl => "invalid_ihl"
  | invalidTotalLength => "invalid_ip_len"
  | malformedTcp => "malformed_tcp"
  | malformedUdp => "malformed_udp"
  | malformedTransport => "malformed_transport"

namespace Policy.Protocol

/-- The protocol of an IP protocol number. -/
def fromIpNumber (n : UInt8) : Protocol :=
  if n = 6 then .tcp
  else if n = 17 then .udp
  else if n = 1 then .icmp
  else if n = 58 then .icmpv6
  else .other n

def ipNumber : Protocol → Option UInt8
  | .tcp => some 6
  | .udp => some 17
  | .icmp => some 1
  | .icmpv6 => some 58
  | .any => none
  | .other n => some n

end Policy.Protocol

end Tunnet

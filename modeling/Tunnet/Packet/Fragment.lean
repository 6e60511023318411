import Mathlib.Data.List.MinMax
import Tunnet.Packet.Types

/-!
# The first-fragment cache

A bounded table that remembers the transport header of a first fragment for the fragments that
follow it. A later fragment without an entry has no transport header and is refused by whoever
asks.

The table is a list of entries with distinct keys, in whatever order the hash map iterates over
them; the order matters only when the oldest entry is evicted and several are equally old.
-/

namespace Tunnet

open Policy (Protocol)

/-- Nanoseconds in a number of seconds. -/
def seconds (n : Nat) : Nat := n * 1000000000

structure ResolvedL4 where
  protocol : Protocol
  srcPort : Option UInt16
  dstPort : Option UInt16
  tcpFlags : Option TcpFlags
  icmpType : Option UInt8
  icmpId : Option UInt16
  icmpSeq : Option UInt16
deriving DecidableEq

def fragmentTtl : Nat := seconds 2

def maxFragmentEntries : Nat := 4096

structure FragKey where
  src : IpAddr
  dst : IpAddr
  protocol : UInt8
  identification : UInt32
deriving DecidableEq

inductive CachedTransport
  | tcp (srcPort dstPort : UInt16) (flags : TcpFlags)
  | udp (srcPort dstPort : UInt16)
  | icmpv4 (type code : UInt8) (echoId echoSeq : Option UInt16)
  | icmpv6 (type code : UInt8)
  | other (protocol : UInt8)

namespace CachedTransport

def fromTransport : Transport → Option CachedTransport
  | .tcp srcPort dstPort flags .. => some (tcp srcPort dstPort flags)
  | .udp srcPort dstPort _ => some (udp srcPort dstPort)
  | .icmpv4 type code echoId echoSeq _ => some (icmpv4 type code echoId echoSeq)
  | .icmpv6 type code _ => some (icmpv6 type code)
  | .other protocol _ => some (other protocol)
  | .laterFragment .. => none

def toResolved : CachedTransport → ResolvedL4
  | tcp srcPort dstPort flags =>
    ⟨.tcp, some srcPort, some dstPort, some flags, none, none, none⟩
  | udp srcPort dstPort => ⟨.udp, some srcPort, some dstPort, none, none, none, none⟩
  -- the identifier and the sequence number of an echo stand in for the ports
  | icmpv4 type _ echoId echoSeq => ⟨.icmp, echoId, echoSeq, none, some type, echoId, echoSeq⟩
  | icmpv6 type _ => ⟨.icmpv6, none, none, none, some type, none, none⟩
  | other protocol => ⟨.fromIpNumber protocol, none, none, none, none, none, none⟩

end CachedTransport

def ResolvedL4.fromTransport (t : Transport) : Option ResolvedL4 :=
  (CachedTransport.fromTransport t).map CachedTransport.toResolved

structure FragmentTable.Entry where
  transport : CachedTransport
  expires : Instant

structure FragmentTable where
  map : AList fun _ : FragKey => FragmentTable.Entry
  ttl : Nat
  cap : Nat

namespace FragmentTable

def new (cap ttl : Nat) : FragmentTable := ⟨∅, ttl, cap⟩

/-- The table an engine starts with. -/
def default : FragmentTable := new maxFragmentEntries fragmentTtl

def clear (t : FragmentTable) : FragmentTable := { t with map := ∅ }

def keyFor (packet : Packet) : Option FragKey :=
  packet.fragmentation.identification.map fun identification =>
    ⟨packet.ip.src, packet.ip.dst, packet.ip.ipProtocol, identification⟩

def evictExpired (now : Instant) (t : FragmentTable) : FragmentTable :=
  { t with map :=
    ⟨t.map.entries.filter fun e => e.2.expires > now, t.map.nodupKeys.sublist List.filter_sublist⟩ }

/-- Drop an entry that expires first. -/
def evictOldest (t : FragmentTable) : FragmentTable :=
  match t.map.entries.argmin fun e => e.2.expires with
  | none => t
  | some e => { t with map := t.map.erase e.1 }

/-- The table is full and `key` would be a new entry. -/
def isFullFor (key : FragKey) (t : FragmentTable) : Bool :=
  t.cap ≤ t.map.entries.length && (t.map.lookup key).isNone

variable (now : Instant) (packet : Packet) (t : FragmentTable)

def remember : FragmentTable :=
  if packet.fragmentation.isFirst then
    match keyFor packet, CachedTransport.fromTransport packet.transport with
    | some key, some transport =>
      let t := t.evictExpired now
      let t := if t.isFullFor key then t.evictOldest else t
      -- still full when the capacity is zero
      if t.isFullFor key then t
      else { t with map := t.map.insert key ⟨transport, now + t.ttl⟩ }
    | _, _ => t
  else t

/-- The transport header remembered for a later fragment. -/
def lookup : FragmentTable × Option CachedTransport :=
  match keyFor packet with
  | none => (t, none)
  | some key =>
    let t := t.evictExpired now
    match t.map.lookup key with
    | none => (t, none)
    | some entry =>
      if entry.expires ≤ now then ({ t with map := t.map.erase key }, none)
      else (t, some entry.transport)

/-- First fragments are remembered; later ones need an entry. -/
def resolve : FragmentTable × Option ResolvedL4 :=
  if packet.transport.isLaterFragment then
    (t.lookup now packet).map id (Option.map CachedTransport.toResolved)
  else (t.remember now packet, ResolvedL4.fromTransport packet.transport)

end FragmentTable

end Tunnet

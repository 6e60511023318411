import Tunnet.Agent.Inbound
import Tunnet.Routing.Spec.Directory

/-!
# What the spoof check checks

The reader compares the source of a packet with a peer that it looks up by that same source. If
anybody in the connection's network holds the address, the comparison is of the address with
itself and always passes (`not_isSpoofed_of_member`): a peer can send in the name of every other
member, and only the access-control engine, which is asked about the real peer, and the firewall
stand in between (`impersonation_dropped_iff`).

If nobody in the network holds the address, the source must be the peer's own mesh address. So
the answers that come back through a subnet route or an exit node, whose sources are not mesh
addresses, are dropped as spoofed (`return_traffic_passes_iff`).
-/

namespace Tunnet.Agent

open Option
open Routing (Tables PeerInfo EndpointId NetworkSlice)

namespace Reader

variable {r : Reader} {w : Wire} {routes : Tables} {m : Moment} {src : Ipv4Addr} {nid : Uuid}
  {p : PeerInfo} {s : InboundState} {dg : List UInt8} {pkt : Packet}

theorem peerInfo_of_member (hnet : r.inboundNetwork = some nid)
    (hmember : routes.lookupNetworkIp nid src = some p) : r.peerInfo routes src = some p := by
  rw [peerInfo, hnet, bind_some, hmember]
  rfl

theorem peerInfo_of_not_member
    (hmember : ∀ nid, r.inboundNetwork = some nid → routes.lookupNetworkIp nid src = none) :
    r.peerInfo routes src = routes.lookupEndpoint r.remoteHex := by
  rw [peerInfo]
  cases hnet : r.inboundNetwork with
  | none => rfl
  | some nid =>
    rw [bind_some, hmember nid hnet]
    rfl

/-- A source that some member of the network holds is never spoofed. -/
theorem not_isSpoofed_of_member (hroutes : routes.WellFormed) (hnet : r.inboundNetwork = some nid)
    (hmember : routes.lookupNetworkIp nid src = some p) : r.isSpoofed routes src = false := by
  obtain ⟨-, hip, -⟩ := hroutes.byNetworkIp nid src p hmember
  rw [isSpoofed, peerInfo_of_member hnet hmember, any_some, sourceMatchesPeer, hip]
  simp

theorem isSpoofed_eq_false_iff (hroutes : routes.WellFormed) : r.isSpoofed routes src = false ↔
    (∃ nid, r.inboundNetwork = some nid ∧ (routes.lookupNetworkIp nid src).isSome) ∨
      routes.lookupEndpoint r.remoteHex = none ∨
      ∃ p, routes.lookupEndpoint r.remoteHex = some p ∧ p.ip = src := by
  by_cases hmember : ∃ nid, r.inboundNetwork = some nid ∧ (routes.lookupNetworkIp nid src).isSome
  · obtain ⟨nid, hnet, hsome⟩ := hmember
    obtain ⟨p, hp⟩ := isSome_iff_exists.mp hsome
    have hpass := not_isSpoofed_of_member hroutes hnet hp
    exact ⟨fun _ => .inl ⟨nid, hnet, hsome⟩, fun _ => hpass⟩
  · have hnone : ∀ nid, r.inboundNetwork = some nid → routes.lookupNetworkIp nid src = none := by
      intro nid hnet
      by_contra hne
      exact hmember ⟨nid, hnet, ne_none_iff_isSome.mp hne⟩
    rw [isSpoofed, peerInfo_of_not_member hnone, or_iff_right hmember]
    cases routes.lookupEndpoint r.remoteHex with
    | none => simp
    | some =>
      simp only [any_some, sourceMatchesPeer, Bool.not_eq_false', beq_iff_eq, reduceCtorEq,
        some.injEq, exists_eq_left', false_or]
      exact eq_comm

/-! ### Delivery -/

theorem deliver_sent_iff : (∃ bytes, (deliver w m dg s).2 = .sent bytes) ↔ m.cancelled = false := by
  unfold deliver
  cases m.cancelled <;> simp

theorem deliver_ne_dropped (reason : String)
    (reply : List UInt8) : (deliver w m dg s).2 ≠ .dropped reason reply := by
  unfold deliver
  split_ifs <;> simp

/-- The firewall of network `nid` lets the packet of the peer in, or there is none. -/
def FirewallAllows (r : Reader) (w : Wire) (m : Moment) (nid : Uuid) (pkt : Packet)
    (hostname : Option String) (s : InboundState) : Prop :=
  ∀ fw, s.firewalls.lookup nid = some fw →
    (fw.evaluate w.text m.clock.now .inbound pkt (some r.remoteHex) hostname (some nid)).2 = .allow

theorem filter_sent_iff (hnet : r.peerNet routes src = some nid) :
    (∃ bytes, (r.filter w routes m dg pkt src s).2 = .sent bytes) ↔
      r.FirewallAllows w m nid pkt ((r.peerInfo routes src).map (·.hostname)) s ∧
        m.cancelled = false := by
  unfold filter FirewallAllows
  rw [hnet]
  dsimp only
  cases hfw : s.firewalls.lookup nid with
  | none => simp [deliver_sent_iff]
  | some =>
    simp only [some.injEq, forall_eq']
    split
    · rename_i hallow
      rw [hallow, deliver_sent_iff]
      simp
    · rename_i hdeny
      rw [hdeny]
      simp
    · rename_i reply hreject
      rw [hreject]
      simp

theorem filter_ne_antispoof : (r.filter w routes m dg pkt src s).2 ≠ .dropped "antispoof" [] := by
  unfold filter
  split
  · exact deliver_ne_dropped _ _
  split
  · exact deliver_ne_dropped _ _
  dsimp only
  split
  · exact deliver_ne_dropped _ _
  · simp
  · simp

theorem serveV4_eq_antispoof_iff : (r.serveV4 w routes m dg pkt src s).2 = .dropped "antispoof" [] ↔
      r.isSpoofed routes src := by
  unfold serveV4
  by_cases hspoof : r.isSpoofed routes src
  · rw [if_pos hspoof]
    exact ⟨fun _ => hspoof, fun _ => rfl⟩
  · dsimp only
    split_ifs
    · exact ⟨fun h => absurd h filter_ne_antispoof, fun h => absurd h hspoof⟩
    · exact ⟨fun h => by simp at h, fun h => absurd h hspoof⟩

theorem serveDatagram_of_parse (hparse : w.parse dg = .ok pkt) (hsrc : pkt.ip.v4Src = some src) :
    r.serveDatagram w routes m dg s = r.serveV4 w routes m dg pkt src s := by
  unfold serveDatagram
  rw [hparse]
  dsimp only
  rw [hsrc]

/-- When a peer cannot send as another member: exactly when something other than the spoof
check stops the packet. -/
theorem impersonation_dropped_iff (r : Reader) (w : Wire) (m : Moment)
    (parse : String → Option EndpointId) (slices : List (Uuid × NetworkSlice)) (version : UInt64)
    (s : InboundState) {dg : List UInt8} {pkt : Packet} {src : Ipv4Addr} {nid : Uuid}
    {member : PeerInfo} (hparse : w.parse dg = .ok pkt) (hsrc : pkt.ip.v4Src = some src)
    (hnet : r.inboundNetwork = some nid)
    (hmember : (Routing.rebuild parse slices version).lookupNetworkIp nid src = some member) :
    (¬ ∃ bytes,
        (r.serveDatagram w (Routing.rebuild parse slices version) m dg s).2 = .sent bytes) ↔
      (s.acl.allowPacket (Routing.rebuild parse slices version) m.clock r.remoteHex .inbound
          pkt).2 = false ∨
        ¬ r.FirewallAllows w m nid pkt (some member.hostname) s ∨ m.cancelled := by
  have hroutes := Routing.wellFormed_rebuild parse slices version
  generalize Routing.rebuild parse slices version = routes at *
  have hpeer : r.peerInfo routes src = some member := peerInfo_of_member hnet hmember
  have hpeerNet : r.peerNet routes src = some nid := by
    obtain ⟨hnid, -, -⟩ := hroutes.byNetworkIp nid src member hmember
    rw [peerNet, hpeer, map_some, hnid]
    rfl
  have hpass := not_isSpoofed_of_member hroutes hnet hmember
  rw [serveDatagram_of_parse hparse hsrc, serveV4, hpass, if_neg Bool.false_ne_true]
  dsimp only
  cases hacl : (s.acl.allowPacket routes m.clock r.remoteHex .inbound pkt).2 with
  | false => simp
  | true =>
    simp only [↓reduceIte, Bool.true_eq_false, false_or]
    rw [filter_sent_iff hpeerNet, hpeer, not_and_or, Bool.not_eq_false]
    -- the access-control engine leaves the firewalls as they are
    rfl

end Reader

namespace Demo

def alphaId : String := "d75a980182b10ab7d54bfed3c964073a0ee172f3daa62325af021a68f707511a"
def betaId : String := "3d4017c3e843895a92b70aa74d1b7ebc9c982ccf2ec4968cc0cd55f12af4660c"

/-- A network of two peers, the first of which routes a subnet. -/
def slice : NetworkSlice where
  peers := [⟨Ipv4Addr.new 10 7 0 2, alphaId, "alpha", [], none⟩,
    ⟨Ipv4Addr.new 10 7 0 3, betaId, "beta", [], none⟩]
  subnetRoutes := [⟨⟨Ipv4Addr.new 192 168 50 0, 24, Ipv4Net.length_twentyFour⟩, alphaId,
    Ipv4Addr.new 10 7 0 2⟩]
  hostnameRoutes := []
  exitNodes := []
  profile := .default
  dnsSuffix := "tunnet"
  networkName := "lab"
  selfEndpointId := ""
  peerCidr := none

def tables : Tables := Routing.rebuild Hex.decode [(42, slice)] 1

/-- The reader of the first peer's connection. -/
def reader : Reader := .start none tables alphaId

/-- An empty UDP packet to 10.7.0.1, from port 4000 to port 8080. -/
def udpPacket (raw : List UInt8) (src : Ipv4Addr) : Packet :=
  ⟨raw, 28, .v4 src (Ipv4Addr.new 10 7 0 1) 17 0 20 64, .none, .udp 4000 8080 0⟩

/-- Reads the packets of `udpPacket` as the parser does. -/
def parse (dg : List UInt8) : Except ParseError Packet :=
  if dg.length = 28 then
    .ok (udpPacket dg (Ipv4Addr.new (dg.getD 12 0).toBitVec (dg.getD 13 0).toBitVec
      (dg.getD 14 0).toBitVec (dg.getD 15 0).toBitVec))
  else .error .truncated

def wire : Wire := ⟨parse, ⟨fun _ => "", fun _ => none, fun _ => none⟩, id⟩

/-- An open policy and the default firewall. -/
def state : InboundState where
  acl := ⟨⟨"", Ipv4Addr.new 10 7 0 1, [], "lab"⟩, .default, false, true, [], ∅, .default⟩
  firewalls := (∅ : Map Uuid Direct.FirewallEngine).insert 42 (.fromConfig Direct.defaultFirewall)
  spoofs := ∅

def moment : Moment := ⟨⟨0, 0⟩, false⟩

/-- The bytes of `udpPacket`. -/
def datagram (checksum src : List UInt8) : List UInt8 :=
  [0x45, 0, 0, 28, 0, 0, 0, 0, 64, 17] ++ checksum ++ src ++ [10, 7, 0, 1] ++
    [0x0f, 0xa0, 0x1f, 0x90, 0, 8, 0, 0]

/-- A packet with the second peer's address. -/
def asBeta : List UInt8 := datagram [0x66, 0xc0] [10, 7, 0, 3]

def beta : PeerInfo :=
  ⟨(Hex.decode betaId).getD [], betaId, "beta", Ipv4Addr.new 10 7 0 3, [], 42, "lab", none⟩

theorem lookupNetworkIp_beta : tables.lookupNetworkIp 42 (Ipv4Addr.new 10 7 0 3) = some beta := by
  decide

theorem reader_inboundNetwork : reader.inboundNetwork = some 42 := by
  decide

theorem parse_asBeta : wire.parse asBeta = .ok (udpPacket asBeta (Ipv4Addr.new 10 7 0 3)) := rfl

theorem beta_ne_remote : beta.endpointHex ≠ reader.remoteHex := by
  decide

/-- The packet of the first peer under the second one's address is delivered. -/
theorem impersonation_delivered :
    wire.parse asBeta = .ok (udpPacket asBeta (Ipv4Addr.new 10 7 0 3)) ∧
      reader.inboundNetwork = some 42 ∧
      tables.lookupNetworkIp 42 (Ipv4Addr.new 10 7 0 3) = some beta ∧
      beta.endpointHex ≠ reader.remoteHex ∧
      (reader.serveDatagram wire tables moment asBeta state).2 = .sent asBeta :=
  ⟨parse_asBeta, reader_inboundNetwork, lookupNetworkIp_beta, beta_ne_remote, by decide⟩

theorem impersonation_dropped_iff_asBeta :
    (¬ ∃ bytes, (reader.serveDatagram wire tables moment asBeta state).2 = .sent bytes) ↔
      (state.acl.allowPacket tables moment.clock reader.remoteHex .inbound
          (udpPacket asBeta (Ipv4Addr.new 10 7 0 3))).2 = false ∨
        ¬ reader.FirewallAllows wire moment 42 (udpPacket asBeta (Ipv4Addr.new 10 7 0 3))
          (some beta.hostname) state ∨ moment.cancelled :=
  Reader.impersonation_dropped_iff reader wire moment Hex.decode [(42, slice)] 1 state parse_asBeta
    rfl reader_inboundNetwork lookupNetworkIp_beta

end Demo

namespace Reader

/-- When return traffic passes the spoof check: its source is a mesh address of the
connection's network, the address of the peer itself, or the tables do not know the peer. For
sources that are nobody's mesh address, as those behind a subnet route or an exit node, only the
last remains. -/
theorem return_traffic_passes_iff (r : Reader) (w : Wire) (m : Moment)
    (parse : String → Option EndpointId) (slices : List (Uuid × NetworkSlice)) (version : UInt64)
    (s : InboundState) {dg : List UInt8} {pkt : Packet} {src : Ipv4Addr}
    (hparse : w.parse dg = .ok pkt) (hsrc : pkt.ip.v4Src = some src) :
    ((r.serveDatagram w (Routing.rebuild parse slices version) m dg s).2 ≠ .dropped "antispoof" [] ↔
      (∃ nid, r.inboundNetwork = some nid ∧
          ((Routing.rebuild parse slices version).lookupNetworkIp nid src).isSome) ∨
        (Routing.rebuild parse slices version).lookupEndpoint r.remoteHex = none ∨
        ∃ q, (Routing.rebuild parse slices version).lookupEndpoint r.remoteHex = some q ∧
          q.ip = src) ∧
    ((Routing.rebuild parse slices version).byIp.lookup src = none →
      ((r.serveDatagram w (Routing.rebuild parse slices version) m dg s).2 ≠
          .dropped "antispoof" [] ↔
        (Routing.rebuild parse slices version).lookupEndpoint r.remoteHex = none)) := by
  have hroutes := Routing.wellFormed_rebuild parse slices version
  generalize Routing.rebuild parse slices version = routes at *
  have hiff : (r.serveDatagram w routes m dg s).2 ≠ .dropped "antispoof" [] ↔
      r.isSpoofed routes src = false := by
    rw [serveDatagram_of_parse hparse hsrc, ne_eq, serveV4_eq_antispoof_iff, Bool.not_eq_true]
  refine ⟨hiff.trans (isSpoofed_eq_false_iff hroutes), fun hnobody => ?_⟩
  rw [hiff, isSpoofed_eq_false_iff hroutes]
  -- a mesh address, and the address of a known peer, would be in the table by address
  have hmember : ¬ ∃ nid, r.inboundNetwork = some nid ∧
      (routes.lookupNetworkIp nid src).isSome := by
    rintro ⟨nid, -, hsome⟩
    obtain ⟨q, hq⟩ := isSome_iff_exists.mp hsome
    obtain ⟨-, -, hby⟩ := hroutes.byNetworkIp nid src q hq
    rw [hnobody] at hby
    cases hby
  have hown : ¬ ∃ q, routes.lookupEndpoint r.remoteHex = some q ∧ q.ip = src := by
    rintro ⟨q, hq, rfl⟩
    obtain ⟨-, hby⟩ := hroutes.byEndpoint r.remoteHex q hq
    rw [hnobody] at hby
    cases hby
  rw [or_iff_right hmember, or_iff_left hown]

end Reader

namespace Demo

/-- An answer from a host in the subnet that the first peer routes. -/
def fromSubnet : List UInt8 := datagram [0x7e, 0x18] [192, 168, 50, 9]

def alpha : PeerInfo :=
  ⟨(Hex.decode alphaId).getD [], alphaId, "alpha", Ipv4Addr.new 10 7 0 2, [], 42, "lab", none⟩

theorem lookupIp_fromSubnet : tables.lookupIp (Ipv4Addr.new 192 168 50 9) = some alpha := by
  decide

theorem parse_fromSubnet :
    wire.parse fromSubnet = .ok (udpPacket fromSubnet (Ipv4Addr.new 192 168 50 9)) := rfl

/-- The tables route the subnet to the first peer, and its answers are dropped as spoofed. -/
theorem subnet_answer_dropped :
    wire.parse fromSubnet = .ok (udpPacket fromSubnet (Ipv4Addr.new 192 168 50 9)) ∧
      tables.lookupIp (Ipv4Addr.new 192 168 50 9) = some alpha ∧
      alpha.endpointHex = reader.remoteHex ∧
      (reader.serveDatagram wire tables moment fromSubnet state).2 = .dropped "antispoof" [] :=
  ⟨parse_fromSubnet, lookupIp_fromSubnet, rfl, by decide⟩

theorem return_traffic_passes_iff_fromSubnet :
    (reader.serveDatagram wire tables moment fromSubnet state).2 ≠ .dropped "antispoof" [] ↔
      tables.lookupEndpoint reader.remoteHex = none := by
  have hnobody : tables.byIp.lookup (Ipv4Addr.new 192 168 50 9) = none := by decide
  exact (Reader.return_traffic_passes_iff reader wire moment Hex.decode [(42, slice)] 1 state
    parse_fromSubnet rfl).2 hnobody

end Demo

end Tunnet.Agent

import Mathlib.Data.List.MinMax
import Tunnet.Net.Ip
import Tunnet.Util.Map
import Tunnet.Util.Str

/-!
# Routing tables

The tables that the data plane looks addresses, endpoints and host names up in. They are rebuilt
as a whole from the slices of the joined networks, in the order of the network ids, whenever a
slice changes. Between two networks, and between two entries of one, the first one keeps a mesh
address, an endpoint and a prefix; in the table by network and address the last one does.
-/

namespace Tunnet.Routing

/-- The public key of an endpoint (`iroh::EndpointId`). -/
abbrev EndpointId := List UInt8

structure PeerEntry where
  ip : Ipv4Addr
  endpointId : String
  hostname : String
  tags : List String
  sshHostKey : Option String
deriving DecidableEq

structure SubnetRoute where
  cidr : Ipv4Net
  viaEndpointId : String
  viaIp : Ipv4Addr

structure HostnameRoute where
  hostname : String
  viaEndpointId : String
  viaIp : Ipv4Addr
  isWildcard : Bool
  targetIp : Option Ipv4Addr

structure ExitNodeInfo where
  endpointId : String
  viaIp : Ipv4Addr
  allowedCidrs : List Ipv4Net

/-- What routing reads of a device's profile. -/
structure DeviceProfile where
  exitNodeEndpointId : Option String
  allowLocalLan : Bool

def DeviceProfile.default : DeviceProfile := ⟨none, true⟩

structure PeerInfo where
  endpoint : EndpointId
  endpointHex : String
  hostname : String
  ip : Ipv4Addr
  tags : List String
  networkId : Uuid
  networkName : String
  sshHostKey : Option String
deriving DecidableEq

structure HostnameRouteInfo where
  peer : PeerInfo
  isWildcard : Bool
  targetIp : Option Ipv4Addr
  /-- Without the `*.` of a wildcard. -/
  hostname : String
deriving DecidableEq

structure NetworkSlice where
  peers : List PeerEntry
  subnetRoutes : List SubnetRoute
  hostnameRoutes : List HostnameRoute
  exitNodes : List ExitNodeInfo
  profile : DeviceProfile
  dnsSuffix : String
  networkName : String
  selfEndpointId : String
  peerCidr : Option Ipv4Net

/-! ### Prefix maps -/

/-- A map from prefixes (`prefix_trie::PrefixMap`); prefixes that differ only in their host bits
are the same key. -/
structure PrefixMap (V : Type) where
  entries : List (Ipv4Net × V)

namespace PrefixMap

variable {V : Type}

def empty : PrefixMap V := ⟨[]⟩

/-- The two prefixes are the same key. -/
def sameKey (p q : Ipv4Net) : Bool := p.network == q.network && p.prefixLen == q.prefixLen

def containsKey (p : Ipv4Net) (m : PrefixMap V) : Bool := m.entries.any (sameKey p ·.1)

def insert (p : Ipv4Net) (v : V) (m : PrefixMap V) : PrefixMap V :=
  ⟨(m.entries.filter fun e => !sameKey p e.1) ++ [(p, v)]⟩

/-- The entry with the longest prefix that holds `ip`. -/
def getLpm (ip : Ipv4Addr) (m : PrefixMap V) : Option (Ipv4Net × V) :=
  (m.entries.filter (·.1.contains ip)).argmax (·.1.prefixLen)

end PrefixMap

structure Tables where
  byIp : Map Ipv4Addr PeerInfo
  /-- All memberships, including the same address in several networks. -/
  byNetworkIp : Map (Uuid × Ipv4Addr) PeerInfo
  byEndpoint : Map String PeerInfo
  byHostname : Map String PeerInfo
  subnets : PrefixMap PeerInfo
  /-- The prefixes this node advertises itself. -/
  advertised : List Ipv4Net
  hostnameExact : Map String HostnameRouteInfo
  hostnameWildcards : List HostnameRouteInfo
  advertisedHostnames : List HostnameRouteInfo
  dnsSuffix : String
  networkName : String
  exitNode : Option PeerInfo
  /-- Private destinations are not sent through the exit node. -/
  allowLocalLan : Bool
  version : UInt64

def Tables.empty : Tables where
  byIp := ∅
  byNetworkIp := ∅
  byEndpoint := ∅
  byHostname := ∅
  subnets := .empty
  advertised := []
  hostnameExact := ∅
  hostnameWildcards := []
  advertisedHostnames := []
  dnsSuffix := "tunnet"
  networkName := ""
  exitNode := none
  allowLocalLan := true
  version := 0

/-! ### Rebuilding -/

section Rebuild

variable (parse : String → Option EndpointId) (networkId : Uuid) (slice : NetworkSlice)

def peerForVia (byEndpoint : Map String PeerInfo) (viaEndpointId : String) (viaIp : Ipv4Addr) :
    Option PeerInfo :=
  match byEndpoint.lookup viaEndpointId with
  | some existing => some existing
  | none =>
    (parse viaEndpointId).map fun endpoint =>
      { endpoint, endpointHex := viaEndpointId, hostname := "", ip := viaIp, tags := [],
        networkId, networkName := slice.networkName, sshHostKey := none }

def PeerEntry.info (p : PeerEntry) (endpoint : EndpointId) : PeerInfo where
  endpoint := endpoint
  endpointHex := p.endpointId
  hostname := p.hostname
  ip := p.ip
  tags := p.tags
  networkId := networkId
  networkName := slice.networkName
  sshHostKey := p.sshHostKey

def addHostname (p : PeerEntry) (info : PeerInfo) (t : Tables) : Tables :=
  if p.hostname = "" then t
  else
    -- the bare host name stays with the first network, the qualified one is this network's
    let host := Str.toAsciiLowercase p.hostname
    let key := if slice.networkName = "" then host else host ++ "." ++ slice.networkName
    { t with byHostname := (t.byHostname.insertNew host info).insert key info }

/-- Add a peer to the tables and to the peers of its own network; one whose endpoint id does not
parse is skipped. -/
def addPeer (acc : Tables × Map String PeerInfo) (p : PeerEntry) : Tables × Map String PeerInfo :=
  match parse p.endpointId with
  | none => acc
  | some endpoint =>
    let info := p.info networkId slice endpoint
    let t := acc.1
    let t :=
      { t with
        byNetworkIp := t.byNetworkIp.insert (networkId, p.ip) info
        -- across networks the first one to list an address or an endpoint keeps it
        byIp := t.byIp.insertNew p.ip info
        byEndpoint := t.byEndpoint.insertNew p.endpointId info }
    (addHostname slice p info t, acc.2.insert p.endpointId info)

/-- Route a prefix to a peer unless it is routed already. -/
def addSubnet (peer : PeerInfo) (t : Tables) (cidr : Ipv4Net) : Tables :=
  if t.subnets.containsKey cidr then t else { t with subnets := t.subnets.insert cidr peer }

variable (peers : Map String PeerInfo)

variable (t : Tables)

def addSubnetRoute (route : SubnetRoute) : Tables :=
  if route.viaEndpointId = slice.selfEndpointId then
    { t with advertised := t.advertised ++ [route.cidr] }
  else match peerForVia parse networkId slice peers route.viaEndpointId route.viaIp with
    | none => t
    | some peer => addSubnet peer t route.cidr

def addOwnExit (exit : ExitNodeInfo) : Tables :=
  if exit.endpointId = slice.selfEndpointId then
    { t with advertised := t.advertised ++ exit.allowedCidrs }
  else t

/-- The exit node that the device's profile chooses in this network. -/
def chosenExit : Option (ExitNodeInfo × PeerInfo) :=
  match slice.profile.exitNodeEndpointId with
  | none => none
  | some exitId =>
    match slice.exitNodes.find? (·.endpointId == exitId) with
    | none => none
    | some exit =>
      (peerForVia parse networkId slice peers exit.endpointId exit.viaIp).map fun peer =>
        (exit, peer)

def addChosenExit : Tables :=
  match chosenExit parse networkId slice peers with
  | none => t
  | some (exit, peer) =>
    let t := exit.allowedCidrs.foldl (addSubnet peer) t
    -- the first network that chooses an exit node decides
    if t.exitNode.isNone then
      { t with exitNode := some peer, allowLocalLan := slice.profile.allowLocalLan }
    else t

def addHostnameRoute (route : HostnameRoute) : Tables :=
  match peerForVia parse networkId slice peers route.viaEndpointId route.viaIp with
  | none => t
  | some peer =>
    let hostname := Str.toAsciiLowercase route.hostname
    let info : HostnameRouteInfo := ⟨peer, route.isWildcard, route.targetIp, hostname⟩
    if route.viaEndpointId = slice.selfEndpointId then
      { t with advertisedHostnames := t.advertisedHostnames ++ [info] }
    else if route.isWildcard then
      { t with hostnameWildcards := t.hostnameWildcards ++ [info] }
    else { t with hostnameExact := t.hostnameExact.insert hostname info }

/-- The loop body of `rebuild`: one network. -/
def addSlice : Tables :=
  let t :=
    { t with
      networkName := if t.networkName = "" then slice.networkName else t.networkName
      dnsSuffix := slice.dnsSuffix }
  -- routes go through the network's own peers, whoever else has their endpoint id
  let acc := slice.peers.foldl (addPeer parse networkId slice) (t, ∅)
  let peers := acc.2
  let t := slice.subnetRoutes.foldl (addSubnetRoute parse networkId slice peers) acc.1
  let t := slice.exitNodes.foldl (addOwnExit slice) t
  let t := addChosenExit parse networkId slice peers t
  slice.hostnameRoutes.foldl (addHostnameRoute parse networkId slice peers) t

end Rebuild

/-- The tables of a list of networks, which is in the order of the network ids. -/
def rebuild (parse : String → Option EndpointId) (slices : List (Uuid × NetworkSlice))
    (version : UInt64) : Tables :=
  let t := slices.foldl (fun t s => addSlice parse s.1 s.2 t) .empty
  { t with
    hostnameWildcards := t.hostnameWildcards.insertionSort fun a b =>
      b.hostname.utf8ByteSize ≤ a.hostname.utf8ByteSize
    version }

/-! ### Lookups -/

def isMeshOrLinkLocal (ip : Ipv4Addr) : Bool :=
  Ipv4Addr.isLoopback ip || Ipv4Addr.isLinkLocal ip || Ipv4Addr.isBroadcast ip ||
    Ipv4Addr.isUnspecified ip

def isRfc1918 (ip : Ipv4Addr) : Bool :=
  Ipv4Addr.octet ip 0 == 10 ||
    (Ipv4Addr.octet ip 0 == 172 && 16 ≤ Ipv4Addr.octet ip 1 && Ipv4Addr.octet ip 1 ≤ 31) ||
    (Ipv4Addr.octet ip 0 == 192 && Ipv4Addr.octet ip 1 == 168)

namespace Tables

variable (t : Tables)

variable (networkId : Uuid) (ip : Ipv4Addr)

def lookupNetworkIp : Option PeerInfo :=
  t.byNetworkIp.lookup (networkId, ip)

def lookupEndpoint (hex : String) : Option PeerInfo := t.byEndpoint.lookup hex

/-- The subnet route for `ip`; a default route does not take private addresses away from the
local network when these are to stay there. -/
def lookupSubnet : Option PeerInfo :=
  match t.subnets.getLpm ip with
  | none => none
  | some (net, peer) =>
    if t.allowLocalLan && isRfc1918 ip && net.prefixLen == 0 then none else some peer

/-- The exit node, for the destinations it takes. -/
def lookupExit : Option PeerInfo :=
  if !isMeshOrLinkLocal ip && !(t.allowLocalLan && isRfc1918 ip) then t.exitNode else none

def lookupIp : Option PeerInfo :=
  if Ipv4Addr.isMulticast ip || Ipv4Addr.isBroadcast ip then none
  else t.byIp.lookup ip <|> t.lookupSubnet ip <|> t.lookupExit ip

/-- The name is the suffix, or ends with it after a dot. -/
def hostnameMatchesWildcard (host suffix : String) : Bool :=
  host == suffix || (Str.stripSuffix suffix host).any (Str.endsWith '.')

/-- Hostname-route exact, then wildcard. -/
def lookupHostnameRoute (host : String) : Option HostnameRouteInfo :=
  let host := Str.toAsciiLowercase host
  match t.hostnameExact.lookup host with
  | some info => some info
  | none => t.hostnameWildcards.find? fun info => hostnameMatchesWildcard host info.hostname

/-- Peer hostname (mesh member), then hostname-route exact/wildcard. -/
def lookupHostname (host : String) : Option PeerInfo :=
  let host := Str.toAsciiLowercase host
  match t.byHostname.lookup host with
  | some peer => some peer
  | none => (t.lookupHostnameRoute host).map (·.peer)

/-- This node advertises a prefix that holds `ip`. -/
def isAdvertisedDestination : Bool := t.advertised.any (·.contains ip)

/-- An own hostname route is for the name, which is in lower case. -/
def advertises (host : String) (info : HostnameRouteInfo) : Bool :=
  if info.isWildcard then hostnameMatchesWildcard host info.hostname else info.hostname == host

/-- This node is the gateway for a hostname route matching `host`. -/
def isAdvertisedHostname (host : String) : Bool :=
  t.advertisedHostnames.any (advertises (Str.toAsciiLowercase host))

end Tables

/-! ## The routing table

The slices of the joined networks and the tables rebuilt from them. A snapshot of a managed network
replaces everything; Direct networks are replaced one by one, unless their plan overlaps that of
another network; a delta changes the peers of one network. -/

/-- The slices, a `BTreeMap`, are listed in the order of the network ids. -/
structure RoutingTable where
  slices : List (Uuid × NetworkSlice)
  tables : Tables

def cidrOverlaps (a b : Ipv4Net) : Bool :=
  a.contains b.network || a.contains b.broadcast || b.contains a.network || b.contains a.broadcast

/-- `BTreeMap::insert`. -/
def putSlice (networkId : Uuid) (slice : NetworkSlice) (slices : List (Uuid × NetworkSlice)) :
    List (Uuid × NetworkSlice) :=
  slices.filter (·.1 < networkId) ++ (networkId, slice) :: slices.filter (networkId < ·.1)

/-- Replace the peer with the endpoint id of `peer`, the first one if there are several, or add
`peer`. -/
def putPeer (peer : PeerEntry) : List PeerEntry → List PeerEntry
  | [] => [peer]
  | p :: peers => if p.endpointId = peer.endpointId then peer :: peers else p :: putPeer peer peers

/-- The peers of a network after a delta: the removed ones and this device itself go, and the
added ones replace those with the same endpoint id or come last. -/
def patchPeers (selfEndpointId : String) (added : List PeerEntry) (removed : List String)
    (peers : List PeerEntry) : List PeerEntry :=
  (added.filter (·.endpointId != selfEndpointId)).foldl (fun peers p => putPeer p peers)
    (peers.filter fun p => p.endpointId != selfEndpointId && !removed.contains p.endpointId)

namespace RoutingTable

def new : RoutingTable := ⟨[], .empty⟩

variable (parse : String → Option EndpointId) (rt : RoutingTable)

/-- Store the tables of the slices; without a version the next one is taken. -/
def rebuild (slices : List (Uuid × NetworkSlice)) (version : Option UInt64) : RoutingTable where
  slices := slices
  tables := Routing.rebuild parse slices <| version.getD <|
    if rt.tables.version = 0xFFFFFFFFFFFFFFFF then rt.tables.version else rt.tables.version + 1

/-- Full table replace (Managed / single-network). Clears other network slices. -/
def replace (peers : List PeerEntry) (subnetRoutes : List SubnetRoute)
    (hostnameRoutes : List HostnameRoute) (exitNodes : List ExitNodeInfo)
    (profile : DeviceProfile) (dnsSuffix networkName : String) (networkId : Uuid)
    (selfEndpointId : String) (version : UInt64) : RoutingTable :=
  rt.rebuild parse
    [(networkId, { peers, subnetRoutes, hostnameRoutes, exitNodes, profile, dnsSuffix,
                   networkName := Str.toAsciiLowercase networkName, selfEndpointId,
                   peerCidr := none })]
    (some version)

variable (networkId : Uuid)

def clearManaged (selfEndpointId : String) : RoutingTable :=
  rt.replace parse [] [] [] [] .default "tunnet" "" networkId selfEndpointId rt.tables.version

/-- The plan of a network overlaps that of another one. -/
def rejectsPlan (peerCidr : Option Ipv4Net) : Bool :=
  peerCidr.any fun plan =>
    rt.slices.any fun (otherId, other) =>
      otherId != networkId && other.peerCidr.any (cidrOverlaps plan)

/-- Replace the peers of one Direct network; other networks are kept. -/
def replaceNetworkWithPlan (peers : List PeerEntry)
    (dnsSuffix networkName selfEndpointId : String) (version : UInt64)
    (peerCidr : Option Ipv4Net) : RoutingTable :=
  if rt.rejectsPlan networkId peerCidr then rt
  else
    rt.rebuild parse
      (putSlice networkId
        { peers, subnetRoutes := [], hostnameRoutes := [], exitNodes := [], profile := .default,
          dnsSuffix, networkName := Str.toAsciiLowercase networkName, selfEndpointId, peerCidr }
        rt.slices)
      (some version)

def removeNetwork : RoutingTable :=
  rt.rebuild parse (rt.slices.filter (·.1 != networkId)) none

/-- A slice after a delta; an empty network name leaves the name as it is. -/
def patchSlice (added : List PeerEntry) (removed : List String)
    (selfEndpointId networkName : String) (slice : NetworkSlice) : NetworkSlice :=
  { slice with
    networkName := if networkName = "" then slice.networkName else Str.toAsciiLowercase networkName
    peers := patchPeers selfEndpointId added removed slice.peers }

/-- Apply a peer membership delta for one network without replacing routes; one for a network
without a slice is skipped. -/
def applyPeerDelta (added : List PeerEntry) (removed : List String)
    (version : UInt64) (selfEndpointId networkName : String) : RoutingTable :=
  if rt.slices.any (·.1 == networkId) then
    rt.rebuild parse
      (rt.slices.map fun (id, slice) =>
        (id, if id = networkId then patchSlice added removed selfEndpointId networkName slice
          else slice))
      (some version)
  else rt

end RoutingTable

/-- The calls that change a routing table. -/
inductive TableCall
  | replace (peers : List PeerEntry) (subnetRoutes : List SubnetRoute)
      (hostnameRoutes : List HostnameRoute) (exitNodes : List ExitNodeInfo)
      (profile : DeviceProfile) (dnsSuffix networkName : String) (networkId : Uuid)
      (selfEndpointId : String) (version : UInt64)
  | replaceNetworkWithPlan (networkId : Uuid) (peers : List PeerEntry)
      (dnsSuffix networkName selfEndpointId : String) (version : UInt64)
      (peerCidr : Option Ipv4Net)
  | removeNetwork (networkId : Uuid)
  | applyPeerDelta (networkId : Uuid) (added : List PeerEntry) (removed : List String)
      (version : UInt64) (selfEndpointId networkName : String)

/-- One call. -/
def RoutingTable.step (parse : String → Option EndpointId) (rt : RoutingTable) :
    TableCall → RoutingTable × Unit
  | .replace peers subnetRoutes hostnameRoutes exitNodes profile dnsSuffix networkName networkId
      selfEndpointId version =>
    (rt.replace parse peers subnetRoutes hostnameRoutes exitNodes profile dnsSuffix networkName
      networkId selfEndpointId version, ())
  | .replaceNetworkWithPlan networkId peers dnsSuffix networkName selfEndpointId version peerCidr =>
    (rt.replaceNetworkWithPlan parse networkId peers dnsSuffix networkName selfEndpointId version
      peerCidr, ())
  | .removeNetwork networkId => (rt.removeNetwork parse networkId, ())
  | .applyPeerDelta networkId added removed version selfEndpointId networkName =>
    (rt.applyPeerDelta parse networkId added removed version selfEndpointId networkName, ())

end Tunnet.Routing

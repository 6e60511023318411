import Tunnet.Agent.Spec.Spoofing

/-!
# Who is behind an address

The SSH server (`identify_source`) and the serve proxy (`allow_peer`) take the source address of a
connection for a peer.
-/

namespace Tunnet.Agent

open Routing (Tables PeerInfo)

structure MeshSource where
  endpoint : String
  hostname : Option String
  networkId : Uuid
  networkName : String
  tags : List String

/-- The failures of `identify_source`. -/
inductive AuthzFailure
  | unknownMeshSource
  | notCurrentMember

variable (entries : List ((Uuid × Ipv4Addr) × PeerInfo))

/-- `lookup_endpoint_in`. `entries` are those of `by_network_ip` as the hash map lists them. -/
def lookupEndpointIn (networkId : Uuid) (hex : String) : Option PeerInfo :=
  (entries.find? fun e => e.1.1 == networkId && e.2.endpointHex == hex).map (·.2)

def identifySource (peerAddr : IpAddr)
    (destNetwork : Uuid) (routes : Tables) : Except AuthzFailure MeshSource :=
  match peerAddr with
  | .v6 _ => .error .unknownMeshSource
  | .v4 ip =>
    match routes.lookupIp ip with
    | none => .error .unknownMeshSource
    | some source =>
      match lookupEndpointIn entries destNetwork source.endpointHex with
      | none => .error .notCurrentMember
      | some member =>
        .ok {
          endpoint := member.endpointHex
          hostname := if member.hostname = "" then none else some member.hostname
          networkId := member.networkId
          networkName := member.networkName
          tags := member.tags }

structure ServeAcl where
  accessMode : String
  allowedTags : List String
  allowedEndpointIds : List String

/-- The peer of the address matches one of the selectors. -/
def peerMatches (routes : Tables) (peerAddr : IpAddr) (selectors : List Policy.Selector) : Bool :=
  match peerAddr with
  | .v6 _ => false
  | .v4 ip =>
    match routes.lookupIp ip with
    | none => false
    | some peer => selectors.any (·.matchesEndpoint peer.endpointHex peer.tags "" (some ip))

/-- The name of an allowed tag. -/
def tagName (tag : String) : String := (Str.stripPrefix "tag:" tag).getD tag

def allowPeer (routes : Tables) (acl : ServeAcl) (peerAddr : IpAddr) : Bool :=
  if acl.accessMode = "all_peers" then true
  else if acl.accessMode = "machines" then
    peerMatches routes peerAddr (acl.allowedEndpointIds.map .endpoint)
  else if acl.accessMode = "tags" then
    peerMatches routes peerAddr (acl.allowedTags.map fun tag => .tag (tagName tag))
  else false

open Routing (Tables EndpointId PeerInfo NetworkSlice infosOf rebuild)

/-- The hash map lists its entries, in some order. -/
def Lists (m : Map (Uuid × Ipv4Addr) PeerInfo) (entries : List ((Uuid × Ipv4Addr) × PeerInfo)) :
    Prop :=
  ∀ k p, (k, p) ∈ entries ↔ m.lookup k = some p

/-- The access list names the member. -/
def ServeAcl.Names (acl : ServeAcl) (p : PeerInfo) : Prop :=
  acl.accessMode = "machines" ∧
      (∃ id ∈ acl.allowedEndpointIds, Str.eqIgnoreAsciiCase id p.endpointHex) ∨
    acl.accessMode = "tags" ∧ ∃ tag ∈ acl.allowedTags, tagName tag ∈ p.tags

/-- Whoever an address is taken for has this address: in the destination network of an SSH
connection, and on the access list of a service that is not for all peers. -/
structure IdentityExact (members : List PeerInfo) (routes : Tables) (addr : IpAddr) : Prop where
  ssh : ∀ entries destNetwork source, Lists routes.byNetworkIp entries →
    identifySource entries addr destNetwork routes = .ok source →
      ∃ p ∈ members, p.networkId = destNetwork ∧ .v4 p.ip = addr ∧ p.endpointHex = source.endpoint
  serve : ∀ acl : ServeAcl, acl.accessMode ≠ "all_peers" → allowPeer routes acl addr →
    ∃ p ∈ members, .v4 p.ip = addr ∧ acl.Names p

/-- If the address is routed at all, a member has it, not only a subnet route or the exit node; and
the peer it is routed to has this address in all of its networks. -/
def OwnAddress (members : List PeerInfo) (routes : Tables) (addr : IpAddr) : Prop :=
  ∀ ip peer, addr = .v4 ip → routes.lookupIp ip = some peer → (∃ p ∈ members, p.ip = ip) ∧
    ∀ networkId ip' member, routes.lookupNetworkIp networkId ip' = some member →
      member.endpointHex = peer.endpointHex →
        ∃ p ∈ members, p.networkId = networkId ∧ p.ip = ip ∧ p.endpointHex = peer.endpointHex

section

variable {entries} {routes : Tables} {networkId : Uuid} {hex : String} {ip : Ipv4Addr}
  {peer member p : PeerInfo} {addr : IpAddr}

theorem exists_lists (m : Map (Uuid × Ipv4Addr) PeerInfo) : ∃ entries, Lists m entries := by
  refine ⟨m.entries.toList.map fun s => (s.1, s.2), fun k p => ?_⟩
  rw [Finmap.lookup_eq_some_iff]
  simp [Sigma.exists]

theorem lookupEndpointIn_spec (h : Lists routes.byNetworkIp entries)
    (hmember : lookupEndpointIn entries networkId hex = some member) :
    member.endpointHex = hex ∧ ∃ ip, routes.lookupNetworkIp networkId ip = some member := by
  obtain ⟨⟨⟨n, ip⟩, p⟩, hfind, rfl⟩ := Option.map_eq_some_iff.1 hmember
  obtain ⟨rfl, hhex⟩ : n = networkId ∧ p.endpointHex = hex := by simpa using List.find?_some hfind
  exact ⟨hhex, ip, (h _ _).1 (List.mem_of_find?_eq_some hfind)⟩

theorem exists_lookupEndpointIn (h : Lists routes.byNetworkIp entries)
    (hmember : routes.lookupNetworkIp networkId ip = some member) :
    ∃ p, lookupEndpointIn entries networkId member.endpointHex = some p := by
  rw [← Option.isSome_iff_exists, lookupEndpointIn, Option.isSome_map, List.find?_isSome]
  exact ⟨_, (h _ _).2 hmember, by simp⟩

theorem identifySource_eq_ok {source : MeshSource}
    (h : identifySource entries addr networkId routes = .ok source) :
    ∃ ip peer member, addr = .v4 ip ∧ routes.lookupIp ip = some peer ∧
      lookupEndpointIn entries networkId peer.endpointHex = some member ∧
      source.endpoint = member.endpointHex := by
  unfold identifySource at h
  split at h
  · cases h
  · split at h
    · cases h
    · rename_i peer hpeer
      split at h
      · cases h
      · rename_i member hmember
        cases h
        exact ⟨_, peer, member, rfl, hpeer, hmember, rfl⟩

theorem allowPeer_spec {acl : ServeAcl} (hmode : acl.accessMode ≠ "all_peers") :
    allowPeer routes acl addr ↔
      ∃ ip peer, addr = .v4 ip ∧ routes.lookupIp ip = some peer ∧ acl.Names peer := by
  have hmatches (selectors) : peerMatches routes addr selectors ↔
      ∃ ip peer, addr = .v4 ip ∧ routes.lookupIp ip = some peer ∧ ∃ s ∈ selectors,
        s.matchesEndpoint peer.endpointHex peer.tags "" (some ip) := by
    unfold peerMatches
    cases addr with
    | v6 => simp
    | v4 ip => cases hpeer : routes.lookupIp ip <;> simp [hpeer]
  unfold allowPeer ServeAcl.Names
  rw [if_neg hmode]
  split_ifs with hmachines htags
  · simp [hmatches, hmachines, Policy.Selector.matchesEndpoint]
  · simp [hmatches, htags, Policy.Selector.matchesEndpoint]
  · simp [hmachines, htags]

/-- An address that a member has is routed to a member that has it. -/
theorem lookupIp_of_member {parse : String → Option EndpointId}
    {slices : List (Uuid × NetworkSlice)} {version : UInt64} (hp : p ∈ infosOf parse slices)
    (hpeer : (rebuild parse slices version).lookupIp p.ip = some peer) :
    peer ∈ infosOf parse slices ∧ peer.ip = p.ip := by
  unfold Tables.lookupIp at hpeer
  split_ifs at hpeer
  have hsome : ((rebuild parse slices version).byIp.lookup p.ip).isSome := by
    rw [Routing.lookup_byIp_rebuild, List.find?_isSome]
    exact ⟨p, hp, decide_eq_true rfl⟩
  obtain ⟨q, hq⟩ := Option.isSome_iff_exists.1 hsome
  rw [hq] at hpeer
  cases hpeer
  rw [Routing.lookup_byIp_rebuild] at hq
  exact ⟨List.mem_of_find?_eq_some hq, by simpa using List.find?_some hq⟩

end

/-- When an address is its owner's: for every routing table and every source address. -/
theorem identity_exact_iff (parse : String → Option EndpointId)
    (slices : List (Uuid × NetworkSlice)) (version : UInt64) (addr : IpAddr) :
    IdentityExact (infosOf parse slices) (rebuild parse slices version) addr ↔
      OwnAddress (infosOf parse slices) (rebuild parse slices version) addr := by
  constructor
  · rintro ⟨hssh, hserve⟩ ip peer rfl hpeer
    refine ⟨?_, fun networkId ip' member hmember hhex => ?_⟩
    · -- a service for the machine of the peer
      have hallow : allowPeer (rebuild parse slices version)
          ⟨"machines", [], [peer.endpointHex]⟩ (.v4 ip) :=
        (allowPeer_spec (by simp)).2 ⟨ip, peer, rfl, hpeer,
          .inl ⟨rfl, _, List.mem_singleton.2 rfl, beq_self_eq_true _⟩⟩
      obtain ⟨p, hp, hip, -⟩ := hserve _ (by simp) hallow
      exact ⟨p, hp, IpAddr.v4.inj hip⟩
    · obtain ⟨entries, hlists⟩ := exists_lists (rebuild parse slices version).byNetworkIp
      obtain ⟨m, hm⟩ := exists_lookupEndpointIn hlists hmember
      rw [hhex] at hm
      have hok : ∃ source, identifySource entries (.v4 ip) networkId
          (rebuild parse slices version) = .ok source ∧ source.endpoint = m.endpointHex := by
        unfold identifySource
        simp only [hpeer, hm]
        exact ⟨_, rfl, rfl⟩
      obtain ⟨source, hsource, hendpoint⟩ := hok
      obtain ⟨p, hp, hnetwork, hip, hp'⟩ := hssh entries networkId source hlists hsource
      rw [hendpoint, (lookupEndpointIn_spec hlists hm).1] at hp'
      exact ⟨p, hp, hnetwork, IpAddr.v4.inj hip, hp'⟩
  · refine fun hown => ⟨fun entries destNetwork source hlists hok => ?_, fun acl hmode hallow => ?_⟩
    · obtain ⟨ip, peer, member, rfl, hpeer, hmember, hsource⟩ := identifySource_eq_ok hok
      obtain ⟨hhex, ip', hin⟩ := lookupEndpointIn_spec hlists hmember
      obtain ⟨p, hp, hnetwork, rfl, hp'⟩ := (hown ip peer rfl hpeer).2 _ _ _ hin hhex
      exact ⟨p, hp, hnetwork, rfl, by rw [hp', hsource, hhex]⟩
    · obtain ⟨ip, peer, rfl, hpeer, hnames⟩ := (allowPeer_spec hmode).1 hallow
      obtain ⟨p, hp, rfl⟩ := (hown ip peer rfl hpeer).1
      obtain ⟨hmem, hip⟩ := lookupIp_of_member hp hpeer
      exact ⟨peer, hmem, congrArg _ hip, hnames⟩

namespace Demo

/-- A host in the subnet that the first peer routes. -/
def subnetHost : Ipv4Addr := Ipv4Addr.new 192 168 50 9

/-- No member has the address, and still it is taken for the first peer. -/
theorem subnet_host_identified : (∀ p ∈ infosOf Hex.decode [(42, slice)], p.ip ≠ subnetHost) ∧
    allowPeer tables ⟨"machines", [], [alphaId]⟩ (.v4 subnetHost) ∧
    (identifySource [((42, alpha.ip), alpha), ((42, beta.ip), beta)] (.v4 subnetHost) 42
      tables).toOption.map (·.endpoint) = some alphaId := by
  decide

end Demo

end Tunnet.Agent

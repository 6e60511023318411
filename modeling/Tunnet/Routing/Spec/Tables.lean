import Tunnet.Routing.Tables

/-!
# What a network adds to the tables

The loop body of `rebuild` files the peers of a network and then its routes. `addRoutes_eq` says
what the routes change: prefixes are added to the subnet table and to the advertised ones, an exit
node is chosen, and the tables of hostname routes grow. The directory, all that is looked up by a
peer's address, endpoint or name, they leave as it is (`directory_addRoutes`).

Routes are put into a prefix map one after the other, and of two routes with the same key the first
one stays (`PrefixMap.addRoutes`). A lookup finds, of the routes that hold the address, the first
one with the longest prefix (`getLpm_ofRoutes`).
-/

namespace Tunnet.Routing

open List Tables

namespace PrefixMap

variable {V : Type} {p q : Ipv4Net} {v : V} {m : PrefixMap V} {e : Ipv4Net × V} {ip : Ipv4Addr}
  {routes : List (Ipv4Net × V)}

theorem sameKey_iff : sameKey p q = true ↔ p.network = q.network ∧ p.prefixLen = q.prefixLen := by
  rw [sameKey, Bool.and_eq_true, beq_iff_eq, beq_iff_eq]

theorem contains_of_sameKey (h : sameKey p q) : p.contains ip = q.contains ip := by
  obtain ⟨hnetwork, hlen⟩ := sameKey_iff.1 h
  have hmask : p.netmask = q.netmask := by rw [IpPrefix.netmask, IpPrefix.netmask, hlen]
  rw [IpPrefix.contains, IpPrefix.contains, p.broadcast_eq, q.broadcast_eq, hnetwork, hmask]

/-! ### Adding routes -/

/-- Add a route unless there is one with its key. -/
def insertNew (p : Ipv4Net) (v : V) (m : PrefixMap V) : PrefixMap V :=
  if m.containsKey p then m else m.insert p v

def addRoutes (routes : List (Ipv4Net × V)) (m : PrefixMap V) : PrefixMap V :=
  routes.foldl (fun m route => m.insertNew route.1 route.2) m

def ofRoutes (routes : List (Ipv4Net × V)) : PrefixMap V := empty.addRoutes routes

theorem entries_insert (h : m.containsKey p = false) :
    (m.insert p v).entries = m.entries ++ [(p, v)] := by
  have hkeep : ∀ e ∈ m.entries, (!sameKey p e.1) := by
    intro e he
    rw [Bool.not_eq_true', ← Bool.not_eq_true]
    intro hsame
    rw [containsKey, ← Bool.not_eq_true, any_eq_true] at h
    exact h ⟨e, he, hsame⟩
  rw [insert, filter_eq_self.2 hkeep]

theorem addRoutes_append (l₁ l₂ : List (Ipv4Net × V)) (m : PrefixMap V) :
    m.addRoutes (l₁ ++ l₂) = (m.addRoutes l₁).addRoutes l₂ :=
  foldl_append

/-! ### Lookups -/

theorem getLpm_ofRoutes (ip : Ipv4Addr) (routes : List (Ipv4Net × V)) :
    (ofRoutes routes).getLpm ip = (routes.filter (·.1.contains ip)).argmax (·.1.prefixLen) := by
  induction routes using reverseRecOn with
  | nil => rfl
  | append_singleton routes route ih =>
    have hlast : ofRoutes (routes ++ [route]) = (ofRoutes routes).insertNew route.1 route.2 :=
      addRoutes_append routes [route] empty
    have hone : [route].filter (·.1.contains ip) = if route.1.contains ip then [route] else [] := by
      simp [filter_cons]
    rw [hlast, filter_append, hone]
    unfold insertNew
    split_ifs with hkey hcontains hcontains
    · -- an earlier route with the same key holds the address, too, and is as long
      obtain ⟨e, he, hsame⟩ := any_eq_true.1 hkey
      have hmem : e ∈ (ofRoutes routes).entries.filter (·.1.contains ip) :=
        mem_filter.2 ⟨he, contains_of_sameKey hsame ▸ hcontains⟩
      rw [argmax_concat, ← ih]
      cases hmax : (ofRoutes routes).getLpm ip with
      | none => exact absurd (argmax_eq_none.1 hmax ▸ hmem) not_mem_nil
      | some =>
        have hle := le_of_mem_argmax hmem hmax
        rw [← (sameKey_iff.1 hsame).2] at hle
        exact (if_neg (not_lt.2 hle)).symm
    · rw [append_nil]
      exact ih
    all_goals rw [getLpm, entries_insert (Bool.not_eq_true _ ▸ hkey), filter_append, hone]
    · rw [if_pos hcontains, argmax_concat, argmax_concat, ← ih]
      rfl
    · rw [if_neg hcontains, append_nil, append_nil]
      exact ih

theorem getLpm_ofRoutes_eq_none_iff :
    (ofRoutes routes).getLpm ip = none ↔ ∀ route ∈ routes, route.1.contains ip = false := by
  rw [getLpm_ofRoutes, argmax_eq_none, filter_eq_nil_iff]
  simp

theorem getLpm_ofRoutes_eq_some
    (h : (ofRoutes routes).getLpm ip = some e) : e ∈ routes ∧ e.1.contains ip ∧
      ∀ route ∈ routes, route.1.contains ip → route.1.prefixLen ≤ e.1.prefixLen := by
  rw [getLpm_ofRoutes] at h
  obtain ⟨hmem, hcontains⟩ := mem_filter.1 (argmax_mem h)
  exact ⟨hmem, hcontains, fun route hroute hcontains' => le_of_mem_argmax
    (f := fun e => e.1.prefixLen) (mem_filter.2 ⟨hroute, hcontains'⟩) h⟩

end PrefixMap

/-- The part of the tables that the peers and the names of the networks determine. -/
structure Directory where
  byIp : Map Ipv4Addr PeerInfo
  byNetworkIp : Map (Uuid × Ipv4Addr) PeerInfo
  byEndpoint : Map String PeerInfo
  byHostname : Map String PeerInfo
  dnsSuffix : String
  networkName : String

def Tables.directory (t : Tables) : Directory :=
  ⟨t.byIp, t.byNetworkIp, t.byEndpoint, t.byHostname, t.dnsSuffix, t.networkName⟩

variable (parse : String → Option EndpointId) (networkId : Uuid) (slice : NetworkSlice)

/-- The peers of a network as the tables hold them. -/
def NetworkSlice.infos : List PeerInfo :=
  slice.peers.filterMap fun p => (parse p.endpointId).map (p.info networkId slice)

/-- The peers that routes of the network can go through, by endpoint id. -/
def NetworkSlice.vias : Map String PeerInfo :=
  (slice.infos parse networkId).foldl (fun m p => m.insert p.endpointHex p) ∅

/-- The prefixes of an exit node, as routes to it. -/
def exitRoutes (chosen : Option (ExitNodeInfo × PeerInfo)) : List (Ipv4Net × PeerInfo) :=
  chosen.toList.flatMap fun (exit, peer) => exit.allowedCidrs.map (·, peer)

section

variable (peers : Map String PeerInfo)

/-- The subnet routes through other nodes. -/
def subnetRoutesVia (routes : List SubnetRoute) : List (Ipv4Net × PeerInfo) :=
  routes.filterMap fun route =>
    if route.viaEndpointId = slice.selfEndpointId then none
    else (peerForVia parse networkId slice peers route.viaEndpointId route.viaIp).map
      (route.cidr, ·)

/-- The hostname routes through other nodes. -/
def hostnamesVia (routes : List HostnameRoute) : List HostnameRouteInfo :=
  routes.filterMap fun route =>
    if route.viaEndpointId = slice.selfEndpointId then none
    else (peerForVia parse networkId slice peers route.viaEndpointId route.viaIp).map
      (⟨·, route.isWildcard, route.targetIp, Str.toAsciiLowercase route.hostname⟩)

/-- The prefixes for which the node is a gateway or an exit node itself. -/
def NetworkSlice.ownNets : List Ipv4Net :=
  (slice.subnetRoutes.filter (·.viaEndpointId == slice.selfEndpointId)).map (·.cidr) ++
    (slice.exitNodes.filter (·.endpointId == slice.selfEndpointId)).flatMap (·.allowedCidrs)

/-- The part of the loop body of `rebuild` that comes after the peers. -/
def addRoutes (t : Tables) : Tables :=
  slice.hostnameRoutes.foldl (addHostnameRoute parse networkId slice peers)
    (addChosenExit parse networkId slice peers
      (slice.exitNodes.foldl (addOwnExit slice)
        (slice.subnetRoutes.foldl (addSubnetRoute parse networkId slice peers) t)))

variable (t : Tables)

theorem addSubnet_eq (peer : PeerInfo) (cidr : Ipv4Net) :
    addSubnet peer t cidr = { t with subnets := t.subnets.insertNew cidr peer } := by
  unfold addSubnet PrefixMap.insertNew
  split_ifs <;> rfl

theorem foldl_addSubnet (peer : PeerInfo) (cidrs : List Ipv4Net) : cidrs.foldl (addSubnet peer) t =
      { t with subnets := t.subnets.addRoutes (cidrs.map (·, peer)) } := by
  induction cidrs generalizing t with
  | nil => rfl
  | cons cidr cidrs ih =>
    rw [foldl_cons, ih, addSubnet_eq]
    rfl

theorem foldl_addSubnetRoute (routes : List SubnetRoute) :
    routes.foldl (addSubnetRoute parse networkId slice peers) t =
      { t with
        subnets := t.subnets.addRoutes (subnetRoutesVia parse networkId slice peers routes)
        advertised := t.advertised ++
          (routes.filter (·.viaEndpointId == slice.selfEndpointId)).map (·.cidr) } := by
  induction routes generalizing t with
  | nil => simp [subnetRoutesVia, PrefixMap.addRoutes]
  | cons route routes ih =>
    rw [foldl_cons, ih]
    unfold subnetRoutesVia addSubnetRoute
    by_cases hself : route.viaEndpointId = slice.selfEndpointId
    · simp [hself]
    · cases hvia : peerForVia parse networkId slice peers route.viaEndpointId route.viaIp with
      | none => simp [hself, hvia]
      | some => simp [hself, hvia, addSubnet_eq, PrefixMap.addRoutes]

theorem foldl_addOwnExit (exits : List ExitNodeInfo) : exits.foldl (addOwnExit slice) t =
      { t with advertised := t.advertised ++
          (exits.filter (·.endpointId == slice.selfEndpointId)).flatMap (·.allowedCidrs) } := by
  induction exits generalizing t with
  | nil => simp
  | cons exit exits ih =>
    rw [foldl_cons, ih, addOwnExit]
    by_cases hself : exit.endpointId = slice.selfEndpointId
    · simp [hself]
    · simp [hself]

theorem addChosenExit_eq : addChosenExit parse networkId slice peers t =
    let chosen := chosenExit parse networkId slice peers
    { t with
      subnets := t.subnets.addRoutes (exitRoutes chosen)
      exitNode := t.exitNode.or (chosen.map (·.2))
      allowLocalLan := if t.exitNode.isNone && chosen.isSome then slice.profile.allowLocalLan
        else t.allowLocalLan } := by
  unfold addChosenExit
  cases chosenExit parse networkId slice peers with
  | none => simp [exitRoutes, PrefixMap.addRoutes]
  | some chosen =>
    obtain ⟨exit, peer⟩ := chosen
    have hroutes : exitRoutes (some (exit, peer)) = exit.allowedCidrs.map (·, peer) :=
      flatMap_singleton _ _
    dsimp only
    rw [foldl_addSubnet, hroutes]
    cases t.exitNode <;> simp

theorem foldl_addHostnameRoute (routes : List HostnameRoute) :
    ∃ advertisedHostnames, routes.foldl (addHostnameRoute parse networkId slice peers) t =
      let infos := hostnamesVia parse networkId slice peers routes
      { t with
        hostnameExact := (infos.filter (!·.isWildcard)).foldl (fun m info =>
          m.insert info.hostname info) t.hostnameExact
        hostnameWildcards := t.hostnameWildcards ++ infos.filter (·.isWildcard)
        advertisedHostnames } := by
  induction routes generalizing t with
  | nil => exact ⟨t.advertisedHostnames, by simp [hostnamesVia]⟩
  | cons route routes ih =>
    obtain ⟨advertisedHostnames, hrest⟩ := ih (addHostnameRoute parse networkId slice peers t route)
    refine ⟨advertisedHostnames, ?_⟩
    rw [foldl_cons, hrest]
    unfold hostnamesVia addHostnameRoute
    cases hvia : peerForVia parse networkId slice peers route.viaEndpointId route.viaIp with
    | none => simp [hvia]
    | some =>
      by_cases hself : route.viaEndpointId = slice.selfEndpointId
      · simp [hself]
      · cases hwildcard : route.isWildcard <;> simp [hself, hvia, hwildcard]

/-- What the routes of a network add. -/
theorem addRoutes_eq : ∃ advertisedHostnames, addRoutes parse networkId slice peers t =
    let chosen := chosenExit parse networkId slice peers
    let infos := hostnamesVia parse networkId slice peers slice.hostnameRoutes
    { t with
      subnets := t.subnets.addRoutes
        (subnetRoutesVia parse networkId slice peers slice.subnetRoutes ++ exitRoutes chosen)
      advertised := t.advertised ++ slice.ownNets
      exitNode := t.exitNode.or (chosen.map (·.2))
      allowLocalLan := if t.exitNode.isNone && chosen.isSome then slice.profile.allowLocalLan
        else t.allowLocalLan
      hostnameExact := (infos.filter (!·.isWildcard)).foldl (fun m info =>
        m.insert info.hostname info) t.hostnameExact
      hostnameWildcards := t.hostnameWildcards ++ infos.filter (·.isWildcard)
      advertisedHostnames } := by
  rw [addRoutes, foldl_addSubnetRoute, foldl_addOwnExit, addChosenExit_eq]
  obtain ⟨advertisedHostnames, hnames⟩ :=
    foldl_addHostnameRoute parse networkId slice peers _ slice.hostnameRoutes
  refine ⟨advertisedHostnames, ?_⟩
  dsimp only at hnames ⊢
  rw [hnames, PrefixMap.addRoutes_append, NetworkSlice.ownNets, append_assoc]

theorem directory_addRoutes : (addRoutes parse networkId slice peers t).directory =
    t.directory := by
  obtain ⟨_, heq⟩ := addRoutes_eq parse networkId slice peers t
  rw [heq]
  rfl

/-! ### A network -/

variable (ps : List PeerEntry) (acc : Tables × Map String PeerInfo)

theorem foldl_addPeer : ∃ byIp byNetworkIp byEndpoint byHostname,
      (ps.foldl (addPeer parse networkId slice) acc).1 =
        { acc.1 with byIp, byNetworkIp, byEndpoint, byHostname } := by
  refine foldlRecOn ps _ (motive := fun acc' : Tables × Map String PeerInfo =>
    ∃ byIp byNetworkIp byEndpoint byHostname,
      acc'.1 = { acc.1 with byIp, byNetworkIp, byEndpoint, byHostname })
    ⟨acc.1.byIp, acc.1.byNetworkIp, acc.1.byEndpoint, acc.1.byHostname, rfl⟩ ?_
  rintro ⟨_, _⟩ ⟨_, _, _, _, rfl⟩ p _
  unfold addPeer addHostname
  split
  · exact ⟨_, _, _, _, rfl⟩
  · split_ifs
    all_goals exact ⟨_, _, _, _, rfl⟩

theorem snd_foldl_addPeer : (ps.foldl (addPeer parse networkId slice) acc).2 =
      (ps.filterMap fun p => (parse p.endpointId).map (p.info networkId slice)).foldl
        (fun m p => m.insert p.endpointHex p) acc.2 := by
  induction ps generalizing acc with
  | nil => rfl
  | cons p ps ih =>
    rw [foldl_cons, ih]
    unfold addPeer
    cases hparse : parse p.endpointId with
    | none => simp [hparse]
    | some =>
      simp only [hparse, filterMap_cons]
      rfl

/-- The exit node that the network contributes, with the peer it is reached through. -/
def NetworkSlice.exit : Option (ExitNodeInfo × PeerInfo) :=
  chosenExit parse networkId slice (slice.vias parse networkId)

/-- The routes of a network. -/
def NetworkSlice.routes : List (Ipv4Net × PeerInfo) :=
  subnetRoutesVia parse networkId slice (slice.vias parse networkId) slice.subnetRoutes ++
    exitRoutes (slice.exit parse networkId)

/-- The hostname routes of a network. -/
def NetworkSlice.hostnames : List HostnameRouteInfo :=
  hostnamesVia parse networkId slice (slice.vias parse networkId) slice.hostnameRoutes

/-- What a network adds besides its peers. -/
structure Adds (t' : Tables) : Prop where
  subnets : t'.subnets = t.subnets.addRoutes (slice.routes parse networkId)
  advertised : t'.advertised = t.advertised ++ slice.ownNets
  exitNode : t'.exitNode = t.exitNode.or ((slice.exit parse networkId).map (·.2))
  allowLocalLan : t'.allowLocalLan = if t.exitNode.isNone && (slice.exit parse networkId).isSome
    then slice.profile.allowLocalLan else t.allowLocalLan
  hostnameExact : t'.hostnameExact =
    ((slice.hostnames parse networkId).filter (!·.isWildcard)).foldl (fun m info =>
      m.insert info.hostname info) t.hostnameExact
  hostnameWildcards : t'.hostnameWildcards =
    t.hostnameWildcards ++ (slice.hostnames parse networkId).filter (·.isWildcard)

theorem adds_addSlice : Adds parse networkId slice t (addSlice parse networkId slice t) := by
  unfold addSlice
  dsimp only
  rw [snd_foldl_addPeer]
  obtain ⟨_, _, _, _, hpeers⟩ := foldl_addPeer parse networkId slice slice.peers _
  rw [hpeers]
  obtain ⟨_, hroutes⟩ := addRoutes_eq parse networkId slice (slice.vias parse networkId) _
  constructor
  · exact congrArg subnets hroutes
  · exact congrArg advertised hroutes
  · exact congrArg exitNode hroutes
  · exact congrArg allowLocalLan hroutes
  · exact congrArg hostnameExact hroutes
  · exact congrArg hostnameWildcards hroutes

end

/-! ### All networks -/

section

variable (slices : List (Uuid × NetworkSlice)) (version : UInt64)

/-- The routes of all networks. -/
def routesOf : List (Ipv4Net × PeerInfo) := slices.flatMap fun s => s.2.routes parse s.1

/-- The hostname routes of all networks. -/
def hostnamesOf : List HostnameRouteInfo := slices.flatMap fun s => s.2.hostnames parse s.1

theorem foldl_addSlice {β : Type} (get : Tables → β) (f : β → Uuid × NetworkSlice → β)
    (h : ∀ t t' s, Adds parse s.1 s.2 t t' → get t' = f (get t) s) :
    get (slices.foldl (fun t s => addSlice parse s.1 s.2 t) .empty) = slices.foldl f (get .empty) :=
  (foldl_hom get fun t s => (h t _ s (adds_addSlice parse s.1 s.2 t)).symm).symm

theorem subnets_rebuild :
    (rebuild parse slices version).subnets = .ofRoutes (routesOf parse slices) :=
  (foldl_addSlice parse slices subnets _ fun _ _ _ h => h.subnets).trans foldl_flatMap.symm

theorem advertised_rebuild :
    (rebuild parse slices version).advertised = slices.flatMap (·.2.ownNets) :=
  (foldl_addSlice parse slices advertised _ fun _ _ _ h => h.advertised).trans flatMap_eq_foldl.symm

/-- The exit node of the first network that contributes one, and whether private destinations stay
out of it, which that network decides. -/
def leavingOf : Option PeerInfo × Bool :=
  (slices.find? fun s => (s.2.exit parse s.1).isSome).elim (none, true) fun s =>
    ((s.2.exit parse s.1).map (·.2), s.2.profile.allowLocalLan)

theorem leaving_rebuild : ((rebuild parse slices version).exitNode,
    (rebuild parse slices version).allowLocalLan) = leavingOf parse slices := by
  have hfold := foldl_addSlice parse slices (fun t => (t.exitNode, t.allowLocalLan))
    (fun x s => (x.1.or ((s.2.exit parse s.1).map (·.2)),
      if x.1.isNone && (s.2.exit parse s.1).isSome then s.2.profile.allowLocalLan else x.2))
    fun _ _ _ h => Prod.ext h.exitNode h.allowLocalLan
  refine hfold.trans ?_
  clear hfold
  unfold leavingOf
  induction slices with
  | nil => rfl
  | cons s slices ih =>
    rw [foldl_cons, find?_cons]
    cases hexit : s.2.exit parse s.1 with
    | none => exact ih
    | some =>
      -- the exit node that is there stays
      refine (foldl_fixed' (fun _ => rfl) slices).trans ?_
      rw [Option.isSome_some, Option.elim_some, hexit]
      rfl

end

/-! ### The prefixes a node advertises -/

/-- A subnet route of the network leads through this node. -/
def NetworkSlice.OwnRoute (slice : NetworkSlice) (net : Ipv4Net) : Prop :=
  ∃ route ∈ slice.subnetRoutes, route.viaEndpointId = slice.selfEndpointId ∧ route.cidr = net

/-- This node is an exit node of the network for the prefix. -/
def NetworkSlice.OwnExit (slice : NetworkSlice) (net : Ipv4Net) : Prop :=
  ∃ exit ∈ slice.exitNodes, exit.endpointId = slice.selfEndpointId ∧ net ∈ exit.allowedCidrs

theorem NetworkSlice.mem_ownNets {slice : NetworkSlice} {net : Ipv4Net} :
    net ∈ slice.ownNets ↔ slice.OwnRoute net ∨ slice.OwnExit net := by
  simp [ownNets, OwnRoute, OwnExit, and_assoc]

/-- What a node advertises after a rebuild. -/
theorem mem_advertised_rebuild {parse : String → Option EndpointId}
    {slices : List (Uuid × NetworkSlice)} {version : UInt64} {net : Ipv4Net} :
    net ∈ (rebuild parse slices version).advertised ↔
      ∃ s ∈ slices, s.2.OwnRoute net ∨ s.2.OwnExit net := by
  rw [advertised_rebuild, mem_flatMap]
  simp [NetworkSlice.mem_ownNets]

end Tunnet.Routing

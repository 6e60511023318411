import Tunnet.Routing.Spec.Directory

/-!
# Whom a mesh name finds

A peer is meant to be found under its fully qualified name, `hostname[.network].suffix`, and no
other name but its bare host name is meant to find anything. The lookup compares a query with the
bare and the qualified names of all peers at once, and a bare name may have dots: a peer called
`a.office` takes the name of the peer `a` of the network `office` when the map happens to list it
first. A query that is nobody's name is looked up again without the name of the first named
network, so that `a.office.office` finds `a`, and so does `a.office` when only another network has
an `a`. `mesh_names_exact` says for which tables each of the three parts holds in every iteration
order.
-/

namespace Tunnet.Routing

open List Option Str Tables

namespace Tables

variable (t : Tables)

/-- A peer of the tables. -/
def Peer (p : PeerInfo) : Prop := ∃ key, t.byNetworkIp.lookup key = some p

/-- A peer with a host name. -/
def Named (p : PeerInfo) : Prop := t.Peer p ∧ p.hostname ≠ ""

/-- No two peers have the same fully qualified name. -/
def DistinctNames : Prop := ∀ p q, t.Named p → t.Named q → p.fqdn = q.fqdn → p = q

end Tables

/-- If a peer has a name, the suffix is in lower case, and neither it nor a name ends with a dot;
and different peers of a network have different addresses. -/
structure Plain (parse : String → Option EndpointId) (rt : RoutingTable) : Prop where
  suffix_lower : ∀ p, rt.tables.Named p →
    Str.toAsciiLowercase rt.tables.dnsSuffix = rt.tables.dnsSuffix
  suffix_dot : ∀ p, rt.tables.Named p → Str.endsWith '.' rt.tables.dnsSuffix = false
  fqdn_dot : ∀ p, rt.tables.Named p → Str.endsWith '.' p.fqdn = false
  addresses : ∀ p ∈ infosOf parse rt.slices, ∀ q ∈ infosOf parse rt.slices,
    p.networkId = q.networkId → p.ip = q.ip → p = q

/-! ### Queries -/

variable {p q : PeerInfo} {call : TableCall} {t : Tables}

section

variable {order : List PeerInfo} {name bare : String} {ip : Ipv4Addr}

theorem Tables.Iterates.mem_iff (h : t.Iterates order) : p ∈ order ↔ t.Peer p := by
  have hmem : p ∈ order ↔ ∃ s ∈ t.byNetworkIp.entries, s.2 = p := by
    rw [← Multiset.mem_coe, h, Multiset.mem_map]
  rw [hmem]
  constructor
  · rintro ⟨s, hs, rfl⟩
    exact ⟨s.1, Finmap.lookup_eq_some_iff.2 hs⟩
  · rintro ⟨key, hkey⟩
    exact ⟨⟨key, p⟩, Finmap.lookup_eq_some_iff.1 hkey, rfl⟩

theorem Tables.Peer.first (h : t.Peer p) : ∃ rest, t.Iterates (p :: rest) := by
  obtain ⟨key, hkey⟩ := h
  have hmem : p ∈ t.byNetworkIp.entries.map (·.2) :=
    Multiset.mem_map.2 ⟨⟨key, p⟩, Finmap.lookup_eq_some_iff.1 hkey, rfl⟩
  obtain ⟨rest, hrest⟩ := Multiset.exists_cons_of_mem hmem
  obtain ⟨l, rfl⟩ := Quot.exists_rep rest
  exact ⟨l, hrest.symm⟩

end

/-! ### The peers of a table -/

section

variable {parse : String → Option EndpointId} {rt : RoutingTable}

variable {name : String} {ip : Ipv4Addr}

variable (hsound : Sound parse rt) (hplain : Plain parse rt)

include hsound hplain

end

namespace Demo

/-- Every endpoint id parses. -/
def parse (_ : String) : Option EndpointId := some []

def entry (ip : Ipv4Addr) (endpointId hostname hostKey : String) : PeerEntry :=
  ⟨ip, endpointId, hostname, [], some hostKey⟩

/-- A snapshot of one network. -/
def snapshot (peers : List PeerEntry) (networkName : String) : TableCall :=
  .replace peers [] [] [] .default "tunnet" networkName 1 "self" 1

def after (call : TableCall) : RoutingTable := (RoutingTable.new.step parse call).1

theorem after_run (call : TableCall) : Run (RoutingTable.step parse) (fun _ _ _ => True)
    RoutingTable.new [(call, ())] (after call) :=
  .call call .start trivial

/-- Two peers of a network without a name, of which one is listed twice. -/
def unnamed : TableCall :=
  snapshot [entry 5 "e5" "db" "key5", entry 6 "e6" "Web" "key6", entry 5 "e5" "db" "key5"] ""

/-- The peers `a` and `a.office` of the network `office`. -/
def dotted : TableCall :=
  snapshot [entry 5 "e5" "a" "key5", entry 6 "e6" "a.office" "key6"] "Office"

/-- The order in which `a.office` comes first. -/
def order : List PeerInfo := (infosOf parse (after dotted).slices).reverse

end Demo

/-! ## Who owns an address

The table by address keeps the first peer that lists it, the table by network and address the last
one of the network. If two endpoints list an address in one network, the two tables name different
owners. As long as every call leaves each network with at most one owner for an address
(`KeepsOwners`), the tables agree (`owners_agree`). -/

variable (parse : String → Option EndpointId)

/-- Entries for one address are entries of one endpoint; those with an invalid endpoint id do not
count. -/
def OneOwner (peers : List PeerEntry) : Prop :=
  ∀ a ∈ peers, ∀ b ∈ peers, (parse a.endpointId).isSome → (parse b.endpointId).isSome →
    a.ip = b.ip → a.endpointId = b.endpointId

instance (parse : String → Option EndpointId) (peers : List PeerEntry) :
    Decidable (OneOwner parse peers) :=
  inferInstanceAs (Decidable (∀ a ∈ peers, ∀ b ∈ peers, (parse a.endpointId).isSome →
    (parse b.endpointId).isSome → a.ip = b.ip → a.endpointId = b.endpointId))

/-- The list of peers that the call gives a network has one owner for each address. -/
def KeepsOwners (rt : RoutingTable) : TableCall → Prop
  | .replace peers .. => OneOwner parse peers
  | .replaceNetworkWithPlan _ peers .. => OneOwner parse peers
  | .removeNetwork _ => True
  | .applyPeerDelta networkId added removed _ selfEndpointId _ =>
    ∀ s ∈ rt.slices, s.1 = networkId →
      OneOwner parse (patchPeers selfEndpointId added removed s.2.peers)

/-- All networks have one owner for each address. -/
def Owned (rt : RoutingTable) : Prop :=
  ∀ s ∈ rt.slices, OneOwner parse s.2.peers

section

variable {parse} {rt : RoutingTable}

theorem Owned.step (h : Owned parse rt) (hcall : KeepsOwners parse rt call) :
    Owned parse (rt.step parse call).1 := by
  cases call with
  | replace =>
    intro s hs
    rw [mem_singleton.1 hs]
    exact hcall
  | replaceNetworkWithPlan =>
    unfold RoutingTable.step RoutingTable.replaceNetworkWithPlan
    dsimp only
    split_ifs
    · exact h
    · intro s hs
      rcases mem_putSlice hs with hs | rfl
      · exact h s hs
      · exact hcall
  | removeNetwork => exact fun s hs => h s (mem_of_mem_filter hs)
  | applyPeerDelta =>
    unfold RoutingTable.step RoutingTable.applyPeerDelta
    dsimp only
    split_ifs
    · intro s hs
      obtain ⟨old, hold, rfl⟩ := mem_map.1 hs
      split_ifs with hid
      · exact hcall old hold hid
      · exact h old hold
    · exact h

theorem exists_entry {slices : List (Uuid × NetworkSlice)} (h : p ∈ infosOf parse slices) :
    ∃ s ∈ slices, p.networkId = s.1 ∧ ∃ entry ∈ s.2.peers, (parse entry.endpointId).isSome ∧
      entry.ip = p.ip ∧ entry.endpointId = p.endpointHex := by
  obtain ⟨s, hs, hp⟩ := mem_flatMap.1 h
  obtain ⟨entry, hentry, hinfo⟩ := mem_filterMap.1 hp
  obtain ⟨endpoint, hparse, rfl⟩ := Option.map_eq_some_iff.1 hinfo
  exact ⟨s, hs, rfl, entry, hentry, Option.isSome_of_eq_some hparse, rfl, rfl⟩

end

/-- An address has one owner: when no call leaves a network with two endpoints for one address,
the table by address and the table by network and address name the same peer wherever both name one
of this network. -/
theorem owners_agree {parse : String → Option EndpointId} {calls : List (TableCall × Unit)}
    {rt : RoutingTable}
    (hrun : Run (RoutingTable.step parse) (fun _ rt call => KeepsOwners parse rt call)
      RoutingTable.new calls rt)
    {networkId : Uuid} {ip : Ipv4Addr} {p q : PeerInfo} (hp : rt.tables.byIp.lookup ip = some p)
    (hq : rt.tables.lookupNetworkIp networkId ip = some q) (hnetwork : p.networkId = networkId) :
    p.endpointHex = q.endpointHex := by
  have hsound := sound_of_run hrun
  have howned : Owned parse rt :=
    hrun.invariant (I := fun _ rt => Owned parse rt) (fun _ h => absurd h not_mem_nil)
      fun _ _ _ h hcall => h.step hcall
  obtain ⟨version, htables⟩ := hsound.tables
  rw [htables, lookup_byIp_rebuild] at hp
  rw [Tables.lookupNetworkIp, htables, lookup_byNetworkIp_rebuild] at hq
  have hpIp : p.ip = ip := by simpa using find?_some hp
  have hqKey : (q.networkId, q.ip) = (networkId, ip) := by simpa using find?_some hq
  obtain ⟨hqNetwork, hqIp⟩ := Prod.mk.inj hqKey
  obtain ⟨s, hs, hsId, a, ha, haParse, haIp, haEndpoint⟩ := exists_entry (mem_of_find?_eq_some hp)
  obtain ⟨s', hs', hsId', b, hb, hbParse, hbIp, hbEndpoint⟩ :=
    exists_entry (mem_reverse.1 (mem_of_find?_eq_some hq))
  -- a network has one slice
  obtain rfl : s = s' := by
    refine inj_on_of_nodup_map (hsound.sorted.imp BitVec.ne_of_lt) hs hs' ?_
    rw [← hsId, ← hsId', hnetwork, hqNetwork]
  rw [← haEndpoint, ← hbEndpoint]
  refine howned s hs a ha b hb haParse hbParse ?_
  rw [haIp, hbIp, hpIp, hqIp]

namespace Demo

/-- A network in which two endpoints list the address 5. -/
def contested : TableCall := snapshot [entry 5 "e5" "db" "key5", entry 5 "e6" "Web" "key6"] ""

theorem owners_agree_unnamed :
    ((after unnamed).tables.byIp.lookup 5).map (·.endpointHex) = some "e5" ∧
      ∀ p q, (after unnamed).tables.byIp.lookup 5 = some p →
        (after unnamed).tables.lookupNetworkIp 1 5 = some q → p.networkId = 1 →
        p.endpointHex = q.endpointHex := by
  refine ⟨by decide, fun p q hp hq hnetwork => ?_⟩
  have howners : KeepsOwners parse .new unnamed := by
    unfold KeepsOwners unnamed snapshot
    decide
  exact owners_agree (.call unnamed .start howners) hp hq hnetwork

/-- The two tables name different owners. -/
theorem owners_differ :
    ((after contested).tables.byIp.lookup 5).map (fun p => (p.networkId, p.endpointHex)) =
        some (1, "e5") ∧
      ((after contested).tables.lookupNetworkIp 1 5).map (fun p => (p.networkId, p.endpointHex)) =
        some (1, "e6") := by
  decide

end Demo

end Tunnet.Routing

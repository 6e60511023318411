import Tunnet.Routing.Dns
import Tunnet.Routing.Spec.Tables
import Tunnet.Util.Run

/-!
# What the peers determine

A rebuild files the peers of all networks, one after the other, in the directory
(`directory_rebuild`). Lookups in the rebuilt tables are therefore searches in the list of these
peers: the first peer with an address or an endpoint id (`lookup_byIp_rebuild`,
`lookup_byEndpoint_rebuild`), and the last one with an address in a network
(`lookup_byNetworkIp_rebuild`). A name is filed for a peer that has it
(`names_of_lookup_byHostname`).

In every run of the routing table the tables are those of the slices (`Sound`).
-/

namespace Tunnet.Routing

open Directory List

variable {p q : PeerInfo} {m : Map String PeerInfo} {name bare : String}

/-- The peers of all networks. -/
def infosOf (parse : String → Option EndpointId) (slices : List (Uuid × NetworkSlice)) :
    List PeerInfo :=
  slices.flatMap fun s => s.2.infos parse s.1

namespace Directory

def empty : Directory := Tables.empty.directory

/-- Add a peer. -/
def file (d : Directory) (p : PeerInfo) : Directory where
  byIp := d.byIp.insertNew p.ip p
  byNetworkIp := d.byNetworkIp.insert (p.networkId, p.ip) p
  byEndpoint := d.byEndpoint.insertNew p.endpointHex p
  byHostname := if p.hostname = "" then d.byHostname
    else (d.byHostname.insertNew p.host p).insert p.fqdn p
  dnsSuffix := d.dnsSuffix
  networkName := d.networkName

/-- Take the names of a network. -/
def named (d : Directory) (slice : NetworkSlice) : Directory :=
  { d with
    networkName := if d.networkName = "" then slice.networkName else d.networkName
    dnsSuffix := slice.dnsSuffix }

/-- Add a network. -/
def fileSlice (parse : String → Option EndpointId) (d : Directory) (s : Uuid × NetworkSlice) :
    Directory :=
  (s.2.infos parse s.1).foldl file (d.named s.2)

end Directory

variable {networkId : Uuid} {slice : NetworkSlice}

section

variable {parse : String → Option EndpointId}

theorem directory_addPeer (acc : Tables × Map String PeerInfo) (p : PeerEntry)
    {endpoint : EndpointId} (hparse : parse p.endpointId = some endpoint) :
    (addPeer parse networkId slice acc p).1.directory =
      acc.1.directory.file (p.info networkId slice endpoint) := by
  simp only [addPeer, hparse]
  unfold addHostname file
  by_cases hname : p.hostname = ""
  · rw [if_pos hname, if_pos (show (p.info networkId slice endpoint).hostname = "" from hname)]
    rfl
  · rw [if_neg hname, if_neg (show (p.info networkId slice endpoint).hostname ≠ "" from hname)]
    rfl

theorem directory_foldl_addPeer (ps : List PeerEntry) (acc : Tables × Map String PeerInfo) :
    (ps.foldl (addPeer parse networkId slice) acc).1.directory =
      (ps.filterMap fun p => (parse p.endpointId).map (p.info networkId slice)).foldl
        file acc.1.directory := by
  induction ps generalizing acc with
  | nil => rfl
  | cons p ps ih =>
    rw [foldl_cons, ih]
    cases hparse : parse p.endpointId with
    | none =>
      have hskip : addPeer parse networkId slice acc p = acc := by rw [addPeer, hparse]
      rw [hskip, filterMap_cons_none (by rw [hparse]; rfl)]
    | some =>
      rw [filterMap_cons_some (by rw [hparse]; rfl), foldl_cons, directory_addPeer acc p hparse]

theorem directory_addSlice (t : Tables) : (addSlice parse networkId slice t).directory =
      t.directory.fileSlice parse (networkId, slice) :=
  (directory_addRoutes parse networkId slice _ _).trans (directory_foldl_addPeer slice.peers _)

end

section

variable (parse : String → Option EndpointId) (slices : List (Uuid × NetworkSlice))
  (version : UInt64)

/-- A rebuild files the peers network by network. -/
theorem directory_rebuild : (rebuild parse slices version).directory =
      slices.foldl (fileSlice parse) empty := by
  have hfold : slices.foldl (fileSlice parse) Tables.empty.directory =
      (slices.foldl (fun t s => addSlice parse s.1 s.2 t) Tables.empty).directory :=
    foldl_hom Tables.directory fun t _ => (directory_addSlice t).symm
  exact hfold.symm

theorem component_rebuild {β : Type} (get : Directory → β) (f : β → PeerInfo → β)
    (hfile : ∀ d p, get (d.file p) = f (get d) p) (hnamed : ∀ d s, get (d.named s) = get d) :
    get (rebuild parse slices version).directory = (infosOf parse slices).foldl f (get empty) := by
  rw [directory_rebuild]
  generalize empty = d
  induction slices generalizing d with
  | nil => rfl
  | cons s slices ih =>
    have hslice : get (d.fileSlice parse s) = (s.2.infos parse s.1).foldl f (get d) := by
      rw [← hnamed d s.2]
      exact (foldl_hom get fun d p => (hfile d p).symm).symm
    rw [foldl_cons, ih, hslice, ← foldl_append]
    rfl

theorem lookup_byIp_rebuild (ip : Ipv4Addr) : (rebuild parse slices version).byIp.lookup ip =
      (infosOf parse slices).find? (·.ip = ip) := by
  have hfold := component_rebuild parse slices version byIp
    (fun m p => m.insertNew p.ip p) (fun _ _ => rfl) fun _ _ => rfl
  exact (congrArg (Finmap.lookup ip) hfold).trans (Map.lookup_firsts PeerInfo.ip _ ip)

theorem lookup_byEndpoint_rebuild (hex : String) :
    (rebuild parse slices version).byEndpoint.lookup hex =
      (infosOf parse slices).find? (·.endpointHex = hex) := by
  have hfold := component_rebuild parse slices version byEndpoint
    (fun m p => m.insertNew p.endpointHex p) (fun _ _ => rfl) fun _ _ => rfl
  exact (congrArg (Finmap.lookup hex) hfold).trans (Map.lookup_firsts PeerInfo.endpointHex _ hex)

theorem lookup_byNetworkIp_rebuild (key : Uuid × Ipv4Addr) :
    (rebuild parse slices version).byNetworkIp.lookup key =
      (infosOf parse slices).reverse.find? fun p => (p.networkId, p.ip) = key := by
  have hfold := component_rebuild parse slices version byNetworkIp
    (fun m p => m.insert (p.networkId, p.ip) p) (fun _ _ => rfl) fun _ _ => rfl
  exact (congrArg (Finmap.lookup key) hfold).trans
    (Map.lookup_lasts (fun p : PeerInfo => (p.networkId, p.ip)) _ key)

/-- Each entry is filed under its own keys, and every mesh address is in the table by address. -/
structure Tables.WellFormed (t : Tables) : Prop where
  byIp : ∀ ip p, t.byIp.lookup ip = some p → p.ip = ip
  byNetworkIp : ∀ networkId ip p, t.byNetworkIp.lookup (networkId, ip) = some p →
    p.networkId = networkId ∧ p.ip = ip ∧ (t.byIp.lookup ip).isSome
  byEndpoint : ∀ hex p, t.byEndpoint.lookup hex = some p →
    p.endpointHex = hex ∧ (t.byIp.lookup p.ip).isSome

/-- The member tables agree: after every rebuild. -/
theorem wellFormed_rebuild : (rebuild parse slices version).WellFormed := by
  have hmem {p : PeerInfo} (hp : p ∈ infosOf parse slices) :
      ((rebuild parse slices version).byIp.lookup p.ip).isSome := by
    rw [lookup_byIp_rebuild, find?_isSome]
    exact ⟨p, hp, decide_eq_true rfl⟩
  refine ⟨fun ip p h => ?_, fun networkId ip p h => ?_, fun hex p h => ?_⟩
  · rw [lookup_byIp_rebuild] at h
    simpa using find?_some h
  · rw [lookup_byNetworkIp_rebuild] at h
    have hkey : (p.networkId, p.ip) = (networkId, ip) := by simpa using find?_some h
    obtain ⟨rfl, rfl⟩ := Prod.mk.inj hkey
    exact ⟨rfl, rfl, hmem (mem_reverse.1 (mem_of_find?_eq_some h))⟩
  · rw [lookup_byEndpoint_rebuild] at h
    exact ⟨by simpa using find?_some h, hmem (mem_of_find?_eq_some h)⟩

end

/-! ### Names -/

section

variable {parse : String → Option EndpointId} {slices : List (Uuid × NetworkSlice)}
  {version : UInt64}

theorem networkName_rebuild : (rebuild parse slices version).networkName = "" ∨
    ∃ s ∈ slices, (rebuild parse slices version).networkName = s.2.networkName := by
  have hfile (l : List PeerInfo) (d) :
      (l.foldl file d).networkName = d.networkName :=
    foldlRecOn l _ (motive := fun d' : Directory => d'.networkName = d.networkName) rfl
      fun _ hd _ _ => hd
  have hinv : ∀ d, d = slices.foldl (fileSlice parse) empty →
      d.networkName = "" ∨ ∃ s ∈ slices, d.networkName = s.2.networkName := by
    rintro _ rfl
    refine foldlRecOn slices (fileSlice parse)
      (motive := fun d => d.networkName = "" ∨ ∃ s ∈ slices, d.networkName = s.2.networkName)
      ?_ ?_
    · exact .inl rfl
    · intro d hd s hs
      rw [fileSlice, hfile, named]
      split_ifs
      · exact .inr ⟨s, hs, rfl⟩
      · exact hd
  exact hinv _ (directory_rebuild parse slices version)

end

/-! ### Runs of the routing table -/

/-- The tables are those of the slices, which have distinct ids and names in lower case. -/
structure Sound (parse : String → Option EndpointId) (rt : RoutingTable) : Prop where
  tables : ∃ version, rt.tables = rebuild parse rt.slices version
  sorted : (rt.slices.map (·.1)).Pairwise (· < ·)
  lower : ∀ s ∈ rt.slices, Str.toAsciiLowercase s.2.networkName = s.2.networkName

section

variable {parse : String → Option EndpointId} {rt : RoutingTable}
  {slices : List (Uuid × NetworkSlice)}

theorem sorted_filter (h : (slices.map (·.1)).Pairwise (· < ·))
    (keep : Uuid × NetworkSlice → Bool) : ((slices.filter keep).map (·.1)).Pairwise (· < ·) :=
  h.sublist (filter_sublist.map _)

theorem sorted_putSlice (h : (slices.map (·.1)).Pairwise (· < ·)) :
    ((putSlice networkId slice slices).map (·.1)).Pairwise (· < ·) := by
  unfold putSlice
  rw [map_append, map_cons, pairwise_append, pairwise_cons]
  have hbefore : ∀ id ∈ (slices.filter (·.1 < networkId)).map (·.1), id < networkId := by
    intro id hid
    obtain ⟨s, hs, rfl⟩ := mem_map.1 hid
    exact of_decide_eq_true (mem_filter.1 hs).2
  have hafter : ∀ id ∈ (slices.filter (networkId < ·.1)).map (·.1), networkId < id := by
    intro id hid
    obtain ⟨s, hs, rfl⟩ := mem_map.1 hid
    exact of_decide_eq_true (mem_filter.1 hs).2
  refine ⟨sorted_filter h _, ⟨hafter, sorted_filter h _⟩, ?_⟩
  intro a ha b hb
  rcases mem_cons.1 hb with rfl | hb
  · exact hbefore a ha
  · exact BitVec.lt_trans (hbefore a ha) (hafter b hb)

theorem mem_putSlice {s : Uuid × NetworkSlice} (h : s ∈ putSlice networkId slice slices) :
    s ∈ slices ∨ s = (networkId, slice) := by
  rcases mem_append.1 h with h | h
  · exact .inl (mem_of_mem_filter h)
  · rcases mem_cons.1 h with h | h
    · exact .inr h
    · exact .inl (mem_of_mem_filter h)

theorem sound_rebuild (hsorted : (slices.map (·.1)).Pairwise (· < ·))
    (hlower : ∀ s ∈ slices, Str.toAsciiLowercase s.2.networkName = s.2.networkName)
    (version : Option UInt64) : Sound parse (rt.rebuild parse slices version) :=
  ⟨⟨_, rfl⟩, hsorted, hlower⟩

theorem Sound.step (h : Sound parse rt) (call : TableCall) :
    Sound parse (rt.step parse call).1 := by
  cases call with
  | replace peers subnetRoutes hostnameRoutes exitNodes profile dnsSuffix networkName =>
    refine sound_rebuild (pairwise_singleton _ _) ?_ _
    intro s hs
    rw [mem_singleton.1 hs]
    exact Str.toAsciiLowercase_idem networkName
  | replaceNetworkWithPlan networkId peers dnsSuffix networkName =>
    unfold RoutingTable.step RoutingTable.replaceNetworkWithPlan
    dsimp only
    split_ifs
    · exact h
    · refine sound_rebuild (sorted_putSlice h.sorted) ?_ _
      intro s hs
      rcases mem_putSlice hs with hs | rfl
      · exact h.lower s hs
      · exact Str.toAsciiLowercase_idem networkName
  | removeNetwork =>
    exact sound_rebuild (sorted_filter h.sorted _) (fun s hs => h.lower s (mem_of_mem_filter hs)) _
  | applyPeerDelta networkId added removed version selfEndpointId networkName =>
    unfold RoutingTable.step RoutingTable.applyPeerDelta
    dsimp only
    split_ifs
    · refine sound_rebuild ?_ ?_ _
      · rw [map_map]
        exact h.sorted
      · intro s hs
        obtain ⟨old, hold, rfl⟩ := mem_map.1 hs
        split_ifs
        · unfold RoutingTable.patchSlice
          split_ifs
          · exact h.lower old hold
          · exact Str.toAsciiLowercase_idem networkName
        · exact h.lower old hold
    · exact h

theorem sound_of_run {ok : List (TableCall × Unit) → RoutingTable → TableCall → Prop}
    {calls : List (TableCall × Unit)}
    (hrun : Run (RoutingTable.step parse) ok RoutingTable.new calls rt) : Sound parse rt :=
  hrun.invariant (I := fun _ rt => Sound parse rt)
    ⟨⟨0, rfl⟩, .nil, fun _ h => absurd h not_mem_nil⟩ fun _ _ call h _ => h.step call

/-- In every run the tables of the members agree. -/
theorem wellFormed_exec (calls : List TableCall) :
    (exec (RoutingTable.step parse) [] .new calls).2.tables.WellFormed := by
  obtain ⟨version, htables⟩ := (sound_of_run (run_exec (meets_true calls))).tables
  rw [htables]
  exact wellFormed_rebuild parse _ version

end

/-! ## The plans of Direct networks

A Direct network brings the prefix of its addresses, its plan. A network whose plan overlaps that of
another one is not stored, so the plans of the stored networks are disjoint. -/

/-- The plans of the two networks, if they have one, share no address. -/
def PlansDisjoint (s s' : Uuid × NetworkSlice) : Prop :=
  ∀ plan ∈ s.2.peerCidr, ∀ plan' ∈ s'.2.peerCidr, ∀ ip, ¬(plan.contains ip ∧ plan'.contains ip)

instance : Std.Symm PlansDisjoint :=
  ⟨fun _ _ h plan hp plan' hp' ip hboth => h plan' hp' plan hp ip hboth.symm⟩

/-- The test of two prefixes is exact. -/
theorem cidrOverlaps_iff {a b : Ipv4Net} : cidrOverlaps a b ↔ ∃ ip, a.contains ip ∧ b.contains ip :=
  IpPrefix.overlaps_iff

/-- The calls on Direct networks. -/
def TableCall.IsDirect : TableCall → Prop
  | .replaceNetworkWithPlan .. | .removeNetwork _ => True
  | _ => False

section

variable {rt : RoutingTable} {peerCidr : Option Ipv4Net}

theorem rejectsPlan_iff : rt.rejectsPlan networkId peerCidr ↔
    ∃ plan ∈ peerCidr, ∃ s ∈ rt.slices, s.1 ≠ networkId ∧
      ∃ plan' ∈ s.2.peerCidr, ∃ ip, plan.contains ip ∧ plan'.contains ip := by
  simp [RoutingTable.rejectsPlan, Option.any_eq_true, cidrOverlaps_iff]

/-- A network that is stored shares no address with the others. -/
theorem pairwise_putSlice (h : rt.slices.Pairwise PlansDisjoint)
    (hok : rt.rejectsPlan networkId slice.peerCidr = false) :
    (putSlice networkId slice rt.slices).Pairwise PlansDisjoint := by
  have hnew {s : Uuid × NetworkSlice} (hs : s ∈ rt.slices) (hne : s.1 ≠ networkId) :
      PlansDisjoint (networkId, slice) s := by
    intro plan hp plan' hp' ip hboth
    rw [← Bool.not_eq_true, rejectsPlan_iff] at hok
    exact hok ⟨plan, hp, s, hs, hne, plan', hp', ip, hboth⟩
  have hbefore {s : Uuid × NetworkSlice} (hs : s ∈ rt.slices.filter (·.1 < networkId)) :
      s ∈ rt.slices ∧ s.1 < networkId := by simpa using hs
  have hafter {s : Uuid × NetworkSlice} (hs : s ∈ rt.slices.filter (networkId < ·.1)) :
      s ∈ rt.slices ∧ networkId < s.1 := by simpa using hs
  unfold putSlice
  rw [List.pairwise_append, List.pairwise_cons]
  refine ⟨h.filter _, ⟨fun s hs => ?_, h.filter _⟩, fun s hs s' hs' => ?_⟩
  · obtain ⟨hs, hlt⟩ := hafter hs
    exact hnew hs (BitVec.ne_of_lt hlt).symm
  · obtain ⟨hs, hlt⟩ := hbefore hs
    rcases List.mem_cons.1 hs' with rfl | hs'
    · exact Std.Symm.symm _ _ (hnew hs (BitVec.ne_of_lt hlt))
    · obtain ⟨hs', hlt'⟩ := hafter hs'
      refine h.forall hs hs' ?_
      rintro rfl
      exact BitVec.lt_irrefl _ (BitVec.lt_trans hlt hlt')

theorem pairwise_step {parse : String → Option EndpointId} {call : TableCall}
    (h : rt.slices.Pairwise PlansDisjoint) (hcall : call.IsDirect) :
    (rt.step parse call).1.slices.Pairwise PlansDisjoint := by
  cases call with
  | replaceNetworkWithPlan =>
    unfold RoutingTable.step RoutingTable.replaceNetworkWithPlan
    dsimp only
    split_ifs with hreject
    · exact h
    · exact pairwise_putSlice h (Bool.eq_false_iff.2 hreject)
  | removeNetwork => exact h.filter _
  | replace | applyPeerDelta => exact hcall.elim

end

/-- Direct networks never overlap: after every sequence of calls on Direct networks the plans of
any two of them share no address; and a call is without any effect if its plan shares an address
with that of another network. -/
theorem plans_disjoint (parse : String → Option EndpointId)
    (calls : List {call : TableCall // call.IsDirect}) :
    let rt := calls.foldl (fun rt call => (rt.step parse call.1).1) RoutingTable.new
    rt.slices.Pairwise PlansDisjoint ∧
      ∀ networkId peers dnsSuffix networkName selfEndpointId version plan,
        (∃ s ∈ rt.slices, s.1 ≠ networkId ∧ ∃ plan' ∈ s.2.peerCidr, ∃ ip,
          plan.contains ip ∧ plan'.contains ip) →
        rt.replaceNetworkWithPlan parse networkId peers dnsSuffix networkName selfEndpointId version
          (some plan) = rt := by
  refine ⟨?_, fun networkId peers dnsSuffix networkName selfEndpointId version plan hshared => ?_⟩
  · exact List.foldlRecOn calls _ (motive := fun rt : RoutingTable =>
      rt.slices.Pairwise PlansDisjoint) .nil fun rt h call _ => pairwise_step h call.2
  · exact if_pos (rejectsPlan_iff.2 ⟨plan, rfl, hshared⟩)

end Tunnet.Routing

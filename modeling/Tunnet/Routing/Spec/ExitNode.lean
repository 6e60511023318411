import Tunnet.Routing.Spec.Names

/-!
# What goes to the exit node

A rebuild puts the subnet routes and the prefixes of the chosen exit node into one prefix map,
network by network. In a run of the routing table at most one network chooses an exit node
(`OneExit`), so an address that is no peer's and in no subnet route is found in that map
exactly when a prefix of the exit node holds it (`lookupSubnet_spec`). The exceptions that
`lookup_ip` makes for the catch-all are not made for these prefixes, or for the default route only:
`exit_captures_iff` says which local addresses go to the exit node after all.
-/

namespace Tunnet.Routing

open Ipv4Addr List Option PrefixMap

/-! ### The chosen exit node -/

/-- A prefix of the exit node that the profile of a network chooses. -/
def RoutingTable.ExitCidr (rt : RoutingTable) (net : Ipv4Net) : Prop :=
  ∃ s ∈ rt.slices, ∃ exitId exit, s.2.profile.exitNodeEndpointId = some exitId ∧
    s.2.exitNodes.find? (·.endpointId == exitId) = some exit ∧ net ∈ exit.allowedCidrs

/-- The address is in a subnet route of a network. -/
def RoutingTable.Approved (rt : RoutingTable) (ip : Ipv4Addr) : Prop :=
  ∃ s ∈ rt.slices, ∃ route ∈ s.2.subnetRoutes, route.cidr.contains ip

/-- At most one network chooses an exit node. -/
def OneExit (rt : RoutingTable) : Prop :=
  ∀ s ∈ rt.slices, ∀ s' ∈ rt.slices, s.2.profile.exitNodeEndpointId ≠ none →
    s'.2.profile.exitNodeEndpointId ≠ none → s = s'

section

variable {parse : String → Option EndpointId} {rt : RoutingTable} {networkId : Uuid}
  {slice : NetworkSlice}

theorem exit_eq_some_iff {exit : ExitNodeInfo} {peer : PeerInfo} :
    slice.exit parse networkId = some (exit, peer) ↔
      ∃ exitId, slice.profile.exitNodeEndpointId = some exitId ∧
        slice.exitNodes.find? (·.endpointId == exitId) = some exit ∧
        peerForVia parse networkId slice (slice.vias parse networkId) exit.endpointId exit.viaIp =
          some peer := by
  unfold NetworkSlice.exit chosenExit
  cases hprofile : slice.profile.exitNodeEndpointId with
  | none => simp
  | some exitId =>
    cases hfind : slice.exitNodes.find? (·.endpointId == exitId) with
    | none => simp [hfind]
    | some =>
      simp only [hfind, map_eq_some_iff, Prod.mk.injEq, some.injEq]
      constructor
      · rintro ⟨peer', hpeer, rfl, rfl⟩
        exact ⟨exitId, rfl, hfind, hpeer⟩
      · rintro ⟨_, rfl, hfound, hpeer⟩
        cases hfind.symm.trans hfound
        exact ⟨peer, hpeer, rfl, rfl⟩

theorem OneExit.step (h : OneExit rt) (call : TableCall) : OneExit (rt.step parse call).1 := by
  cases call with
  | replace =>
    intro s hs s' hs' _ _
    rw [mem_singleton.1 hs, mem_singleton.1 hs']
  | replaceNetworkWithPlan =>
    unfold RoutingTable.step RoutingTable.replaceNetworkWithPlan
    dsimp only
    split_ifs
    · exact h
    · intro s hs s' hs' hexit hexit'
      -- the new network chooses none
      rcases mem_putSlice hs with hs | rfl
      · rcases mem_putSlice hs' with hs' | rfl
        · exact h s hs s' hs' hexit hexit'
        · exact absurd rfl hexit'
      · exact absurd rfl hexit
  | removeNetwork =>
    intro s hs s' hs'
    exact h s (mem_of_mem_filter hs) s' (mem_of_mem_filter hs')
  | applyPeerDelta networkId added removed version selfEndpointId networkName =>
    unfold RoutingTable.step RoutingTable.applyPeerDelta
    dsimp only
    split_ifs
    · intro s hs s' hs' hexit hexit'
      obtain ⟨old, hold, rfl⟩ := mem_map.1 hs
      obtain ⟨old', hold', rfl⟩ := mem_map.1 hs'
      have hprofile (s : Uuid × NetworkSlice) :
          (if s.1 = networkId then
            RoutingTable.patchSlice added removed selfEndpointId networkName s.2
            else s.2).profile = s.2.profile := by
        split_ifs <;> rfl
      rw [hprofile] at hexit hexit'
      rw [h old hold old' hold' hexit hexit']
    · exact h

theorem oneExit_of_run {ok : List (TableCall × Unit) → RoutingTable → TableCall → Prop}
    {calls : List (TableCall × Unit)}
    (hrun : Run (RoutingTable.step parse) ok RoutingTable.new calls rt) : OneExit rt :=
  hrun.invariant (I := fun _ rt => OneExit rt) (fun _ h => absurd h not_mem_nil)
    fun _ _ call h _ => h.step call

/-! ### Addresses outside the mesh -/

variable {exit peer : PeerInfo} {ip : Ipv4Addr}

variable (hsound : Sound parse rt)

include hsound

theorem exists_exit (hexit : rt.tables.exitNode = some exit) :
    ∃ s ∈ rt.slices, ∃ info, s.2.exit parse s.1 = some (info, exit) := by
  obtain ⟨version, htables⟩ := hsound.tables
  have hfirst := congrArg Prod.fst (leaving_rebuild parse rt.slices version)
  rw [← htables, hexit, leavingOf] at hfirst
  cases hfind : rt.slices.find? fun s => (s.2.exit parse s.1).isSome with
  | none =>
    rw [hfind] at hfirst
    cases hfirst
  | some s =>
    rw [hfind] at hfirst
    obtain ⟨⟨info, _⟩, hinfo, rfl⟩ := map_eq_some_iff.1 hfirst.symm
    exact ⟨s, mem_of_find?_eq_some hfind, info, hinfo⟩

/-- Outside the subnet routes only prefixes of the exit node hold an address, and they lead to it.
-/
theorem mem_routesOf_iff (hone : OneExit rt)
    (hexit : rt.tables.exitNode = some exit) (happroved : ¬rt.Approved ip) {net : Ipv4Net}
    (hcontains : net.contains ip) :
    (net, peer) ∈ routesOf parse rt.slices ↔ rt.ExitCidr net ∧ peer = exit := by
  obtain ⟨s, hs, info, hinfo⟩ := exists_exit hsound hexit
  obtain ⟨exitId, hprofile, hfind, -⟩ := exit_eq_some_iff.1 hinfo
  have hsame (s') (hs' : s' ∈ rt.slices) {exitId' : String}
      (hprofile' : s'.2.profile.exitNodeEndpointId = some exitId') : s' = s :=
    hone s' hs' s hs (by rw [hprofile']; exact some_ne_none _)
      (by rw [hprofile]; exact some_ne_none _)
  constructor
  · intro hmem
    obtain ⟨s', hs', hmem⟩ := mem_flatMap.1 hmem
    rcases mem_append.1 hmem with hmem | hmem
    · obtain ⟨route, hroute, hvia⟩ := mem_filterMap.1 hmem
      split_ifs at hvia
      obtain ⟨via, -, heq⟩ := map_eq_some_iff.1 hvia
      cases heq
      exact absurd ⟨s', hs', route, hroute, hcontains⟩ happroved
    · obtain ⟨⟨info', peer'⟩, hchosen, hmem⟩ := mem_flatMap.1 hmem
      rw [mem_toList] at hchosen
      obtain ⟨_, hcidr, heq⟩ := mem_map.1 hmem
      cases heq
      obtain ⟨exitId', hprofile', hfind', -⟩ := exit_eq_some_iff.1 hchosen
      refine ⟨⟨s', hs', exitId', info', hprofile', hfind', hcidr⟩, ?_⟩
      rw [hsame s' hs' hprofile'] at hchosen
      cases hinfo.symm.trans hchosen
      rfl
  · rintro ⟨⟨s', hs', exitId', info', hprofile', hfind', hcidr⟩, rfl⟩
    obtain rfl := hsame s' hs' hprofile'
    cases hprofile.symm.trans hprofile'
    cases hfind.symm.trans hfind'
    refine mem_flatMap.2 ⟨s', hs, mem_append_right _ ?_⟩
    rw [hinfo]
    exact mem_flatMap.2 ⟨_, mem_singleton_self _, mem_map_of_mem hcidr⟩

/-- Outside the subnet routes the subnet table leads to the exit node, for what one of its prefixes
holds; private addresses that are to stay are left out of the default route only. -/
theorem lookupSubnet_spec (hone : OneExit rt)
    (hexit : rt.tables.exitNode = some exit) (happroved : ¬rt.Approved ip) :
    (rt.tables.lookupSubnet ip = none ∨ rt.tables.lookupSubnet ip = some exit) ∧
      (rt.tables.lookupSubnet ip = none ↔ ∀ net, rt.ExitCidr net → net.contains ip →
        rt.tables.allowLocalLan ∧ isRfc1918 ip ∧ net.prefixLen = 0) := by
  obtain ⟨version, htables⟩ := hsound.tables
  have hsubnets : rt.tables.subnets = ofRoutes (routesOf parse rt.slices) := by
    rw [htables]
    exact subnets_rebuild parse rt.slices version
  have hroutes {net : Ipv4Net} {peer : PeerInfo} (hcontains : net.contains ip) :
      (net, peer) ∈ routesOf parse rt.slices ↔ rt.ExitCidr net ∧ peer = exit :=
    mem_routesOf_iff hsound hone hexit happroved hcontains
  unfold Tables.lookupSubnet
  rw [hsubnets]
  cases hlpm : (ofRoutes (routesOf parse rt.slices)).getLpm ip with
  | none =>
    have hnone := getLpm_ofRoutes_eq_none_iff.1 hlpm
    refine ⟨.inl rfl, fun _ net hnet hcontains => ?_, fun _ => rfl⟩
    have hout := hnone _ ((hroutes hcontains).2 ⟨hnet, rfl⟩)
    rw [hcontains] at hout
    cases hout
  | some found =>
    obtain ⟨net, peer⟩ := found
    obtain ⟨hmem, hcontains, hlongest⟩ := getLpm_ofRoutes_eq_some hlpm
    obtain ⟨hnet, rfl⟩ := (hroutes hcontains).1 hmem
    dsimp only
    split_ifs with hkept
    · rw [Bool.and_eq_true, Bool.and_eq_true, beq_iff_eq] at hkept
      obtain ⟨⟨hlan, hprivate⟩, hdefault⟩ := hkept
      refine ⟨.inl rfl, fun _ net' hnet' hcontains' => ⟨hlan, hprivate, ?_⟩, fun _ => rfl⟩
      have hle := hlongest _ ((hroutes hcontains').2 ⟨hnet', rfl⟩) hcontains'
      exact Nat.le_zero.1 (hle.trans_eq hdefault)
    · refine ⟨.inr rfl, False.elim, fun h => absurd ?_ hkept⟩
      obtain ⟨hlan, hprivate, hdefault⟩ := h net hnet hcontains
      rw [hlan, hprivate, hdefault]
      rfl

end

/-! ### Which local addresses go there -/

theorem octet_of_isRfc1918 {ip : Ipv4Addr} (h : isRfc1918 ip) :
    octet ip 0 = 10 ∨ octet ip 0 = 172 ∨ octet ip 0 = 192 := by
  simp only [isRfc1918, Bool.or_eq_true, Bool.and_eq_true, beq_iff_eq] at h
  tauto

theorem not_isSpecial_of_isRfc1918 {ip : Ipv4Addr} (h : isRfc1918 ip) : isSpecial ip = false := by
  have hoctet := octet_of_isRfc1918 h
  rw [← Bool.not_eq_true]
  intro hlocal
  simp only [isSpecial, Bool.or_eq_true] at hlocal
  rcases hlocal with (((hlocal | hlocal) | hlocal) | hlocal) | hlocal
  · rw [beq_iff_eq.1 hlocal] at hoctet
    omega
  · rw [beq_iff_eq.1 (Bool.and_eq_true_iff.1 hlocal).1] at hoctet
    omega
  · rw [beq_iff_eq.1 hlocal] at hoctet
    exact absurd hoctet (by decide)
  · rw [isMulticast, Bool.and_eq_true, decide_eq_true_eq] at hlocal
    omega
  · rw [beq_iff_eq.1 hlocal] at hoctet
    exact absurd hoctet (by decide)

/-- What the exit node captures: of the local addresses, those that one of its prefixes holds,
multicast and broadcast apart; and of the private addresses that are to stay in the local network,
those that one of its prefixes other than the default route holds. -/
theorem exit_captures_iff {parse : String → Option EndpointId} {calls : List (TableCall × Unit)}
    {rt : RoutingTable}
    (hrun : Run (RoutingTable.step parse) (fun _ _ _ => True) RoutingTable.new calls rt)
    {exit : PeerInfo} (hexit : rt.tables.exitNode = some exit) {ip : Ipv4Addr}
    (hpeer : rt.tables.byIp.lookup ip = none) (happroved : ¬rt.Approved ip) :
    (isSpecial ip → (rt.tables.lookupIp ip = none ↔
      Ipv4Addr.isMulticast ip ∨ Ipv4Addr.isBroadcast ip ∨
        ∀ net, rt.ExitCidr net → net.contains ip = false)) ∧
    (rt.tables.allowLocalLan → isRfc1918 ip →
      (rt.tables.lookupIp ip ≠ some exit ↔
        ∀ net, rt.ExitCidr net → net.contains ip → net.prefixLen = 0)) := by
  obtain ⟨hsubnet, hnone⟩ :=
    lookupSubnet_spec (sound_of_run hrun) (oneExit_of_run hrun) hexit happroved
  constructor
  · intro hlocal
    have hpublic : isRfc1918 ip = false := by
      rw [← Bool.not_eq_true]
      intro hprivate
      rw [not_isSpecial_of_isRfc1918 hprivate] at hlocal
      cases hlocal
    unfold Tables.lookupIp
    split_ifs with hgroup
    · rw [Bool.or_eq_true] at hgroup
      exact ⟨fun _ => hgroup.imp id .inl, fun _ => rfl⟩
    · have hmesh : isMeshOrLinkLocal ip := by
        simp only [isSpecial, isMeshOrLinkLocal, Bool.or_eq_true] at hlocal hgroup ⊢
        tauto
      have hcatch : rt.tables.lookupExit ip = none := by
        rw [Tables.lookupExit, hmesh]
        rfl
      have hiff : rt.tables.lookupSubnet ip = none ↔
          ∀ net, rt.ExitCidr net → net.contains ip = false := by
        simp [hnone, hpublic]
      rw [Bool.or_eq_true, not_or] at hgroup
      rw [hpeer, hcatch, or_iff_right hgroup.1, or_iff_right hgroup.2, ← hiff]
      cases rt.tables.lookupSubnet ip <;> rfl
  · intro hlan hprivate
    have hlocal := not_isSpecial_of_isRfc1918 hprivate
    have hcatch : rt.tables.lookupExit ip = none := by
      rw [Tables.lookupExit, hlan, hprivate, Bool.and_true, Bool.not_true, Bool.and_false,
        if_neg Bool.false_ne_true]
    have hgroup : (isMulticast ip || isBroadcast ip) = false := by
      simp only [isSpecial, Bool.or_eq_false_iff] at hlocal ⊢
      exact ⟨hlocal.1.2, hlocal.2⟩
    have hlookup : rt.tables.lookupIp ip = rt.tables.lookupSubnet ip := by
      rw [Tables.lookupIp, hgroup, hpeer, hcatch]
      cases rt.tables.lookupSubnet ip <;> rfl
    have hiff : rt.tables.lookupSubnet ip = none ↔
        ∀ net, rt.ExitCidr net → net.contains ip → net.prefixLen = 0 := by
      simp [hnone, hlan, hprivate]
    rw [hlookup, ← hiff]
    rcases hsubnet with hfound | hfound
    · rw [hfound]
      exact ⟨fun _ => rfl, fun _ => (some_ne_none exit).symm⟩
    · rw [hfound]
      exact ⟨fun h => absurd rfl h, fun h => absurd h (some_ne_none exit)⟩

namespace Demo

/-- A network whose only peer is the exit node, for the given prefixes. -/
def viaExit (cidrs : List Ipv4Net) : TableCall :=
  .replace [entry (Ipv4Addr.new 10 7 0 5) "exit" "exit" "key"] [] []
    [⟨"exit", Ipv4Addr.new 10 7 0 5, cidrs⟩] ⟨some "exit", true⟩ "tunnet" "office" 1 "self" 1

def exitPeer : PeerInfo :=
  ⟨[], "exit", "exit", Ipv4Addr.new 10 7 0 5, [], 1, "office", some "key"⟩

/-- 0.0.0.0/0 -/
def everything : Ipv4Net := ⟨0, 0, Ipv4Net.length_zero⟩

/-- 0.0.0.0/1 -/
def lowerHalf : Ipv4Net := ⟨0, 1, by decide⟩

theorem not_approved (cidrs : List Ipv4Net) (ip : Ipv4Addr) :
    ¬(after (viaExit cidrs)).Approved ip := by
  rintro ⟨s, hs, route, hroute, -⟩
  rw [mem_singleton.1 hs] at hroute
  cases hroute

theorem exit_captures_default :
    (after (viaExit [everything])).tables.lookupIp (Ipv4Addr.new 192 168 1 50) ≠ some exitPeer := by
  refine ((exit_captures_iff (after_run (viaExit [everything])) (by decide)
    (by decide) (not_approved _ _)).2 (by decide) (by decide)).2 ?_
  rintro net ⟨s, hs, exitId, info, hprofile, hfind, hnet⟩ -
  rw [mem_singleton.1 hs] at hprofile hfind
  cases hprofile
  cases hfind
  rw [mem_singleton.1 hnet]
  rfl

/-- The default route takes loopback addresses, and half of it private ones. -/
theorem loopback_captured : (isSpecial (Ipv4Addr.new 127 0 0 1) ∧
      (after (viaExit [everything])).tables.exitNode = some exitPeer ∧
      (after (viaExit [everything])).tables.byIp.lookup (Ipv4Addr.new 127 0 0 1) = none ∧
      ¬(after (viaExit [everything])).Approved (Ipv4Addr.new 127 0 0 1) ∧
      (after (viaExit [everything])).tables.lookupIp (Ipv4Addr.new 127 0 0 1) = some exitPeer) ∧
    isRfc1918 (Ipv4Addr.new 10 1 2 3) ∧
      (after (viaExit [lowerHalf])).tables.allowLocalLan ∧
      (after (viaExit [lowerHalf])).tables.exitNode = some exitPeer ∧
      (after (viaExit [lowerHalf])).tables.byIp.lookup (Ipv4Addr.new 10 1 2 3) = none ∧
      ¬(after (viaExit [lowerHalf])).Approved (Ipv4Addr.new 10 1 2 3) ∧
      (after (viaExit [lowerHalf])).tables.lookupIp (Ipv4Addr.new 10 1 2 3) = some exitPeer := by
  refine ⟨⟨?_, ?_, ?_, not_approved _ _, ?_⟩, ?_, ?_, ?_, ?_, not_approved _ _, ?_⟩
  all_goals decide

end Demo

end Tunnet.Routing

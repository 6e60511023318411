import Tunnet.Routing.Spec.ExitNode
import Tunnet.Util.StableSort

/-!
# What the tables answer

After a rebuild the answers depend on the networks alone: an address goes to the peer that owns it,
the gateway of the longest route, or the exit node (`lookupIp_rebuild`), and a host name to the
exact route or the longest wildcard that matches (`lookupHostnameRoute_rebuild`).
-/

namespace Tunnet.Routing

open Ipv4Addr List Tables

section

variable (parse : String → Option EndpointId) (slices : List (Uuid × NetworkSlice))
  (version : UInt64)

/-! ### Addresses -/

/-- Of the routes that hold the address, the first one with the longest prefix. -/
def routeFor (ip : Ipv4Addr) : Option (Ipv4Net × PeerInfo) :=
  ((routesOf parse slices).filter (·.1.contains ip)).argmax (·.1.prefixLen)

/-- A private destination that is to stay in the local network. -/
def staysLocal (ip : Ipv4Addr) : Bool := (leavingOf parse slices).2 && isRfc1918 ip

/-- Multicast and broadcast go nowhere. Other addresses go to the first peer that has the address,
else through the longest route, unless it is a default route and the destination is to stay local,
else to the exit node, unless the destination is to stay local or not of the internet. -/
theorem lookupIp_rebuild (ip : Ipv4Addr) : (rebuild parse slices version).lookupIp ip =
    if isMulticast ip || isBroadcast ip then none
    else (infosOf parse slices).find? (·.ip = ip) <|>
      ((routeFor parse slices ip).filter fun route =>
        !(staysLocal parse slices ip && route.1.prefixLen == 0)).map (·.2) <|>
      if !isMeshOrLinkLocal ip && !staysLocal parse slices ip then (leavingOf parse slices).1
      else none := by
  have hleaving := leaving_rebuild parse slices version
  have hexit : (rebuild parse slices version).exitNode = (leavingOf parse slices).1 :=
    congrArg Prod.fst hleaving
  have hlan : (rebuild parse slices version).allowLocalLan = (leavingOf parse slices).2 :=
    congrArg Prod.snd hleaving
  have hsubnet : (rebuild parse slices version).lookupSubnet ip =
      ((routeFor parse slices ip).filter fun route =>
        !(staysLocal parse slices ip && route.1.prefixLen == 0)).map (·.2) := by
    unfold lookupSubnet routeFor
    rw [subnets_rebuild, PrefixMap.getLpm_ofRoutes, hlan]
    cases ((routesOf parse slices).filter (·.1.contains ip)).argmax (·.1.prefixLen) with
    | none => rfl
    | some route =>
      rw [Option.filter_some]
      change (if staysLocal parse slices ip && route.1.prefixLen == 0 then none
        else some route.2) = _
      cases staysLocal parse slices ip && route.1.prefixLen == 0 <;> rfl
  unfold lookupIp lookupExit
  rw [lookup_byIp_rebuild, hsubnet, hexit, hlan]
  rfl

/-! ### Host names -/

/-- The name is the suffix, or ends with it after a dot. -/
def OnLabelBoundary (host suffix : String) : Prop :=
  host = suffix ∨ ∃ rest, host = rest ++ "." ++ suffix

theorem hostnameMatchesWildcard_iff {host suffix : String} :
    hostnameMatchesWildcard host suffix ↔ OnLabelBoundary host suffix := by
  unfold hostnameMatchesWildcard
  rw [Bool.or_eq_true, beq_iff_eq, Option.any_eq_true]
  refine or_congr_right ⟨?_, ?_⟩
  · rintro ⟨front, hstrip, hdot⟩
    obtain ⟨rest, hrest⟩ := getLast?_eq_some_iff.1 (beq_iff_eq.1 hdot)
    refine ⟨String.ofList rest, ?_⟩
    rw [Str.stripSuffix_eq_some_iff.1 hstrip, ← String.ofList_toList (s := front), hrest,
      String.ofList_append]
  · rintro ⟨rest, rfl⟩
    exact ⟨rest ++ ".", Str.stripSuffix_append suffix _, by simp [Str.endsWith]⟩

/-- A hostname route is for the name. -/
def HostnameRouteInfo.IsFor (host : String) (info : HostnameRouteInfo) : Prop :=
  if info.isWildcard then OnLabelBoundary host info.hostname else info.hostname = host

/-- The exact routes, of which the last one stays. -/
theorem lookup_hostnameExact_rebuild (host : String) :
    (rebuild parse slices version).hostnameExact.lookup host =
      ((hostnamesOf parse slices).filter (!·.isWildcard)).reverse.find? (·.hostname = host) := by
  have hfold : (rebuild parse slices version).hostnameExact =
      ((hostnamesOf parse slices).filter (!·.isWildcard)).foldl (fun m info =>
        m.insert info.hostname info) ∅ := by
    rw [hostnamesOf, filter_flatMap, foldl_flatMap]
    exact foldl_addSlice parse slices hostnameExact _ fun _ _ _ h => h.hostnameExact
  rw [hfold]
  exact Map.lookup_lasts HostnameRouteInfo.hostname _ host

theorem hostnameWildcards_rebuild : (rebuild parse slices version).hostnameWildcards =
    ((hostnamesOf parse slices).filter (·.isWildcard)).insertionSort fun a b =>
      b.hostname.utf8ByteSize ≤ a.hostname.utf8ByteSize := by
  rw [hostnamesOf, filter_flatMap, flatMap_eq_foldl]
  exact congrArg (insertionSort _) (foldl_addSlice parse slices hostnameWildcards _
    fun _ _ _ h => h.hostnameWildcards)

/-- The answer for a name: an exact route if there is one for it, else a wildcard for it that is
longest among them, else none. -/
theorem lookupHostnameRoute_rebuild (host : String) :
    match (rebuild parse slices version).lookupHostnameRoute host with
    | none => ∀ info ∈ hostnamesOf parse slices, ¬ info.IsFor (Str.toAsciiLowercase host)
    | some info => info ∈ hostnamesOf parse slices ∧ info.IsFor (Str.toAsciiLowercase host) ∧
      (info.isWildcard → ∀ other ∈ hostnamesOf parse slices,
        other.IsFor (Str.toAsciiLowercase host) → other.isWildcard ∧
          other.hostname.utf8ByteSize ≤ info.hostname.utf8ByteSize) := by
  unfold lookupHostnameRoute
  dsimp only
  rw [lookup_hostnameExact_rebuild, hostnameWildcards_rebuild]
  generalize Str.toAsciiLowercase host = name
  cases hexact : ((hostnamesOf parse slices).filter (!·.isWildcard)).reverse.find?
    (·.hostname = name) with
  | some info =>
    obtain ⟨hmem, hplain⟩ := mem_filter.1 (mem_reverse.1 (mem_of_find?_eq_some hexact))
    rw [Bool.not_eq_true'] at hplain
    have hname : info.hostname = name := by simpa using find?_some hexact
    exact ⟨hmem, by simpa [HostnameRouteInfo.IsFor, hplain] using hname, by simp [hplain]⟩
  | none =>
    have hwild {other : HostnameRouteInfo} (hother : other ∈ hostnamesOf parse slices)
        (hfor : other.IsFor name) : other.isWildcard := by
      by_contra hplain
      rw [HostnameRouteInfo.IsFor, if_neg hplain] at hfor
      rw [find?_eq_none] at hexact
      exact hexact other (by simp [hother, hplain]) (by simp [hfor])
    have hmatch {other : HostnameRouteInfo} (hother : other ∈ hostnamesOf parse slices)
        (hfor : other.IsFor name) :
        (other.isWildcard && hostnameMatchesWildcard name other.hostname) := by
      have hwild := hwild hother hfor
      rw [HostnameRouteInfo.IsFor, if_pos hwild] at hfor
      rw [hwild, hostnameMatchesWildcard_iff.2 hfor]
      rfl
    split
    · rename_i hnone
      intro other hother hfor
      obtain ⟨hwild, hmatches⟩ := Bool.and_eq_true_iff.1 (hmatch hother hfor)
      exact find?_eq_none.1 hnone other
        ((mem_insertionSort _).2 (mem_filter.2 ⟨hother, hwild⟩)) hmatches
    · rename_i info hfind
      obtain ⟨i, hleast⟩ := StableSort.find?_insertionSort_filter
        (fun _ _ _ hab hbc => hbc.trans hab) (fun _ _ => le_total _ _) hfind
      obtain ⟨hwildcard, hmatches⟩ := Bool.and_eq_true_iff.1 hleast.holds
      refine ⟨mem_of_getElem? hleast.get, ?_, fun _ other hother hfor => ?_⟩
      · rw [HostnameRouteInfo.IsFor, if_pos hwildcard]
        exact hostnameMatchesWildcard_iff.1 hmatches
      · obtain ⟨j, hj⟩ := mem_iff_getElem?.1 hother
        exact ⟨hwild hother hfor, (hleast.least j other hj (hmatch hother hfor)).1⟩

end

/-- The default route of the exit node holds a private address, which nobody owns, and it is sent
nowhere. -/
theorem Demo.private_stays : let slices := (after (viaExit [everything])).slices
    (infosOf parse slices).find? (·.ip = new 10 1 2 3) = none ∧
      routeFor parse slices (.new 10 1 2 3) = some (everything, exitPeer) ∧
      (rebuild parse slices 1).lookupIp (.new 10 1 2 3) = none := by
  refine ⟨?_, ?_, ?_⟩
  all_goals decide

end Tunnet.Routing

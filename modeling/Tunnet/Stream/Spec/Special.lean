import Tunnet.Routing.Spec.Tables
import Tunnet.Stream.Spec.Hostnames

/-!
# Streams to special addresses

Loopback, link-local, unspecified, multicast and broadcast addresses mean the gateway itself or its
own link.
-/

namespace Tunnet.Stream

open Ipv4Addr
open Routing (Tables NetworkSlice)

/-- The stream is refused before anything is dialled. -/
def StreamEnd.isRefused : StreamEnd → Bool
  | .refused _ | .denied => true
  | _ => false

variable (slices : List (Uuid × NetworkSlice)) (ip : Ipv4Addr)

/-- A subnet route through this node other than the default route has the address. -/
def OwnSubnet : Prop :=
  ∃ s ∈ slices, ∃ net, s.2.OwnRoute net ∧ net.prefixLen ≠ 0 ∧ net.contains ip

/-- A default route through this node, or a prefix for which it is an exit node, has the address. -/
def OwnCatchAll : Prop :=
  ∃ s ∈ slices, ∃ net, (s.2.OwnRoute net ∧ net.prefixLen = 0 ∨ s.2.OwnExit net) ∧
    net.contains ip

section

variable {ip} {host : String}

theorem ne_pingHost (hhost : parse host = some ip) : host ≠ pingHost := by
  rintro rfl
  have hnone : parse pingHost = none := by decide
  exact nomatch hnone.symm.trans hhost

/-- Streams to an address are refused whatever the policy exactly if it is not advertised. -/
theorem refused_literal_iff (routes : Tables) (hhost : parse host = some ip) :
    (∀ clock net peerHex port acl,
      (handleAccepted routes clock net ⟨⟨port, host⟩, peerHex⟩ acl).2.isRefused) ↔
      routes.isAdvertisedDestination ip = false := by
  constructor
  · intro hrefused
    rw [← Bool.not_eq_true]
    intro hadvertised
    have hdest : destination routes host = .ok (.ip ip, some ip) := by
      unfold destination
      rw [hhost]
      exact if_pos hadvertised
    have hproxied := handleAccepted_open (ne_pingHost hhost) hdest rfl
    have hopen := hrefused ⟨0, 0⟩ openNetwork "bb" 443 openAcl
    rw [hproxied] at hopen
    cases hopen
  · intro hadvertised clock net peerHex port acl
    have hdest : destination routes host = .error .notRoutable := by
      unfold destination
      rw [hhost]
      dsimp only
      rw [hadvertised]
      exact if_neg Bool.false_ne_true
    unfold handleAccepted
    rw [if_neg (ne_pingHost hhost), hdest]
    rfl

theorem isAdvertisedDestination_rebuild {parse : String → Option Routing.EndpointId}
    {slices : List (Uuid × NetworkSlice)} {version : UInt64} :
    (Routing.rebuild parse slices version).isAdvertisedDestination ip ↔
      OwnSubnet slices ip ∨ OwnCatchAll slices ip := by
  unfold Tables.isAdvertisedDestination
  rw [List.any_eq_true]
  constructor
  · rintro ⟨net, hnet, hcontains⟩
    obtain ⟨s, hs, hroute | hexit⟩ := Routing.mem_advertised_rebuild.1 hnet
    · by_cases hdefault : net.prefixLen = 0
      · exact .inr ⟨s, hs, net, .inl ⟨hroute, hdefault⟩, hcontains⟩
      · exact .inl ⟨s, hs, net, hroute, hdefault, hcontains⟩
    · exact .inr ⟨s, hs, net, .inr hexit, hcontains⟩
  · rintro (⟨s, hs, net, hroute, -, hcontains⟩ | ⟨s, hs, net, hcatch, hcontains⟩)
    · exact ⟨net, Routing.mem_advertised_rebuild.2 ⟨s, hs, .inl hroute⟩, hcontains⟩
    · refine ⟨net, Routing.mem_advertised_rebuild.2 ⟨s, hs, ?_⟩, hcontains⟩
      rcases hcatch with ⟨hroute, -⟩ | hexit
      · exact .inl hroute
      · exact .inr hexit

end

/-- Streams to special addresses: for every routing table and every text of a special address,
all streams to it are refused or a subnet route of the gateway other than the default route has the
address, exactly if this is so for every address that its default routes and exit prefixes have. -/
theorem refused_special_iff {parse : String → Option Routing.EndpointId}
    {slices : List (Uuid × NetworkSlice)} {version : UInt64} {host : String} {ip : Ipv4Addr} :
    Ipv4Addr.parse host = some ip → isSpecial ip →
    ((∀ clock net peerHex port acl, (handleAccepted (Routing.rebuild parse slices version) clock net
        ⟨⟨port, host⟩, peerHex⟩ acl).2.isRefused ∨ OwnSubnet slices ip) ↔
      (OwnCatchAll slices ip → OwnSubnet slices ip)) := by
  intro hhost _
  by_cases hsubnet : OwnSubnet slices ip
  · exact iff_of_true (fun _ _ _ _ _ => .inr hsubnet) fun _ => hsubnet
  · have hrefused := refused_literal_iff (Routing.rebuild parse slices version) hhost
    rw [← Bool.not_eq_true, isAdvertisedDestination_rebuild, or_iff_right hsubnet] at hrefused
    constructor
    · intro h hcatch
      refine absurd hcatch (hrefused.1 fun clock net peerHex port acl => ?_)
      exact (h clock net peerHex port acl).resolve_right hsubnet
    · intro h clock net peerHex port acl
      exact .inl (hrefused.2 (fun hcatch => hsubnet (h hcatch)) clock net peerHex port acl)

namespace Demo

/-- The gateway `aa` with subnet routes and exit prefixes. -/
def gatewaySlices (subnets exits : List Ipv4Net) : List (Uuid × NetworkSlice) :=
  [(1, { peers := [],
         subnetRoutes := subnets.map fun net => ⟨net, "aa", Ipv4Addr.new 100 64 0 1⟩
         hostnameRoutes := []
         exitNodes := [⟨"aa", Ipv4Addr.new 100 64 0 1, exits⟩]
         profile := .default, dnsSuffix := "tunnet", networkName := "net", selfEndpointId := "aa",
         peerCidr := none })]

def lan : Ipv4Net := ⟨Ipv4Addr.new 192 168 1 0, 24, Ipv4Net.length_twentyFour⟩

def internet : Ipv4Net := ⟨0, 0, Ipv4Net.length_zero⟩

theorem not_ownSubnet (exits : List Ipv4Net) :
    ¬ OwnSubnet (gatewaySlices [lan] exits) (new 127 0 0 1) := by
  rintro ⟨s, hs, net, ⟨route, hroute, -, rfl⟩, -, hcontains⟩
  obtain rfl := List.mem_singleton.1 hs
  obtain rfl := List.mem_singleton.1 hroute
  exact absurd hcontains (by decide)

theorem refused_special_lan :
    (handleAccepted (Routing.rebuild (fun _ => some []) (gatewaySlices [lan] []) 1) ⟨0, 0⟩
      openNetwork ⟨⟨22, "127.0.0.1"⟩, "bb"⟩ openAcl).2.isRefused := by
  have hhost : parse "127.0.0.1" = some (new 127 0 0 1) := by decide
  have hcatch : ¬ OwnCatchAll (gatewaySlices [lan] []) (new 127 0 0 1) := by
    rintro ⟨s, hs, net, ⟨⟨route, hroute, -, rfl⟩, hdefault⟩ | ⟨exit, hexit, -, hnet⟩, -⟩
    · obtain rfl := List.mem_singleton.1 hs
      obtain rfl := List.mem_singleton.1 hroute
      cases hdefault
    · obtain rfl := List.mem_singleton.1 hs
      obtain rfl := List.mem_singleton.1 hexit
      cases hnet
  refine Or.resolve_right ?_ (not_ownSubnet [])
  exact (refused_special_iff hhost (by decide)).2 (fun h => absurd h hcatch) ⟨0, 0⟩ openNetwork
    "bb" 22 openAcl

/-- An exit node connects a peer to its own loopback address. -/
theorem exit_proxies_loopback :
    (handleAccepted (Routing.rebuild (fun _ => some []) (gatewaySlices [lan] [internet]) 1) ⟨0, 0⟩
      openNetwork ⟨⟨22, "127.0.0.1"⟩, "bb"⟩ openAcl).2 = .proxied (.v4 (Ipv4Addr.new 127 0 0 1)) ∧
    ¬ OwnSubnet (gatewaySlices [lan] [internet]) (Ipv4Addr.new 127 0 0 1) :=
  ⟨by decide, not_ownSubnet [internet]⟩

end Demo

end Tunnet.Stream

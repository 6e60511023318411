import Tunnet.Policy.Spec.Posture
import Tunnet.Stream.Proxy

/-!
# Streams to host names

For a name the gateway takes the target of the hostname route that the tables keep for it, which is
never a route of its own. Without such a target it asks the policy about no address at all and dials
whatever the name resolves to.

* `DialsAuthorised`: the policy was asked about what is dialled.
* `dialsAuthorised_iff`: for which tables and names this is so under every policy and network.
-/

namespace Tunnet.Stream

open Acl Ipv4Addr Policy
open Routing (Tables)

/-! ### What the policy refuses -/

/-- A deny rule for a prefix with the address applies to streams of the peer to the port. -/
def DeniesAddress (routes : Tables) (acl : AclEngine) (peerHex : String) (port : UInt16)
    (addr : IpAddr) : Prop :=
  ∃ r ∈ acl.bundle.rules, r.enabled ∧ r.action = .deny ∧
    (∃ net, r.dst = .cidr net ∧ net.contains addr) ∧
    r.src.matchesEndpoint (acl.peerEndpoint routes peerHex).endpointHex
      (acl.peerEndpoint routes peerHex).tags (acl.peerEndpoint routes peerHex).network
      (acl.peerEndpoint routes peerHex).ip ∧
    protoPortOk r .tcp (some port)

variable {routes : Tables} {host : String}

section

variable {clock : Clock} {net : Network} {acl : AclEngine} {peerHex : String} {port : UInt16}
  {addr : IpAddr} {dstIp : Option Ipv4Addr} {ip : Ipv4Addr}

theorem authorizeStream_snd (h : (authorizeStream routes clock peerHex dstIp port acl).2) :
    (evaluateFlow acl.bundle (streamFlow routes acl peerHex dstIp port)).action = .allow ∨
      acl.failsOpen := by
  unfold authorizeStream AclEngine.allowFlow AclEngine.evaluateFlow at h
  have hflow (b : Bool) : { streamFlow routes acl peerHex dstIp port with
      srcPostureOk :=
        if b then (streamFlow routes acl peerHex dstIp port).srcPostureOk else true } =
      streamFlow routes acl peerHex dstIp port := by
    cases b <;> rfl
  dsimp only at h
  rw [hflow] at h
  split_ifs at h with hdeny hopen
  · exact .inr hopen
  · exact absurd (hdeny.symm.trans (beq_iff_eq.1 h)) (by decide)
  · exact .inl (beq_iff_eq.1 h)

/-- A deny rule for the address that is asked about refuses the stream. -/
theorem denied_of_denies (hdenies : DeniesAddress routes acl peerHex port (.v4 ip)) :
    (authorizeStream routes clock peerHex (some ip) port acl).2 = false := by
  obtain ⟨r, hr, henabled, haction, ⟨cidr, hdst, hcontains⟩, hsrc, hport⟩ := hdenies
  rw [← Bool.not_eq_true]
  intro hallowed
  rcases authorizeStream_snd hallowed with hallow | hopen
  · have hdstOk : r.dst.matchesEndpoint "" [] "" (some ip) := by
      rw [hdst]
      exact hcontains
    have hmatch : ruleMatchesFlow r (streamFlow routes acl peerHex (some ip) port) := by
      unfold ruleMatchesFlow streamFlow FlowEndpoint.external
      rw [hsrc, hdstOk]
      exact hport
    have hicmp :
        icmpGate acl.bundle (streamFlow routes acl peerHex (some ip) port).protocol = none :=
      rfl
    have hnil := ((evaluateFlow_posture_true_allow_iff hicmp).1 hallow).1
    have hmem := mem_matchingRules.2 ⟨hr, henabled, haction, hmatch⟩
    rw [hnil] at hmem
    cases hmem
  · -- A network that fails open has no rules.
    unfold AclEngine.failsOpen at hopen
    rw [Bool.and_eq_true, Bool.and_eq_true, List.isEmpty_iff] at hopen
    rw [hopen.1.2] at hr
    cases hr

/-- A stream that is proxied has a destination, is allowed, and is connected. -/
theorem proxied_cases
    (h : (handleAccepted routes clock net ⟨⟨port, host⟩, peerHex⟩ acl).2 = .proxied addr) :
    ∃ connectHost dstIp, destination routes host = .ok (connectHost, dstIp) ∧
      (authorizeStream routes clock peerHex dstIp port acl).2 ∧
      net.connect connectHost port = some addr := by
  unfold handleAccepted at h
  dsimp only at h
  split_ifs at h
  cases hdest : destination routes host with
  | error =>
    rw [hdest] at h
    cases h
  | ok dest =>
    obtain ⟨connectHost, dstIp⟩ := dest
    rw [hdest] at h
    dsimp only at h
    split_ifs at h with hallowed
    cases hconnect : net.connect connectHost port with
    | none =>
      rw [hconnect] at h
      cases h
    | some =>
      rw [hconnect] at h
      obtain rfl := StreamEnd.proxied.inj h
      exact ⟨connectHost, dstIp, rfl, hallowed, hconnect⟩

end

/-! ### An open network -/

/-- The policy of an open network without rules. -/
def openAcl : AclEngine where
  selfId := ⟨"aa", Ipv4Addr.new 100 64 0 1, [], "net"⟩
  bundle := { PolicyBundle.default with defaultAction := .allow, rules := [] }
  stale := false
  srcPostureOk := true
  denyLog := []
  conntrack := ∅
  fragments := .default

/-- Every name resolves to 10.9.9.9, and everything can be reached. -/
def openNetwork : Network where
  resolve := fun _ => [.v4 (Ipv4Addr.new 10 9 9 9)]
  reachable := fun _ _ => true

variable {addr : IpAddr} {ip : Ipv4Addr} {dstIp : Option Ipv4Addr}

theorem handleAccepted_open {connectHost : ConnectHost} (hping : host ≠ pingHost)
    (hdest : destination routes host = .ok (connectHost, dstIp))
    (hconnect : openNetwork.connect connectHost 443 = some addr) :
    (handleAccepted routes ⟨0, 0⟩ openNetwork ⟨⟨443, host⟩, "bb"⟩ openAcl).2 = .proxied addr := by
  have hallow (flow) (hgate : icmpGate openAcl.bundle flow.protocol = none) :
      (evaluateFlow openAcl.bundle flow).action = .allow := by
    unfold evaluateFlow
    rw [hgate]
    rw [evaluatePhases_allow_iff]
    exact ⟨fun r hr => absurd hr List.not_mem_nil, .inl rfl⟩
  have hauthorized : (authorizeStream routes ⟨0, 0⟩ "bb" dstIp 443 openAcl).2 := by
    unfold authorizeStream AclEngine.allowFlow AclEngine.evaluateFlow
    rw [if_neg]
    · exact beq_iff_eq.2 (hallow _ rfl)
    · rw [hallow _ rfl]
      decide
  unfold handleAccepted
  rw [if_neg hping, hdest]
  dsimp only
  rw [if_pos hauthorized, hconnect]

/-! ### What is dialled for a name -/

/-- The targets of the hostname routes for the name that the gateway advertises. -/
def ownTargets (routes : Tables) (host : String) : List Ipv4Addr :=
  (routes.advertisedHostnames.filter (Tables.advertises (Str.toAsciiLowercase host))).filterMap
    (·.targetIp)

/-- If the stream is proxied, the policy was asked about the address that is dialled, which is the
target of an own route if there is one, and no deny rule for a prefix with this address applies. -/
def DialsAuthorised (routes : Tables) (clock : Clock) (net : Network) (peerHex : String)
    (port : UInt16) (host : String) (acl : AclEngine) : Prop :=
  ∀ addr, (handleAccepted routes clock net ⟨⟨port, host⟩, peerHex⟩ acl).2 = .proxied addr →
    ∃ connectHost ip, destination routes host = .ok (connectHost, some ip) ∧ addr = .v4 ip ∧
      (ownTargets routes host = [] ∨ ip ∈ ownTargets routes host) ∧
      ¬ DeniesAddress routes acl peerHex port addr

theorem connect_ip {net : Network} {port : UInt16}
    (h : net.connect (.ip ip) port = some addr) : addr = .v4 ip := by
  have hmem := List.mem_of_find?_eq_some h
  exact List.mem_singleton.1 hmem

variable (hname : parse host = none)

include hname

theorem destination_of_target {info : Routing.HostnameRouteInfo} {target : Ipv4Addr}
    (hinfo : routes.lookupHostnameRoute host = some info)
    (hours : routes.isAdvertisedHostname host) (htarget : info.targetIp = some target) :
    destination routes host = .ok (.ip target, some target) := by
  unfold destination
  rw [hname]
  rw [hinfo]
  dsimp only
  rw [if_pos hours, htarget]

theorem destination_of_no_target
    (hours : routes.isAdvertisedHostname host)
    (hno : ∀ info, routes.lookupHostnameRoute host = some info → info.targetIp = none) :
    destination routes host = .ok (.name host, none) := by
  unfold destination
  rw [hname]
  cases hinfo : routes.lookupHostnameRoute host with
  | none => rw [if_pos hours]
  | some info =>
    dsimp only
    rw [if_pos hours, hno info hinfo]

theorem destination_of_not_ours
    (hours : routes.isAdvertisedHostname host = false) :
    ∃ reason, destination routes host = .error reason := by
  unfold destination
  rw [hname, hours]
  dsimp only
  split
  · exact ⟨_, if_neg Bool.false_ne_true⟩
  · exact ⟨_, if_neg Bool.false_ne_true⟩

omit hname

/-! ### The result -/

/-- What the gateway dials for a name: for every policy and network it is what the policy was
asked about, exactly if the name is not advertised here, or a hostname route of another node has a
target for it that no own target contradicts. -/
theorem dialsAuthorised_iff {routes : Tables} {host : String} (hping : host ≠ pingHost)
    (hname : Ipv4Addr.parse host = none) :
    (∀ clock net peerHex port acl, DialsAuthorised routes clock net peerHex port host acl) ↔
      (routes.isAdvertisedHostname host →
        ∃ info target, routes.lookupHostnameRoute host = some info ∧ info.targetIp = some target ∧
          (ownTargets routes host = [] ∨ target ∈ ownTargets routes host)) := by
  constructor
  · intro hdials hours
    have hopen := hdials ⟨0, 0⟩ openNetwork "bb" 443 openAcl
    by_cases htarget : ∃ info target, routes.lookupHostnameRoute host = some info ∧
        info.targetIp = some target
    · obtain ⟨info, target, hinfo, htarget⟩ := htarget
      have hdest := destination_of_target hname hinfo hours htarget
      have hproxied := handleAccepted_open hping hdest rfl
      obtain ⟨_, ip, hdest', -, hown, -⟩ := hopen _ hproxied
      obtain ⟨-, hip⟩ := Prod.mk.inj (Except.ok.inj (hdest.symm.trans hdest'))
      cases hip
      exact ⟨info, target, hinfo, htarget, hown⟩
    · -- The name itself is dialled, and the policy is asked about no address.
      have hno (info)
          (hinfo : routes.lookupHostnameRoute host = some info) : info.targetIp = none := by
        by_contra hne
        obtain ⟨target, htarget'⟩ := Option.ne_none_iff_exists'.1 hne
        exact htarget ⟨info, target, hinfo, htarget'⟩
      have hdest := destination_of_no_target hname hours hno
      have hproxied := handleAccepted_open hping hdest rfl
      obtain ⟨_, ip, hdest', -⟩ := hopen _ hproxied
      obtain ⟨-, hip⟩ := Prod.mk.inj (Except.ok.inj (hdest.symm.trans hdest'))
      cases hip
  · intro htargets clock net peerHex port acl addr hproxied
    obtain ⟨connectHost, dstIp, hdest, hallowed, hconnect⟩ := proxied_cases hproxied
    cases hours : routes.isAdvertisedHostname host with
    | false =>
      obtain ⟨reason, herror⟩ := destination_of_not_ours hname hours
      exact nomatch herror.symm.trans hdest
    | true =>
      obtain ⟨info, target, hinfo, htarget, hown⟩ := htargets hours
      have hdest' := destination_of_target hname hinfo hours htarget
      obtain ⟨rfl, rfl⟩ := Prod.mk.inj (Except.ok.inj (hdest'.symm.trans hdest))
      obtain rfl := connect_ip hconnect
      refine ⟨_, target, hdest', rfl, hown, fun hdenies => ?_⟩
      exact Bool.false_ne_true ((denied_of_denies hdenies).symm.trans hallowed)

namespace Demo

/-- A route for `db.internal` with the target 10.0.0.5. -/
def routeVia (endpoint : String) : Routing.HostnameRoute where
  hostname := "db.internal"
  viaEndpointId := endpoint
  viaIp := Ipv4Addr.new 100 64 0 1
  isWildcard := false
  targetIp := some (Ipv4Addr.new 10 0 0 5)

/-- The gateway `aa` with the routes. -/
def gateway (routes : List Routing.HostnameRoute) : Tables :=
  Routing.rebuild (fun _ => some [])
    [(1, { peers := [], subnetRoutes := [], hostnameRoutes := routes, exitNodes := [],
           profile := .default, dnsSuffix := "tunnet", networkName := "net",
           selfEndpointId := "aa", peerCidr := none })] 1

theorem dialsAuthorised_pair :
    DialsAuthorised (gateway [routeVia "aa", routeVia "bb"]) ⟨0, 0⟩ openNetwork "cc" 443
      "db.internal" openAcl := by
  refine (dialsAuthorised_iff (by decide) (by decide)).2 (fun _ => ?_) _ _ _ _ _
  refine ⟨⟨⟨[], "bb", "", new 100 64 0 1, [], 1, "net", none⟩, false,
    some (new 10 0 0 5), "db.internal"⟩, new 10 0 0 5, ?_, rfl, .inr ?_⟩
  · decide
  · decide

/-- The network is open except for 10.9.9.0/24. -/
def denyingAcl : AclEngine :=
  { openAcl with
    bundle :=
      { openAcl.bundle with
        rules := [⟨.any, .cidr (.v4 ⟨Ipv4Addr.new 10 9 9 0, 24, Ipv4Net.length_twentyFour⟩),
          .deny, [],
          none, 1, 1, .network, true, none, []⟩] } }

/-- Alone, the gateway ignores the target of its route and dials what the name resolves to, though
a rule denies that address. -/
theorem target_ignored :
    (handleAccepted (gateway [routeVia "aa"]) ⟨0, 0⟩ openNetwork ⟨⟨443, "db.internal"⟩, "cc"⟩
      denyingAcl).2 = .proxied (.v4 (Ipv4Addr.new 10 9 9 9)) ∧
    ownTargets (gateway [routeVia "aa"]) "db.internal" = [Ipv4Addr.new 10 0 0 5] ∧
    DeniesAddress (gateway [routeVia "aa"]) denyingAcl "cc" 443 (.v4 (Ipv4Addr.new 10 9 9 9)) := by
  refine ⟨by decide, by decide, _, List.mem_singleton_self _, rfl, rfl, ⟨_, rfl, ?_⟩, rfl, rfl⟩
  decide

end Demo

end Tunnet.Stream

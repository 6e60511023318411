import Tunnet.Policy.Types

/-!
# Access-control evaluation

`evaluate_flow` of `tunnet-common/src/policy.rs`: an ICMP gate, then four phases over the rules of
a bundle (organization deny, network deny, network allow, default). A rule that asks for a source
posture is skipped when the posture is not met.
-/

namespace Tunnet.Policy

/-- `Selector::matches_endpoint`. -/
def Selector.matchesEndpoint (s : Selector) (endpointHex : String) (tags : List String)
    (network : String) (ip : Option Ipv4Addr) : Bool :=
  match s with
  | .any => true
  | .endpoint id => Str.eqIgnoreAsciiCase id endpointHex
  | .tag t => tags.any (· == t)
  | .network n => n == network
  | .cidr net => ip.any fun ip => net.contains (.v4 ip)
  | .user id =>
    let marker := "user:" ++ id
    tags.any fun x => x == marker || Str.eqIgnoreAsciiCase x id

def protoPortOk (r : PolicyRule) (protocol : Protocol) (dstPort : Option UInt16) : Bool :=
  if !protocol.matchesRule r.protocol then
    false
  -- ICMP has no port: a port list does not keep a rule from matching it
  else if protocol.isIcmp then
    true
  else if protocol.isOther then
    r.ports.isEmpty
  else
    r.ports.isEmpty || dstPort.any fun p => r.ports.any (·.contains p)

def ruleMatchesFlow (r : PolicyRule) (flow : FlowContext) : Bool :=
  let srcOk := r.src.matchesEndpoint flow.src.endpointHex flow.src.tags flow.src.network
    flow.src.ip
  let dstOk := r.dst.matchesEndpoint flow.dst.endpointHex flow.dst.tags flow.dst.network
    flow.dst.ip
  if !srcOk || !dstOk then false else protoPortOk r flow.protocol flow.dstPort

namespace EvalVerdict

def icmp (action : Action) : EvalVerdict := ⟨action, .icmpPolicy, none, none⟩

def defaultAction : DefaultAction → EvalVerdict
  | .allow => ⟨.allow, .defaultAllow, none, none⟩
  | .deny => ⟨.deny, .defaultDeny, none, none⟩

def rule (action : Action) (reason : EvalReason) (r : PolicyRule) : EvalVerdict :=
  ⟨action, reason, r.slug, some r.scope⟩

end EvalVerdict

/-- Order of two rules in a phase: `order_index`, then `priority`. -/
def phaseLE (a b : PolicyRule) : Prop :=
  a.orderIndex < b.orderIndex ∨ (a.orderIndex = b.orderIndex ∧ a.priority ≤ b.priority)

instance : DecidableRel phaseLE := fun _ _ => inferInstanceAs (Decidable (_ ∨ _))

variable (rules : List PolicyRule) (scope : RuleScope) (action : Action)

/-- The enabled rules of one scope and action, in the order a phase tries them. -/
def phaseCandidates : List PolicyRule :=
  (rules.filter fun r => r.enabled && r.scope == scope && r.action == action).insertionSort phaseLE

/-- The loop of `first_matching_in_phase`: the first applicable rule, and the first rule ever
skipped for its posture. -/
def firstApplicable (matcher : PolicyRule → Bool) (srcPostureOk : Bool) :
    List PolicyRule → Option PolicyRule → Option PolicyRule × Option PolicyRule
  | [], postureSkip => (none, postureSkip)
  | rule :: rest, postureSkip =>
    if !matcher rule then
      firstApplicable matcher srcPostureOk rest postureSkip
    else if !rule.srcPosture.isEmpty && !srcPostureOk then
      firstApplicable matcher srcPostureOk rest (postureSkip <|> some rule)
    else
      (some rule, postureSkip)

def firstMatchingInPhase
    (matcher : PolicyRule → Bool) (srcPostureOk : Bool) (postureSkip : Option PolicyRule) :
    Option PolicyRule × Option PolicyRule :=
  firstApplicable matcher srcPostureOk (phaseCandidates rules scope action) postureSkip

variable (bundle : PolicyBundle)

def evaluatePhases (matcher : PolicyRule → Bool) (srcPostureOk : Bool) : EvalVerdict :=
  match firstMatchingInPhase bundle.rules .organization .deny matcher srcPostureOk none with
  | (some rule, _) => .rule .deny .orgDeny rule
  | (none, skip₁) =>
  match firstMatchingInPhase bundle.rules .network .deny matcher srcPostureOk skip₁ with
  | (some rule, _) => .rule .deny .networkDeny rule
  | (none, skip₂) =>
  -- an organization allow is not supported
  match firstMatchingInPhase bundle.rules .network .allow matcher srcPostureOk skip₂ with
  | (some rule, _) => .rule .allow .networkAllow rule
  | (none, some skipped) => .rule bundle.defaultAction.toAction .postureSkip skipped
  | (none, none) => .defaultAction bundle.defaultAction

/-- The verdict of the ICMP gate, if it gives one. -/
def icmpGate (protocol : Protocol) : Option EvalVerdict :=
  if protocol = .icmp then
    match bundle.icmpPolicy with
    | .allow => some (.icmp .allow)
    | .deny => some (.icmp .deny)
    | .acl => none
  else
    none

def evaluateFlow (flow : FlowContext) : EvalVerdict :=
  match icmpGate bundle flow.protocol with
  | some verdict => verdict
  | none => evaluatePhases bundle (ruleMatchesFlow · flow) flow.srcPostureOk

/-! ### Packets -/

/-- Runtime facts needed to evaluate a rule against a packet or connection. -/
structure EvalCtx where
  selfEndpointHex : String
  selfIp : Ipv4Addr
  selfTags : List String
  selfNetwork : String
  peerEndpointHex : String
  peerIp : Option Ipv4Addr
  peerTags : List String
  peerNetwork : String
  dstPort : Option UInt16
  protocol : Protocol
  /-- When false, rules with a non-empty `srcPosture` do not match. -/
  srcPostureOk : Bool

def ruleMatchesV4 (r : PolicyRule) (ctx : EvalCtx) (direction : Direction) : Bool :=
  let (srcOk, dstOk) := match direction with
    | .inbound =>
      (r.src.matchesEndpoint ctx.peerEndpointHex ctx.peerTags ctx.peerNetwork ctx.peerIp,
       r.dst.matchesEndpoint ctx.selfEndpointHex ctx.selfTags ctx.selfNetwork (some ctx.selfIp))
    | .outbound =>
      (r.src.matchesEndpoint ctx.selfEndpointHex ctx.selfTags ctx.selfNetwork (some ctx.selfIp),
       r.dst.matchesEndpoint ctx.peerEndpointHex ctx.peerTags ctx.peerNetwork ctx.peerIp)
  if !srcOk || !dstOk then false else protoPortOk r ctx.protocol ctx.dstPort

def evaluateDetailed (ctx : EvalCtx) (direction : Direction) : EvalVerdict :=
  match icmpGate bundle ctx.protocol with
  | some verdict => verdict
  | none => evaluatePhases bundle (ruleMatchesV4 · ctx direction) ctx.srcPostureOk

/-! ### IPv6 packets -/

/-- `Selector::matches_ipv6_endpoint`: only a CIDR looks at the address. -/
def Selector.matchesIpv6Endpoint (s : Selector) (endpointHex : String) (tags : List String)
    (network : String) (ipv6 : Option Ipv6Addr) : Bool :=
  match s with
  | .cidr net => ipv6.any fun ip => net.contains (.v6 ip)
  | s => s.matchesEndpoint endpointHex tags network none

structure Ipv6EvalCtx where
  selfEndpointHex : String
  selfIpv6 : Ipv6Addr
  selfTags : List String
  selfNetwork : String
  peerEndpointHex : String
  peerIpv6 : Option Ipv6Addr
  peerTags : List String
  peerNetwork : String
  dstPort : Option UInt16
  protocol : Protocol
  srcPostureOk : Bool

def ruleMatchesV6 (r : PolicyRule) (ctx : Ipv6EvalCtx) (direction : Direction) : Bool :=
  let self (s : Selector) :=
    s.matchesIpv6Endpoint ctx.selfEndpointHex ctx.selfTags ctx.selfNetwork (some ctx.selfIpv6)
  let peer (s : Selector) :=
    s.matchesIpv6Endpoint ctx.peerEndpointHex ctx.peerTags ctx.peerNetwork ctx.peerIpv6
  let (srcOk, dstOk) := match direction with
    | .inbound => (peer r.src, self r.dst)
    | .outbound => (self r.src, peer r.dst)
  if !srcOk || !dstOk then false else protoPortOk r ctx.protocol ctx.dstPort

def evaluateIpv6Detailed (ctx : Ipv6EvalCtx) (direction : Direction) : EvalVerdict :=
  match icmpGate bundle ctx.protocol with
  | some verdict => verdict
  | none => evaluatePhases bundle (ruleMatchesV6 · ctx direction) ctx.srcPostureOk

/-! ## The ICMP policy

The three evaluators have the same gate. It knows `Protocol::Icmp` only, though `is_icmp` and the
ports of a rule take ICMPv6 for ICMP, too. -/

/-- The verdict that an ICMP policy names. -/
def IcmpPolicy.verdict : IcmpPolicy → Option EvalVerdict
  | .allow => some (.icmp .allow)
  | .deny => some (.icmp .deny)
  | .acl => none

/-- ICMP gets the verdict of the policy, and nothing else depends on it. -/
def IcmpUniform (evaluate : PolicyBundle → EvalVerdict) (protocol : Protocol)
    (b : PolicyBundle) : Prop :=
  if protocol.isIcmp then ∀ verdict ∈ b.icmpPolicy.verdict, evaluate b = verdict
  else ∀ icmpPolicy, evaluate { b with icmpPolicy } = evaluate b

theorem evaluatePhases_reason (b : PolicyBundle) (matcher : PolicyRule → Bool) (ok : Bool) :
    (evaluatePhases b matcher ok).reason ≠ .icmpPolicy := by
  unfold evaluatePhases
  repeat' split
  case h_3 => cases b.defaultAction <;> exact nofun
  all_goals exact nofun

theorem icmpUniform_gated (matcher : PolicyRule → Bool) (ok : Bool) (protocol : Protocol)
    (b : PolicyBundle) : IcmpUniform (fun b => match icmpGate b protocol with
      | some verdict => verdict
      | none => evaluatePhases b matcher ok) protocol b ↔
      (protocol = .icmpv6 → b.icmpPolicy = .acl) := by
  have hreason := evaluatePhases_reason b matcher ok
  cases protocol with
  | icmp => cases hpolicy : b.icmpPolicy <;> simp [IcmpUniform, Protocol.isIcmp, icmpGate, hpolicy,
      IcmpPolicy.verdict]
  | icmpv6 =>
    -- the phases never name the ICMP policy as their reason
    cases hpolicy : b.icmpPolicy <;> simp [IcmpUniform, Protocol.isIcmp, hpolicy,
      IcmpPolicy.verdict] <;> exact fun h => hreason (congrArg (·.reason) h)
  | tcp | udp | any | other => exact ⟨fun _ => nofun, fun _ _ => rfl⟩

/-- The ICMP policy is uniform in all three evaluators, exactly if the flow is not ICMPv6 or left to
the rules. -/
theorem icmpUniform_iff (b : PolicyBundle) (ctx : EvalCtx) (ctx₆ : Ipv6EvalCtx)
    (flow : FlowContext) (direction : Direction) :
    (IcmpUniform (evaluateDetailed · ctx direction) ctx.protocol b ↔
        (ctx.protocol = .icmpv6 → b.icmpPolicy = .acl)) ∧
      (IcmpUniform (evaluateIpv6Detailed · ctx₆ direction) ctx₆.protocol b ↔
        (ctx₆.protocol = .icmpv6 → b.icmpPolicy = .acl)) ∧
      (IcmpUniform (evaluateFlow · flow) flow.protocol b ↔
        (flow.protocol = .icmpv6 → b.icmpPolicy = .acl)) :=
  ⟨icmpUniform_gated .., icmpUniform_gated .., icmpUniform_gated ..⟩

/-- A bundle that denies ICMP lets ICMPv6 through. -/
theorem icmpv6_allowed : (evaluateIpv6Detailed { PolicyBundle.default with icmpPolicy := .deny }
      ⟨"aa", 1, [], "", "bb", some 2, [], "", none, .icmpv6, true⟩ .inbound).action = .allow := by
  decide

end Tunnet.Policy

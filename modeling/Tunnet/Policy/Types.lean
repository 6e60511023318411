import Tunnet.Net.Ip
import Tunnet.Util.Map
import Tunnet.Util.Str

/-!
# Policy bundles and flows

The types of `tunnet-common/src/policy.rs` that access-control evaluation reads, and the
selectors and ports of a rule.
-/

namespace Tunnet.Policy

inductive Action
  | allow
  | deny
deriving DecidableEq

/-- Network access mode: open is `allow`, restricted is `deny`. -/
inductive DefaultAction
  | allow
  | deny
deriving DecidableEq

/-- `From<DefaultAction> for Action`. -/
def DefaultAction.toAction : DefaultAction → Action
  | .allow => .allow
  | .deny => .deny

/-- How ICMP is handled before rule evaluation. -/
inductive IcmpPolicy
  | allow
  | acl
  | deny

inductive RuleScope
  | organization
  | network
deriving DecidableEq

inductive EvalReason
  | orgDeny
  | networkDeny
  | networkAllow
  | defaultAllow
  | defaultDeny
  | icmpPolicy
  | postureSkip

inductive Protocol
  | tcp
  | udp
  | icmp
  | icmpv6
  | any
  | other (n : UInt8)
deriving DecidableEq

namespace Protocol

/-- An unset rule protocol or `any` matches everything, any other one only itself. -/
def matchesRule (p : Protocol) : Option Protocol → Bool
  | none => true
  | some .any => true
  | some q => q == p

def isIcmp : Protocol → Bool
  | .icmp => true
  | .icmpv6 => true
  | _ => false

/-- Protocol numbers without ports, `Protocol::Other(_)`. -/
def isOther : Protocol → Bool
  | .other _ => true
  | _ => false

end Protocol

inductive Selector
  | any
  | endpoint (id : String)
  | tag (t : String)
  | network (n : String)
  | cidr (net : IpNet)
  | user (id : String)

structure PortRange where
  start : UInt16
  stop : UInt16
deriving DecidableEq

def PortRange.contains (r : PortRange) (p : UInt16) : Bool := r.start ≤ p && p ≤ r.stop

structure PolicyRule where
  src : Selector
  dst : Selector
  action : Action
  /-- Empty means any port. -/
  ports : List PortRange
  protocol : Option Protocol
  priority : Int
  orderIndex : Int
  scope : RuleScope
  enabled : Bool
  slug : Option String
  /-- Names of postures, one of which the source device must satisfy. -/
  srcPosture : List String

inductive SshAction
  | accept
  | check
  | deny
deriving DecidableEq

structure SshPolicyRule where
  src : Selector
  dst : Selector
  action : SshAction
  users : List String
  record : Bool
  recorder : Option Selector
  enforceRecorder : Bool
  checkPeriodSecs : Option UInt64
  priority : Int

structure PostureEnforcementConfig where
  mode : String
  gracePeriodMinutes : UInt32
  recheckOnFailSecs : UInt64
  notifyUser : Bool
  notifyAdmin : Bool
  autoReauthorize : Bool

structure PolicyBundle where
  rules : List PolicyRule
  sshRules : List SshPolicyRule
  version : UInt64
  signature : String
  defaultAction : DefaultAction
  icmpPolicy : IcmpPolicy
  postures : Map String (List String)
  defaultSrcPosture : List String
  postureEnforcement : Option PostureEnforcementConfig

/-- `PolicyBundle::default`. -/
def PolicyBundle.default : PolicyBundle where
  rules := []
  sshRules := []
  version := 0
  signature := ""
  defaultAction := .allow
  icmpPolicy := .allow
  postures := ∅
  defaultSrcPosture := []
  postureEnforcement := none

structure EvalVerdict where
  action : Action
  reason : EvalReason
  ruleSlug : Option String
  scope : Option RuleScope

/-- One side of a flow: a mesh member or an external target. -/
structure FlowEndpoint where
  endpointHex : String
  tags : List String
  network : String
  ip : Option Ipv4Addr

/-- `FlowEndpoint::external`. -/
def FlowEndpoint.external (ip : Option Ipv4Addr) : FlowEndpoint := ⟨"", [], "", ip⟩

/-- The requesting principal and the actual destination of a flow. -/
structure FlowContext where
  src : FlowEndpoint
  dst : FlowEndpoint
  protocol : Protocol
  dstPort : Option UInt16
  /-- When false, rules with a non-empty `srcPosture` do not match. -/
  srcPostureOk : Bool

inductive Direction
  | inbound
  | outbound
deriving DecidableEq

end Tunnet.Policy

import Tunnet.Policy.Types

/-!
# Building a signed bundle

`sign_bundle` of `tunnet-control/src/policy_store.rs`, which turns the rule rows of a network or an
organization into a signed bundle. Serialization, the signing key and base64 are parameters.
-/

namespace Tunnet.Policy

/-- A row of the `policies` table. -/
structure Row where
  srcSelector : Selector
  dstSelector : Selector
  action : String
  ports : List PortRange
  protocol : Option String
  priority : Int
  orderIndex : Int
  enabled : Bool
  slug : Option String
  srcPosture : Option (List String)

/-- A row of the `ssh_policies` table. -/
structure SshRow where
  srcSelector : Selector
  dstSelector : Selector
  action : String
  users : List String
  record : Bool
  recorder : Option Selector
  enforceRecorder : Bool
  checkPeriodSecs : Option Int64
  priority : Int

/-- The rule protocol column; an unknown text is an unset protocol. -/
def parseRuleProtocol : String → Option Protocol
  | "tcp" => some .tcp
  | "udp" => some .udp
  | "icmp" => some .icmp
  | "icmpv6" => some .icmpv6
  | "any" => some .any
  | _ => none

def Row.toRule (scope : RuleScope) (defaultSrcPosture : List String) (r : Row) : PolicyRule where
  src := r.srcSelector
  dst := r.dstSelector
  action := if r.action = "allow" then .allow else .deny
  ports := r.ports
  protocol := r.protocol.bind parseRuleProtocol
  priority := r.priority
  orderIndex := r.orderIndex
  scope := scope
  enabled := r.enabled
  slug := r.slug
  srcPosture := let explicit := r.srcPosture.getD []
    if explicit.isEmpty then defaultSrcPosture else explicit

def parseSshAction : String → Option SshAction
  | "accept" => some .accept
  | "check" => some .check
  | "deny" => some .deny
  | _ => none

/-- A row with an unknown action gives no rule. -/
def SshRow.toRule (r : SshRow) : Option SshPolicyRule :=
  (parseSshAction r.action).map fun action =>
    { src := r.srcSelector
      dst := r.dstSelector
      action := action
      users := r.users
      record := r.record
      recorder := r.recorder
      enforceRecorder := r.enforceRecorder
      checkPeriodSecs := r.checkPeriodSecs.map Int64.toUInt64
      priority := r.priority }

/-- What `policy_bundle_sign_bytes` serializes. -/
abbrev SignTuple := List PolicyRule × List SshPolicyRule × UInt64 × DefaultAction × IcmpPolicy

def PolicyBundle.signTuple (b : PolicyBundle) : SignTuple :=
  (b.rules, b.sshRules, b.version, b.defaultAction, b.icmpPolicy)

/-- Canonical bytes signed by the control plane for a policy bundle, given the serializer. -/
def policyBundleSignBytes {ε Bytes : Type} (toVec : SignTuple → Except ε Bytes)
    (bundle : PolicyBundle) : Except ε Bytes :=
  toVec bundle.signTuple

/-- The serializer, the control plane's key and the base64 encoder. -/
structure BundleSigner (ε : Type) where
  toVec : SignTuple → Except ε (List UInt8)
  sign : List UInt8 → List UInt8
  base64 : List UInt8 → String

def signBundle {ε : Type} (signer : BundleSigner ε) (rows : List Row) (sshRows : List SshRow)
    (version : UInt64) (scope : RuleScope) (defaultAction : DefaultAction)
    (icmpPolicy : IcmpPolicy) (postures : Map String (List String))
    (defaultSrcPosture : List String) (postureEnforcement : Option PostureEnforcementConfig) :
    Except ε PolicyBundle :=
  let bundle : PolicyBundle :=
    { rules := rows.map (Row.toRule scope defaultSrcPosture)
      sshRules := sshRows.filterMap SshRow.toRule
      version := version
      signature := ""
      defaultAction := defaultAction
      icmpPolicy := icmpPolicy
      postures := postures
      defaultSrcPosture := defaultSrcPosture
      postureEnforcement := postureEnforcement }
  match signer.toVec bundle.signTuple with
  | .error e => .error e
  | .ok bytes => .ok { bundle with signature := signer.base64 (signer.sign bytes) }

theorem Row.toRule_srcPosture_ne_nil {scope : RuleScope} {defaultSrcPosture : List String}
    (hd : defaultSrcPosture ≠ []) (r : Row) :
    (r.toRule scope defaultSrcPosture).srcPosture ≠ [] := by
  unfold toRule
  dsimp only
  split_ifs with he
  · exact hd
  · simpa using he

/-! ### The bundle that an agent enforces -/

/-- Merge org-scoped and network-scoped bundles into one effective ruleset. -/
def mergePolicyBundles (org network : PolicyBundle) : PolicyBundle where
  rules :=
    (org.rules.map fun rule => { rule with scope := .organization }) ++
      network.rules.map fun rule => { rule with scope := .network }
  sshRules := org.sshRules ++ network.sshRules
  version := max org.version network.version
  signature := ""
  defaultAction := network.defaultAction
  icmpPolicy := network.icmpPolicy
  -- a posture of the network replaces one of the organization with the same name
  postures := network.postures ∪ org.postures
  defaultSrcPosture :=
    if network.defaultSrcPosture.isEmpty then org.defaultSrcPosture else network.defaultSrcPosture
  postureEnforcement := network.postureEnforcement.or org.postureEnforcement

end Tunnet.Policy

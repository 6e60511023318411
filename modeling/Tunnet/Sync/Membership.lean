import Tunnet.Acl.Engine
import Tunnet.Policy.SignBundle

/-!
# Snapshots and deltas from the control plane

A managed node takes over the membership that the control plane sends, as a full snapshot or as a
delta of its peers. The revisions it has applied keep older messages out. The control plane does
not list the node itself among its peers, so a snapshot gets an entry for it added; a delta works on
the list that is in the routing table.
-/

namespace Tunnet.Sync

open Policy (PolicyBundle)
open Routing (PeerEntry SubnetRoute HostnameRoute ExitNodeInfo DeviceProfile EndpointId
  RoutingTable)
open Acl (AclEngine)

/-! ### Signatures -/

/-- The decoders of keys and signatures, the serializer and the signature scheme. -/
structure PolicyVerifier (ε Key : Type) where
  hexDecode : String → Option (List UInt8)
  keyFromBytes : List UInt8 → Option Key
  toVec : Policy.SignTuple → Except ε (List UInt8)
  base64Decode : String → Option (List UInt8)
  verify : Key → List UInt8 → List UInt8 → Bool

variable {ε Key : Type}

section

variable (V : PolicyVerifier ε Key)

def parsePolicyVk (hexKey : Option String) : Option Key := do
  let hex ← hexKey
  let bytes ← V.hexDecode hex
  if bytes.length = 32 then V.keyFromBytes bytes else none

/-- The signature is good; only a bundle without rules may go unsigned. -/
def verifyPolicyBundleSignature (bundle : PolicyBundle) (verifyingKey : Key) : Bool :=
  if bundle.signature = "" then bundle.rules.isEmpty && bundle.sshRules.isEmpty
  else match Policy.policyBundleSignBytes V.toVec bundle, V.base64Decode bundle.signature with
    | .ok signBytes, some sig => sig.length == 64 && V.verify verifyingKey signBytes sig
    | _, _ => false

/-- Both signatures are good; without a key they are not checked. -/
def verifyPolicies (policy orgPolicy : PolicyBundle) (policyVerifyingKey : Option String) : Bool :=
  match parsePolicyVk V policyVerifyingKey with
  | some vk => verifyPolicyBundleSignature V policy vk && verifyPolicyBundleSignature V orgPolicy vk
  | none => true

end

/-! ### Revisions -/

/-- The revisions of the organization and of the network that were applied last. -/
structure ManagedRevisions where
  org : UInt64
  network : UInt64

namespace ManagedRevisions

variable {σ : Type}

/-- Take over the revisions unless one of them is older. -/
def acceptAbsence (current : ManagedRevisions) (org network : UInt64) : ManagedRevisions × Bool :=
  if org < current.org ∨ network < current.network then (current, false)
  else (⟨org, network⟩, true)

variable (org network : UInt64) (apply : σ → σ) (s : ManagedRevisions × σ)

/-- Apply a snapshot unless one of its revisions is older. -/
def applySnapshot : (ManagedRevisions × σ) × Bool :=
  if org < s.1.org ∨ network < s.1.network then (s, false)
  else ((⟨org, network⟩, apply s.2), true)

/-- Apply a delta unless the revision of the network is older. -/
def applyDelta : (ManagedRevisions × σ) × Bool :=
  if network < s.1.network then (s, false)
  else (({ s.1 with network }, apply s.2), true)

end ManagedRevisions

/-! ### Messages -/

/-- What is read of a membership. -/
structure NetworkMembershipSnapshot where
  networkId : Uuid
  networkName : String
  assignedIpv4 : Ipv4Addr
  ipv4Peers : List PeerEntry
  subnetRoutes : List SubnetRoute
  hostnameRoutes : List HostnameRoute
  dnsSuffix : String
  exitNodes : List ExitNodeInfo
  deviceProfile : DeviceProfile
  selfTags : List String
  selfHostname : String
  policy : PolicyBundle
  version : UInt64

structure SnapshotDelta where
  added : List PeerEntry
  removed : List String
  version : UInt64

/-- The tables and the packet filter of a managed node. -/
structure Dataplane where
  routes : RoutingTable
  acl : AclEngine

/-- The peers that a snapshot puts in the tables: those of the membership and, for its name and
address, the node itself. -/
def membershipPeers (membership : NetworkMembershipSnapshot)
    (selfEndpointId selfHostname : String) : List PeerEntry :=
  let hostname := if membership.selfHostname ≠ "" then membership.selfHostname else selfHostname
  let peers := membership.ipv4Peers
  if hostname ≠ "" ∧ ¬peers.any (·.endpointId == selfEndpointId) then
    peers ++ [⟨membership.assignedIpv4, selfEndpointId, hostname, membership.selfTags, none⟩]
  else peers

variable (V : PolicyVerifier ε Key) (parse : String → Option EndpointId)

/-- Verify org + network bundle signatures, then take over the membership. -/
def applyMembership (membership : NetworkMembershipSnapshot) (orgPolicy : PolicyBundle)
    (policyVerifyingKey : Option String) (orgVersion : UInt64)
    (selfEndpointId selfHostname : String) (s : ManagedRevisions × Dataplane) :
    (ManagedRevisions × Dataplane) × Bool :=
  -- on a bad signature the routes and rules are kept
  if !verifyPolicies V membership.policy orgPolicy policyVerifyingKey then (s, false)
  else
    let peers := membershipPeers membership selfEndpointId selfHostname
    let merged := Policy.mergePolicyBundles orgPolicy membership.policy
    ManagedRevisions.applySnapshot orgVersion membership.version
      (fun d =>
        { routes := d.routes.replace parse peers membership.subnetRoutes membership.hostnameRoutes
            membership.exitNodes membership.deviceProfile membership.dnsSuffix
            membership.networkName membership.networkId selfEndpointId membership.version
          acl := (d.acl.replaceBundle merged).replaceSelfTags membership.selfTags })
      s

/-- Apply a peer-only delta. -/
def applyDelta (delta : SnapshotDelta) (selfEndpointId : String) (networkId : Uuid)
    (networkName : String) (s : ManagedRevisions × Dataplane) :
    (ManagedRevisions × Dataplane) × Bool :=
  ManagedRevisions.applyDelta delta.version
    (fun d =>
      { d with
        routes := d.routes.applyPeerDelta parse networkId delta.added delta.removed delta.version
          selfEndpointId networkName })
    s

/-! ### The node -/

structure EndpointSnapshot where
  version : UInt64
  memberships : List NetworkMembershipSnapshot
  orgPolicy : PolicyBundle
  policyVerifyingKey : Option String
  /-- `network_revisions`, a map. -/
  networkRevisions : Uuid → Option UInt64

/-- The messages that are about the membership. -/
inductive ServerMsg
  | snapshot (snap : EndpointSnapshot)
  | delta (delta : SnapshotDelta)
  | membershipRevoked (networkId : Uuid) (orgRevision networkRevision : UInt64)

/-- The network that a node manages, and who it is. -/
structure NodeConfig where
  networkId : Uuid
  selfEndpointId : String
  selfHostname : String

namespace NodeConfig

variable (cfg : NodeConfig)

/-- The node is no member any more. -/
def leave (org network : UInt64) (s : ManagedRevisions × Dataplane) :
    (ManagedRevisions × Dataplane) × Bool :=
  match s.1.acceptAbsence org network with
  | (_, false) => (s, false)
  | (revisions, true) =>
    ((revisions,
      { s.2 with routes := s.2.routes.clearManaged parse cfg.networkId cfg.selfEndpointId }), true)

/-- What a message does, and whether it is taken over. -/
def handle (s : ManagedRevisions × Dataplane) : ServerMsg → (ManagedRevisions × Dataplane) × Bool
  | .snapshot snap =>
    -- `membership_for_network`
    match snap.memberships.find? (·.networkId == cfg.networkId) with
    | some m =>
      applyMembership V parse m snap.orgPolicy snap.policyVerifyingKey snap.version
        cfg.selfEndpointId cfg.selfHostname s
    | none =>
      match snap.networkRevisions cfg.networkId with
      | some network => cfg.leave parse snap.version network s
      | none => (s, false)
  | .delta delta =>
    applyDelta parse delta cfg.selfEndpointId cfg.networkId s.2.routes.tables.networkName s
  | .membershipRevoked networkId orgRevision networkRevision =>
    if networkId ≠ cfg.networkId then (s, false)
    else cfg.leave parse orgRevision networkRevision s

end NodeConfig

end Tunnet.Sync

import Mathlib.Data.Finset.Sort
import Mathlib.Data.String.Basic
import Tunnet.Direct.Membership

/-!
# The transport authorisation cache

`tunnet-core/src/direct/auth.rs`. Which endpoints may open a transport connection, and for which
networks. `project_runtime` brings the cache up to date with the membership of one network: it
adds the members and removes the revoked endpoints.
-/

namespace Tunnet.Direct

structure AuthCache where
  /-- Endpoint to the networks it is authenticated for. -/
  inner : Map String (Finset Uuid)
  /-- Counts the changes. -/
  version : UInt64

namespace AuthCache

def new : AuthCache := ⟨∅, 0⟩

variable (a : AuthCache) (endpointHex : String)

def networksFor : Finset Uuid :=
  (a.inner.lookup endpointHex).getD ∅

def insert (networkId : Uuid) : AuthCache :=
  let set := a.networksFor endpointHex
  { inner := a.inner.insert endpointHex (Insert.insert networkId set)
    version := if networkId ∈ set then a.version else a.version + 1 }

def containsNetwork (networkId : Uuid) : Bool :=
  (a.inner.lookup endpointHex).any fun s => decide (networkId ∈ s)

def removeNetwork (networkId : Uuid) : AuthCache :=
  match a.inner.lookup endpointHex with
  | none => a
  | some set =>
    let rest := set.erase networkId
    { inner := if rest = ∅ then a.inner.erase endpointHex else a.inner.insert endpointHex rest
      version := if networkId ∈ set then a.version + 1 else a.version }

end AuthCache

namespace DocsMembership

/-- The members, sorted by endpoint. -/
def snapshotMembers (m : DocsMembership) : List MembershipEntry :=
  ((m.members.keys.sort (· ≤ ·)).filterMap m.members.lookup).mergeSort
    fun a b => a.endpointId ≤ b.endpointId

variable (cfg : DocsConfig) (m : DocsMembership) (auth : AuthCache)

def evictRevokedFromAuth : AuthCache :=
  (m.revoked.sort (· ≤ ·)).foldl (fun auth id => auth.removeNetwork id cfg.networkId) auth

/-- What `project_runtime` does to the cache. -/
def projectRuntime : AuthCache :=
  let auth := m.snapshotMembers.foldl
    (fun auth member =>
      if member.status ≠ "kicked" then auth.insert member.endpointId cfg.networkId else auth) auth
  -- whoever is neither a member nor revoked stays in the cache
  evictRevokedFromAuth cfg m auth

end DocsMembership

/-! ### One network and the cache as a machine -/

/-- The membership of one network and the cache it is projected to. -/
structure Runtime where
  docs : DocsMembership
  auth : AuthCache

inductive RuntimeCall (β : Type)
  | rebuild (view : View β) (doc : Doc β)
  | kick (endpointId : String) (doc : Doc β)
  | project

inductive RuntimeReply
  | rebuilt (result : Except RebuildError Unit)
  | kicked (result : Except MembershipError Unit)
  | projected

/-- The document is shared with others, so each call takes it as it is then. -/
def Runtime.step {β : Type} (c : Signing) (j : Serde β) (cfg : DocsConfig) (s : Runtime) :
    RuntimeCall β → Runtime × RuntimeReply
  | .rebuild view doc =>
    let (docs, result) := rebuildFromDoc c j cfg view doc s.docs
    ({ s with docs }, .rebuilt result)
  | .kick endpointId doc =>
    match kickPeer c j cfg endpointId s.docs doc with
    | .error e => (s, .kicked (.error e))
    | .ok (docs, _) => ({ s with docs }, .kicked (.ok ()))
  | .project => ({ s with auth := s.docs.projectRuntime cfg s.auth }, .projected)

end Tunnet.Direct

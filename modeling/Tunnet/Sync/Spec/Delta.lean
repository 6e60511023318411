import Tunnet.Routing.Spec.Directory
import Tunnet.Sync.Membership

/-!
# Deltas and the snapshots they stand for

A delta stands for the snapshot of the membership with the removed peers taken out and the added
ones put in (`NetworkMembershipSnapshot.patch`). After the delta the routing table has the peers
that it has after this snapshot, but for the node itself (`patchPeers_membershipPeers`): a snapshot
puts the node in and a delta takes it out. The answers are therefore the same exactly when the
snapshot does not put it in either (`delta_eq_snapshot_iff`).
-/

namespace Tunnet.Sync

open List
open Policy (PolicyBundle)
open Routing

/-- The membership with the peers of a delta added and removed. -/
def NetworkMembershipSnapshot.patch (delta : SnapshotDelta)
    (membership : NetworkMembershipSnapshot) : NetworkMembershipSnapshot :=
  { membership with
    ipv4Peers := delta.added.foldl (fun peers p => putPeer p peers)
      (membership.ipv4Peers.filter fun p => !delta.removed.contains p.endpointId)
    version := delta.version }

/-- The tables give the same answers; a name may have several, depending on the order in which the
peers are gone through. -/
structure SameAnswers (t t' : Tables) : Prop where
  lookupIp : ∀ ip, t.lookupIp ip = t'.lookupIp ip
  lookupEndpoint : ∀ hex, t.lookupEndpoint hex = t'.lookupEndpoint hex
  lookupHostname : ∀ host, t.lookupHostname host = t'.lookupHostname host
  lookupHostnameRoute : ∀ host, t.lookupHostnameRoute host = t'.lookupHostnameRoute host
  resolveDnsA : ∀ name answer, (∃ order, t.Iterates order ∧ t.resolveDnsA order name = answer) ↔
    ∃ order, t'.Iterates order ∧ t'.resolveDnsA order name = answer
  resolveDnsTxt : ∀ name answer,
    (∃ order, t.Iterates order ∧ t.resolveDnsTxt order name = answer) ↔
      ∃ order, t'.Iterates order ∧ t'.resolveDnsTxt order name = answer
  resolveDnsPtr : ∀ ip, t.resolveDnsPtr ip = t'.resolveDnsPtr ip

theorem SameAnswers.refl (t : Tables) : SameAnswers t t :=
  ⟨fun _ => rfl, fun _ => rfl, fun _ => rfl, fun _ => rfl, fun _ _ => .rfl, fun _ _ => .rfl,
    fun _ => rfl⟩

/-! ### The list of peers -/

section

variable {self : String}

theorem filter_putPeer (p : PeerEntry) (peers : List PeerEntry) :
    (putPeer p peers).filter (·.endpointId != self) =
      if p.endpointId = self then peers.filter (·.endpointId != self)
      else putPeer p (peers.filter (·.endpointId != self)) := by
  induction peers with
  | nil =>
    by_cases hp : p.endpointId = self
    · simp [putPeer, hp]
    · simp [putPeer, hp]
  | cons q peers ih =>
    rw [putPeer]
    by_cases hsame : q.endpointId = p.endpointId
    · by_cases hp : p.endpointId = self
      · simp [hsame, hp]
      · simp [putPeer, hsame, hp]
    · rw [if_neg hsame]
      by_cases hq : q.endpointId = self
      · simp [hq, ih]
      · simp only [filter_cons, bne_iff_ne.2 hq, if_true, ih]
        split_ifs
        · rfl
        · rw [putPeer, if_neg hsame]

theorem filter_foldl_putPeer (added peers : List PeerEntry) :
    (added.foldl (fun peers p => putPeer p peers) peers).filter (·.endpointId != self) =
      (added.filter (·.endpointId != self)).foldl (fun peers p => putPeer p peers)
        (peers.filter (·.endpointId != self)) := by
  induction added generalizing peers with
  | nil => rfl
  | cons p added ih =>
    rw [foldl_cons, ih, filter_putPeer]
    by_cases hself : p.endpointId = self
    · rw [if_pos hself, filter_cons_of_neg (by simp [hself])]
    · rw [if_neg hself, filter_cons_of_pos (by simp [hself]), foldl_cons]

variable (membership : NetworkMembershipSnapshot) (self selfHostname : String)

/-- The node itself is put in if it has a name and is not listed. -/
theorem membershipPeers_eq : ∃ own, membershipPeers membership self selfHostname =
      membership.ipv4Peers ++ own ∧ (∀ p ∈ own, p.endpointId = self) ∧
      (own = [] ↔ (membership.selfHostname = "" ∧ selfHostname = "") ∨
        ∃ p ∈ membership.ipv4Peers, p.endpointId = self) := by
  have hname : (if membership.selfHostname ≠ "" then membership.selfHostname else selfHostname) =
      "" ↔ membership.selfHostname = "" ∧ selfHostname = "" := by
    split_ifs with h
    · simp [h]
    · simp [not_not.1 h]
  unfold membershipPeers
  dsimp only
  rw [← hname]
  generalize (if membership.selfHostname ≠ "" then membership.selfHostname else selfHostname) =
    hostname
  split_ifs with hpush
  · refine ⟨_, rfl, by simp, ?_⟩
    simpa using hpush
  · refine ⟨[], (append_nil _).symm, nofun, ?_⟩
    simpa [imp_iff_not_or] using hpush

theorem filter_membershipPeers (keep : PeerEntry → Bool) :
    (membershipPeers membership self selfHostname).filter
        (fun p => p.endpointId != self && keep p) =
      membership.ipv4Peers.filter fun p => p.endpointId != self && keep p := by
  obtain ⟨own, heq, hself, -⟩ := membershipPeers_eq membership self selfHostname
  have hown : own.filter (fun p => p.endpointId != self && keep p) = [] := by
    rw [filter_eq_nil_iff]
    intro p hp
    simp [hself p hp]
  rw [heq, filter_append, hown, append_nil]

/-- A delta leaves the peers of the snapshot that it stands for, without the node itself. -/
theorem patchPeers_membershipPeers (delta : SnapshotDelta) :
    patchPeers self delta.added delta.removed (membershipPeers membership self selfHostname) =
      (membershipPeers (membership.patch delta) self selfHostname).filter
        (·.endpointId != self) := by
  have hpatched := filter_membershipPeers (membership.patch delta) self selfHostname fun _ => true
  simp only [Bool.and_true] at hpatched
  rw [hpatched, NetworkMembershipSnapshot.patch, filter_foldl_putPeer, patchPeers,
    filter_membershipPeers, filter_filter]

theorem forall_membershipPeers_ne :
    (∀ p ∈ membershipPeers membership self selfHostname, p.endpointId ≠ self) ↔
      membership.selfHostname = "" ∧ selfHostname = "" ∧
        ∀ p ∈ membership.ipv4Peers, p.endpointId ≠ self := by
  obtain ⟨own, heq, hself, hempty⟩ := membershipPeers_eq membership self selfHostname
  rw [heq]
  constructor
  · intro h
    have hlisted (p) (hp : p ∈ membership.ipv4Peers) := h p (mem_append_left _ hp)
    have hown : own = [] := eq_nil_iff_forall_not_mem.2 fun p hp =>
      h p (mem_append_right _ hp) (hself p hp)
    obtain ⟨hname, hname'⟩ := (hempty.1 hown).resolve_right fun ⟨p, hp, heq⟩ => hlisted p hp heq
    exact ⟨hname, hname', hlisted⟩
  · rintro ⟨hname, hname', hlisted⟩
    rw [hempty.2 (.inl ⟨hname, hname'⟩), append_nil]
    exact hlisted

end

/-! ### The tables -/

/-- The slice of a membership. -/
def NetworkMembershipSnapshot.slice (membership : NetworkMembershipSnapshot)
    (self selfHostname : String) : NetworkSlice where
  peers := membershipPeers membership self selfHostname
  subnetRoutes := membership.subnetRoutes
  hostnameRoutes := membership.hostnameRoutes
  exitNodes := membership.exitNodes
  profile := membership.deviceProfile
  dnsSuffix := membership.dnsSuffix
  networkName := Str.toAsciiLowercase membership.networkName
  selfEndpointId := self
  peerCidr := none

variable {parse : String → Option EndpointId}

section

variable {networkId : Uuid} {slice : NetworkSlice} {version : UInt64}

/-- Peers whose endpoint id does not parse make no difference. -/
theorem rebuild_filter (keep : PeerEntry → Bool)
    (hskip : ∀ p ∈ slice.peers, keep p = false → parse p.endpointId = none) :
    rebuild parse [(networkId, { slice with peers := slice.peers.filter keep })] version =
      rebuild parse [(networkId, slice)] version := by
  have hfold (acc) :
      (slice.peers.filter keep).foldl (addPeer parse networkId slice) acc =
        slice.peers.foldl (addPeer parse networkId slice) acc := by
    rw [foldl_filter]
    refine foldl_ext _ _ _ fun acc p hp => ?_
    by_cases hkeep : keep p
    · rw [if_pos hkeep]
    · rw [if_neg hkeep, addPeer, hskip p hp (Bool.eq_false_iff.2 hkeep)]
  have hslice : addSlice parse networkId { slice with peers := slice.peers.filter keep } .empty =
      addSlice parse networkId slice .empty := by
    exact congrArg (fun acc =>
      addRoutes parse networkId slice acc.2 acc.1) (hfold _)
  unfold rebuild
  rw [foldl_cons, foldl_cons, hslice]

theorem lookupEndpoint_rebuild (id : String) :
    (rebuild parse [(networkId, slice)] version).lookupEndpoint id =
      (parse id).bind fun endpoint =>
        (slice.peers.find? (·.endpointId = id)).map fun p => p.info networkId slice endpoint := by
  rw [Tables.lookupEndpoint, lookup_byEndpoint_rebuild, infosOf, flatMap_singleton,
    NetworkSlice.infos]
  induction slice.peers with
  | nil => simp
  | cons p peers ih =>
    rw [filterMap_cons]
    by_cases hid : p.endpointId = id
    · subst hid
      cases hparse : parse p.endpointId with
      | none => simpa [hparse] using ih
      | some => simp [PeerEntry.info]
    · cases hparse : parse p.endpointId with
      | none => simpa [hid] using ih
      | some => simpa [hid, PeerEntry.info] using ih

end

variable {ε Key : Type} {V : PolicyVerifier ε Key} {membership : NetworkMembershipSnapshot}
  {orgPolicy : PolicyBundle} {key : Option String} {orgVersion : UInt64}
  {self selfHostname name : String} {delta : SnapshotDelta} {s₀ s s₁ : ManagedRevisions × Dataplane}

theorem applyMembership_eq_true : applyMembership V parse membership orgPolicy key orgVersion self
      selfHostname s₀ = (s, true) ↔
    verifyPolicies V membership.policy orgPolicy key ∧
      ¬(orgVersion < s₀.1.org ∨ membership.version < s₀.1.network) ∧
      s = (⟨orgVersion, membership.version⟩,
        { routes := s₀.2.routes.rebuild parse
            [(membership.networkId, membership.slice self selfHostname)] (some membership.version)
          acl := (s₀.2.acl.replaceBundle
            (Policy.mergePolicyBundles orgPolicy membership.policy)).replaceSelfTags
              membership.selfTags }) := by
  unfold applyMembership ManagedRevisions.applySnapshot
  cases verifyPolicies V membership.policy orgPolicy key with
  | false => simp
  | true =>
    simp only [Bool.not_true, Bool.false_eq_true, if_false]
    split_ifs with hold
    · simp [hold]
    · simp only [hold, not_false_eq_true, true_and, Prod.mk.injEq, and_true]
      exact eq_comm

theorem patchSlice_slice
    (hname : name = "" ∨ name = Str.toAsciiLowercase membership.networkName) :
    RoutingTable.patchSlice delta.added delta.removed self name
      (membership.slice self selfHostname) =
      { (membership.patch delta).slice self selfHostname with
        peers := ((membership.patch delta).slice self selfHostname).peers.filter
          (·.endpointId != self) } := by
  have hkept : (if name = "" then Str.toAsciiLowercase membership.networkName
      else Str.toAsciiLowercase name) = Str.toAsciiLowercase membership.networkName := by
    split_ifs with hempty
    · rfl
    · rw [hname.resolve_left hempty, Str.toAsciiLowercase_idem]
  unfold RoutingTable.patchSlice NetworkMembershipSnapshot.slice
  rw [hkept, patchPeers_membershipPeers]
  rfl

/-- When a delta is equivalent to the snapshot it stands for: exactly when this snapshot does not
put the node itself in the tables. -/
theorem delta_eq_snapshot_iff
    (hsnapshot : applyMembership V parse membership orgPolicy key orgVersion self selfHostname s₀ =
      (s, true))
    (hdelta : applyDelta parse delta self membership.networkId s.2.routes.tables.networkName s =
      (s₁, true)) :
    ∃ s₂, applyMembership V parse (membership.patch delta) orgPolicy key orgVersion self
        selfHostname s = (s₂, true) ∧
      (SameAnswers s₁.2.routes.tables s₂.2.routes.tables ↔
        parse self = none ∨ membership.selfHostname = "" ∧ selfHostname = "" ∧
          ∀ p ∈ (membership.patch delta).ipv4Peers, p.endpointId ≠ self) := by
  obtain ⟨hverified, -, rfl⟩ := applyMembership_eq_true.1 hsnapshot
  unfold applyDelta ManagedRevisions.applyDelta at hdelta
  split_ifs at hdelta with hold
  · cases hdelta
  obtain ⟨rfl, -⟩ := Prod.mk.inj hdelta
  refine ⟨_, applyMembership_eq_true.2 ⟨hverified, ?_, rfl⟩, ?_⟩
  · rintro (h | h)
    · exact absurd h (UInt64.lt_irrefl orgVersion)
    · exact hold h
  -- Both tables are rebuilt from the slice of the new membership, with and without the node itself.
  have hname : (rebuild parse [(membership.networkId, membership.slice self selfHostname)]
      membership.version).networkName = "" ∨ _ := networkName_rebuild
  simp only [mem_singleton, exists_eq_left] at hname
  simp only [RoutingTable.applyPeerDelta, RoutingTable.rebuild, any_cons, beq_self_eq_true,
    Bool.true_or, if_true, map_cons, map_nil, patchSlice_slice hname, Option.getD_some]
  refine trans ?_
    (or_congr_right (forall_membershipPeers_ne (membership.patch delta) self selfHostname))
  constructor
  · intro hsame
    have hself := hsame.lookupEndpoint self
    have hgone (l : List PeerEntry) :
        (l.filter (·.endpointId != self)).find? (·.endpointId = self) = none := by simp
    rw [lookupEndpoint_rebuild, lookupEndpoint_rebuild, hgone] at hself
    refine or_iff_not_imp_left.2 fun hparse => ?_
    obtain ⟨endpoint, hendpoint⟩ := Option.ne_none_iff_exists'.1 hparse
    rw [hendpoint] at hself
    intro p hp
    simpa using find?_eq_none.1 (Option.map_eq_none_iff.1 hself.symm) p hp
  · intro hnone
    rw [rebuild_filter (·.endpointId != self) fun p hp hdrop => ?_]
    · exact .refl _
    · have hself : p.endpointId = self := by simpa using hdrop
      exact hself ▸ hnone.resolve_right fun h => h p hp hself

namespace Demo

def verifier : PolicyVerifier Unit Unit :=
  ⟨fun _ => none, fun _ => none, fun _ => .error (), fun _ => none, fun _ _ _ => false⟩

def parseId (id : String) : Option EndpointId := some (id.toList.map fun c => c.toNat.toUInt8)

def peer (ip : Ipv4Addr) (name : String) : PeerEntry := ⟨ip, name, name, [], none⟩

/-- A network with the members, in which the node has the name. -/
def office (peers : List PeerEntry) (selfHostname : String) : NetworkMembershipSnapshot where
  networkId := 1
  networkName := "office"
  assignedIpv4 := 7
  ipv4Peers := peers
  subnetRoutes := []
  hostnameRoutes := []
  dnsSuffix := "tunnet"
  exitNodes := []
  deviceProfile := .default
  selfTags := []
  selfHostname := selfHostname
  policy := .default
  version := 1

/-- The node `aa` before the first snapshot. -/
def started : ManagedRevisions × Dataplane :=
  (⟨0, 0⟩, ⟨.new, .new ⟨"aa", 7, [], "office"⟩ .default⟩)

/-- The snapshot of a membership. -/
def take (m : NetworkMembershipSnapshot) (s : ManagedRevisions × Dataplane) :
    (ManagedRevisions × Dataplane) × Bool :=
  applyMembership verifier parseId m .default none 1 "aa" "" s

/-- A delta without peers. -/
def noPeers : SnapshotDelta := ⟨[], [], 2⟩

/-- After a delta without peers the node does not find its own name any more. -/
theorem own_name_lost : let s := (take (office [] "me") started).1
    let s₁ := applyDelta parseId noPeers "aa" 1 s.2.routes.tables.networkName s
    let s₂ := take ((office [] "me").patch noPeers) s
    s₁.2 ∧ s₂.2 ∧ s₁.1.2.routes.tables.lookupHostname "me" = none ∧
      (s₂.1.2.routes.tables.lookupHostname "me").map (·.ip) = some 7 ∧
      ¬ SameAnswers s₁.1.2.routes.tables s₂.1.2.routes.tables := by
  intro s s₁ s₂
  have hdelta : s₁.1.2.routes.tables.lookupHostname "me" = none := by decide
  have hsnapshot : (s₂.1.2.routes.tables.lookupHostname "me").map (·.ip) = some 7 := by
    decide
  refine ⟨by decide, by decide, hdelta, hsnapshot, fun hsame => ?_⟩
  rw [← hsame.lookupHostname] at hsnapshot
  cases hsnapshot

/-- The members `bb` and `cc`. -/
def members : NetworkMembershipSnapshot := office [peer 8 "bb", peer 9 "cc"] ""

/-- `bb` leaves, and `dd` joins with its address. -/
def exchange : SnapshotDelta := ⟨[peer 8 "dd"], ["bb"], 2⟩

/-- A node without a name gets the same answers when one peer takes the place of another. -/
theorem delta_eq_snapshot_iff_exchange : let s := (take members started).1
    let s₁ := (applyDelta parseId exchange "aa" 1 s.2.routes.tables.networkName s).1
    (s.2.routes.tables.lookupIp 8).map (·.hostname) = some "bb" ∧
      (s₁.2.routes.tables.lookupIp 8).map (·.hostname) = some "dd" ∧
      ∃ s₂, take (members.patch exchange) s = (s₂, true) ∧
        SameAnswers s₁.2.routes.tables s₂.2.routes.tables := by
  intro s s₁
  have hsnapshot : applyMembership verifier parseId members .default none 1 "aa" "" started =
      (s, true) := rfl
  have hdelta : applyDelta parseId exchange "aa" members.networkId
      s.2.routes.tables.networkName s = (s₁, true) := rfl
  obtain ⟨s₂, htake, hsame⟩ := delta_eq_snapshot_iff hsnapshot hdelta
  exact ⟨by decide, by decide, s₂, htake, hsame.2 (.inr ⟨rfl, rfl, by decide⟩)⟩

end Demo

end Tunnet.Sync

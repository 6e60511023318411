import Tunnet.Sync.Spec.Delta

/-!
# Revisions that were taken over

The revisions of a node only move forward, and a message that is refused changes nothing. A delta
whose revision is taken over has its effect on the tables only if there is something to apply it to:
before the first snapshot that was verified the node has no slice, and the delta is skipped.
-/

namespace Tunnet.Sync

open List
open Policy (PolicyBundle)
open Routing

/-- The tables have the peer as the entry says. -/
def HasPeer (t : Tables) (p : PeerEntry) : Prop :=
  ∃ info, t.lookupEndpoint p.endpointId = some info ∧
    (info.ip, info.hostname, info.tags, info.sshHostKey) = (p.ip, p.hostname, p.tags, p.sshHostKey)

/-- The tables have the peers that the delta adds, and none of those that it removes. -/
structure Reflects (delta : SnapshotDelta) (t : Tables) : Prop where
  added : ∀ p ∈ delta.added, HasPeer t p
  removed : ∀ id ∈ delta.removed, t.lookupEndpoint id = none

/-- The delta can be applied: the node has a slice unless no peer is added; and the added peers are
other nodes with valid ids, each listed once and not removed. -/
structure Applicable (parse : String → Option EndpointId) (selfEndpointId : String)
    (delta : SnapshotDelta) (rt : RoutingTable) : Prop where
  slice : delta.added = [] ∨ rt.slices ≠ []
  added : ∀ p ∈ delta.added, p.endpointId ≠ selfEndpointId ∧ parse p.endpointId ≠ none ∧
    p.endpointId ∉ delta.removed ∧ ∀ q ∈ delta.added, q.endpointId = p.endpointId → q = p

/-! ### What a delta leaves -/

theorem find?_putPeer (p : PeerEntry) (peers : List PeerEntry) (id : String) :
    (putPeer p peers).find? (·.endpointId = id) =
      if p.endpointId = id then some p else peers.find? (·.endpointId = id) := by
  induction peers with
  | nil => by_cases hp : p.endpointId = id <;> simp [putPeer]
  | cons q peers ih =>
    rw [putPeer]
    by_cases hsame : q.endpointId = p.endpointId
    · by_cases hp : p.endpointId = id <;> simp [hsame, hp]
    · rw [if_neg hsame, find?_cons, ih]
      by_cases hq : q.endpointId = id
      · have hp : p.endpointId ≠ id := fun hp => hsame (hq.trans hp.symm)
        simp [hq, hp]
      · simp [hq]

/-- The last entry that is put in for an endpoint is found. -/
theorem find?_foldl_putPeer (added peers : List PeerEntry) (id : String) :
    (added.foldl (fun peers p => putPeer p peers) peers).find? (·.endpointId = id) =
      (added.reverse.find? (·.endpointId = id)).or (peers.find? (·.endpointId = id)) := by
  induction added generalizing peers with
  | nil => rfl
  | cons p added ih =>
    rw [foldl_cons, ih, find?_putPeer]
    by_cases hp : p.endpointId = id <;> simp [hp]

theorem find?_filter_endpointId (keep : String → Bool) (peers : List PeerEntry) (id : String) :
    (peers.filter (keep ·.endpointId)).find? (·.endpointId = id) =
      if keep id then peers.find? (·.endpointId = id) else none := by
  rw [find?_filter]
  have hcongr (p : PeerEntry) : decide (keep p.endpointId ∧ decide (p.endpointId = id)) =
      (keep id && decide (p.endpointId = id)) := by
    by_cases hp : p.endpointId = id <;> simp [hp]
  simp only [hcongr]
  cases keep id <;> simp

theorem find?_patchPeers (self : String) (added peers : List PeerEntry) (removed : List String)
    (id : String) : (patchPeers self added removed peers).find? (·.endpointId = id) =
      if id = self then none
      else (added.reverse.find? (·.endpointId = id)).or
        (if id ∈ removed then none else peers.find? (·.endpointId = id)) := by
  unfold patchPeers
  rw [find?_foldl_putPeer, ← filter_reverse, find?_filter_endpointId (· != self),
    find?_filter_endpointId fun id => id != self && !removed.contains id]
  by_cases hself : id = self
  · simp [hself]
  · by_cases hremoved : id ∈ removed <;> simp [hself]

variable {parse : String → Option EndpointId} {id self : String}

section

variable {networkId : Uuid} {slice : NetworkSlice} {version : UInt64}

theorem hasPeer_iff {p : PeerEntry} : HasPeer (rebuild parse [(networkId, slice)] version) p ↔
    parse p.endpointId ≠ none ∧ slice.peers.find? (·.endpointId = p.endpointId) = some p := by
  rw [HasPeer, lookupEndpoint_rebuild]
  cases parse p.endpointId with
  | none => simp
  | some =>
    simp only [Option.bind_some, Option.map_eq_some_iff, ne_eq, reduceCtorEq, not_false_eq_true,
      true_and]
    constructor
    · rintro ⟨_, ⟨q, hq, rfl⟩, heq⟩
      have hid : q.endpointId = p.endpointId := by simpa using find?_some hq
      rw [PeerEntry.info] at heq
      cases q
      cases p
      simp_all
    · exact fun h => ⟨_, ⟨p, h, rfl⟩, rfl⟩

theorem lookupEndpoint_eq_none_iff :
    (rebuild parse [(networkId, slice)] version).lookupEndpoint id = none ↔
      parse id = none ∨ slice.peers.find? (·.endpointId = id) = none := by
  rw [lookupEndpoint_rebuild]
  cases parse id <;> simp

theorem reflects_iff {delta : SnapshotDelta} {peers : List PeerEntry}
    (hpeers : slice.peers = patchPeers self delta.added delta.removed peers) :
    Reflects delta (rebuild parse [(networkId, slice)] version) ↔
      ∀ p ∈ delta.added, p.endpointId ≠ self ∧ parse p.endpointId ≠ none ∧
        p.endpointId ∉ delta.removed ∧ ∀ q ∈ delta.added, q.endpointId = p.endpointId → q = p := by
  constructor
  · intro h p hp
    obtain ⟨hparse, hfind⟩ := hasPeer_iff.1 (h.added p hp)
    refine ⟨fun hself => ?_, hparse, fun hid => ?_, fun q hq heq => ?_⟩
    · rw [hpeers, find?_patchPeers, if_pos hself] at hfind
      cases hfind
    · have hgone := (lookupEndpoint_eq_none_iff.1 (h.removed _ hid)).resolve_left hparse
      rw [hgone] at hfind
      cases hfind
    · have hfind' := (hasPeer_iff.1 (h.added q hq)).2
      rw [heq, hfind] at hfind'
      exact (Option.some.inj hfind').symm
  · intro h
    refine ⟨fun p hp => hasPeer_iff.2 ⟨(h p hp).2.1, ?_⟩, fun id hid => ?_⟩
    · -- The last entry for the endpoint is the entry itself.
      obtain ⟨hself, -, -, hone⟩ := h p hp
      obtain ⟨q, hq⟩ : ∃ q, delta.added.reverse.find? (·.endpointId = p.endpointId) = some q :=
        Option.isSome_iff_exists.1 (find?_isSome.2 ⟨p, mem_reverse.2 hp, decide_eq_true rfl⟩)
      have heq : q = p := hone q (mem_reverse.1 (mem_of_find?_eq_some hq))
        (by simpa using find?_some hq)
      rw [hpeers, find?_patchPeers, if_neg hself, hq, heq]
      rfl
    · refine lookupEndpoint_eq_none_iff.2 (.inr ?_)
      have hnone : delta.added.reverse.find? (·.endpointId = id) = none := by
        refine find?_eq_none.2 fun p hp heq => ?_
        have heq : p.endpointId = id := by simpa using heq
        exact (h p (mem_reverse.1 hp)).2.2.1 (heq ▸ hid)
      rw [hpeers, find?_patchPeers, hnone]
      simp [hid]

end

/-! ### The node -/

variable {ε Key : Type} {V : PolicyVerifier ε Key} {cfg : NodeConfig}

/-- The tables are those of the slice of the network, if there is one. -/
def Managed (parse : String → Option EndpointId) (networkId : Uuid) (rt : RoutingTable) : Prop :=
  ∃ slices version, rt = ⟨slices, rebuild parse slices version⟩ ∧
    (slices = [] ∨ ∃ slice, slices = [(networkId, slice)])

/-- A message is refused, or it is taken over: its revisions are not older, and it leads to one
slice or, if it is a delta, changes the one there is. -/
theorem handle_cases (s : ManagedRevisions × Dataplane) (m : ServerMsg) :
    cfg.handle V parse s m = (s, false) ∨
    ∃ s', cfg.handle V parse s m = (s', true) ∧ s.1.org ≤ s'.1.org ∧ s.1.network ≤ s'.1.network ∧
      ((∀ delta, m ≠ .delta delta) ∧ (∃ slice version, s'.2.routes =
          s.2.routes.rebuild parse [(cfg.networkId, slice)] (some version)) ∨
        ∃ delta, m = .delta delta ∧ s'.2.routes = s.2.routes.applyPeerDelta parse cfg.networkId
          delta.added delta.removed delta.version cfg.selfEndpointId
          s.2.routes.tables.networkName) := by
  have hleave (org) (network) : cfg.leave parse org network s = (s, false) ∨
      ∃ s', cfg.leave parse org network s = (s', true) ∧ s.1.org ≤ s'.1.org ∧
        s.1.network ≤ s'.1.network ∧ ∃ slice version, s'.2.routes =
          s.2.routes.rebuild parse [(cfg.networkId, slice)] (some version) := by
    unfold NodeConfig.leave ManagedRevisions.acceptAbsence
    split_ifs with hold
    · exact .inl rfl
    · rw [not_or, UInt64.not_lt, UInt64.not_lt] at hold
      exact .inr ⟨_, rfl, hold.1, hold.2, _, _, rfl⟩
  cases m with
  | delta delta =>
    unfold NodeConfig.handle applyDelta ManagedRevisions.applyDelta
    dsimp only
    split_ifs with hold
    · exact .inl rfl
    · exact .inr ⟨_, rfl, UInt64.le_refl _, UInt64.not_lt.1 hold, .inr ⟨delta, rfl, rfl⟩⟩
  | membershipRevoked networkId org network =>
    unfold NodeConfig.handle
    dsimp only
    split_ifs
    · exact .inl rfl
    · exact (hleave org network).imp_right fun ⟨s', h, ho, hn, hs⟩ =>
        ⟨s', h, ho, hn, .inl ⟨nofun, hs⟩⟩
  | snapshot =>
    unfold NodeConfig.handle
    dsimp only
    split
    · rename_i m hm
      have hid : m.networkId = cfg.networkId := by simpa using find?_some hm
      unfold applyMembership ManagedRevisions.applySnapshot
      split_ifs with hbad hold
      · exact .inl rfl
      · exact .inl rfl
      · rw [not_or, UInt64.not_lt, UInt64.not_lt] at hold
        refine .inr ⟨_, rfl, hold.1, hold.2, .inl ⟨nofun,
          m.slice cfg.selfEndpointId cfg.selfHostname, m.version, ?_⟩⟩
        rw [← hid]
        rfl
    · split
      · exact (hleave _ _).imp_right fun ⟨s', h, ho, hn, hs⟩ => ⟨s', h, ho, hn, .inl ⟨nofun, hs⟩⟩
      · exact .inl rfl

/-- The state after some messages. -/
def NodeConfig.run (V : PolicyVerifier ε Key) (parse : String → Option EndpointId)
    (cfg : NodeConfig) (s : ManagedRevisions × Dataplane) (msgs : List ServerMsg) :
    ManagedRevisions × Dataplane :=
  msgs.foldl (fun s m => (cfg.handle V parse s m).1) s

theorem Managed.applyPeerDelta {rt : RoutingTable} {networkId : Uuid}
    (h : Managed parse networkId rt) (delta : SnapshotDelta) (self name : String) :
    Managed parse networkId
        (rt.applyPeerDelta parse networkId delta.added delta.removed delta.version self name) ∧
      (Reflects delta (rt.applyPeerDelta parse networkId delta.added delta.removed delta.version
        self name).tables ↔ Applicable parse self delta rt) := by
  obtain ⟨slices, version, rfl, rfl | ⟨slice, rfl⟩⟩ := h
  · -- There is no slice, and the delta is skipped.
    have hnone (id) : (rebuild parse [] version).lookupEndpoint id = none :=
      lookup_byEndpoint_rebuild parse [] version id
    refine ⟨⟨[], version, rfl, .inl rfl⟩, fun h => ?_, fun h => ?_⟩
    · have hempty : delta.added = [] := eq_nil_iff_forall_not_mem.2 fun p hp => by
        obtain ⟨info, hinfo, -⟩ := h.added p hp
        cases (hnone _).symm.trans hinfo
      exact ⟨.inl hempty, hempty ▸ nofun⟩
    · have hempty : delta.added = [] := h.slice.resolve_right fun h => h rfl
      exact ⟨hempty ▸ nofun, fun id _ => hnone id⟩
  · have happlied : (RoutingTable.mk [(networkId, slice)]
          (rebuild parse [(networkId, slice)] version)).applyPeerDelta parse networkId delta.added
          delta.removed delta.version self name =
        ⟨[(networkId, RoutingTable.patchSlice delta.added delta.removed self name slice)],
          rebuild parse [(networkId, RoutingTable.patchSlice delta.added delta.removed self name
            slice)] delta.version⟩ := by
      simp [RoutingTable.applyPeerDelta, RoutingTable.rebuild]
    rw [happlied]
    refine ⟨⟨_, _, rfl, .inr ⟨_, rfl⟩⟩, (reflects_iff rfl).trans
      ⟨fun h => ⟨.inr ?_, h⟩, fun h => h.2⟩⟩
    exact cons_ne_nil _ _

theorem Managed.handle {s : ManagedRevisions × Dataplane}
    (h : Managed parse cfg.networkId s.2.routes) (m : ServerMsg) :
    Managed parse cfg.networkId (cfg.handle V parse s m).1.2.routes := by
  rcases handle_cases s m with hm | ⟨s', hm, -, -, ⟨-, slice, version, hs⟩ | ⟨delta, -, hs⟩⟩
  · rw [hm]
    exact h
  · rw [hm, hs]
    exact ⟨_, _, rfl, .inr ⟨slice, rfl⟩⟩
  · rw [hm, hs]
    exact (h.applyPeerDelta delta _ _).1

/-- Revisions only move forward, a refused message changes nothing, and a delta that moves the
revision of the network has its effect on the tables exactly if it can be applied, in every state
that some messages lead to. -/
theorem revisions_acknowledged (V : PolicyVerifier ε Key) (parse : String → Option EndpointId)
    (cfg : NodeConfig) (start : ManagedRevisions) (acl : Acl.AclEngine) (msgs : List ServerMsg)
    (m : ServerMsg) : let s := cfg.run V parse (start, ⟨.new, acl⟩) msgs
    let s' := cfg.handle V parse s m
    s.1.org ≤ s'.1.1.org ∧ s.1.network ≤ s'.1.1.network ∧ (s'.2 = false → s'.1 = s) ∧
      ∀ delta, m = .delta delta → s.1.network < s'.1.1.network →
        (Reflects delta s'.1.2.routes.tables ↔
          Applicable parse cfg.selfEndpointId delta s.2.routes) := by
  intro s s'
  have hmanaged : Managed parse cfg.networkId s.2.routes :=
    foldlRecOn msgs _ (motive := fun s : ManagedRevisions × Dataplane =>
      Managed parse cfg.networkId s.2.routes) ⟨[], 0, rfl, .inl rfl⟩ fun s h m _ => h.handle m
  rcases handle_cases s m with hm | ⟨s₁, hm, horg, hnetwork, hroutes⟩
  · have hsame : s'.1 = s := congrArg Prod.fst hm
    rw [hsame]
    exact ⟨UInt64.le_refl _, UInt64.le_refl _, fun _ => rfl,
      fun _ _ hlt => absurd hlt (UInt64.lt_irrefl _)⟩
  · have hs : s' = (s₁, true) := hm
    rw [hs]
    refine ⟨horg, hnetwork, nofun, ?_⟩
    rintro delta rfl -
    rcases hroutes with ⟨hne, -⟩ | ⟨_, hdelta, hroutes⟩
    · exact absurd rfl (hne delta)
    · cases hdelta
      rw [hroutes]
      exact (hmanaged.applyPeerDelta delta _ _).2

namespace Demo

def nodeAa : NodeConfig := ⟨1, "aa", "me"⟩

/-- The peer `bb` comes. -/
def bbComes : SnapshotDelta := ⟨[⟨9, "bb", "pc", [], none⟩], [], 5⟩

/-- Before its first snapshot the node takes over the revision of a delta and skips the peer; the
snapshot it then waits for is refused as older. -/
theorem delta_in_vain : let s := nodeAa.handle verifier parseId started (.delta bbComes)
    s.2 ∧ s.1.1.network = 5 ∧ ¬ Reflects bbComes s.1.2.routes.tables ∧
      (nodeAa.handle verifier parseId s.1
        (.snapshot ⟨1, [office [] "me"], .default, none, fun _ => none⟩)).2 = false := by
  intro s
  refine ⟨by decide, by decide, fun h => ?_, by decide⟩
  obtain ⟨info, hinfo, -⟩ := h.added ⟨9, "bb", "pc", [], none⟩ mem_cons_self
  have hnone : s.1.2.routes.tables.lookupEndpoint "bb" = none := by decide
  cases hnone.symm.trans hinfo

end Demo

end Tunnet.Sync

import Tunnet.Direct.AuthCache
import Tunnet.Direct.Demo
import Tunnet.Util.Run

/-!
# The authorisation cache tracks the membership

A projection adds the members of a network to the cache and takes the revoked endpoints out, so
the cache afterwards is what it was before, with the members, without the revoked
(`containsNetwork_projectRuntime_iff`). As long as the cache lists the members that the last
projection found, the next one makes it exact if and only if the rebuilds and kicks in between took
members out by revoking them (`projection_exact`). Somebody who stops being a member in another
way, because the grant expired or the epoch moved on, stays in the cache (`Demo.expired_stays`).
-/

namespace Tunnet.Direct

open Finset Replica

/-! ### Updates of the cache -/

variable {a : AuthCache} {e : String} {n : Uuid}

namespace AuthCache

variable {e' : String} {n' : Uuid}

theorem containsNetwork_eq_true_iff : a.containsNetwork e n = true ↔ n ∈ a.networksFor e := by
  unfold containsNetwork networksFor
  cases a.inner.lookup e <;> simp

theorem networksFor_insert : (a.insert e n).networksFor e' =
    if e' = e then Insert.insert n (a.networksFor e) else a.networksFor e' := by
  unfold insert
  rw [networksFor, Map.lookup_insert_eq]
  split_ifs <;> rfl

theorem networksFor_removeNetwork : (a.removeNetwork e n).networksFor e' =
    if e' = e then (a.networksFor e).erase n else a.networksFor e' := by
  unfold removeNetwork
  cases hset : a.inner.lookup e with
  | none =>
    have hnone : a.networksFor e = ∅ := by rw [networksFor, hset]; rfl
    split_ifs with he
    · rw [he, hnone, erase_empty]
    · rfl
  | some set =>
    have hsome : a.networksFor e = set := by rw [networksFor, hset]; rfl
    rw [hsome, networksFor]
    dsimp only
    split_ifs with hrest he he
    · -- an endpoint without networks is taken out
      rw [he, Finmap.lookup_erase, hrest]
      rfl
    · rw [Finmap.lookup_erase_ne he]
      rfl
    · rw [he, Finmap.lookup_insert]
      rfl
    · rw [Finmap.lookup_insert_of_ne _ he]
      rfl

theorem containsNetwork_insert_iff : (a.insert e n).containsNetwork e' n' ↔
    a.containsNetwork e' n' ∨ e' = e ∧ n' = n := by
  rw [containsNetwork_eq_true_iff, containsNetwork_eq_true_iff, networksFor_insert]
  split_ifs with he
  · subst he
    rw [mem_insert]
    tauto
  · tauto

theorem containsNetwork_removeNetwork_iff : (a.removeNetwork e n).containsNetwork e' n' ↔
    a.containsNetwork e' n' ∧ ¬ (e' = e ∧ n' = n) := by
  rw [containsNetwork_eq_true_iff, containsNetwork_eq_true_iff, networksFor_removeNetwork]
  split_ifs with he
  · subst he
    rw [mem_erase]
    tauto
  · tauto

end AuthCache

/-! ### Projections -/

variable {cfg : DocsConfig}

namespace DocsMembership

variable {m : DocsMembership}

/-- `e` is the endpoint of a member who was not kicked. -/
def IsMember (m : DocsMembership) (e : String) : Prop :=
  ∃ x entry, m.members.lookup x = some entry ∧ entry.status ≠ "kicked" ∧ entry.endpointId = e

theorem mem_snapshotMembers_iff {entry : MembershipEntry} :
    entry ∈ m.snapshotMembers ↔ ∃ x, m.members.lookup x = some entry := by
  unfold snapshotMembers
  rw [List.mem_mergeSort, List.mem_filterMap]
  refine exists_congr fun x => and_iff_right_of_imp fun hx => ?_
  rw [mem_sort, Finmap.mem_keys, ← Finmap.lookup_isSome, hx]
  rfl

theorem containsNetwork_insertAll_iff (members : List MembershipEntry) :
    (members.foldl (fun auth member =>
        if member.status ≠ "kicked" then auth.insert member.endpointId cfg.networkId else auth)
        a).containsNetwork e n ↔
      a.containsNetwork e n ∨ n = cfg.networkId ∧
        ∃ member ∈ members, member.status ≠ "kicked" ∧ member.endpointId = e := by
  induction members generalizing a with
  | nil => simp
  | cons member members ih =>
    rw [List.foldl_cons, ih]
    split_ifs with hstatus
    · rw [AuthCache.containsNetwork_insert_iff]
      simp only [List.mem_cons, exists_eq_or_imp, hstatus, ne_eq, not_false_eq_true, true_and]
      constructor
      · rintro ((h | ⟨rfl, hn⟩) | ⟨hn, h⟩)
        · exact .inl h
        · exact .inr ⟨hn, .inl rfl⟩
        · exact .inr ⟨hn, .inr h⟩
      · rintro (h | ⟨hn, rfl | h⟩)
        · exact .inl (.inl h)
        · exact .inl (.inr ⟨rfl, hn⟩)
        · exact .inr ⟨hn, h⟩
    · simp [hstatus]

theorem containsNetwork_evictAll_iff (ids : List String) :
    (ids.foldl (fun auth id => auth.removeNetwork id cfg.networkId) a).containsNetwork e n ↔
      a.containsNetwork e n ∧ ¬ (n = cfg.networkId ∧ e ∈ ids) := by
  induction ids generalizing a with
  | nil => simp
  | cons id ids ih =>
    rw [List.foldl_cons, ih, AuthCache.containsNetwork_removeNetwork_iff, List.mem_cons]
    tauto

theorem containsNetwork_projectRuntime_iff :
    (m.projectRuntime cfg a).containsNetwork e cfg.networkId ↔
      (a.containsNetwork e cfg.networkId ∨ m.IsMember e) ∧ e ∉ m.revoked := by
  have hmember : (∃ member ∈ m.snapshotMembers, member.status ≠ "kicked" ∧
      member.endpointId = e) ↔ m.IsMember e := by
    simp only [mem_snapshotMembers_iff]
    constructor
    · rintro ⟨entry, ⟨x, hx⟩, hentry⟩
      exact ⟨x, entry, hx, hentry⟩
    · rintro ⟨x, entry, hx, hentry⟩
      exact ⟨entry, ⟨x, hx⟩, hentry⟩
  unfold projectRuntime evictRevokedFromAuth
  rw [containsNetwork_evictAll_iff, containsNetwork_insertAll_iff, hmember, mem_sort]
  tauto

end DocsMembership

/-! ### Runs -/

/-- The cache lists exactly the members of the network. -/
def Runtime.Exact (cfg : DocsConfig) (s : Runtime) : Prop :=
  ∀ e, s.auth.containsNetwork e cfg.networkId ↔ s.docs.IsMember e

/-- A network and the cache, with the members that the last projection found. -/
structure Traced extends Runtime where
  projected : Set String

section

variable {β : Type} {c : Signing} {j : Serde β}

/-- A call, as `Runtime.step` makes it. -/
def Traced.step (c : Signing) (j : Serde β) (cfg : DocsConfig) (s : Traced) (i : RuntimeCall β) :
    Traced × RuntimeReply :=
  let (runtime, reply) := s.toRuntime.step c j cfg i
  (⟨runtime, match i with
    | .project => {e | s.docs.IsMember e}
    | _ => s.projected⟩, reply)

/-- The cache is new, and no projection was made. -/
def Traced.start (m : DocsMembership) : Traced := ⟨⟨m, .new⟩, ∅⟩

/-- The rebuilds and kicks since the last projection took members out by revoking them: whoever was
a member then is a member or revoked now, and no member is revoked. -/
structure LeftByRevocation (s : Traced) : Prop where
  left : ∀ e ∈ s.projected, s.docs.IsMember e ∨ e ∈ s.docs.revoked
  members : ∀ e, s.docs.IsMember e → e ∉ s.docs.revoked

/-- The cache lists the members that the last projection found. -/
def Traced.Listed (cfg : DocsConfig) (s : Traced) : Prop :=
  ∀ e, s.auth.containsNetwork e cfg.networkId ↔ e ∈ s.projected

theorem Traced.listed_start {m : DocsMembership} : (start m).Listed cfg := by
  intro e
  simp [start, AuthCache.containsNetwork, AuthCache.new]

theorem exact_project_iff {s : Traced} (hlisted : s.Listed cfg) :
    (s.step c j cfg .project).1.Exact cfg ↔ LeftByRevocation s := by
  have hexact : (s.step c j cfg .project).1.Exact cfg ↔ ∀ e,
      ((e ∈ s.projected ∨ s.docs.IsMember e) ∧ e ∉ s.docs.revoked ↔ s.docs.IsMember e) :=
    forall_congr' fun e => by
      rw [← hlisted e, ← DocsMembership.containsNetwork_projectRuntime_iff]
      rfl
  rw [hexact]
  constructor
  · intro h
    refine ⟨fun e hlast => ?_, fun e hmember => ((h e).2 hmember).2⟩
    by_cases hrevoked : e ∈ s.docs.revoked
    · exact .inr hrevoked
    · exact .inl ((h e).1 ⟨.inl hlast, hrevoked⟩)
  · rintro ⟨hleft, hmembers⟩ e
    refine ⟨fun ⟨hold, hrevoked⟩ => ?_, fun hmember => ⟨.inr hmember, hmembers e hmember⟩⟩
    rcases hold with hlast | hmember
    · exact (hleft e hlast).resolve_right hrevoked
    · exact hmember

theorem Traced.step_rebuild {R : Replica c} {a : AuthCache} {p : Set String} {view : View β}
    {doc : Doc β} {o : Except RebuildError Unit} (h : (R.rebuild j view doc).2 = o) :
    step c j R.cfg ⟨⟨R.state, a⟩, p⟩ (.rebuild view doc) =
      (⟨⟨(R.next j view doc).state, a⟩, p⟩, .rebuilt o) := by
  rw [← h, next_state, rebuild]
  simp [step, Runtime.step]

/-- Only projections change the cache, and an exact one lists the members it finds. -/
theorem Traced.Listed.step {s : Traced} (hlisted : s.Listed cfg) {i : RuntimeCall β}
    (hok : i = .project → LeftByRevocation s) : (s.step c j cfg i).1.Listed cfg := by
  cases i with
  | rebuild view doc =>
    unfold Traced.step Runtime.step
    dsimp only
    generalize rebuildFromDoc c j cfg view doc s.docs = r
    exact hlisted
  | kick endpointId doc =>
    unfold Traced.step Runtime.step
    dsimp only
    split <;> exact hlisted
  | project => exact (exact_project_iff hlisted).2 (hok rfl)

/-- The cache tracks the membership. In a run of rebuilds, kicks and projections from a new cache in
which members have left by revocation before every projection, the next projection makes the cache
list exactly the members if and only if this is so again. -/
theorem projection_exact {m : DocsMembership} {s : Traced}
    {h : List (RuntimeCall β × RuntimeReply)}
    (hrun : Run (Traced.step c j cfg) (fun _ s i => i = .project → LeftByRevocation s)
      (.start m) h s) : (s.step c j cfg .project).1.Exact cfg ↔ LeftByRevocation s :=
  exact_project_iff <| hrun.invariant (I := fun _ s => s.Listed cfg) Traced.listed_start
    fun _ _ _ hlisted hok => hlisted.step hok

end

namespace Demo

/-- The document after `aa` was admitted. -/
def admittedDoc : Doc Blob := [admission alpha].map (Issuance.docEntry coordinator serde)

/-- A first rebuild and projection, and a second one after the grant has expired. -/
def expiry : List (RuntimeCall Blob) :=
  [.rebuild (allBlobs 0) admittedDoc, .project, .rebuild (allBlobs grantLifetime) admittedDoc,
    .project]

theorem not_isMember {m : DocsMembership} {e : String} (h : m.members = ∅) : ¬ m.IsMember e := by
  rintro ⟨x, entry, hx, -⟩
  rw [h] at hx
  cases hx

/-- The member whose grant expired is no member any more and stays in the cache. -/
theorem expired_stays :
    let s := (exec (Runtime.step signing serde config) [] ⟨fresh, .new⟩ expiry).2
    s.auth.containsNetwork "aa" config.networkId ∧ ¬ s.docs.IsMember "aa" := by
  intro s
  have hs : s.auth.containsNetwork "aa" config.networkId ∧ s.docs.members = ∅ := by
    decide +kernel
  exact ⟨hs.1, not_isMember hs.2⟩

/-- The replica when `aa` is a member. -/
def withAlpha : Replica signing := replica.next serde (allBlobs 0) admittedDoc

theorem membersIn_admittedDoc :
    replica.membersIn serde (allBlobs 0) admittedDoc = Finmap.singleton "aa" alpha := by
  decide +kernel

theorem rebuild_admittedDoc : (replica.rebuild serde (allBlobs 0) admittedDoc).2 = .ok () := by
  rw [rebuild_ok_iff, membersIn_admittedDoc]
  exact ⟨by decide, by decide⟩

theorem members_withAlpha : withAlpha.state.members = Finmap.singleton "aa" alpha := by
  rw [withAlpha, next_state, rebuild_members_of_ok rebuild_admittedDoc, membersIn_admittedDoc]

theorem revoked_withAlpha : withAlpha.state.revoked = ∅ := by
  rw [withAlpha, next_state, rebuild_revoked_of_not_bad (by decide)]
  decide

theorem eq_of_isMember_withAlpha (h : withAlpha.state.IsMember e) : e = "aa" := by
  obtain ⟨x, entry, hx, -, rfl⟩ := h
  rw [members_withAlpha] at hx
  obtain rfl : x = "aa" := by
    rw [← Finmap.mem_singleton (β := fun _ => MembershipEntry) x "aa" alpha,
      ← Finmap.lookup_isSome, hx]
    rfl
  rw [← Option.some.inj hx]
  rfl

/-- After the first rebuild and projection. -/
def projectedAlpha : Traced :=
  ⟨⟨withAlpha.state, withAlpha.state.projectRuntime config .new⟩, {e | withAlpha.state.IsMember e}⟩

/-- After `aa` was kicked. -/
def kickedAlpha : Traced :=
  ⟨⟨{ withAlpha.state with
      networkEpoch := withAlpha.state.networkEpoch + 1
      revoked := insert "aa" withAlpha.state.revoked
      members := withAlpha.state.members.erase "aa" }, projectedAlpha.auth⟩,
    projectedAlpha.projected⟩

/-- The member `aa` is in the cache after the first projection, is kicked, and is not in the cache
after the second one. -/
theorem projection_exact_kicking : projectedAlpha.auth.containsNetwork "aa" config.networkId ∧
    (kickedAlpha.step signing serde config .project).1.Exact config ∧
    ¬ kickedAlpha.docs.IsMember "aa" := by
  have hfirst : LeftByRevocation ⟨⟨withAlpha.state, .new⟩, ∅⟩ :=
    ⟨fun e he => absurd he (Set.notMem_empty e), fun e _ => revoked_withAlpha ▸ notMem_empty e⟩
  have hmembers : kickedAlpha.docs.members = ∅ := by
    have herase : withAlpha.state.members.erase "aa" = ∅ := by
      rw [members_withAlpha]
      decide
    exact herase
  have hsecond : LeftByRevocation kickedAlpha := by
    refine ⟨fun e he => .inr ?_, fun e he => absurd he (not_isMember hmembers)⟩
    rw [eq_of_isMember_withAlpha he]
    exact mem_insert_self _ _
  have hstep : (Traced.start fresh).step signing serde config (.rebuild (allBlobs 0) admittedDoc) =
      (⟨⟨withAlpha.state, .new⟩, ∅⟩, .rebuilt (.ok ())) :=
    Traced.step_rebuild (R := replica) rebuild_admittedDoc
  have hstep' : Traced.step signing serde config ⟨⟨withAlpha.state, .new⟩, ∅⟩ .project =
      (projectedAlpha, .projected) := rfl
  have hstep'' : projectedAlpha.step signing serde config (.kick "aa" admittedDoc) =
      (kickedAlpha, .kicked (.ok ())) := rfl
  have hrun : Run (Traced.step signing serde config)
      (fun _ s i => i = .project → LeftByRevocation s) (.start fresh) _ kickedAlpha :=
    ((Run.start.call_eq nofun hstep).call_eq (fun _ => hfirst) hstep').call_eq
      (i := RuntimeCall.kick "aa" admittedDoc) nofun hstep''
  refine ⟨?_, (projection_exact hrun).2 hsecond, not_isMember hmembers⟩
  rw [projectedAlpha, DocsMembership.containsNetwork_projectRuntime_iff, revoked_withAlpha]
  refine ⟨.inr ⟨"aa", alpha, ?_, by decide, rfl⟩, notMem_empty _⟩
  rw [members_withAlpha, Finmap.lookup_singleton_eq]

end Demo

end Tunnet.Direct

import Tunnet.Direct.Spec.Authority
import Tunnet.Direct.Demo

/-!
# One-time invites

A one-time invite is bound to the first endpoint that presents it, and an endpoint that was
admitted through it stays bound for good.

* `Follows hash d d'`: what every call keeps of the invite of `hash` when it changes the state from
  `d` to `d'`. It is a preorder, each state update follows (`step_follows`), and so does a run
  (`run_follows`).
* `decideLocked_admitted`: what an admission says of the state before and after it.
-/

namespace Tunnet.Direct

open DirectAuthority

variable {r r' r₁ r₂ r₃ : InviteRecord} {recover : Bool} {o : Outside} {approved : Finset String}
  {p : PendingJoin}

theorem InviteRecord.Follows.trans (h₁ : r₁.Follows r₂) (h₂ : r₂.Follows r₃) : r₁.Follows r₃ where
  reusable := h₂.reusable.trans h₁.reusable
  expiresAt := h₂.expiresAt.trans h₁.expiresAt
  revoked h := h₂.revoked (h₁.revoked h)
  used e honce hclaimed hbound := by
    obtain ⟨hclaimed₂, hbound₂⟩ := h₁.used e honce hclaimed hbound
    exact h₂.used e (h₁.reusable.trans honce) hclaimed₂ hbound₂

/-- The invite of `hash` is still there, and nobody who was denied on it is forgotten. -/
structure Follows (hash : String) (d d' : AuthorityDisk) : Prop where
  record : ∀ r, d.invites.lookup hash = some r →
    ∃ r', d'.invites.lookup hash = some r' ∧ r.Follows r'
  rejected : d.rejectedOn hash ⊆ d'.rejectedOn hash

variable {hash e hostname secret peer : String}

section

variable {d d₁ d₂ : AuthorityDisk}

theorem Follows.refl (hash : String) (d : AuthorityDisk) : Follows hash d d :=
  ⟨fun r hr => ⟨r, hr, .refl r⟩, subset_rfl⟩

theorem Follows.trans (h₁ : Follows hash d d₁) (h₂ : Follows hash d₁ d₂) : Follows hash d d₂ where
  record r hr := by
    obtain ⟨r₁, hr₁, hfollows₁⟩ := h₁.record r hr
    obtain ⟨r₂, hr₂, hfollows₂⟩ := h₂.record r₁ hr₁
    exact ⟨r₂, hr₂, hfollows₁.trans hfollows₂⟩
  rejected := h₁.rejected.trans h₂.rejected

end

/-! ### Decisions -/

variable {A : DirectAuthority} {g g' g₁ : Inner} {c : AuthorityCall}

namespace DirectAuthority

/-- What an admission of `e` through the invite of `hash` says: the invite was there, neither
revoked nor expired, `e` was not denied on it, and if it is a one-time invite, `e` has now used it
up. -/
structure AdmittedThrough (o : Outside) (hash e : String) (g g' : Inner) (entry : MembershipEntry) :
    Prop where
  endpointId : entry.endpointId = e
  invite : ∃ r, g.disk.invites.lookup hash = some r ∧ r.revoked = false ∧ o.now ≤ r.expiresAt ∧
    r.Fits e
  rejected : e ∉ g.disk.rejectedOn hash
  used : ∀ r', g'.disk.invites.lookup hash = some r' → r'.reusable = false →
    r'.claimed ∧ r'.boundEndpoint = some e

section

variable {snapshot : JoinSnapshot} {entry : MembershipEntry}

theorem decideLocked_ok {d : JoinDecision}
    (hres : (A.decideLocked o e hostname secret snapshot g).2 = .ok d)
    (hr : g.disk.invites.lookup (inviteSecretHash A.blake3 secret) = some r) :
    r.revoked = false ∧ o.now ≤ r.expiresAt ∧
      e ∉ g.disk.rejectedOn (inviteSecretHash A.blake3 secret) := by
  unfold decideLocked at hres
  dsimp only at hres
  rw [hr] at hres
  dsimp only at hres
  split_ifs at hres with hrevoked hexpired hkicked hrejected
  · unfold Inner.persistThen at hres
    split_ifs at hres
  · exact ⟨by simpa using hrevoked, not_lt.mp hexpired, hrejected⟩

theorem Decided.used
    (hdecided : Decided A o e hostname snapshot approved r r'
      (.ok (.admitted entry recover))) (honce : r'.reusable = false) :
    r'.claimed ∧ r'.boundEndpoint = some e := by
  cases hdecided with
  | held hres => rcases hres with hres | ⟨_, hres⟩ <;> cases hres
  | recovered =>
    have honce₀ : r.reusable = false := (r.bindTo_reusable e).symm.trans honce
    rw [InviteRecord.bindTo_of_once e honce₀]
    exact ⟨rfl, rfl⟩
  | reserved hnew honce₀ hclaimed =>
    rw [InviteRecord.bindTo_of_once e honce₀]
    exact ⟨hclaimed, rfl⟩
  | admitted =>
    have honce₀ : r.reusable = false := (r.bindTo_reusable e).symm.trans honce
    rw [InviteRecord.bindTo_of_once e honce₀, honce₀]
    exact ⟨Bool.or_true _, rfl⟩

theorem Decided.endpointId
    (hdecided : Decided A o e hostname snapshot approved r r' (.ok (.admitted entry recover))) :
    entry.endpointId = e := by
  cases hdecided with
  | held hres => rcases hres with hres | ⟨_, hres⟩ <;> cases hres
  | recovered hmember hres =>
    rcases hres with hres | hres <;> cases hres
    have he := existingMember_endpointId hmember
    exact he
  | reserved hnew honce hclaimed hip hres => rcases hres with hres | hres <;> cases hres; rfl
  | admitted hnew happroved hip hres => rcases hres with hres | hres <;> cases hres; rfl

theorem decideLocked_admitted
    (hres : (A.decideLocked o e hostname secret snapshot g).2 = .ok (.admitted entry recover)) :
    AdmittedThrough o (inviteSecretHash A.blake3 secret) e g
      (A.decideLocked o e hostname secret snapshot g).1 entry := by
  obtain ⟨r, r', hr, hfits, hinsert, hdecided⟩ :=
    (A.decideLocked_spec o e hostname secret snapshot g).admitted hres
  obtain ⟨hrevoked, hexpires, hrejected⟩ := decideLocked_ok hres hr
  refine ⟨hdecided.endpointId, ⟨r, hr, hrevoked, hexpires, hfits⟩, hrejected, ?_⟩
  intro r₁ hr₁
  rw [hinsert, Finmap.lookup_insert] at hr₁
  cases hr₁
  exact hdecided.used

end

end DirectAuthority

/-! ### Runs -/

theorem DirectAuthority.Touched.follows {old new : Option InviteRecord}
    (h : Touched A c hash old new) (hc : c.Keeps A hash) (hr : old = some r) :
    ∃ r', new = some r' ∧ r.Follows r' := by
  cases h with
  | same => exact ⟨r, hr, .refl r⟩
  | revoked =>
    cases hr
    exact ⟨_, rfl, rfl, rfl, fun _ => rfl, fun _ _ hclaimed hbound => ⟨hclaimed, hbound⟩⟩
  | blank _ _ _ hfollows => exact ⟨_, rfl, hfollows hc r hr⟩
  | confirmed =>
    cases hr
    exact ⟨_, rfl, rfl, rfl, id, fun _ _ _ hbound => ⟨rfl, hbound⟩⟩

theorem InviteRecord.Fits.follows_bindTo (hfits : r.Fits e) : r.Follows (r.bindTo e) := by
  unfold bindTo
  split_ifs
  · exact .refl r
  · exact ⟨rfl, rfl, id, fun e' honce hclaimed hbound =>
      ⟨hclaimed, congrArg some (hfits.eq honce hbound).symm⟩⟩

theorem DirectAuthority.Decided.follows {snapshot : JoinSnapshot} {res : Except String JoinDecision}
    (hdecided : Decided A o e hostname snapshot approved r r' res) (hfits : r.Fits e) :
    r.Follows r' := by
  have hbind := hfits.follows_bindTo
  cases hdecided with
  | held | reserved => exact hbind
  | recovered =>
    refine ⟨hbind.reusable, hbind.expiresAt, hbind.revoked, fun e' honce hclaimed hbound => ?_⟩
    exact ⟨rfl, (hbind.used e' honce hclaimed hbound).2⟩
  | admitted =>
    refine ⟨hbind.reusable, hbind.expiresAt, hbind.revoked, fun e' honce hclaimed hbound => ?_⟩
    exact ⟨by rw [hclaimed, Bool.true_or], (hbind.used e' honce hclaimed hbound).2⟩

theorem step_follows (hc : c.Keeps A hash) : Follows hash g.disk (A.step g c).1.disk := by
  refine A.step_cases g (P := fun c g' _ => c.Keeps A hash → Follows hash g.disk g'.disk)
    False.elim ?_ ?_ c hc
  · intro o e hostname secret snapshot out _ hspec _ _
    refine ⟨fun r hr => ?_, fun e he => ?_⟩
    rotate_left
    · unfold AuthorityDisk.rejectedOn
      rw [hspec.rejected]
      exact he
    rcases hspec.invites with ⟨hsame, -⟩ | ⟨r₀, r', hr₀, hfits, hinsert, hdecided⟩
    · exact ⟨r, hsame ▸ hr, .refl r⟩
    · rw [hinsert, Map.lookup_insert_eq]
      split_ifs with hhash
      · rw [hhash, hr₀] at hr
        cases hr
        exact ⟨r', rfl, hdecided.follows hfits⟩
      · exact ⟨r, hr, .refl r⟩
  · intro c g' _ hspec _ hc
    exact ⟨fun r hr => (hspec.invites hash).follows hc hr, hspec.rejected hash⟩

theorem run_follows {h : AuthorityHistory}
    (hrun : Run A.step (fun _ _ c => c.Keeps A hash) g h g') : Follows hash g.disk g'.disk :=
  hrun.invariant (I := fun _ g' => Follows hash g.disk g'.disk) (.refl hash g.disk)
    fun _ _ _ hfollows hc => hfollows.trans (step_follows hc)

/-- Invites only tighten: as long as the authority goes on and does not draw the secret again, an
invite keeps its kind, its expiry, its revocation and its user, and those denied on it. -/
theorem follows_calls (A : DirectAuthority) (g : Inner)
    (calls : List {c : AuthorityCall // c.Keeps A hash}) :
    Follows hash g.disk (calls.foldl (fun g c => (A.step g c.1).1) g).disk :=
  List.foldlRecOn calls _ (motive := fun g' : Inner => Follows hash g.disk g'.disk)
    (.refl hash g.disk) fun _ hfollows c _ => hfollows.trans (step_follows c.2)

/-! ### What the earlier call leaves behind -/

theorem revokeInviteSecret_revoked
    (hr : g.disk.invites.lookup (inviteSecretHash A.blake3 secret) = some r) :
    ∃ r', (A.step g (.revokeInviteSecret o secret)).1.disk.invites.lookup
      (inviteSecretHash A.blake3 secret) = some r' ∧ r'.revoked := by
  have hdisk : (A.step g (.revokeInviteSecret o secret)).1.disk.invites =
      g.disk.invites.modify (inviteSecretHash A.blake3 secret)
        fun r => { r with revoked := true } := by
    rw [step, Prod.map_fst, id, revokeInviteSecret]
    rw [hr]
    rw [Inner.persistThen_disk fun g => (Inner.foldl_notify _ g).1]
    rfl
  rw [hdisk, Map.lookup_modify_self, hr]
  exact ⟨_, rfl, rfl⟩

theorem deny_rejected (htake : g.takePending peer = some (p, g₁)) :
    p.endpointId ∈ (A.step g (.deny o peer)).1.disk.rejectedOn p.inviteHash := by
  rw [step, Prod.map_fst, id, deny, htake]
  rw [Inner.persistThen_disk fun _ => rfl]
  refine (mem_rejectedOn_insert g₁.disk p.inviteHash).mpr ?_
  rw [if_pos rfl]
  exact Finset.mem_insert_self ..

/-- The run goes from the state that the call `c` leaves to one in which `e` is admitted through
the invite of `hash`, whose record was `r` before `c`. Then `c` admitted no other endpoint through
it if it is a one-time invite, did not revoke it and did not deny it to `e`, and it is not
expired. -/
structure AdmitsAfter (A : DirectAuthority) (hash : String) (g : Inner) (r : InviteRecord)
    (c : AuthorityCall) (o : Outside) (e : String) (entry : MembershipEntry) : Prop where
  sameEndpoint : r.reusable = false → ∀ o₁ e₁ hostname₁ secret₁ snapshot₁ entry₁ recover₁,
    c = .decide o₁ e₁ hostname₁ secret₁ snapshot₁ → inviteSecretHash A.blake3 secret₁ = hash →
    (A.step g c).2 = .decision (.admitted entry₁ recover₁) → entry₁.endpointId = entry.endpointId
  notRevoked : ∀ o₁ secret₁, c = .revokeInviteSecret o₁ secret₁ →
    inviteSecretHash A.blake3 secret₁ ≠ hash
  notExpired : o.now ≤ r.expiresAt
  notDenied : ∀ o₁ peer p g₁, c = .deny o₁ peer → g.takePending peer = some (p, g₁) →
    p.inviteHash = hash → p.endpointId ≠ e

/-- One-time invites: from any state, let a call be followed by a run and then by an admission
of `e` through the invite of `hash`, which no call issued anew. If the call was an admission
through the same one-time invite, it named the same endpoint; it did not revoke the invite and did
not deny it to `e`; and at the admission the invite is not expired. An admission that recovers a
member is no exception. -/
theorem oneTime_admits_one {r : InviteRecord} (hr : g.disk.invites.lookup hash = some r)
    {c : AuthorityCall} (hc : c.Keeps A hash) {h : AuthorityHistory} {g' : Inner}
    (hrun : Run A.step (fun _ _ c => c.Keeps A hash) (A.step g c).1 h g') {o : Outside}
    {e hostname secret : String} {snapshot : JoinSnapshot} {entry : MembershipEntry}
    {recover : Bool} (hsecret : inviteSecretHash A.blake3 secret = hash)
    (hadmitted : (A.step g' (.decide o e hostname secret snapshot)).2 =
      .decision (.admitted entry recover)) : AdmitsAfter A hash g r c o e entry := by
  subst hsecret
  have hlast := decideLocked_admitted (step_decide_eq_admitted_iff.mp hadmitted)
  obtain ⟨r₂, hr₂, hrevoked₂, hexpires₂, hfits₂⟩ := hlast.invite
  -- the record after the call and the one at the admission
  obtain ⟨r₁, hr₁, hfollows₁⟩ := (step_follows hc).record r hr
  obtain ⟨r₂', hr₂', hfollows₂⟩ := (run_follows hrun).record r₁ hr₁
  rw [hr₂] at hr₂'
  cases hr₂'
  refine ⟨?_, ?_, ?_, ?_⟩
  · rintro honce o₁ e₁ hostname₁ secret₁ snapshot₁ entry₁ recover₁ rfl hsecret₁ hadmitted₁
    have hfirst := decideLocked_admitted (step_decide_eq_admitted_iff.mp hadmitted₁)
    have honce₁ : r₁.reusable = false := hfollows₁.reusable.trans honce
    have hfst : (A.step g (.decide o₁ e₁ hostname₁ secret₁ snapshot₁)).1 =
        (A.decideLocked o₁ e₁ hostname₁ secret₁ snapshot₁ g).1 := decide_fst ..
    rw [hfst, ← hsecret₁] at hr₁
    obtain ⟨hclaimed₁, hbound₁⟩ := hfirst.used r₁ hr₁ honce₁
    obtain ⟨-, hbound₂⟩ := hfollows₂.used e₁ honce₁ hclaimed₁ hbound₁
    rw [hfirst.endpointId, hlast.endpointId]
    exact hfits₂.eq (hfollows₂.reusable.trans honce₁) hbound₂
  · rintro o₁ secret₁ rfl hsecret₁
    rw [← hsecret₁] at hr hr₁
    obtain ⟨r₁', hr₁', hrevoked₁⟩ := revokeInviteSecret_revoked hr
    rw [hr₁] at hr₁'
    cases hr₁'
    rw [hfollows₂.revoked hrevoked₁] at hrevoked₂
    cases hrevoked₂
  · rw [hfollows₂.expiresAt, hfollows₁.expiresAt] at hexpires₂
    exact hexpires₂
  · rintro o₁ peer p g₁ rfl htake hhash rfl
    rw [← hhash] at hlast hrun
    exact hlast.rejected ((run_follows hrun).rejected (deny_rejected htake))

namespace Demo

/-- A one-time invite has been issued. -/
def oneInvite : Inner := (authority.step (authority.load none)
  (.issueInvite outside false false 1000 [7])).1

/-- An endpoint that presents the same one-time invite twice is admitted twice. -/
theorem oneTime_admits_one_twice :
    (authority.step oneInvite (present "07")).2 = .decision (.admitted joiner false) ∧
      ∃ r, AdmitsAfter authority (inviteSecretHash authority.blake3 "07") oneInvite r (present "07")
        outside "aa" joiner := by
  have hfirst : (authority.step oneInvite (present "07")).2 = .decision (.admitted joiner false) :=
    congrArg AuthorityReply.decision (by decide)
  have hsecond : (authority.step (authority.step oneInvite (present "07")).1 (present "07")).2 =
      .decision (.admitted joiner false) :=
    congrArg AuthorityReply.decision (by decide)
  have hissued : (oneInvite.disk.invites.lookup
      (inviteSecretHash authority.blake3 "07")).isSome := by decide
  obtain ⟨r, hr⟩ := Option.isSome_iff_exists.mp hissued
  have hkeeps : (present "07").Keeps authority (inviteSecretHash authority.blake3 "07") := trivial
  exact ⟨hfirst, r, oneTime_admits_one hr hkeeps .start rfl hsecond⟩

end Demo

end Tunnet.Direct

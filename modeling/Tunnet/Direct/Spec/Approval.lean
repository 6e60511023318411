import Tunnet.Direct.Spec.Authority
import Tunnet.Direct.Demo

/-!
# Admission by approval

An invite may require that an operator approves each endpoint that presents it. The authority
remembers approvals by endpoint and not by invite, and it admits without looking at approvals when
a one-time invite is marked as claimed, which confirming or recovering a member does to every
invite it has presented. So an endpoint approved on one invite passes on another, and a member
passes later on an invite it was never approved on.

`ApprovalOk` excludes this: who presents an invite that requires approval was approved on no other
invite, and while it waits on a one-time invite of this kind it does not become a member by
another way. Then every admission through such an invite, unless it recovers a member, has its
approval (`admitted_approved`).
-/

namespace Tunnet.Direct

open DirectAuthority PendingJoin

variable {h : AuthorityHistory} {l : List PendingJoin} {o : Outside}
  {e hash hostname secret x : String} {reply : AuthorityReply}

/-- The pending joins that approvals of a history returned. -/
def approvals (h : AuthorityHistory) : List PendingJoin :=
  h.filterMap fun c => match c.2 with
    | .approved (.ok p) => some p
    | _ => none

/-- `e` was approved on the invite of `hash`. -/
def Approved (h : AuthorityHistory) (e hash : String) : Prop :=
  ∃ p ∈ approvals h, p.endpointId = e ∧ p.inviteHash = hash

instance (h : AuthorityHistory) (e hash : String) : Decidable (Approved h e hash) :=
  inferInstanceAs (Decidable (∃ p ∈ approvals h, _ ∧ _))

/-- Nothing admits `e` past an approval it needs on the invite `r` of `hash`. -/
def PresentsApproved (h : AuthorityHistory) (e hash : String) (snapshot : JoinSnapshot)
    (r : InviteRecord) : Prop :=
  (∀ p ∈ approvals h, p.endpointId = e → p.inviteHash = hash) ∧
    (r.reusable = false → Approved h e hash ∨ DirectAuthority.existingMember snapshot e = none)

/-- The condition under which approval cannot be passed by. -/
def ApprovalOk (A : DirectAuthority) (h : AuthorityHistory) (g : Inner) : AuthorityCall → Prop
  | .decide _ e _ secret snapshot =>
    ∀ r ∈ g.disk.invites.lookup (inviteSecretHash A.blake3 secret),
      r.admission = .approvalRequired →
        PresentsApproved h e (inviteSecretHash A.blake3 secret) snapshot r
  | .approve o _ => o.written
  | .confirm _ e _ => ∀ s ∈ g.disk.invites.entries,
    s.2.admission = .approvalRequired → s.2.boundEndpoint = some e → Approved h e s.1
  | _ => True

/-! ### The invariant -/

/-- A one-time invite that requires approval is claimed only by an endpoint approved on it. -/
def InviteRecord.ClaimApproved (h : AuthorityHistory) (hash : String) (r : InviteRecord) : Prop :=
  r.admission = .approvalRequired → r.reusable = false → r.claimed →
    ∃ e, r.boundEndpoint = some e ∧ Approved h e hash

structure AuthorityDisk.ClaimsApproved (h : AuthorityHistory) (d : AuthorityDisk) : Prop where
  invites : ∀ hash r, d.invites.lookup hash = some r → r.ClaimApproved h hash
  approved : ∀ e ∈ d.approved, ∃ p ∈ approvals h, p.endpointId = e

/-- The state in memory and the state file are in order. -/
structure ApprovalInv (h : AuthorityHistory) (g : Inner) : Prop where
  disk : g.disk.ClaimsApproved h
  file : ∀ d, g.file = some d → d.ClaimsApproved h

theorem approvals_subset_cons (h : AuthorityHistory) (c : AuthorityCall × AuthorityReply) :
    approvals h ⊆ approvals (c :: h) := by
  intro p hp
  unfold approvals
  rw [List.filterMap_cons]
  split
  · exact hp
  · exact List.mem_cons_of_mem _ hp

theorem Approved.cons (happ : Approved h e hash)
    (c : AuthorityCall × AuthorityReply) : Approved (c :: h) e hash := by
  obtain ⟨p, hp, hpe⟩ := happ
  exact ⟨p, approvals_subset_cons h c hp, hpe⟩

theorem InviteRecord.ClaimApproved.cons {r : InviteRecord}
    (hr : r.ClaimApproved h hash) (c : AuthorityCall × AuthorityReply) :
    r.ClaimApproved (c :: h) hash := by
  intro hadmission honce hclaimed
  obtain ⟨e, hbound, happ⟩ := hr hadmission honce hclaimed
  exact ⟨e, hbound, happ.cons c⟩

theorem AuthorityDisk.ClaimsApproved.cons {d : AuthorityDisk}
    (hd : d.ClaimsApproved h) (c : AuthorityCall × AuthorityReply) : d.ClaimsApproved (c :: h) where
  invites hash r hr := (hd.invites hash r hr).cons c
  approved e he := by
    obtain ⟨p, hp, hpe⟩ := hd.approved e he
    exact ⟨p, approvals_subset_cons h c hp, hpe⟩

section

variable {A : DirectAuthority} {g g' : Inner}

theorem ApprovalInv.extend (hinv : ApprovalInv h g) (c : AuthorityCall × AuthorityReply)
    (hdisk : g'.disk.ClaimsApproved (c :: h))
    (hfile : g'.file = g.file ∨ g'.file = some g'.disk) : ApprovalInv (c :: h) g' where
  disk := hdisk
  file := Inner.forall_file (fun d hd => (hinv.file d hd).cons c) hdisk hfile

/-! ### Decisions -/

section

variable {snapshot : JoinSnapshot} {r r' : InviteRecord} {res : Except String JoinDecision}

theorem ApprovalInv.approved_of_claimed (hinv : ApprovalInv h g)
    (hr : g.disk.invites.lookup hash = some r) (hadmission : r.admission = .approvalRequired)
    (honce : r.reusable = false) (hclaimed : r.claimed) (hfits : r.Fits e) : Approved h e hash := by
  obtain ⟨e', hbound, happ⟩ := hinv.disk.invites hash r hr hadmission honce hclaimed
  exact hfits.eq honce hbound ▸ happ

theorem ApprovalInv.approved_of_mem (hinv : ApprovalInv h g)
    (hok : PresentsApproved h e hash snapshot r) (he : e ∈ g.disk.approved) :
    Approved h e hash := by
  obtain ⟨p, hp, hpe⟩ := hinv.disk.approved e he
  exact ⟨p, hp, hpe, hok.1 p hp hpe⟩

/-- What `Decided` means for approvals: the claim on the invite presented has its approval, and so
has an admission through it that does not recover a member. -/
theorem ApprovalInv.of_decided (hinv : ApprovalInv h g)
    (hr : g.disk.invites.lookup hash = some r) (hadmission : r.admission = .approvalRequired)
    (hfits : r.Fits e) (hok : PresentsApproved h e hash snapshot r)
    (hdecided : Decided A o e hostname snapshot g.disk.approved r r' res) :
    (r.reusable = false → r'.claimed → r'.boundEndpoint = some e ∧ Approved h e hash) ∧
      ∀ entry, res = .ok (.admitted entry false) → Approved h e hash := by
  cases hdecided with
  | held hres =>
    refine ⟨fun honce hclaimed => ?_, ?_⟩
    · rw [InviteRecord.bindTo_of_once e honce] at hclaimed ⊢
      exact ⟨rfl, hinv.approved_of_claimed hr hadmission honce hclaimed hfits⟩
    · rintro entry rfl
      rcases hres with hres | ⟨_, hres⟩ <;> cases hres
  | recovered hmember hres =>
    refine ⟨fun honce _ => ?_, ?_⟩
    · rw [InviteRecord.bindTo_of_once e honce]
      refine ⟨rfl, (hok.2 honce).resolve_right fun hnone => ?_⟩
      rw [hmember] at hnone
      cases hnone
    · rintro entry rfl
      rcases hres with hres | hres <;> cases hres
  | reserved hnew honce hclaimed =>
    have happ := hinv.approved_of_claimed hr hadmission honce hclaimed hfits
    refine ⟨fun _ _ => ?_, fun _ _ => happ⟩
    rw [InviteRecord.bindTo_of_once e honce]
    exact ⟨rfl, happ⟩
  | admitted hnew happroved =>
    have happ := hinv.approved_of_mem hok (happroved hadmission)
    refine ⟨fun honce _ => ?_, fun _ _ => happ⟩
    rw [InviteRecord.bindTo_of_once e honce]
    exact ⟨rfl, happ⟩

theorem DirectAuthority.Decided.admission_eq {approved : Finset String}
    (hdecided : Decided A o e hostname snapshot approved r r' res) :
    r'.admission = r.admission ∧ r'.reusable = r.reusable := by
  cases hdecided <;> exact ⟨r.bindTo_admission e, r.bindTo_reusable e⟩

end

/-! ### Runs -/

theorem approvalInv_decide (hinv : ApprovalInv h g)
    {snapshot : JoinSnapshot} {out : Inner × Except String JoinDecision}
    (hspec : DecideSpec A o (inviteSecretHash A.blake3 secret) e hostname snapshot g out)
    (hok : ApprovalOk A h g (.decide o e hostname secret snapshot)) :
    ApprovalInv ((.decide o e hostname secret snapshot, reply) :: h) out.1 := by
  refine hinv.extend _ (AuthorityDisk.ClaimsApproved.cons ⟨?_, ?_⟩ _) hspec.file
  · intro hash r' hr'
    rcases hspec.lookup hr' with hr' | ⟨rfl, r, hr, hfits, hdecided⟩
    · exact hinv.disk.invites hash r' hr'
    · obtain ⟨hadm, hreusable⟩ := hdecided.admission_eq
      intro hadmission honce hclaimed
      rw [hadm] at hadmission
      rw [hreusable] at honce
      have hpresents := hok r hr hadmission
      obtain ⟨hbound, happ⟩ :=
        (hinv.of_decided hr hadmission hfits hpresents hdecided).1 honce hclaimed
      exact ⟨e, hbound, happ⟩
  · intro e' he'
    exact hinv.disk.approved e' (hspec.approved ▸ he')

theorem approvalInv_other (hinv : ApprovalInv h g) {c : AuthorityCall}
    (hspec : StepSpec A g c g' reply) (hok : ApprovalOk A h g c) :
    ApprovalInv ((c, reply) :: h) g' := by
  refine hinv.extend _ ⟨?_, ?_⟩ hspec.file
  · intro hash r hr
    obtain ⟨old, hold, htouched⟩ := hspec.lookup hr
    cases htouched with
    | same | revoked => exact (hinv.disk.invites hash _ hold).cons (c, reply)
    | blank _ _ hclaimed => exact fun _ _ hclaimed' => nomatch hclaimed.symm.trans hclaimed'
    | @confirmed old o e ip hcall hbound =>
      subst hcall
      intro hadmission _ _
      refine ⟨e, hbound, Approved.cons ?_ _⟩
      exact hok ⟨hash, old⟩ (Finmap.lookup_eq_some_iff.mp hold) hadmission hbound
  · intro e he
    rcases hspec.approved e he with he | ⟨o, id, p, rfl, -, hpe, hreply⟩
    · obtain ⟨p, hp, hpe⟩ := hinv.disk.approved e he
      exact ⟨p, approvals_subset_cons h _ hp, hpe⟩
    · refine ⟨p, ?_, hpe⟩
      rw [hreply hok]
      exact List.mem_cons_self

theorem claimsApproved_load_none : (A.load none).disk.ClaimsApproved h := by
  refine ⟨fun hash r hr => ?_, fun e he => ?_⟩
  · simp [load] at hr
  · simp [load] at he

theorem approvalInv_load (hinv : ApprovalInv h g) :
    ApprovalInv ((.load, .loaded) :: h) (A.load g.file) := by
  refine hinv.extend _ (AuthorityDisk.ClaimsApproved.cons ?_ _) (.inl rfl)
  cases hfile : g.file with
  | none => exact claimsApproved_load_none
  | some d =>
    obtain ⟨hinvites, happroved⟩ := hinv.file d hfile
    exact ⟨hinvites, happroved⟩

theorem approvalInv_step (hinv : ApprovalInv h g) (c : AuthorityCall) (hok : ApprovalOk A h g c) :
    ApprovalInv ((c, (A.step g c).2) :: h) (A.step g c).1 :=
  A.step_cases g
    (fun _ => approvalInv_load hinv)
    (fun _ _ _ _ _ _ _ hspec _ hok => approvalInv_decide hinv hspec hok)
    (fun _ _ _ hspec _ hok => approvalInv_other hinv hspec hok) c hok

theorem approvalRun_inv (hrun : Run A.step (ApprovalOk A) (A.load none) h g) : ApprovalInv h g :=
  hrun.invariant ⟨claimsApproved_load_none, nofun⟩ fun _ _ c hinv hok => approvalInv_step hinv c hok

/-- Approval is not passed by: in a run whose calls meet `ApprovalOk`, a decision that admits
an endpoint through an invite that requires approval, and does not recover a member, comes after
an approval of this endpoint on this invite. -/
theorem admitted_approved (hrun : Run A.step (ApprovalOk A) (A.load none) h g) {o : Outside}
    {e hostname secret : String} {snapshot : JoinSnapshot}
    (hok : ApprovalOk A h g (.decide o e hostname secret snapshot)) {r : InviteRecord}
    (hr : g.disk.invites.lookup (inviteSecretHash A.blake3 secret) = some r)
    (hadmission : r.admission = .approvalRequired) {entry : MembershipEntry}
    (hreply : (A.step g (.decide o e hostname secret snapshot)).2 =
      .decision (.admitted entry false)) : Approved h e (inviteSecretHash A.blake3 secret) := by
  have hinv := approvalRun_inv hrun
  have hres := step_decide_eq_admitted_iff.mp hreply
  obtain ⟨r₁, r', hr₁, hfits, -, hdecided⟩ :=
    (A.decideLocked_spec o e hostname secret snapshot g).admitted hres
  rw [hr] at hr₁
  cases hr₁
  exact (hinv.of_decided hr hadmission hfits (hok r hr hadmission) hdecided).2 entry rfl

end

/-! ### Whom a decision reaches -/

/-- The join `p` is taken from those that are pending. -/
def Takes (p : PendingJoin) (g g' : Inner) : Prop :=
  p ∈ g.disk.pending ∧ g'.disk.pending = g.disk.pending.erase p

/-- `approve` and `deny` act on a pending join of the endpoint `x`. -/
def ReachesNamed (o : Outside) (x : String) (g : Inner) : Prop :=
  (∃ p, p.endpointId = x ∧ Takes p g (approve o x g).1 ∧
      (approve o x g).1.disk.approved = insert x g.disk.approved) ∧
    ∃ p, p.endpointId = x ∧ Takes p g (deny o x g).1 ∧
      ∃ denied, (deny o x g).1.disk.rejected.lookup p.inviteHash = some denied ∧ x ∈ denied

theorem find?_named (hx : ∃ p ∈ l, p.endpointId = x) :
    ∃ p, l.find? (·.named x) = some p ∧ l.eraseP (·.named x) = l.erase p ∧
      (p.endpointId = x ↔ ∀ q ∈ l.takeWhile (·.endpointId ≠ x), q.hostname ≠ x) := by
  induction l with
  | nil => simp at hx
  | cons a l ih =>
    by_cases hid : a.endpointId = x
    · exact ⟨a, by simp [named, hid]⟩
    · by_cases hhost : a.hostname = x
      · exact ⟨a, by simp [named, hid, hhost]⟩
      · obtain ⟨p, hfind, herase, hiff⟩ := ih (by simpa [hid] using hx)
        have hne : a ≠ p := by
          rintro rfl
          have hnamed := List.find?_some hfind
          simp [named, hid, hhost] at hnamed
        refine ⟨p, ?_, ?_, ?_⟩
        · simpa [named, hid, hhost] using hfind
        · simpa [named, hid, hhost, hne] using herase
        · simpa [hid, hhost] using hiff

theorem eq_of_erase_eq {p q : PendingJoin} (hq : q ∈ l) (h : l.erase p = l.erase q) : q = p := by
  by_contra hne
  have hcount := congrArg (List.count q) h
  rw [List.count_erase_of_ne hne, List.count_erase_self] at hcount
  have hpos := List.count_pos_iff.2 hq
  omega

/-- Operator decisions reach the endpoint that was named, exactly if no pending join before the
endpoint's own has its id for a host name. -/
theorem reachesNamed_iff {x : String} {g : Inner} (hx : ∃ p ∈ g.disk.pending, p.endpointId = x) :
    ReachesNamed o x g ↔
      ∀ q ∈ g.disk.pending.takeWhile (·.endpointId ≠ x), q.hostname ≠ x := by
  obtain ⟨p, hfind, herase, hiff⟩ := find?_named hx
  have hmem := List.mem_of_find?_eq_some hfind
  have happrove : Takes p g (approve o x g).1 ∧
      (approve o x g).1.disk.approved = insert p.endpointId g.disk.approved := by
    unfold approve Inner.takePending Inner.persistThen
    rw [hfind]
    split_ifs <;> exact ⟨⟨hmem, herase⟩, rfl⟩
  have hdeny : Takes p g (deny o x g).1 ∧ ∃ denied,
      (deny o x g).1.disk.rejected.lookup p.inviteHash = some denied ∧ p.endpointId ∈ denied := by
    unfold deny Inner.takePending Inner.persistThen
    rw [hfind]
    split_ifs <;> exact ⟨⟨hmem, herase⟩, _, Finmap.lookup_insert _, Finset.mem_insert_self _ _⟩
  rw [← hiff]
  constructor
  · rintro ⟨⟨q, hq, htakes, -⟩, -⟩
    rw [← eq_of_erase_eq htakes.1 (happrove.1.2.symm.trans htakes.2)]
    exact hq
  · rintro rfl
    exact ⟨⟨p, rfl, happrove⟩, p, rfl, hdeny⟩

/-! ### Two runs -/

instance (h : AuthorityHistory) (e hash : String) (snapshot : JoinSnapshot) (r : InviteRecord) :
    Decidable (PresentsApproved h e hash snapshot r) :=
  inferInstanceAs (Decidable ((∀ p ∈ approvals h, _ → _) ∧ (_ → _ ∨ _ = none)))

instance (A : DirectAuthority) (h : AuthorityHistory) (g : Inner) :
    DecidablePred (ApprovalOk A h g) := by
  rintro (_ | _ | _ | _ | _ | _ | _ | _) <;> unfold ApprovalOk <;> infer_instance

namespace Demo

/-- An endpoint waits for approval on one invite, joins with another one that needs none, and is
confirmed. -/
def waitingMember : List AuthorityCall :=
  [.issueInvite outside false false 1000 [7], .issueInvite outside false true 1000 [8],
    present "08", present "07", .confirm outside "aa" joiner.ipv4]

/-- Once its record is gone from the snapshot, the endpoint is admitted through the invite that
requires approval, although nobody was ever approved. -/
theorem waitingMember_admitted :
    let run := exec authority.step [] (authority.load none) waitingMember
    (run.2.disk.invites.lookup (inviteSecretHash authority.blake3 "08")).map (·.admission) =
        some .approvalRequired ∧
      (authority.step run.2 (present "08")).2 = .decision (.admitted joiner false) ∧
      approvals run.1 = [] :=
  ⟨by decide, congrArg AuthorityReply.decision (by decide), by decide⟩

/-- An endpoint presents an invite that requires approval and is approved. -/
def approvedPeer : List AuthorityCall :=
  [.issueInvite outside false true 1000 [8], present "08", .approve outside "alpha"]

theorem admitted_approved_approvedPeer :
    let run := exec authority.step [] (authority.load none) approvedPeer
    (authority.step run.2 (present "08")).2 = .decision (.admitted joiner false) ∧
      Approved run.1 "aa" (inviteSecretHash authority.blake3 "08") := by
  intro run
  have hreply : (authority.step run.2 (present "08")).2 = .decision (.admitted joiner false) :=
    congrArg AuthorityReply.decision (by decide)
  have hadmission : (run.2.disk.invites.lookup (inviteSecretHash authority.blake3 "08")).map
      (·.admission) = some .approvalRequired := by decide
  obtain ⟨r, hr, hadmission⟩ := Option.map_eq_some_iff.mp hadmission
  have hrun : Run authority.step (ApprovalOk authority) (authority.load none) run.1 run.2 :=
    run_exec (by decide)
  exact ⟨hreply, admitted_approved hrun (by decide) hr hadmission hreply⟩

/-- Endpoints `bb` and `aa` wait for approval, in this order and with these host names. -/
def twoWaiting (bb aa : String) : Inner :=
  (exec authority.step [] (authority.load none) [.issueInvite outside true true 1000 [8],
    .decide outside "bb" bb "08" ⟨[], ∅⟩, .decide outside "aa" aa "08" ⟨[], ∅⟩]).2

theorem reachesNamed_twoWaiting : ReachesNamed outside "aa" (twoWaiting "beta" "alpha") :=
  (reachesNamed_iff (by decide)).2 (by decide)

/-- Endpoint `bb` calls itself `aa`, and is approved in its place. -/
theorem approved_impostor : (∃ p ∈ (twoWaiting "aa" "alpha").disk.pending, p.endpointId = "aa") ∧
    ¬ ReachesNamed outside "aa" (twoWaiting "aa" "alpha") := by
  refine ⟨by decide, ?_⟩
  rintro ⟨⟨-, -, -, happroved⟩, -⟩
  exact absurd happroved (by decide)

end Demo

end Tunnet.Direct

import Tunnet.Util.Run
import Tunnet.Direct.Authority

/-!
# What the calls of the authority do

Each call's effect on the invites, the approvals and the state file is said once here; the
invariants of runs are derived from these lemmas and do not unfold the calls.

A decision changes at most the record of the invite presented, from `r` to `r'`; `Decided` lists
the ways (`decideLocked_spec`).
-/

namespace Tunnet.Direct

open Direct.Inner InviteRecord

/-! ### Writing the state file -/

variable {g g₁ : Inner} {peer hash e e' : String} {r r' : InviteRecord}
  {f : InviteRecord → InviteRecord} {reply : AuthorityReply} {d d' : AuthorityDisk}

namespace Inner

variable {ε α : Type} {o : Outside} {err : ε} {g' : Inner} {next : Inner → Inner × Except ε α}

theorem persistThen_disk (h : ∀ g, (next g).1.disk = g.disk) :
    (g.persistThen o err next).1.disk = g.disk := by
  unfold persistThen
  split_ifs
  · exact h _
  · rfl

theorem foldl_notify (ids : List String) (g : Inner) :
    (ids.foldl (fun g id => g.notify id) g).disk = g.disk ∧
      (ids.foldl (fun g id => g.notify id) g).file = g.file :=
  List.foldlRecOn ids _ (motive := fun g' : Inner => g'.disk = g.disk ∧ g'.file = g.file)
    ⟨rfl, rfl⟩ fun _ hg _ _ => hg

theorem forall_file {P : AuthorityDisk → Prop} (hold : ∀ d, g.file = some d → P d)
    (hnew : P g'.disk) (hfile : g'.file = g.file ∨ g'.file = some g'.disk) :
    ∀ d, g'.file = some d → P d := by
  intro d hd
  rcases hfile with hfile | hfile
  · exact hold d (hfile ▸ hd)
  · rw [hfile] at hd
    cases hd
    exact hnew

theorem takePending_eq_some {p : PendingJoin} (h : g.takePending peer = some (p, g')) :
    p ∈ g.disk.pending ∧ g'.file = g.file ∧ ∃ pending, g'.disk = { g.disk with pending } := by
  unfold takePending at h
  split at h
  · cases h
  · rename_i hfind
    cases h
    exact ⟨List.mem_of_find?_eq_some hfind, rfl, _, rfl⟩

end Inner

/-! ### What is kept of an invite -/

/-- What is kept of a record: its kind and its expiry, that it is revoked, and that an endpoint has
used it up. -/
structure InviteRecord.Follows (r r' : InviteRecord) : Prop where
  reusable : r'.reusable = r.reusable
  expiresAt : r'.expiresAt = r.expiresAt
  revoked : r.revoked → r'.revoked
  used : ∀ e, r.reusable = false → r.claimed → r.boundEndpoint = some e →
    r'.claimed ∧ r'.boundEndpoint = some e

theorem InviteRecord.Follows.refl (r : InviteRecord) : r.Follows r :=
  ⟨rfl, rfl, id, fun _ _ hclaimed hbound => ⟨hclaimed, hbound⟩⟩

/-- The endpoints denied on the invite of `hash`. -/
def AuthorityDisk.rejectedOn (d : AuthorityDisk) (hash : String) : Finset String :=
  (d.rejected.lookup hash).getD ∅

theorem mem_rejectedOn_insert (d : AuthorityDisk) (hash' : String) {s : Finset String} :
    e ∈ ({ d with rejected := d.rejected.insert hash' s }).rejectedOn hash ↔
      if hash = hash' then e ∈ s else e ∈ d.rejectedOn hash := by
  unfold AuthorityDisk.rejectedOn
  rw [Map.lookup_insert_eq]
  split_ifs <;> rfl

/-- The authority goes on, and the invite of `hash` stays the invite it is: the call is no restart
and draws no secret with this hash again. -/
def AuthorityCall.Keeps (A : DirectAuthority) (hash : String) : AuthorityCall → Prop
  | .load => False
  | .issueInvite _ _ _ _ secret => inviteSecretHash A.blake3 (Hex.encode secret) ≠ hash
  | _ => True

/-! ### Decisions -/

/-- The record once a one-time invite is bound to `e`. -/
def InviteRecord.bindTo (e : String) (r : InviteRecord) : InviteRecord :=
  if r.reusable then r else { r with boundEndpoint := some e }

/-- A one-time invite is free or bound to `e`. -/
def InviteRecord.Fits (e : String) (r : InviteRecord) : Prop :=
  r.reusable = false → r.boundEndpoint = none ∨ r.boundEndpoint = some e

/-- The state with the invite `r` of `hash` bound to `e`. -/
def Inner.bindTo (hash e : String) (r : InviteRecord) (g : Inner) : Inner :=
  { g with disk := { g.disk with invites := g.disk.invites.insert hash (r.bindTo e) } }

theorem InviteRecord.Fits.eq (h : r.Fits e)
    (honce : r.reusable = false) (hbound : r.boundEndpoint = some e') : e' = e := by
  rcases h honce with hnone | hsome
  · exact nomatch hnone.symm.trans hbound
  · exact Option.some.inj (hbound.symm.trans hsome)

theorem Inner.lookup_bindTo : (g.bindTo hash e r).disk.invites.lookup hash = some (r.bindTo e) :=
  Finmap.lookup_insert _

namespace InviteRecord

variable (e r)

@[simp] theorem bindTo_reusable : (r.bindTo e).reusable = r.reusable := by
  unfold bindTo
  split_ifs <;> rfl

@[simp] theorem bindTo_admission : (r.bindTo e).admission = r.admission := by
  unfold bindTo
  split_ifs <;> rfl

@[simp] theorem bindTo_allocatedIp : (r.bindTo e).allocatedIp = r.allocatedIp := by
  unfold bindTo
  split_ifs <;> rfl

@[simp] theorem bindTo_claimed : (r.bindTo e).claimed = r.claimed := by
  unfold bindTo
  split_ifs <;> rfl

variable {r}

theorem bindTo_of_once (honce : r.reusable = false) :
    r.bindTo e = { r with boundEndpoint := some e } := by
  rw [bindTo, honce]
  rfl

end InviteRecord

namespace DirectAuthority

variable {A : DirectAuthority}

/-- What deciding a join of `e` in a state with these approvals does to the record `r` of the
invite presented, and the result. A result that admits may also be the failure to write it. -/
inductive Decided (A : DirectAuthority) (o : Outside) (e hostname : String)
    (snapshot : JoinSnapshot) (approved : Finset String) (r : InviteRecord) :
    InviteRecord → Except String JoinDecision → Prop
  | held {res : Except String JoinDecision}
      (hres : res = .ok .pending ∨ ∃ reason, res = .error reason) :
      Decided A o e hostname snapshot approved r (r.bindTo e) res
  | recovered {existing : MembershipEntry} {res : Except String JoinDecision}
      (hmember : existingMember snapshot e = some existing)
      (hres : res = .ok (.admitted { existing with hostname := hostname } true) ∨
        res = .error "persist_failed") :
      Decided A o e hostname snapshot approved r
        { r.bindTo e with allocatedIp := some existing.ipv4, claimed := true } res
  | reserved {ip : Ipv4Addr} {joinedAt : Timestamp} {res : Except String JoinDecision}
      (hnew : existingMember snapshot e = none) (honce : r.reusable = false)
      (hclaimed : r.claimed) (hip : r.allocatedIp = some ip)
      (hres : res = .ok (.admitted (newEntry e hostname ip joinedAt) false) ∨
        res = .error "persist_failed") :
      Decided A o e hostname snapshot approved r (r.bindTo e) res
  | admitted {ip : Ipv4Addr} {res : Except String JoinDecision}
      (hnew : existingMember snapshot e = none)
      (happroved : r.admission = .approvalRequired → e ∈ approved)
      (hip : r.allocatedIp = some ip ∨ r.allocatedIp = none ∧
        allocatePeerIp A.blake3 A.genesis.addressPlan A.genesis.networkId e
          (snapshot.members.map (·.ipv4)).toFinset = .ok ip)
      (hres : res = .ok (.admitted (newEntry e hostname ip o.later) false) ∨
        res = .error "persist_failed") :
      Decided A o e hostname snapshot approved r
        { r.bindTo e with allocatedIp := some ip, claimed := r.claimed || !r.reusable } res

theorem existingMember_endpointId {snapshot : JoinSnapshot} {m : MembershipEntry}
    (h : existingMember snapshot e = some m) : m.endpointId = e := by
  have hfind := List.find?_some h
  rw [Bool.and_eq_true, beq_iff_eq] at hfind
  exact hfind.1

variable {g' : Inner}

theorem bindInvite_ok
    (hr : g.disk.invites.lookup hash = some r) (h : bindInvite hash e r g = .ok g') :
    g' = g.bindTo hash e r ∧ r.Fits e := by
  unfold bindInvite at h
  unfold Inner.bindTo
  split_ifs at h with hreusable hbound
  · cases h
    refine ⟨?_, fun honce => absurd (hreusable.symm.trans honce) nofun⟩
    rw [InviteRecord.bindTo, if_pos hreusable, Map.insert_eq_self hr]
  · cases h
    refine ⟨?_, fun _ => ?_⟩
    · rw [updateInvite, Map.modify_eq_insert hr, InviteRecord.bindTo, if_neg hreusable]
    · cases hb : r.boundEndpoint with
      | none => exact .inl rfl
      | some =>
        rw [hb] at hbound
        exact .inr (by simpa using hbound)

/-- What deciding a join of `e` with the invite of `hash` does: it leaves invites and approvals as
they are and refuses, or it does one of the things `Decided` lists to the invite presented, which
was free or bound to the same endpoint. -/
structure DecideSpec (A : DirectAuthority) (o : Outside) (hash e hostname : String)
    (snapshot : JoinSnapshot) (g : Inner) (out : Inner × Except String JoinDecision) : Prop where
  approved : out.1.disk.approved = g.disk.approved
  rejected : out.1.disk.rejected = g.disk.rejected
  file : out.1.file = g.file ∨ out.1.file = some out.1.disk
  invites : (out.1.disk.invites = g.disk.invites ∧ ∃ reason, out.2 = .error reason) ∨
    ∃ r r', g.disk.invites.lookup hash = some r ∧ r.Fits e ∧
      out.1.disk.invites = g.disk.invites.insert hash r' ∧
      Decided A o e hostname snapshot g.disk.approved r r' out.2

variable {hostname : String} {snapshot : JoinSnapshot}

section

variable {o : Outside}

theorem updateInvite_bindTo : ((g.bindTo hash e r).updateInvite hash f).disk.invites =
      g.disk.invites.insert hash (f (r.bindTo e)) := by
  rw [updateInvite, Map.modify_eq_insert lookup_bindTo, Inner.bindTo, Finmap.insert_insert]

theorem reserved_bindTo : reserved hash e (g.bindTo hash e r) =
    if r.reusable = false ∧ r.claimed then r.allocatedIp else none := by
  rw [reserved, lookup_bindTo]
  cases honce : r.reusable with
  | true => simp [honce]
  | false =>
    rw [bindTo_of_once e honce]
    simp [honce]

variable (hr : g.disk.invites.lookup hash = some r) (hfits : r.Fits e)

include hr hfits

theorem decideSpec_persistThen {d : JoinDecision}
    (hinvites : g₁.disk.invites = g.disk.invites.insert hash r')
    (happroved : g₁.disk.approved = g.disk.approved)
    (hrejected : g₁.disk.rejected = g.disk.rejected) (hfile : g₁.file = g.file)
    (hres : ∀ res, res = .ok d ∨ res = .error "persist_failed" →
      Decided A o e hostname snapshot g.disk.approved r r' res) :
    DecideSpec A o hash e hostname snapshot g
      (g₁.persistThen o "persist_failed" fun g => (g, .ok d)) := by
  unfold persistThen
  split_ifs
  · exact ⟨happroved, hrejected, .inr rfl, .inr ⟨r, r', hr, hfits, hinvites, hres _ (.inl rfl)⟩⟩
  · exact ⟨happroved, hrejected, .inl hfile, .inr ⟨r, r', hr, hfits, hinvites, hres _ (.inr rfl)⟩⟩

theorem admitNew_spec (hnew : existingMember snapshot e = none)
    (happroved : r.admission = .approvalRequired → e ∈ g.disk.approved) :
    DecideSpec A o hash e hostname snapshot g
      (A.admitNew o hash e hostname r.reusable snapshot (g.bindTo hash e r)) := by
  unfold admitNew
  simp only [lookup_bindTo, Option.bind_some, bindTo_allocatedIp]
  split
  · exact ⟨rfl, rfl, .inl rfl, .inr ⟨r, _, hr, hfits, rfl, .held (.inr ⟨_, rfl⟩)⟩⟩
  · rename_i ip hip
    refine decideSpec_persistThen hr hfits (by rw [updateInvite_bindTo, bindTo_claimed]) rfl rfl rfl
      fun res hres => .admitted hnew happroved ?_ hres
    split at hip
    · rename_i ip' hr
      cases hip
      exact .inl hr
    · rename_i hr
      exact .inr ⟨hr, hip⟩

theorem decideBound_spec : DecideSpec A o hash e hostname snapshot g
    (A.decideBound o hash e hostname r snapshot (g.bindTo hash e r)) := by
  unfold decideBound
  split
  · rename_i existing hmember
    exact decideSpec_persistThen hr hfits updateInvite_bindTo rfl rfl rfl
      fun res hres => .recovered hmember hres
  · rename_i hnew
    split
    · rename_i ip hip
      rw [reserved_bindTo, Option.ite_none_right_eq_some] at hip
      exact decideSpec_persistThen hr hfits rfl rfl rfl rfl
        fun res hres => .reserved hnew hip.1.1 hip.1.2 hip.2 hres
    · split_ifs with hpending
      · exact decideSpec_persistThen hr hfits rfl rfl rfl rfl
          fun res hres => .held (hres.imp_right fun h => ⟨_, h⟩)
      · exact admitNew_spec hr hfits hnew fun h => by
          by_contra hmem
          exact hpending ⟨h, hmem⟩

end

section

variable {o : Outside} {hash' : String} {out : Inner × Except String JoinDecision}

variable (hspec : DecideSpec A o hash e hostname snapshot g out)

include hspec

theorem DecideSpec.lookup
    (hr' : out.1.disk.invites.lookup hash' = some r') :
    g.disk.invites.lookup hash' = some r' ∨ hash' = hash ∧ ∃ r,
      g.disk.invites.lookup hash = some r ∧ r.Fits e ∧
      Decided A o e hostname snapshot g.disk.approved r r' out.2 := by
  rcases hspec.invites with ⟨hsame, -⟩ | ⟨r, r₁, hr, hfits, hinsert, hdecided⟩
  · exact .inl (hsame ▸ hr')
  · rw [hinsert, Map.lookup_insert_eq] at hr'
    split_ifs at hr' with hhash
    · cases hr'
      exact .inr ⟨hhash, r, hr, hfits, hdecided⟩
    · exact .inl hr'

variable {entry : MembershipEntry} {recover : Bool}

theorem DecideSpec.admitted
    (hres : out.2 = .ok (.admitted entry recover)) :
    ∃ r r', g.disk.invites.lookup hash = some r ∧ r.Fits e ∧
      out.1.disk.invites = g.disk.invites.insert hash r' ∧
      Decided A o e hostname snapshot g.disk.approved r r' (.ok (.admitted entry recover)) := by
  rcases hspec.invites with ⟨-, reason, herr⟩ | hdecided
  · rw [herr] at hres
    cases hres
  · exact hres ▸ hdecided

end

theorem decideSpec_refused (A : DirectAuthority) (o : Outside) (hash e hostname : String)
    (snapshot : JoinSnapshot) (g : Inner) (reason : String) :
    DecideSpec A o hash e hostname snapshot g (g, .error reason) :=
  ⟨rfl, rfl, .inl rfl, .inl ⟨rfl, reason, rfl⟩⟩

theorem decideLocked_spec (A : DirectAuthority) (o : Outside) (e hostname secret : String)
    (snapshot : JoinSnapshot) (g : Inner) :
    DecideSpec A o (inviteSecretHash A.blake3 secret) e hostname snapshot g
      (A.decideLocked o e hostname secret snapshot g) := by
  unfold decideLocked
  generalize inviteSecretHash A.blake3 secret = hash
  dsimp only
  cases hr : g.disk.invites.lookup hash with
  | none => exact decideSpec_refused ..
  | some r =>
    dsimp only
    split_ifs
    · exact decideSpec_refused ..
    · -- an expired invite: only the pending joins change
      unfold persistThen
      split_ifs
      · exact ⟨rfl, rfl, .inr rfl, .inl ⟨rfl, _, rfl⟩⟩
      · exact ⟨rfl, rfl, .inl rfl, .inl ⟨rfl, _, rfl⟩⟩
    · exact decideSpec_refused ..
    · exact decideSpec_refused ..
    · cases hbind : bindInvite hash e r g with
      | error => exact decideSpec_refused ..
      | ok =>
        obtain ⟨rfl, hfits⟩ := bindInvite_ok hr hbind
        exact decideBound_spec hr hfits

theorem decide_fst (A : DirectAuthority) (o : Outside) (e hostname secret : String)
    (snapshot : JoinSnapshot) (g : Inner) : (A.decide o e hostname secret snapshot g).1 =
      (A.decideLocked o e hostname secret snapshot g).1 := by
  unfold decide
  split <;> rename_i heq <;> rw [heq]

variable {o : Outside} {entry : MembershipEntry} {recover : Bool}

theorem step_decide_eq_admitted_iff
    {e hostname secret : String} :
    (A.step g (.decide o e hostname secret snapshot)).2 = .decision (.admitted entry recover) ↔
      (A.decideLocked o e hostname secret snapshot g).2 = .ok (.admitted entry recover) := by
  rw [step]
  unfold decide
  split <;> rename_i heq <;> rw [heq] <;> simp

/-! ### The other calls -/

/-- What a call other than a decision does to the record of the invite of `hash`: it stays, is
revoked, becomes or is made one that nobody has used, or its user is confirmed. -/
inductive Touched (A : DirectAuthority) (c : AuthorityCall) (hash : String) :
    Option InviteRecord → Option InviteRecord → Prop
  | same {old : Option InviteRecord} : Touched A c hash old old
  | revoked {old : InviteRecord} :
      Touched A c hash (some old) (some { old with revoked := true })
  | blank {old : Option InviteRecord} {r : InviteRecord} (hbound : r.boundEndpoint = none)
      (hip : r.allocatedIp = none) (hclaimed : r.claimed = false)
      (hfollows : c.Keeps A hash → ∀ r₀, old = some r₀ → r₀.Follows r) :
      Touched A c hash old (some r)
  | confirmed {old : InviteRecord} {o : Outside} {e : String} {ip : Ipv4Addr}
      (hcall : c = .confirm o e ip) (hbound : old.boundEndpoint = some e) :
      Touched A c hash (some old) (some { old with claimed := true, allocatedIp := some ip })

/-- What a call other than a decision and loading does to the state `d`. -/
structure DiskSpec (A : DirectAuthority) (d : AuthorityDisk) (c : AuthorityCall)
    (d' : AuthorityDisk) (reply : AuthorityReply) : Prop where
  invites : ∀ hash, Touched A c hash (d.invites.lookup hash) (d'.invites.lookup hash)
  rejected : ∀ hash, d.rejectedOn hash ⊆ d'.rejectedOn hash
  approved : ∀ e ∈ d'.approved, e ∈ d.approved ∨
    ∃ o id p, c = .approve o id ∧ p ∈ d.pending ∧ p.endpointId = e ∧
      (o.written → reply = .approved (.ok p))

variable {c : AuthorityCall} {reply : AuthorityReply} {o : Outside}

theorem DiskSpec.refl : DiskSpec A d c d reply :=
  ⟨fun _ => .same, fun _ => subset_rfl, fun _ => .inl⟩

/-- What it does to the state file is to write the state. -/
structure StepSpec (A : DirectAuthority) (g : Inner) (c : AuthorityCall) (g' : Inner)
    (reply : AuthorityReply) : Prop extends DiskSpec A g.disk c g'.disk reply where
  file : g'.file = g.file ∨ g'.file = some g'.disk

theorem DiskSpec.lookup
    (h : DiskSpec A d c d' reply) (hr : d'.invites.lookup hash = some r) :
    ∃ old, d.invites.lookup hash = old ∧ Touched A c hash old (some r) :=
  ⟨_, rfl, hr ▸ h.invites hash⟩

theorem touched_modify
    (hf : ∀ r, Touched A c hash (some r) (some (f r))) (invites : Map String InviteRecord)
    (hash' : String) :
    Touched A c hash (invites.lookup hash) ((invites.modify hash' f).lookup hash) := by
  by_cases hh : hash = hash'
  · rw [← hh, Map.lookup_modify_self]
    cases invites.lookup hash with
    | none => exact .same
    | some r => exact hf r
  · rw [Map.lookup_modify_of_ne hh]
    exact .same

section

theorem stepSpec_same : StepSpec A g c g reply := ⟨.refl, .inl rfl⟩

theorem stepSpec_persistThen {ε α : Type} {err : ε} {next : Inner → Inner × Except ε α}
    (hnext : ∀ g, (next g).1.disk = g.disk ∧ (next g).1.file = g.file)
    (hfile : g₁.file = g.file) (h : DiskSpec A g.disk c g₁.disk reply) :
    StepSpec A g c (g₁.persistThen o err next).1 reply := by
  refine ⟨?_, ?_⟩ <;> rw [persistThen_disk fun g => (hnext g).1]
  · exact h
  · unfold persistThen
    split_ifs
    · exact .inr (hnext _).2
    · exact .inl hfile

variable (o : Outside)

theorem issueInvite_spec (reusable requireApproval : Bool) (expires : Int) (secret : List UInt8) :
    StepSpec A g (.issueInvite o reusable requireApproval expires secret)
      (A.issueInvite o reusable requireApproval expires secret g).1 reply := by
  unfold issueInvite
  split
  · exact stepSpec_same
  split
  · exact stepSpec_same
  split
  · exact stepSpec_same
  · refine stepSpec_persistThen (fun _ => ⟨rfl, rfl⟩) rfl ⟨fun hash => ?_, fun _ => subset_rfl,
      fun _ => .inl⟩
    rw [Map.lookup_insert_eq]
    split
    · rename_i hhash
      exact .blank rfl rfl rfl fun hkeeps => absurd hhash.symm hkeeps
    · exact .same

theorem revokeInviteSecret_spec (secret : String) :
    StepSpec A g c (A.revokeInviteSecret o secret g).1 reply := by
  unfold revokeInviteSecret
  dsimp only
  split
  · exact stepSpec_same
  · refine stepSpec_persistThen (foldl_notify _) rfl ⟨fun hash => ?_, fun _ => subset_rfl,
      fun _ => .inl⟩
    exact touched_modify (fun _ => .revoked) _ _

theorem approve_spec (id : String) (g : Inner) :
    StepSpec A g (.approve o id) (approve o id g).1 (.approved (approve o id g).2) := by
  unfold approve
  split
  · exact stepSpec_same
  · rename_i p g₁ htake
    obtain ⟨hp, hfile, pending, hdisk⟩ := takePending_eq_some htake
    refine stepSpec_persistThen (fun _ => ⟨rfl, rfl⟩) hfile ?_
    rw [hdisk]
    refine ⟨fun _ => .same, fun _ => subset_rfl, fun e he => ?_⟩
    rcases Finset.mem_insert.1 he with rfl | he
    · refine .inr ⟨o, id, p, rfl, hp, rfl, fun hw => ?_⟩
      simp [persistThen, hw]
    · exact .inl he

theorem deny_spec (id : String) : StepSpec A g c (deny o id g).1 reply := by
  unfold deny
  split
  · exact stepSpec_same
  · rename_i p g₁ htake
    obtain ⟨-, hfile, pending, hdisk⟩ := takePending_eq_some htake
    refine stepSpec_persistThen (fun _ => ⟨rfl, rfl⟩) hfile ?_
    rw [hdisk]
    refine ⟨fun hash => touched_modify (fun r => ?_) _ _, fun hash e he => ?_, fun _ => .inl⟩
    · split_ifs with hfree
      · rw [Bool.and_eq_true, Bool.not_eq_true'] at hfree
        refine .blank rfl rfl hfree.2 ?_
        rintro - _ ⟨⟩
        exact ⟨rfl, rfl, fun h => h, fun _ _ hclaimed => nomatch hfree.2.symm.trans hclaimed⟩
      · exact .same
    · refine (mem_rejectedOn_insert _ _).2 ?_
      split_ifs with hh
      · exact Finset.mem_insert_of_mem (hh ▸ he)
      · exact he

theorem confirm_spec (e : String) (ip : Ipv4Addr) :
    StepSpec A g (.confirm o e ip) (confirm o e ip g).1 reply := by
  refine stepSpec_persistThen (fun _ => ⟨rfl, rfl⟩) rfl ⟨fun hash => ?_, fun _ => subset_rfl,
    fun e' he' => .inl (Finset.mem_of_mem_erase he')⟩
  dsimp only [retainPending]
  rw [Map.lookup_mapVal]
  cases g.disk.invites.lookup hash with
  | none => exact .same
  | some =>
    dsimp only [Option.map_some]
    split_ifs with hbound
    · exact .confirmed rfl (by simpa using hbound)
    · exact .same

end

/-- The cases of a step: loading, a decision, or a call that `StepSpec` describes. -/
theorem step_cases (A : DirectAuthority) (g : Inner)
    {P : AuthorityCall → Inner → AuthorityReply → Prop} (hload : P .load (A.load g.file) .loaded)
    (hdecide : ∀ o e hostname secret snapshot out reply,
      DecideSpec A o (inviteSecretHash A.blake3 secret) e hostname snapshot g out →
      (∀ entry recover, reply = .decision (.admitted entry recover) →
        out.2 = .ok (.admitted entry recover)) →
      P (.decide o e hostname secret snapshot) out.1 reply)
    (hother : ∀ c g' reply, StepSpec A g c g' reply → (∀ d, reply ≠ .decision d) → P c g' reply)
    (c : AuthorityCall) : P c (A.step g c).1 (A.step g c).2 := by
  cases c with
  | load => exact hload
  | decide o e hostname secret snapshot =>
    have hstate : (A.step g (.decide o e hostname secret snapshot)).1 =
        (A.decideLocked o e hostname secret snapshot g).1 := decide_fst ..
    rw [hstate]
    exact hdecide _ _ _ _ _ _ _ (A.decideLocked_spec o e hostname secret snapshot g)
      fun _ _ => step_decide_eq_admitted_iff.1
  | issueInvite => exact hother _ _ _ (issueInvite_spec ..) fun _ => nofun
  | subscribeAdmission e =>
    refine hother _ _ _ ?_ fun _ => nofun
    change StepSpec A g _ (subscribeAdmission e g).1 _
    unfold subscribeAdmission
    split
    · exact stepSpec_same
    · exact ⟨.refl, .inl rfl⟩
  | revokeInviteSecret => exact hother _ _ _ (revokeInviteSecret_spec ..) fun _ => nofun
  | approve o id => exact hother _ _ _ (approve_spec o id g) fun _ => nofun
  | deny => exact hother _ _ _ (deny_spec ..) fun _ => nofun
  | confirm => exact hother _ _ _ (confirm_spec ..) fun _ => nofun

end DirectAuthority

end Tunnet.Direct

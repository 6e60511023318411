import Tunnet.Direct.Spec.Authority
import Tunnet.Direct.Demo

/-!
# Calls that cannot write the state file

Every call changes the state in memory first and writes it afterwards; when the write fails the
call reports the failure and the change stays. So the state in memory after a failed write is the
one before the call exactly when the call had nothing to change (`Settled`).
-/

namespace Tunnet.Direct

open DirectAuthority Direct.Inner InviteRecord List Option

/-- The call could not write the state file. -/
def AuthorityReply.WriteFailed : AuthorityReply → Prop
  | .issued result => result = .error .persist
  | .revoked result => result = .error .persist
  | .approved result => result = .error .persist
  | .denied result => result = .error .persist
  | .decision result => result = .denied "persist_failed"
  | .confirmed result => result = .error .persist
  | .loaded => False
  | .subscribed _ => False

/-- The request of `p` is the last one waiting, and its endpoint has no other. -/
def WaitsLast (p : PendingJoin) (pending : List PendingJoin) : Prop :=
  ∃ front, pending = front ++ [p] ∧ ∀ q ∈ front, q.endpointId ≠ p.endpointId

/-- Deciding a join of `e` with the invite `r` of `hash` changes nothing: the invite is expired and
nobody waits on it, or it is bound already (if it is to be bound) and records what the decision
would record. -/
def DecisionSettled (o : Outside) (hash e hostname : String) (snapshot : JoinSnapshot)
    (r : InviteRecord) (d : AuthorityDisk) : Prop :=
  if r.expiresAt < o.now then ∀ p ∈ d.pending, p.inviteHash ≠ hash
  else (r.reusable ∨ r.boundEndpoint = some e) ∧
    match DirectAuthority.existingMember snapshot e with
    | some existing => r.allocatedIp = some existing.ipv4 ∧ r.claimed
    | none =>
      if r.reusable = false ∧ r.claimed ∧ r.allocatedIp.isSome then True
      else if r.admission = .approvalRequired ∧ e ∉ d.approved then
        WaitsLast ⟨e, hostname, hash⟩ d.pending
      else r.reusable ∧ r.allocatedIp.isSome

/-- The call has nothing to change in this state. -/
def Settled (A : DirectAuthority) (g : Inner) : AuthorityCall → Prop
  | .issueInvite o reusable requireApproval expires secret =>
    -- the very record that is to be made
    let hash := inviteSecretHash A.blake3 (Hex.encode secret)
    ∃ expiresAt, o.now.checkedAdd expires = some expiresAt ∧
      g.disk.invites.lookup hash = some
        { secretHash := hash, reusable, expiresAt, revoked := false, boundEndpoint := none
          admission := if reusable || requireApproval then .approvalRequired else .immediate
          allocatedIp := none, claimed := false, createdAt := o.later }
  | .revokeInviteSecret _ secret =>
    let hash := inviteSecretHash A.blake3 secret
    (∀ r, g.disk.invites.lookup hash = some r → r.revoked) ∧
      ∀ p ∈ g.disk.pending, p.inviteHash ≠ hash
  -- answering a request takes it off the list
  | .approve .. => False
  | .deny .. => False
  | .decide o e hostname secret snapshot =>
    let hash := inviteSecretHash A.blake3 secret
    ∀ r, g.disk.invites.lookup hash = some r → DecisionSettled o hash e hostname snapshot r g.disk
  | .confirm _ e ip => e ∉ g.disk.approved ∧ (∀ p ∈ g.disk.pending, p.endpointId ≠ e) ∧
    ∀ hash r, g.disk.invites.lookup hash = some r → r.boundEndpoint = some e →
      r.claimed ∧ r.allocatedIp = some ip
  | .load => True
  | .subscribeAdmission _ => True

/-! ### Records that keep what they are -/

namespace InviteRecord

variable (r : InviteRecord) {e : String} {ip : Option Ipv4Addr} {claimed : Bool}

theorem revoked_eq_self_iff : { r with revoked := true } = r ↔ r.revoked := by
  obtain ⟨_, _, _, _, revoked, _, _, _, _⟩ := r
  simp [eq_comm]

theorem used_eq_self_iff : { r with allocatedIp := ip, claimed := claimed } = r ↔
      r.allocatedIp = ip ∧ r.claimed = claimed := by
  obtain ⟨_, _, _, _, _, _, allocatedIp, claimed', _⟩ := r
  simp [eq_comm]

theorem bindTo_used_eq_self_iff : { r.bindTo e with allocatedIp := ip, claimed := claimed } = r ↔
      (r.reusable ∨ r.boundEndpoint = some e) ∧ r.allocatedIp = ip ∧
        r.claimed = claimed := by
  unfold bindTo
  split_ifs with hreusable
  · rw [used_eq_self_iff]
    simp [hreusable]
  · obtain ⟨_, reusable, _, _, _, bound, allocatedIp, claimed', _⟩ := r
    simp only [mk.injEq] at hreusable ⊢
    simp [hreusable, eq_comm]

theorem bindTo_eq_self_iff : r.bindTo e = r ↔ r.reusable ∨ r.boundEndpoint = some e := by
  unfold bindTo
  split_ifs with hreusable
  · exact iff_of_true rfl (.inl hreusable)
  · obtain ⟨_, reusable, _, _, _, bound, _, _, _⟩ := r
    simp only [mk.injEq] at hreusable ⊢
    simp [hreusable, eq_comm]

end InviteRecord

/-! ### The state after a failed write -/

namespace Inner

variable {o : Outside} {peer : String} {pending : List PendingJoin}

theorem persistThen_failed {ε α : Type} {err : ε} {g : Inner}
    {next : Inner → Inner × Except ε α} (h : (g.persistThen o err next).2 = .error err)
    (hnext : ∀ g, (next g).2 ≠ .error err) : (g.persistThen o err next).1 = g := by
  unfold persistThen at h ⊢
  split_ifs at h ⊢
  · exact absurd h (hnext _)
  · rfl

theorem mk_eq_self_iff {invites : Map String InviteRecord} {approved : Finset String} (g : Inner) :
    ({ g with disk := { g.disk with invites, pending, approved } } : Inner) = g ↔
      invites = g.disk.invites ∧ pending = g.disk.pending ∧ approved = g.disk.approved := by
  obtain ⟨⟨_, _, _, _, _⟩, _, _⟩ := g
  simp

theorem takePending_pending_ne {p : PendingJoin} {g g₁ : Inner}
    (h : g.takePending peer = some (p, g₁)) : g₁.disk.pending ≠ g.disk.pending := by
  unfold takePending at h
  split at h
  · cases h
  · rename_i q hfind
    cases h
    intro heq
    have hlen := congrArg length heq
    have hmem := mem_of_find?_eq_some hfind
    rw [length_eraseP_of_mem hmem (find?_some hfind)] at hlen
    have hpos := length_pos_of_mem hmem
    omega

/-- What a failed write leaves lacks the request that was taken out. -/
theorem persistThen_ne_of_takePending {ε α : Type} {err : ε} {p : PendingJoin} {g g₁ g₂ : Inner}
    {next : Inner → Inner × Except ε α} (htake : g.takePending peer = some (p, g₁))
    (hpending : g₂.disk.pending = g₁.disk.pending)
    (h : (g₂.persistThen o err next).2 = .error err) (hnext : ∀ g, (next g).2 ≠ .error err) :
    (g₂.persistThen o err next).1 ≠ g := by
  rw [persistThen_failed h hnext]
  rintro rfl
  exact takePending_pending_ne htake hpending.symm

end Inner

namespace DirectAuthority

variable {A : DirectAuthority} {g : Inner}
  {o : Outside} {e hostname peer secret : String} {pending : List PendingJoin}

theorem issueInvite_failed {reusable requireApproval : Bool} {expires : Int} {secret : List UInt8} :
    (A.issueInvite o reusable requireApproval expires secret g).2 = .error .persist →
      ((A.issueInvite o reusable requireApproval expires secret g).1 = g ↔
        Settled A g (.issueInvite o reusable requireApproval expires secret)) := by
  unfold issueInvite
  split
  · nofun
  split
  · nofun
  split
  · nofun
  · rename_i expiresAt hexpires
    intro h
    rw [persistThen_failed h fun _ => nofun, mk_eq_self_iff, Settled]
    simp only [hexpires, and_true, some.injEq, exists_eq_left']
    exact Map.insert_eq_self_iff

theorem revokeInviteSecret_failed : (A.revokeInviteSecret o secret g).2 = .error .persist →
      ((A.revokeInviteSecret o secret g).1 = g ↔ Settled A g (.revokeInviteSecret o secret)) := by
  unfold revokeInviteSecret
  dsimp only
  split
  · nofun
  · intro h
    rw [persistThen_failed h fun _ => nofun]
    dsimp only [updateInvite, retainPending]
    rw [mk_eq_self_iff, Map.modify_eq_self_iff, filter_eq_self]
    simp only [and_true, bne_iff_ne]
    refine and_congr (forall₂_congr fun r _ => ?_) Iff.rfl
    exact r.revoked_eq_self_iff

theorem approve_failed : (approve o peer g).2 = .error .persist →
      ((approve o peer g).1 = g ↔ Settled A g (.approve o peer)) := by
  unfold approve
  split
  · nofun
  · rename_i htake
    exact fun h => iff_of_false (persistThen_ne_of_takePending htake rfl h fun _ => nofun) id

theorem deny_failed : (deny o peer g).2 = .error .persist →
      ((deny o peer g).1 = g ↔ Settled A g (.deny o peer)) := by
  unfold deny
  split
  · nofun
  · rename_i htake
    exact fun h => iff_of_false (persistThen_ne_of_takePending htake rfl h fun _ => nofun) id

theorem confirm_failed {ip : Ipv4Addr} : (confirm o e ip g).2 = .error .persist →
      ((confirm o e ip g).1 = g ↔ Settled A g (.confirm o e ip)) := by
  unfold confirm
  intro h
  rw [persistThen_failed h fun _ => nofun]
  dsimp only [retainPending]
  rw [mk_eq_self_iff, Map.mapVal_eq_self_iff, filter_eq_self, Finset.erase_eq_self, Settled]
  have hrecord : ∀ r : InviteRecord, ((if r.boundEndpoint == some e then
      { r with claimed := true, allocatedIp := some ip } else r) = r ↔
        (r.boundEndpoint = some e → r.claimed ∧ r.allocatedIp = some ip)) := by
    intro r
    split_ifs with hbound
    · rw [r.used_eq_self_iff, and_comm]
      exact ⟨fun h _ => h, fun h => h (by simpa using hbound)⟩
    · exact iff_of_true rfl fun h => absurd h (by simpa using hbound)
  simp only [hrecord, bne_iff_ne]
  tauto

/-! ### Decisions -/

theorem filter_append_eq_self_iff {hash : String} :
    pending.filter (·.endpointId != e) ++ [⟨e, hostname, hash⟩] = pending ↔
      WaitsLast ⟨e, hostname, hash⟩ pending := by
  constructor
  · intro h
    refine ⟨_, h.symm, fun q hq => ?_⟩
    simpa using (mem_filter.mp hq).2
  · rintro ⟨front, rfl, hfront⟩
    have hkeep : front.filter (·.endpointId != e) = front :=
      filter_eq_self.mpr fun q hq => by simpa using hfront q hq
    rw [filter_append, hkeep]
    simp

section

variable {o : Outside} {hash e hostname : String} {r : InviteRecord} {snapshot : JoinSnapshot}

variable (hr : g.disk.invites.lookup hash = some r)

include hr

theorem updateInvite_bindTo_eq_self_iff {f : InviteRecord → InviteRecord} :
    (g.bindTo hash e r).updateInvite hash f = g ↔ f (r.bindTo e) = r := by
  rw [updateInvite, Map.modify_eq_insert lookup_bindTo]
  dsimp only [Inner.bindTo]
  rw [mk_eq_self_iff, Finmap.insert_insert, Map.insert_eq_self_iff, hr, eq_comm]
  simp

theorem admitNew_failed (hused : ¬ (r.reusable = false ∧ r.claimed ∧ r.allocatedIp.isSome)) :
    (A.admitNew o hash e hostname r.reusable snapshot (g.bindTo hash e r)).2 =
      .error "persist_failed" →
        ((A.admitNew o hash e hostname r.reusable snapshot (g.bindTo hash e r)).1 = g ↔
          (r.reusable ∨ r.boundEndpoint = some e) ∧
            r.reusable ∧ r.allocatedIp.isSome) := by
  unfold admitNew
  simp only [lookup_bindTo, bind_some, bindTo_allocatedIp]
  split
  · simp
  · rename_i ip hip
    intro h
    rw [persistThen_failed h (by simp), updateInvite_bindTo_eq_self_iff hr, bindTo_used_eq_self_iff]
    cases hallocated : r.allocatedIp with
    | none => simp
    | some =>
      rw [hallocated] at hip hused
      cases hip
      cases hreusable : r.reusable with
      | true => simp
      | false =>
        -- a one-time invite with an address is claimed by this admission
        have hunclaimed : r.claimed = false := by simpa [hreusable] using hused
        simp [hunclaimed]

/-- The state after a decision that could not be written, for the invite bound to `e`. -/
theorem decideBound_failed (hexpires : ¬ r.expiresAt < o.now) :
    (A.decideBound o hash e hostname r snapshot (g.bindTo hash e r)).2 = .error "persist_failed" →
      ((A.decideBound o hash e hostname r snapshot (g.bindTo hash e r)).1 = g ↔
        DecisionSettled o hash e hostname snapshot r g.disk) := by
  unfold decideBound DecisionSettled
  rw [if_neg hexpires]
  cases hmember : existingMember snapshot e with
  | some =>
    intro h
    rw [persistThen_failed h (by simp), updateInvite_bindTo_eq_self_iff hr, bindTo_used_eq_self_iff]
  | none =>
    rw [reserved_bindTo]
    cases hreserved : (if r.reusable = false ∧ r.claimed then r.allocatedIp else none) with
    | some =>
      intro h
      have hused : r.reusable = false ∧ r.claimed ∧ r.allocatedIp.isSome := by
        split_ifs at hreserved with hclaimed
        exact ⟨hclaimed.1, hclaimed.2, by rw [hreserved]; rfl⟩
      rw [persistThen_failed h (by simp), if_pos hused, Inner.bindTo,
        mk_eq_self_iff, Map.insert_eq_self_iff, hr, some.injEq, eq_comm,
        bindTo_eq_self_iff]
      simp
    | none =>
      have hused : ¬ (r.reusable = false ∧ r.claimed ∧ r.allocatedIp.isSome) := by
        rintro ⟨honce, hclaimed, hip⟩
        rw [if_pos ⟨honce, hclaimed⟩] at hreserved
        rw [hreserved] at hip
        cases hip
      have happroved : (g.bindTo hash e r).disk.approved = g.disk.approved := rfl
      rw [happroved]
      split_ifs
      · intro h
        rw [persistThen_failed h (by simp)]
        dsimp only [pushPending, retainPending, Inner.bindTo]
        rw [mk_eq_self_iff, Map.insert_eq_self_iff, hr, some.injEq, eq_comm,
          bindTo_eq_self_iff, filter_append_eq_self_iff]
        simp
      · exact admitNew_failed hr hused

end

variable {o : Outside} {e hostname secret : String} {snapshot : JoinSnapshot}

theorem decideLocked_failed :
    (A.decideLocked o e hostname secret snapshot g).2 = .error "persist_failed" →
      ((A.decideLocked o e hostname secret snapshot g).1 = g ↔
        Settled A g (.decide o e hostname secret snapshot)) := by
  unfold decideLocked Settled
  dsimp only
  generalize inviteSecretHash A.blake3 secret = hash
  cases hr : g.disk.invites.lookup hash with
  | none => simp
  | some r =>
    simp only [some.injEq, forall_eq']
    split_ifs with hrevoked hexpires
    · simp
    · intro h
      rw [persistThen_failed h (by simp)]
      dsimp only [retainPending]
      rw [mk_eq_self_iff, DecisionSettled, if_pos hexpires]
      simp
    · simp
    · simp
    · cases hbind : bindInvite hash e r g with
      | error reason =>
        -- the only reason is that somebody else holds the invite
        unfold bindInvite at hbind
        split_ifs at hbind
        cases hbind
        simp
      | ok =>
        obtain ⟨rfl, -⟩ := bindInvite_ok hr hbind
        exact decideBound_failed hr hexpires

theorem decideLocked_ne_denied (reason : String) :
    (A.decideLocked o e hostname secret snapshot g).2 ≠ .ok (.denied reason) := by
  intro h
  rcases (A.decideLocked_spec o e hostname secret snapshot g).invites with
    ⟨-, _, hres⟩ | ⟨_, _, -, -, -, hdecided⟩
  · exact nomatch hres.symm.trans h
  · rw [h] at hdecided
    cases hdecided with
    | held hres => rcases hres with hres | ⟨_, hres⟩ <;> cases hres
    | recovered _ hres | reserved _ _ _ _ hres | admitted _ _ _ hres =>
      rcases hres with hres | hres <;> cases hres

theorem decide_failed (h : (A.decide o e hostname secret snapshot g).2 = .denied "persist_failed") :
    (A.decide o e hostname secret snapshot g).1 = g ↔
      Settled A g (.decide o e hostname secret snapshot) := by
  rw [decide_fst]
  apply decideLocked_failed
  unfold decide at h
  split at h
  · rename_i g₁ d heq
    cases h
    exact absurd (congrArg Prod.snd heq) (decideLocked_ne_denied _)
  · rename_i g₁ reason heq
    cases h
    rw [heq]

end DirectAuthority

/-- All or nothing: after a call that could not write the state file, the state in memory is
the one before the call exactly when the call had nothing to change. -/
theorem failedWrite_unchanged_iff (A : DirectAuthority) (g : Inner) (c : AuthorityCall)
    (hfailed : (A.step g c).2.WriteFailed) : (A.step g c).1 = g ↔ Settled A g c := by
  cases c with
  | load | subscribeAdmission e => exact hfailed.elim
  | issueInvite => exact issueInvite_failed hfailed
  | revokeInviteSecret => exact revokeInviteSecret_failed hfailed
  | approve => exact approve_failed hfailed
  | deny => exact deny_failed hfailed
  | decide => exact decide_failed hfailed
  | confirm => exact confirm_failed hfailed

namespace Demo

/-- The disk is full. -/
def full : Outside := ⟨0, 0, false⟩

/-- An endpoint waits for approval. -/
def waiting : Inner := (exec authority.step [] (authority.load none)
  [.issueInvite outside false true 1000 [8], present "08"]).2

/-- The approval is reported as failed and is not in the state file, but the endpoint is off the
list and its next request is admitted. -/
theorem failedApproval_stays :
    (authority.step waiting (.approve full "alpha")).2 = .approved (.error .persist) ∧
      (authority.step waiting (.approve full "alpha")).1 ≠ waiting ∧
      (authority.step waiting (.approve full "alpha")).1.file = waiting.file ∧
      (authority.step (authority.step waiting (.approve full "alpha")).1 (present "08")).2 =
        .decision (.admitted joiner false) := by
  have hreply : (approve full "alpha" waiting).2 = .error .persist := by
    decide
  exact ⟨congrArg AuthorityReply.approved hreply, by decide, by decide,
    congrArg AuthorityReply.decision (by decide)⟩

/-- The invite of `waiting` is revoked. -/
def revoked : Inner := (authority.step waiting (.revokeInviteSecret outside "08")).1

theorem failedWrite_unchanged_iff_revoked :
    (authority.step revoked (.revokeInviteSecret full "08")).1 = revoked ∧
      Settled authority revoked (.revokeInviteSecret full "08") := by
  have hfailed : (authority.revokeInviteSecret full "08" revoked).2 = .error .persist := by
    decide
  have hsame : (authority.step revoked (.revokeInviteSecret full "08")).1 = revoked := by
    decide
  exact ⟨hsame, (failedWrite_unchanged_iff authority revoked (.revokeInviteSecret full "08")
    hfailed).mp hsame⟩

end Demo

end Tunnet.Direct

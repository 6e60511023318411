import Tunnet.Direct.Spec.Authority
import Tunnet.Direct.Demo

/-!
# Addresses handed out by the coordinator

An address is *outstanding* for an endpoint when it was given to it by an admission, or is
reserved for it on an invite bound to it, in memory or in the state file. No address is ever
outstanding for two endpoints in a run whose calls meet `UniqueOk` (`addressRun_inv`), so no two
admissions of different endpoints carry the same one.

`UniqueOk` asks for three things the authority does not see to itself: the snapshot given to a
decision shows every address outstanding for another endpoint, and not only the published ones;
a reusable invite that still carries the address of its last user does not admit someone else;
and only what was admitted is confirmed.
-/

namespace Tunnet.Direct

open AuthorityDisk DirectAuthority InviteRecord List

/-! ### Assignments -/

section

variable {α β : Type}

/-- No `β` is held by two different `α`s. -/
def Unshared (s : Multiset (α × β)) : Prop := ∀ p ∈ s, ∀ q ∈ s, p.2 = q.2 → p.1 = q.1

theorem Unshared.extend {s t : Multiset (α × β)} (hs : Unshared s) (a : α)
    (ht : ∀ p ∈ t, p ∈ s ∨ p.1 = a ∧ ∀ q ∈ s, q.2 = p.2 → q.1 = a) : Unshared t := by
  intro p hp q hq hpq
  rcases ht p hp with hp | ⟨hpa, hpnew⟩
  · rcases ht q hq with hq | ⟨hqa, hqnew⟩
    · exact hs p hp q hq hpq
    · rw [hqnew p hp hpq, hqa]
  · rcases ht q hq with hq | ⟨hqa, -⟩
    · rw [hpa, hpnew q hq hpq.symm]
    · rw [hpa, hqa]

end

/-- The entries of the admissions of a history. -/
def admissions (h : AuthorityHistory) : List MembershipEntry :=
  h.filterMap fun c => match c.2 with
    | .decision (.admitted entry _) => some entry
    | _ => none

def MembershipEntry.holding (m : MembershipEntry) : String × Ipv4Addr := (m.endpointId, m.ipv4)

/-- The endpoint an invite is bound to, with the address reserved on it. -/
def InviteRecord.reservation (r : InviteRecord) : Option (String × Ipv4Addr) :=
  match r.boundEndpoint, r.allocatedIp with
  | some e, some ip => some (e, ip)
  | _, _ => none

def AuthorityDisk.reservations (d : AuthorityDisk) : Multiset (String × Ipv4Addr) :=
  d.invites.entries.filterMap fun s => s.2.reservation

/-- The addresses in somebody's hands after the history `h` in the state `g`. -/
def outstanding (h : AuthorityHistory) (g : Inner) : Multiset (String × Ipv4Addr) :=
  (admissions h).map (·.holding) + g.disk.reservations +
    match g.file with
    | some d => d.reservations
    | none => 0

theorem InviteRecord.reservation_eq_some {r : InviteRecord} {e : String} {ip : Ipv4Addr} :
    r.reservation = some (e, ip) ↔ r.boundEndpoint = some e ∧ r.allocatedIp = some ip := by
  unfold reservation
  split
  · rename_i hbound hip
    simp [hbound, hip]
  · rename_i hnot
    simp only [reduceCtorEq, false_iff, not_and]
    exact fun hbound hip => hnot e ip hbound hip

variable {h : AuthorityHistory} {p : String × Ipv4Addr}

theorem AuthorityDisk.mem_reservations {d : AuthorityDisk} :
    p ∈ d.reservations ↔ ∃ hash r, d.invites.lookup hash = some r ∧ r.reservation = some p := by
  simp [reservations, Finmap.lookup_eq_some_iff]

theorem mem_outstanding {g : Inner} :
    p ∈ outstanding h g ↔ p ∈ (admissions h).map (·.holding) ∨ p ∈ g.disk.reservations ∨
      ∃ d, g.file = some d ∧ p ∈ d.reservations := by
  unfold outstanding
  rw [Multiset.mem_add, Multiset.mem_add, or_assoc]
  cases g.file with
  | none | some => simp

theorem mem_outstanding_of_lookup {g : Inner}
    {hash : String} {r : InviteRecord} (hr : g.disk.invites.lookup hash = some r)
    (hp : r.reservation = some p) : p ∈ outstanding h g :=
  mem_outstanding.mpr (.inr (.inl (mem_reservations.mpr ⟨hash, r, hr, hp⟩)))

/-! ### The condition on calls -/

/-- The snapshot shows every address outstanding for an endpoint other than `e`. -/
def ShowsOthers (h : AuthorityHistory) (g : Inner) (e : String) (snapshot : JoinSnapshot) : Prop :=
  ∀ p ∈ outstanding h g, p.1 ≠ e → p ∈ snapshot.members.map (·.holding)

/-- No two members of the snapshot share an address. -/
def JoinSnapshot.Consistent (snapshot : JoinSnapshot) : Prop :=
  ∀ m ∈ snapshot.members, ∀ m' ∈ snapshot.members, m.ipv4 = m'.ipv4 → m.endpointId = m'.endpointId

/-- `ip` is nobody's but `e`'s. -/
def FreeFor (h : AuthorityHistory) (g : Inner) (e : String) (ip : Ipv4Addr) : Prop :=
  ∀ p ∈ outstanding h g, p.2 = ip → p.1 = e

/-- The address a reusable invite carries, if any, is nobody's but `e`'s. -/
def CarriesNoOther (h : AuthorityHistory) (g : Inner) (hash e : String) : Prop :=
  ∀ r ∈ g.disk.invites.lookup hash, r.reusable → ∀ ip ∈ r.allocatedIp, FreeFor h g e ip

/-- The condition under which addresses stay unshared. -/
def UniqueOk (A : DirectAuthority) (h : AuthorityHistory) (g : Inner) : AuthorityCall → Prop
  | .decide _ e _ secret snapshot =>
    ShowsOthers h g e snapshot ∧ snapshot.Consistent ∧
      (DirectAuthority.existingMember snapshot e = none →
        CarriesNoOther h g (inviteSecretHash A.blake3 secret) e)
  | .confirm _ e ip => (e, ip) ∈ (admissions h).map (·.holding)
  | _ => True

/-! ### What a decision gives out -/

/-- Only one-time invites are bound, and an unbound one-time invite carries no address. -/
def InviteRecord.WellUsed (r : InviteRecord) : Prop :=
  (r.reusable → r.boundEndpoint = none) ∧
    (r.reusable = false → r.boundEndpoint = none → r.allocatedIp = none)

def AuthorityDisk.WellUsed (d : AuthorityDisk) : Prop :=
  ∀ hash r, d.invites.lookup hash = some r → r.WellUsed

/-- No address is outstanding for two endpoints, and the invites are in order. -/
structure AddressInv (h : AuthorityHistory) (g : Inner) : Prop where
  unshared : Unshared (outstanding h g)
  disk : g.disk.WellUsed
  file : ∀ d, g.file = some d → d.WellUsed

variable {A : DirectAuthority} {h : AuthorityHistory} {g : Inner}

section

variable {o : Outside} {e hostname hash b : String} {snapshot : JoinSnapshot}
  {approved : Finset String} {r r' : InviteRecord} {res : Except String JoinDecision}
  {ip : Ipv4Addr}

/-- Whoever an invite is bound to after `e` presented it, is `e`. -/
theorem InviteRecord.WellUsed.bindTo_boundEndpoint (hused : r.WellUsed)
    (hb : (r.bindTo e).boundEndpoint = some b) : r.reusable = false ∧ b = e := by
  unfold bindTo at hb
  split_ifs at hb with hreusable
  · rw [hused.1 hreusable] at hb
    cases hb
  · exact ⟨by simpa using hreusable, (Option.some.inj hb).symm⟩

variable {m : MembershipEntry}

theorem FreeFor.of_existingMember (hshows : ShowsOthers h g e snapshot)
    (hconsistent : snapshot.Consistent) (hm : existingMember snapshot e = some m) :
    m.endpointId = e ∧ FreeFor h g e m.ipv4 := by
  have he := existingMember_endpointId hm
  refine ⟨he, fun p hp hip => ?_⟩
  by_contra hne
  obtain ⟨m', hm', rfl⟩ := mem_map.mp (hshows p hp hne)
  exact hne ((hconsistent m' hm' m (mem_of_find?_eq_some hm) hip).trans he)

theorem FreeFor.of_allocatePeerIp (hshows : ShowsOthers h g e snapshot)
    {blake3 : List UInt8 → List UInt8} {plan : AddressPlan} {networkId : Uuid}
    (halloc : allocatePeerIp blake3 plan networkId e (snapshot.members.map (·.ipv4)).toFinset =
      .ok ip) : FreeFor h g e ip := by
  intro p hp hip
  by_contra hne
  obtain ⟨m, hm, rfl⟩ := mem_map.mp (hshows p hp hne)
  apply (allocatePeerIp_ok halloc).2
  rw [mem_toFinset, mem_map]
  exact ⟨m, hm, hip⟩

/-- An address on a one-time invite `e` may use was reserved for `e` before. -/
theorem AddressInv.freeFor_reserved (hinv : AddressInv h g)
    (hr : g.disk.invites.lookup hash = some r) (honce : r.reusable = false)
    (hfits : r.boundEndpoint = none ∨ r.boundEndpoint = some e) (hip : r.allocatedIp = some ip) :
    r.reservation = some (e, ip) ∧ FreeFor h g e ip := by
  have hbound : r.boundEndpoint = some e := by
    rcases hfits with hnone | hsome
    · rw [(hinv.disk hash r hr).2 honce hnone] at hip
      cases hip
    · exact hsome
  have hres : r.reservation = some (e, ip) := reservation_eq_some.mpr ⟨hbound, hip⟩
  refine ⟨hres, fun p hp hp2 => ?_⟩
  exact hinv.unshared p hp (e, ip) (mem_outstanding_of_lookup hr hres) hp2

theorem InviteRecord.WellUsed.bindTo (hused : r.WellUsed) (e : String) : (r.bindTo e).WellUsed := by
  unfold InviteRecord.bindTo
  split_ifs with hreusable
  · exact hused
  · exact ⟨fun h => absurd h hreusable, fun _ h => by cases h⟩

theorem InviteRecord.WellUsed.allocate (hused : r.WellUsed) (e : String) (ip : Ipv4Addr)
    (claimed : Bool) : WellUsed { r.bindTo e with allocatedIp := some ip, claimed := claimed } := by
  refine ⟨(hused.bindTo e).1, fun honce hnone => ?_⟩
  -- a one-time invite is bound by now
  rw [bindTo_of_once e ((bindTo_reusable e r).symm.trans honce)] at hnone
  cases hnone

/-- What `Decided` means for the addresses: the record stays in order, and what it reserves and
what the decision hands out is free for `e`. -/
theorem AddressInv.of_decided (hinv : AddressInv h g) (hr : g.disk.invites.lookup hash = some r)
    (hfits : r.Fits e) (hshows : ShowsOthers h g e snapshot) (hconsistent : snapshot.Consistent)
    (hcarries : existingMember snapshot e = none → CarriesNoOther h g hash e)
    (hdecided : Decided A o e hostname snapshot approved r r' res) : r'.WellUsed ∧
      (∀ p, r'.reservation = some p → r.reservation = some p ∨ p.1 = e ∧ FreeFor h g e p.2) ∧
      ∀ entry recover, res = .ok (.admitted entry recover) →
        entry.endpointId = e ∧ FreeFor h g e entry.ipv4 := by
  have hused := hinv.disk hash r hr
  have hbind : ∀ p, (r.bindTo e).reservation = some p →
      r.reservation = some p ∨ p.1 = e ∧ FreeFor h g e p.2 := by
    rintro ⟨b, ip⟩ hp
    obtain ⟨hb, hip⟩ := reservation_eq_some.mp hp
    obtain ⟨honce, rfl⟩ := hused.bindTo_boundEndpoint hb
    rw [bindTo_allocatedIp] at hip
    exact .inl (hinv.freeFor_reserved hr honce (hfits honce) hip).1
  have hallocate : ∀ ip claimed, FreeFor h g e ip → ∀ p, reservation
      { r.bindTo e with allocatedIp := some ip, claimed := claimed } = some p →
      r.reservation = some p ∨ p.1 = e ∧ FreeFor h g e p.2 := by
    rintro ip claimed hfree ⟨b, ip'⟩ hp
    obtain ⟨hb, hip⟩ := reservation_eq_some.mp hp
    cases hip
    exact .inr ⟨(hused.bindTo_boundEndpoint hb).2, hfree⟩
  cases hdecided with
  | held hres =>
    refine ⟨hused.bindTo e, hbind, ?_⟩
    rintro entry recover rfl
    rcases hres with hres | ⟨_, hres⟩ <;> cases hres
  | recovered hmember hres =>
    obtain ⟨he, hfree⟩ := FreeFor.of_existingMember hshows hconsistent hmember
    refine ⟨hused.allocate e _ _, hallocate _ _ hfree, ?_⟩
    rintro entry recover rfl
    rcases hres with hres | hres <;> cases hres
    exact ⟨he, hfree⟩
  | reserved hnew honce hclaimed hip hres =>
    refine ⟨hused.bindTo e, hbind, ?_⟩
    rintro entry recover rfl
    rcases hres with hres | hres <;> cases hres
    exact ⟨rfl, (hinv.freeFor_reserved hr honce (hfits honce) hip).2⟩
  | @admitted ip res hnew happroved hip hres =>
    have hfree : FreeFor h g e ip := by
      rcases hip with hip | ⟨-, halloc⟩
      · by_cases hreusable : r.reusable
        · exact hcarries hnew r hr hreusable ip hip
        · have honce : r.reusable = false := by simpa using hreusable
          exact (hinv.freeFor_reserved hr honce (hfits honce) hip).2
      · exact FreeFor.of_allocatePeerIp hshows halloc
    refine ⟨hused.allocate e _ _, hallocate _ _ hfree, ?_⟩
    rintro entry recover rfl
    rcases hres with hres | hres <;> cases hres
    exact ⟨rfl, hfree⟩

end

/-! ### Runs -/

variable {m : MembershipEntry} {c : AuthorityCall} {reply : AuthorityReply}

theorem mem_admissions_cons (hm : m ∈ admissions ((c, reply) :: h)) :
    (∃ recover, reply = .decision (.admitted m recover)) ∨ m ∈ admissions h := by
  unfold admissions at hm ⊢
  rw [filterMap_cons] at hm
  split at hm
  · exact .inr hm
  · rename_i m' hreply
    rcases mem_cons.mp hm with rfl | hm
    · left
      dsimp only at hreply
      split at hreply
      · rename_i recover
        cases hreply
        exact ⟨recover, rfl⟩
      · cases hreply
    · exact .inr hm

section

variable {g' : Inner}

variable (hinv : AddressInv h g)

include hinv

theorem AddressInv.extend (e : String) (c : AuthorityCall)
    (hreply : ∀ entry recover, reply = .decision (.admitted entry recover) →
      entry.endpointId = e ∧ FreeFor h g e entry.ipv4)
    (hrecord : ∀ hash r, g'.disk.invites.lookup hash = some r → r.WellUsed ∧
      ∀ p, r.reservation = some p → p ∈ outstanding h g ∨ p.1 = e ∧ FreeFor h g e p.2)
    (hfile : g'.file = g.file ∨ g'.file = some g'.disk) : AddressInv ((c, reply) :: h) g' := by
  have hused : g'.disk.WellUsed := fun hash r hr => (hrecord hash r hr).1
  have hreserved (p) (hp : p ∈ g'.disk.reservations) :
      p ∈ outstanding h g ∨ p.1 = e ∧ FreeFor h g e p.2 := by
    obtain ⟨hash, r, hr, hp⟩ := mem_reservations.mp hp
    exact (hrecord hash r hr).2 p hp
  refine ⟨?_, hused, Inner.forall_file hinv.file hused hfile⟩
  · refine hinv.unshared.extend e fun p hp => ?_
    rcases mem_outstanding.mp hp with hp | hp | ⟨d, hd, hp⟩
    · obtain ⟨m, hm, rfl⟩ := mem_map.mp hp
      rcases mem_admissions_cons hm with ⟨recover, hm⟩ | hm
      · exact .inr (hreply m recover hm)
      · exact .inl (mem_outstanding.mpr (.inl (mem_map_of_mem hm)))
    · exact hreserved p hp
    · have hheld : ∀ d, g.file = some d → ∀ p ∈ d.reservations,
          p ∈ outstanding h g ∨ p.1 = e ∧ FreeFor h g e p.2 :=
        fun d hd p hp => .inl (mem_outstanding.mpr (.inr (.inr ⟨d, hd, hp⟩)))
      exact Inner.forall_file hheld hreserved hfile d hd p hp

theorem addressInv_decide {o : Outside} {e hostname secret : String}
    {snapshot : JoinSnapshot} {out : Inner × Except String JoinDecision}
    (hspec : DecideSpec A o (inviteSecretHash A.blake3 secret) e hostname snapshot g out)
    (hreply : ∀ entry recover, reply = .decision (.admitted entry recover) →
      out.2 = .ok (.admitted entry recover))
    (hok : UniqueOk A h g (.decide o e hostname secret snapshot)) :
    AddressInv ((.decide o e hostname secret snapshot, reply) :: h) out.1 := by
  obtain ⟨hshows, hconsistent, hcarries⟩ := hok
  refine hinv.extend e _ ?_ ?_ hspec.file
  · intro entry recover heq
    obtain ⟨r, r', hr, hfits, -, hdecided⟩ := hspec.admitted (hreply entry recover heq)
    exact (hinv.of_decided hr hfits hshows hconsistent hcarries hdecided).2.2 entry recover rfl
  · intro hash r' hr'
    rcases hspec.lookup hr' with hr' | ⟨-, r, hr, hfits, hdecided⟩
    · exact ⟨hinv.disk hash r' hr', fun p hp => .inl (mem_outstanding_of_lookup hr' hp)⟩
    · obtain ⟨hused, hreserves, -⟩ := hinv.of_decided hr hfits hshows hconsistent hcarries hdecided
      exact ⟨hused, fun p hp => (hreserves p hp).imp_left (mem_outstanding_of_lookup hr)⟩

theorem addressInv_other (hspec : StepSpec A g c g' reply)
    (hok : UniqueOk A h g c) (hreply : ∀ d, reply ≠ .decision d) :
    AddressInv ((c, reply) :: h) g' := by
  refine hinv.extend "" c (fun entry recover heq => absurd heq (hreply _)) ?_ hspec.file
  intro hash r hr
  obtain ⟨old, hold, htouched⟩ := hspec.lookup hr
  cases htouched with
  | same | revoked =>
    have hused := hinv.disk hash _ hold
    exact ⟨hused, fun p hp => .inl (mem_outstanding_of_lookup hold hp)⟩
  | blank hnone hip =>
    refine ⟨⟨fun _ => hnone, fun _ _ => hip⟩, fun p hp => ?_⟩
    exact nomatch hnone.symm.trans (reservation_eq_some.mp hp).1
  | @confirmed old o e ip hcall hbound =>
    subst hcall
    refine ⟨⟨(hinv.disk hash _ hold).1, fun _ hnone => nomatch hnone.symm.trans hbound⟩, ?_⟩
    rintro ⟨e', ip'⟩ hp
    obtain ⟨hbound', hip⟩ := reservation_eq_some.mp hp
    obtain rfl := Option.some.inj (hbound.symm.trans hbound')
    cases hip
    exact .inl (mem_outstanding.mpr (.inl hok))

theorem addressInv_load : AddressInv ((.load, .loaded) :: h) (A.load g.file) := by
  refine hinv.extend "" .load (fun _ _ heq => by cases heq) (fun hash r hr => ?_) (.inl rfl)
  unfold load at hr
  split at hr
  · rename_i d hd
    refine ⟨hinv.file d hd hash r hr,
      fun p hp => .inl (mem_outstanding.mpr (.inr (.inr ⟨d, hd, ?_⟩)))⟩
    exact mem_reservations.mpr ⟨hash, r, hr, hp⟩
  · simp at hr

theorem addressInv_step (c : AuthorityCall) (hok : UniqueOk A h g c) :
    AddressInv ((c, (A.step g c).2) :: h) (A.step g c).1 :=
  A.step_cases g
    (fun _ => addressInv_load hinv)
    (fun _ _ _ _ _ _ _ hspec hreply hok => addressInv_decide hinv hspec hreply hok)
    (fun _ _ _ hspec hreply hok => addressInv_other hinv hspec hok hreply) c hok

omit hinv

theorem addressInv_start (A : DirectAuthority) : AddressInv [] (A.load none) := by
  refine ⟨fun p hp => ?_, fun hash r hr => ?_, nofun⟩
  · rcases mem_outstanding.mp hp with hp | hp | ⟨d, hd, -⟩
    · cases hp
    · obtain ⟨hash, r, hr, -⟩ := mem_reservations.mp hp
      simp [load] at hr
    · cases hd
  · simp [load] at hr

theorem addressRun_inv (hrun : Run A.step (UniqueOk A) (A.load none) h g) : AddressInv h g :=
  hrun.invariant (addressInv_start A) fun _ _ c hinv hok => addressInv_step hinv c hok

/-- Addresses are not shared: in a run whose calls meet `UniqueOk`, two admissions with the
same address are of the same endpoint. -/
theorem admissions_unshared (hrun : Run A.step (UniqueOk A) (A.load none) h g) :
    ∀ m ∈ admissions h, ∀ m' ∈ admissions h, m.ipv4 = m'.ipv4 → m.endpointId = m'.endpointId := by
  intro m hm m' hm' hip
  have hmem : ∀ m ∈ admissions h, m.holding ∈ outstanding h g := fun m hm =>
    mem_outstanding.mpr (.inl (mem_map_of_mem hm))
  exact (addressRun_inv hrun).unshared m.holding (hmem m hm) m'.holding (hmem m' hm') hip

end

/-! ### Two runs -/

instance (h : AuthorityHistory) (g : Inner) (e : String) (ip : Ipv4Addr) :
    Decidable (FreeFor h g e ip) :=
  inferInstanceAs (Decidable (∀ p ∈ outstanding h g, _ → _))

instance (h : AuthorityHistory) (g : Inner) (hash e : String) :
    Decidable (CarriesNoOther h g hash e) :=
  inferInstanceAs (Decidable (∀ r ∈ _, _ → ∀ ip ∈ _, FreeFor h g e ip))

instance (h : AuthorityHistory) (g : Inner) (e : String) (snapshot : JoinSnapshot) :
    Decidable (ShowsOthers h g e snapshot) :=
  inferInstanceAs (Decidable (∀ p ∈ outstanding h g, _ → _))

instance (snapshot : JoinSnapshot) : Decidable snapshot.Consistent :=
  inferInstanceAs (Decidable (∀ m ∈ snapshot.members, ∀ m' ∈ snapshot.members, _ → _))

instance (A : DirectAuthority) (h : AuthorityHistory) (g : Inner) :
    DecidablePred (UniqueOk A h g) := by
  intro c
  cases c <;> unfold UniqueOk <;> infer_instance

/-- The snapshot given to a decision holds every member admitted so far. -/
def SnapshotComplete (h : AuthorityHistory) (_ : Inner) : AuthorityCall → Prop
  | .decide _ _ _ _ snapshot =>
    ∀ m ∈ admissions h, m.holding ∈ snapshot.members.map (·.holding)
  | _ => True

instance (h : AuthorityHistory) (g : Inner) : DecidablePred (SnapshotComplete h g) := by
  intro c
  cases c <;> unfold SnapshotComplete <;> infer_instance

namespace Demo

/-- Two endpoints join one after the other with the same reusable invite. -/
def reusedInvite : List AuthorityCall :=
  [.issueInvite outside true true 1000 [7], present "07", .approve outside "aa", present "07",
    .confirm outside "aa" joiner.ipv4,
    .decide outside "bb" "beta" "07" ⟨[joiner], ∅⟩, .approve outside "bb",
    .decide outside "bb" "beta" "07" ⟨[joiner], ∅⟩]

/-- The invite keeps the first endpoint's address and hands it to the second, although the
snapshot shows that it is taken. -/
theorem reusedInvite_shares :
    Meets authority.step SnapshotComplete [] (authority.load none) reusedInvite ∧
      ∃ m ∈ admissions (exec authority.step [] (authority.load none) reusedInvite).1,
        ∃ m' ∈ admissions (exec authority.step [] (authority.load none) reusedInvite).1,
          m.endpointId ≠ m'.endpointId ∧ m.ipv4 = m'.ipv4 := by
  decide

/-- Two endpoints join with a one-time invite each, the second with a snapshot that shows the
first. -/
def twoInvites : List AuthorityCall :=
  [.issueInvite outside false false 1000 [7], .issueInvite outside false false 1000 [8],
    present "07", .confirm outside "aa" joiner.ipv4,
    .decide outside "bb" "beta" "08" ⟨[joiner], ∅⟩]

theorem admissions_unshared_twoInvites :
    (admissions (exec authority.step [] (authority.load none) twoInvites).1).map (·.holding) =
        [("bb", Ipv4Addr.new 10 7 0 2), ("aa", Ipv4Addr.new 10 7 0 1)] ∧
      ∀ m ∈ admissions (exec authority.step [] (authority.load none) twoInvites).1,
        ∀ m' ∈ admissions (exec authority.step [] (authority.load none) twoInvites).1,
          m.ipv4 = m'.ipv4 → m.endpointId = m'.endpointId :=
  ⟨by decide, admissions_unshared (run_exec (by decide))⟩

end Demo

end Tunnet.Direct

import Tunnet.Direct.Demo
import Tunnet.Util.Run

/-!
# What a kick leaves of a network

The life of a network, seen from its coordinator: it admits and kicks peers and rebuilds its own
state, and members republish the records they were given. Over every such run the grants in the
document carry epochs up to the coordinator's (`networkRun_inv`). A kick raises the epoch above all
of them, so the next rebuild of any replica finds no member at all (`members_after_kick`).
-/

namespace Tunnet.Direct

open List Replica

variable {β : Type} {m : DocsMembership} {g : Genesis} {doc : Doc β} {view : View β}
  {vk : List UInt8} {e : DocEntry β} {key x : String}

/-! ### Runs of a network -/

inductive NetworkCall
  | admitPeer (now : Timestamp) (entry : MembershipEntry)
  | kick (endpointId : String)
  /-- A member writes the record it was given, under its own author. -/
  | republish (author : AuthorId) (record : SignedMemberRecord)
  /-- The coordinator rebuilds, all blobs being its own. -/
  | rebuild (now : Timestamp)

inductive NetworkReply
  | admitted (r : Except MembershipError SignedMemberRecord)
  | kicked (r : Except MembershipError Unit)
  | republished
  | rebuilt (r : Except RebuildError Unit)

def networkStep (c : Signing) (j : Serde β) (cfg : DocsConfig) (s : DocsMembership × Doc β) :
    NetworkCall → (DocsMembership × Doc β) × NetworkReply
  | .admitPeer now entry =>
    match admitPeer c j cfg now entry s.1 s.2 with
    | .ok (s', _, _, record) => (s', .admitted (.ok record))
    | .error e => (s, .admitted (.error e))
  | .kick endpointId =>
    match kickPeer c j cfg endpointId s.1 s.2 with
    | .ok s' => (s', .kicked (.ok ()))
    | .error e => (s, .kicked (.error e))
  | .republish author record => ((s.1, writeMemberRecord j author record s.2), .republished)
  | .rebuild now =>
    let out := rebuildFromDoc c j cfg (allBlobs now) s.2 s.1
    ((out.1, s.2), .rebuilt out.2)

/-- Only records the coordinator issued are republished. -/
def networkOk (h : List (NetworkCall × NetworkReply)) (_ : DocsMembership × Doc β) :
    NetworkCall → Prop
  | .republish _ record => ∃ now entry, (.admitPeer now entry, .admitted (.ok record)) ∈ h
  | _ => True

/-! ### Documents -/

theorem mem_setBytes {author : AuthorId} {content : β} (h : e ∈ doc.setBytes author key content) :
    e ∈ doc ∨ e = ⟨author, key, content⟩ := by
  rw [Doc.setBytes, mem_append, mem_filter, mem_singleton] at h
  exact h.imp_left And.left

theorem mem_setBytes_self (doc : Doc β) (author : AuthorId) (key : String) (content : β) :
    (⟨author, key, content⟩ : DocEntry β) ∈ doc.setBytes author key content := by
  simp [Doc.setBytes]

theorem mem_setBytes_of_mem (he : e ∈ doc)
    (hkey : Str.stripPrefix key e.key = none) (author : AuthorId) (content : β) :
    e ∈ doc.setBytes author key content := by
  simp [Doc.setBytes, he, hkey]

theorem stripPrefix_recordKey_epochKey (x : String) :
    Str.stripPrefix (recordKey x) epochKey = none :=
  Str.stripPrefix_eq_none_iff.2 (metaKey_ne_recordKey_append "epoch" x)

theorem stripPrefix_revocationKey_epochKey (x : String) :
    Str.stripPrefix (revocationKey x) epochKey = none := by
  refine Str.stripPrefix_eq_none_iff.2 fun t => ?_
  rw [revocationKey, String.append_assoc]
  exact metaKey_ne_revocationKey "epoch" _

/-! ### What is in the document -/

/-- The entries a coordinator and its members write while the epoch is at most `n`. -/
inductive Written {c : Signing} (C : Coordinator c) (j : Serde β) (n : Nat) (e : DocEntry β) : Prop
  | epoch (k : Nat) : e.key = epochKey → e.content = j.epoch.toVec (C.epochRecord k) → k ≤ n →
      Written C j n e
  | other (field : String) : e.key = metaKey field → metaKey field ≠ epochKey → Written C j n e
  | record (r : SignedMemberRecord) : e.key = recordKey r.endpointId →
      e.content = j.record.toVec r → r.grant.networkEpoch ≤ n → Written C j n e
  | revocation (r : Revocation) : e.key = revocationKey r.endpointId →
      e.content = j.revocation.toVec r → Written C j n e

variable {c : Signing} {C : Coordinator c} {j : Serde β}

section Written

variable {n n' k : Nat}

variable (h : Written C j n e)

include h

theorem Written.mono (hn : n ≤ n') : Written C j n' e := by
  cases h with
  | epoch k hk hc hle => exact .epoch k hk hc (hle.trans hn)
  | other field hk hne => exact .other field hk hne
  | record r hk hc hle => exact .record r hk hc (hle.trans hn)
  | revocation r hk hc => exact .revocation r hk hc

theorem Written.networkEpoch_le {r : SignedMemberRecord}
    (hkey : peerField e.key = some (x, "record")) (hparse : j.record.fromSlice e.content = some r) :
    r.grant.networkEpoch ≤ n := by
  cases h with
  | epoch k hk => rw [hk] at hkey; cases hkey
  | other field hk => rw [hk, peerField_metaKey] at hkey; cases hkey
  | record r' hk hc =>
    rw [hc, j.record.fromSlice_toVec] at hparse
    injection hparse with hparse
    rwa [← hparse]
  | revocation r' hk => rw [hk, peerField_revocationKey] at hkey; cases hkey

theorem Written.epoch_le (hk : epochOf c j view vk e = some k) : k ≤ n := by
  obtain ⟨hkey, -, hacc⟩ := readAt_eq_some_iff.1 hk
  obtain ⟨epoch, hparse, -, rfl⟩ := acceptEpoch_eq_some_iff.1 hacc
  cases h with
  | epoch k' hk hc hle =>
    rw [hc, j.epoch.fromSlice_toVec] at hparse
    injection hparse with hparse
    rw [← hparse]
    exact hle
  | other field hk hne => exact absurd (hk.symm.trans hkey) hne
  | record r hk =>
    have heq : metaKey "epoch" = recordKey r.endpointId ++ "" := by
      rw [← epochKey_eq, ← hkey, hk, String.append_empty]
    exact absurd heq (metaKey_ne_recordKey_append _ _ _)
  | revocation r hk => exact absurd (hkey.symm.trans hk) (metaKey_ne_revocationKey "epoch" _)

theorem Written.badRevocation_eq_false : badRevocation j view e = false := by
  by_contra hne
  obtain ⟨⟨x, hkey⟩, -, hparse⟩ := badRevocation_eq_true_iff.1 (Bool.not_eq_false _ ▸ hne)
  cases h with
  | epoch k' hk => exact metaKey_ne_revocationKey "epoch" x (hk.symm.trans hkey)
  | other field hk => exact metaKey_ne_revocationKey field x (hk.symm.trans hkey)
  | record r hk => exact recordKey_ne_revocationKey _ _ (hk.symm.trans hkey)
  | revocation r hk hc =>
    rw [hc, j.revocation.fromSlice_toVec] at hparse
    cases hparse

end Written

/-! ### The invariant of a run -/

/-- What holds after every call: the document is the coordinator's, its epoch entry is current, and
no record was issued for a later epoch. -/
structure NetworkInv {c : Signing} (C : Coordinator c) (j : Serde β)
    (h : List (NetworkCall × NetworkReply)) (s : DocsMembership × Doc β) : Prop where
  written : ∀ e ∈ s.2, Written C j s.1.networkEpoch e
  current : ∃ author, ⟨author, epochKey, j.epoch.toVec (C.epochRecord s.1.networkEpoch)⟩ ∈ s.2
  issued : ∀ now entry r, (.admitPeer now entry, .admitted (.ok r)) ∈ h →
    r.grant.networkEpoch ≤ s.1.networkEpoch

section Run

variable {h : List (NetworkCall × NetworkReply)} {s s₀ s' : DocsMembership × Doc β}

theorem publishGenesis_eq (m : DocsMembership) (doc : Doc β)
    (hv : c.verifyGenesis C.vk g = .ok ()) (hid : g.networkId = C.cfg.networkId) :
    publishGenesis c j C.cfg g m doc = (({ m with networkEpoch := 0, genesis := some g },
      ((doc.setBytes C.cfg.author genesisKey (j.genesis.toVec g)).setBytes C.cfg.author epochKey
        (j.epoch.toVec (C.epochRecord 0))).setBytes C.cfg.author (metaKey "name")
        (j.str C.cfg.networkName)), .ok ()) := by
  unfold publishGenesis
  rw [C.verifyingKeyFromHex, C.signingKey_eq]
  simp only [hv]
  rw [if_neg (not_not.2 hid)]
  rfl

theorem publishGenesis_ok (hok : publishGenesis c j C.cfg g m doc = (s, .ok ())) :
    c.verifyGenesis C.vk g = .ok () ∧ g.networkId = C.cfg.networkId := by
  unfold publishGenesis at hok
  rw [C.verifyingKeyFromHex] at hok
  cases hv : c.verifyGenesis C.vk g with
  | error => simp [hv] at hok
  | ok =>
    simp only [hv] at hok
    split_ifs at hok with hid
    · simp at hok
    · exact ⟨rfl, not_not.1 hid⟩

theorem networkInv_start
    (hok : publishGenesis c j C.cfg g m [] = (s, .ok ())) : NetworkInv C j [] s := by
  obtain ⟨hv, hid⟩ := publishGenesis_ok hok
  rw [publishGenesis_eq m [] hv hid] at hok
  obtain rfl := congrArg Prod.fst hok
  refine ⟨?_, ⟨C.cfg.author, ?_⟩, by simp⟩
  · intro e he
    rcases mem_setBytes he with he | rfl
    · rcases mem_setBytes he with he | rfl
      · rcases mem_setBytes he with he | rfl
        · cases he
        · exact .other "genesis" rfl (by decide)
      · exact .epoch 0 rfl rfl le_rfl
    · exact .other "name" rfl (by decide)
  · have hname : Str.stripPrefix (metaKey "name") epochKey = none := by decide
    exact mem_setBytes_of_mem (mem_setBytes_self ..) hname _ _

theorem minEpochOf_allBlobs (hinv : NetworkInv C j h s) (now : Timestamp) :
    minEpochOf c j (allBlobs now) C.vk s.2 = s.1.networkEpoch := by
  apply le_antisymm
  · exact minEpochOf_le_iff.2 fun e he k hk => (hinv.written e he).epoch_le hk
  · obtain ⟨author, hcur⟩ := hinv.current
    exact Coordinator.le_minEpochOf_epochRecord hcur rfl

theorem rebuildFromDoc_networkEpoch {cfg : DocsConfig}
    (hvk : c.verifyingKeyFromHex cfg.coordinatorVerifyingKey = .ok vk) (doc : Doc β)
    (m : DocsMembership) : (rebuildFromDoc c j cfg view doc m).1.networkEpoch = m.networkEpoch ∨
      (rebuildFromDoc c j cfg view doc m).1.networkEpoch = minEpochOf c j view vk doc := by
  unfold rebuildFromDoc
  simp only [hvk]
  split
  · exact .inl rfl
  · split
    · split_ifs <;> simp
    · split_ifs <;> simp

variable (hinv : NetworkInv C j h s)

include hinv

theorem issued_of_ne_admitPeer {i : NetworkCall}
    (hi : ∀ now entry, i ≠ .admitPeer now entry) {n : Nat} (hn : s.1.networkEpoch ≤ n)
    {reply : NetworkReply} (now : Timestamp) (entry : MembershipEntry) (r : SignedMemberRecord)
    (hr : (.admitPeer now entry, .admitted (.ok r)) ∈ (i, reply) :: h) :
    r.grant.networkEpoch ≤ n := by
  rw [mem_cons, Prod.mk.injEq] at hr
  rcases hr with ⟨hr, -⟩ | hr
  · exact absurd hr.symm (hi now entry)
  · exact (hinv.issued now entry r hr).trans hn

theorem networkInv_admit (now : Timestamp) (entry : MembershipEntry) :
    NetworkInv C j ((.admitPeer now entry, (networkStep c j C.cfg s (.admitPeer now entry)).2) :: h)
      (networkStep c j C.cfg s (.admitPeer now entry)).1 := by
  rw [networkStep, C.admitPeer_eq]
  cases grantExpiry now with
  | none =>
    refine ⟨hinv.written, hinv.current, fun now' entry' r hr => ?_⟩
    rw [mem_cons] at hr
    rcases hr with hr | hr
    · simp at hr
    · exact hinv.issued now' entry' r hr
  | some =>
    refine ⟨fun e he => ?_, ?_, fun now' entry' r hr => ?_⟩
    · rcases mem_setBytes he with he | rfl
      · exact hinv.written e he
      · exact .record _ rfl rfl le_rfl
    · obtain ⟨author, hcur⟩ := hinv.current
      exact ⟨author, mem_setBytes_of_mem hcur (stripPrefix_recordKey_epochKey _) _ _⟩
    · rw [mem_cons] at hr
      rcases hr with hr | hr
      · rw [Prod.mk.injEq, NetworkReply.admitted.injEq, Except.ok.injEq] at hr
        rw [hr.2]
        exact le_rfl
      · exact hinv.issued now' entry' r hr

theorem networkInv_kick (x : String) :
    NetworkInv C j ((.kick x, (networkStep c j C.cfg s (.kick x)).2) :: h)
      (networkStep c j C.cfg s (.kick x)).1 := by
  rw [networkStep, C.kickPeer_eq]
  refine ⟨fun e he => ?_, ⟨C.cfg.author, ?_⟩, issued_of_ne_admitPeer hinv (by simp) (Nat.le_succ _)⟩
  · rcases mem_setBytes he with he | rfl
    · rcases mem_setBytes he with he | rfl
      · exact (hinv.written e he).mono (Nat.le_succ _)
      · exact .epoch _ rfl rfl le_rfl
    · exact .revocation _ rfl rfl
  · exact mem_setBytes_of_mem (mem_setBytes_self ..) (stripPrefix_revocationKey_epochKey x) _ _

omit hinv

theorem networkInv_step (i : NetworkCall) (hinv : NetworkInv C j h s) (hok : networkOk h s i) :
    NetworkInv C j ((i, (networkStep c j C.cfg s i).2) :: h) (networkStep c j C.cfg s i).1 := by
  cases i with
  | admitPeer now entry => exact networkInv_admit hinv now entry
  | kick x => exact networkInv_kick hinv x
  | republish author record =>
    obtain ⟨now, entry, hrec⟩ := hok
    refine ⟨fun e he => ?_, ?_, issued_of_ne_admitPeer hinv (by simp) le_rfl⟩
    · rcases mem_setBytes he with he | rfl
      · exact hinv.written e he
      · exact .record record rfl rfl (hinv.issued now entry record hrec)
    · obtain ⟨a, hcur⟩ := hinv.current
      exact ⟨a, mem_setBytes_of_mem hcur (stripPrefix_recordKey_epochKey _) _ _⟩
  | rebuild now =>
    have hepoch : (rebuildFromDoc c j C.cfg (allBlobs now) s.2 s.1).1.networkEpoch =
        s.1.networkEpoch := by
      rcases rebuildFromDoc_networkEpoch C.verifyingKeyFromHex s.2 s.1 with h' | h'
      · exact h'
      · rw [h', minEpochOf_allBlobs hinv]
    rw [networkStep]
    refine ⟨?_, ?_, ?_⟩
    · simpa only [hepoch] using hinv.written
    · simpa only [hepoch] using hinv.current
    · simpa only [hepoch] using issued_of_ne_admitPeer hinv (by simp) le_rfl

theorem networkRun_inv
    (hstart : publishGenesis c j C.cfg g m [] = (s₀, .ok ()))
    (hrun : Run (networkStep c j C.cfg) networkOk s₀ h s) : NetworkInv C j h s :=
  hrun.invariant (networkInv_start hstart) fun _ _ i hinv hok => networkInv_step i hinv hok

/-! ### After a kick -/

/-- After a kick every replica that reads the whole document finds no member. -/
theorem members_after_kick (hinv : NetworkInv C j h s)
    (hkick : kickPeer c j C.cfg x s.1 s.2 = .ok s') {R : Replica c} (hvk : R.vk = C.vk)
    (hdoc : doc.Perm s'.2) (now : Timestamp) : (R.rebuild j (allBlobs now) doc).2 = .ok () ∧
      (R.rebuild j (allBlobs now) doc).1.members = ∅ := by
  have hinv' := networkInv_kick hinv x
  rw [networkStep, hkick] at hinv'
  rw [C.kickPeer_eq] at hkick
  injection hkick with hkick
  -- the new epoch is in the document
  have hepoch : s.1.networkEpoch + 1 ≤ R.epochIn j (allBlobs now) doc := by
    obtain ⟨author, hcur⟩ := hinv'.current
    have hn : s'.1.networkEpoch = s.1.networkEpoch + 1 := by rw [← hkick]
    rw [hn] at hcur
    rw [epochIn, hvk]
    exact Coordinator.le_minEpochOf_epochRecord (hdoc.mem_iff.2 hcur) rfl
  -- and every record in it was issued before
  have hempty : R.membersIn j (allBlobs now) doc = ∅ := by
    refine membersIn_eq_empty fun e he y r hkey hparse => ?_
    have hmem : e ∈ s'.2 := hdoc.mem_iff.1 he
    rw [← hkick] at hmem
    refine lt_of_lt_of_le (Nat.lt_succ_of_le ?_) hepoch
    rcases mem_setBytes hmem with hmem | rfl
    · rcases mem_setBytes hmem with hmem | rfl
      · exact (hinv.written e hmem).networkEpoch_le hkey hparse
      · rw [epochKey_eq, peerField_metaKey] at hkey
        cases hkey
    · rw [peerField_revocationKey] at hkey
      cases hkey
  have hbad : doc.any (badRevocation j (allBlobs now)) = false := by
    rw [any_eq_false]
    intro e he
    simp [(hinv'.written e (hdoc.mem_iff.1 he)).badRevocation_eq_false]
  have hok : (R.rebuild j (allBlobs now) doc).2 = .ok () := by
    rw [rebuild_ok_iff, hempty]
    exact ⟨hbad, Multiset.nodup_zero⟩
  exact ⟨hok, by rw [rebuild_members_of_ok hok, hempty]⟩

/-- What a kick removes. Take any run of a network, kick `x`, and let replicas rebuild with
every blob readable before and after, the latter in any enumeration order. The rebuild after the
kick succeeds, and it finds the members from before without `x` exactly when nobody but `x` was a
member. -/
theorem kick_removes_only_iff {g : Genesis} {m : DocsMembership} {s₀ : DocsMembership × Doc β}
    (hstart : publishGenesis c j C.cfg g m [] = (s₀, .ok ()))
    (hrun : Run (networkStep c j C.cfg) networkOk s₀ h s) {x : String}
    {s' : DocsMembership × Doc β} (hkick : kickPeer c j C.cfg x s.1 s.2 = .ok s')
    (R : Replica c) {R' : Replica c} (hvk' : R'.vk = C.vk) (doc : Doc β) {doc' : Doc β}
    (hdoc' : doc'.Perm s'.2) (now now' : Timestamp) :
    (R'.rebuild j (allBlobs now') doc').2 = .ok () ∧
    ((R'.rebuild j (allBlobs now') doc').1.members =
        (R.rebuild j (allBlobs now) doc).1.members.erase x ↔
      ∀ y, ((R.rebuild j (allBlobs now) doc).1.members.lookup y).isSome → y = x) := by
  obtain ⟨hok', hempty⟩ := members_after_kick (networkRun_inv hstart hrun) hkick hvk' hdoc' now'
  refine ⟨hok', ?_⟩
  rw [hempty]
  constructor
  · intro heq y hy
    by_contra hne
    rw [← Finmap.lookup_erase_ne hne, ← heq] at hy
    cases hy
  · intro honly
    refine Finmap.ext_lookup fun y => ?_
    rw [Finmap.lookup_empty]
    by_cases hy : y = x
    · rw [hy, Finmap.lookup_erase]
    · rw [Finmap.lookup_erase_ne hy]
      by_contra hne
      exact hy (honly y (Option.ne_none_iff_isSome.1 (symm hne)))

end Run

namespace Demo

/-- The network right after it was created. -/
def started : DocsMembership × Doc Blob :=
  (fresh, [⟨0, genesisKey, .genesis genesis⟩, ⟨0, epochKey, .epoch (coordinator.epochRecord 0)⟩,
    ⟨0, metaKey "name", .text "lab"⟩])

theorem publishGenesis_started :
    publishGenesis signing serde coordinator.cfg genesis fresh [] = (started, .ok ()) := by
  have hv : signing.verifyGenesis coordinator.vk genesis = .ok () :=
    Signing.verifyGenesis_signGenesis sk rfl
  rw [publishGenesis_eq fresh [] hv rfl]
  rfl

/-- The network with two admitted peers. -/
def twoMembers : DocsMembership × Doc Blob :=
  ({ fresh with members := (fresh.members.insert "aa" alpha).insert "bb" beta },
    started.2 ++ [admission alpha, admission beta].map (Issuance.docEntry coordinator serde))

theorem run_twoMembers : ∃ h,
    Run (networkStep signing serde coordinator.cfg) networkOk started h twoMembers := by
  have hmeets : Meets (networkStep signing serde coordinator.cfg) networkOk [] started
      [.admitPeer 0 alpha, .admitPeer 0 beta] := ⟨trivial, trivial, trivial⟩
  have hrun := run_exec hmeets
  exact ⟨_, hrun⟩

theorem membersIn_twoMembers : replica.membersIn serde (allBlobs 0) twoMembers.2 =
    (Finmap.singleton "aa" alpha).insert "bb" beta := by
  obtain ⟨h, hrun⟩ := run_twoMembers
  have hepoch : replica.epochIn serde (allBlobs 0) twoMembers.2 = 0 :=
    minEpochOf_allBlobs (networkRun_inv publishGenesis_started hrun) 0
  have hvalid : ∀ i ∈ [admission alpha, admission beta], i.2.Valid plan 0 0 := by decide
  have hstarted : ∀ e ∈ started.2, peerField e.key = none := by decide
  have hfields : ∀ e ∈ twoMembers.2, (peerField e.key).all (·.2 ≠ "metadata") := by decide
  rw [membersIn_of_no_metadata, hepoch]
  · have hrecords : twoMembers.2.filterMap (acceptRecord signing serde (allBlobs 0) replica.vk
        (replica.genesisIn serde (allBlobs 0) twoMembers.2) 0
        (replica.revokedIn serde (allBlobs 0) twoMembers.2)) =
        [admission alpha, admission beta].filterMap fun i => some i.2.arrival := by
      refine (filterMap_append ..).trans ?_
      rw [filterMap_eq_nil_iff.2 fun e he => by rw [acceptRecord, hstarted e he],
        filterMap_map, nil_append]
      refine filterMap_congr fun i hi =>
        (Issuance.acceptRecord_docEntry_iff ?_).2 ⟨?_, rfl, Finset.notMem_empty _, rfl⟩
      · rw [genesisIn_networkId]
        rfl
      · rw [genesisIn_addressPlan]
        exact hvalid i hi
    rw [hrecords]
    decide
  · intro e he x hx
    have hfield := hfields e he
    rw [hx] at hfield
    cases hfield

theorem rebuild_twoMembers_ok : (replica.rebuild serde (allBlobs 0) twoMembers.2).2 = .ok () := by
  rw [rebuild_ok_iff, membersIn_twoMembers]
  exact ⟨by decide, by decide⟩

/-- The network after `aa` was kicked. -/
def kicked : DocsMembership × Doc Blob :=
  ({ twoMembers.1 with
      networkEpoch := 1
      revoked := insert "aa" ∅
      members := twoMembers.1.members.erase "aa" },
    (twoMembers.2.setBytes 0 epochKey (.epoch (coordinator.epochRecord 1))).setBytes 0
      (revocationKey "aa") (.revocation (coordinator.revocation "aa" 1)))

theorem kickPeer_kicked :
    kickPeer signing serde coordinator.cfg "aa" twoMembers.1 twoMembers.2 = .ok kicked :=
  coordinator.kickPeer_eq serde "aa" twoMembers.1 twoMembers.2

/-- Kicking `aa` removes `bb`, too. -/
theorem kick_removes_other :
    (∃ h, Run (networkStep signing serde coordinator.cfg) networkOk started h twoMembers) ∧
    kickPeer signing serde coordinator.cfg "aa" twoMembers.1 twoMembers.2 = .ok kicked ∧
    (replica.rebuild serde (allBlobs 0) twoMembers.2).1.members.lookup "bb" = some beta ∧
    (replica.rebuild serde (allBlobs 0) kicked.2).2 = .ok () ∧
    (replica.rebuild serde (allBlobs 0) kicked.2).1.members.lookup "bb" = none := by
  obtain ⟨h, hrun⟩ := run_twoMembers
  have hinv := networkRun_inv publishGenesis_started hrun
  obtain ⟨hok, hempty⟩ := members_after_kick hinv kickPeer_kicked (R := replica) rfl (.refl _) 0
  refine ⟨⟨h, hrun⟩, kickPeer_kicked, ?_, hok, ?_⟩
  · rw [rebuild_members_of_ok rebuild_twoMembers_ok, membersIn_twoMembers]
    decide
  · rw [hempty]
    rfl

theorem kick_removes_only_iff_twoMembers :
    (replica.rebuild serde (allBlobs 0) kicked.2).2 = .ok () ∧
    ((replica.rebuild serde (allBlobs 0) kicked.2).1.members =
        (replica.rebuild serde (allBlobs 0) twoMembers.2).1.members.erase "aa" ↔
      ∀ y, ((replica.rebuild serde (allBlobs 0) twoMembers.2).1.members.lookup y).isSome →
        y = "aa") := by
  obtain ⟨h, hrun⟩ := run_twoMembers
  exact kick_removes_only_iff publishGenesis_started hrun kickPeer_kicked replica rfl twoMembers.2
    (.refl _) 0 0

end Demo

end Tunnet.Direct

import Tunnet.Operator.Leader
import Tunnet.Util.Run

/-!
# One leader

Replicas of the operator read the lease, decide whether they may take it, and patch it without
saying which version they have read. So two of them can read the same stale lease and both lead, and
a late release can take the lease from the next leader.

* `Sound`: what the lease says of every replica, as long as writes know what they overwrite.
* `Careful`: such writes. In every run of them at most one replica leads (`at_most_one_leader`).
-/

namespace Tunnet.Operator

open Cluster

section

variable {ι : Type} [DecidableEq ι] {id : ι → String} {s : Cluster ι} {i j : ι}
  {delivery : Delivery} {r r' : Replica} {spec : LeaseSpec}

/-- The version of the lease that a replica is about to overwrite. -/
def Pc.seen : Pc → Option ℕ
  | .acquiring seen => some seen
  | .patching seen _ => some seen
  | _ => none

/-- Nobody leads. -/
def Cluster.Quiet (s : Cluster ι) : Prop := ∀ j, ¬ s.Leads j

/-- What the lease is for a replica of the name `holder`, where `quiet` is that nobody leads. -/
structure Replica.Sound (holder : String) (lease : Option Lease) (quiet : Prop) (r : Replica) :
    Prop where
  held : r.pc = .leading →
    ∃ version, lease = some ⟨some ⟨some holder, some 30, some r.stamp⟩, version⟩
  read : ∀ l, r.pc = .got (some l) → ∃ current, lease = some current ∧
    (l.resourceVersion < current.resourceVersion ∨ l = current)
  free : ∀ seen, r.pc.seen = some seen → ∃ current, lease = some current ∧
    (seen < current.resourceVersion ∨ seen = current.resourceVersion ∧ quiet)

/-- What holds between the events. -/
def Sound (id : ι → String) (s : Cluster ι) : Prop :=
  ∀ i, (s.replica i).Sound (id i) s.lease s.Quiet

theorem replica_set (r : Replica) (j : ι) :
    (s.set i r).replica j = if j = i then r else s.replica j := by
  by_cases hj : j = i
  · subst hj
    simp [Cluster.set]
  · simp [Cluster.set, hj]

section

variable {holder : String} {lease : Option Lease} {quiet quiet' : Prop}

theorem Replica.Sound.mono (h : r.Sound holder lease quiet)
    (hquiet : quiet → quiet') : r.Sound holder lease quiet' := by
  refine ⟨h.held, h.read, fun seen hseen => ?_⟩
  obtain ⟨current, hcurrent, hlt | ⟨heq, hnone⟩⟩ := h.free seen hseen
  · exact ⟨current, hcurrent, .inl hlt⟩
  · exact ⟨current, hcurrent, .inr ⟨heq, hquiet hnone⟩⟩

theorem Replica.sound_of_rest (hlead : r.pc ≠ .leading)
    (hread : ∀ lease, r.pc ≠ .got (some lease)) (hfree : r.pc.seen = none) :
    r.Sound holder lease quiet :=
  ⟨fun hpc => absurd hpc hlead, fun lease hpc => absurd hpc (hread lease),
    fun _ hseen => nomatch hfree.symm.trans hseen⟩

end

/-! ### Steps that leave the lease as it is -/

/-- A replica goes on without a write. It leads only if it did. -/
theorem Sound.set (h : Sound id s) (hr : r.Sound (id i) s.lease s.Quiet)
    (hlead : r.pc = .leading → s.Leads i) : Sound id (s.set i r) := by
  have hquiet (hnone : s.Quiet) : (s.set i r).Quiet := by
    intro j hj
    rw [Leads, replica_set] at hj
    split_ifs at hj
    · exact hnone i (hlead hj)
    · exact hnone j hj
  intro j
  rw [replica_set]
  split_ifs with heq
  · subst heq
    exact hr.mono hquiet
  · exact (h j).mono hquiet

theorem Sound.rest (h : Sound id s) (hlead : r.pc ≠ .leading)
    (hread : ∀ lease, r.pc ≠ .got (some lease)) (hfree : r.pc.seen = none) : Sound id (s.set i r) :=
  h.set (Replica.sound_of_rest hlead hread hfree) fun hpc => absurd hpc hlead

theorem Sound.samePc (h : Sound id s) (hpc : r.pc = (s.replica i).pc)
    (hstamp : r.stamp = (s.replica i).stamp) : Sound id (s.set i r) := by
  refine h.set ⟨?_, ?_, ?_⟩ hpc.symm.trans
  · rw [hpc, hstamp]
    exact (h i).held
  · rw [hpc]
    exact (h i).read
  · rw [hpc]
    exact (h i).free

/-! ### Steps that write the lease -/

omit [DecidableEq ι] in
theorem Replica.Sound.overwritten {holder : String} {quiet : Prop}
    (h : r.Sound holder s.lease quiet) (hpc : r'.pc = r.pc)
    (hheld : r'.pc = .leading → spec = ⟨some holder, some 30, some r'.stamp⟩) (quiet' : Prop) :
    r'.Sound holder (s.write spec).lease quiet' := by
  have hversion {current : Lease} (hcurrent : s.lease = some current) :
      current.resourceVersion < (s.lease.map (·.resourceVersion)).getD 0 + 1 := by
    rw [hcurrent]
    exact Nat.lt_succ_self _
  refine ⟨fun hr => ?_, fun lease hr => ⟨_, rfl, .inl ?_⟩, fun seen hr => ⟨_, rfl, .inl ?_⟩⟩
  · rw [← hheld hr]
    exact ⟨_, rfl⟩
  · obtain ⟨current, hcurrent, hlt | rfl⟩ := h.read lease (hpc ▸ hr)
    · exact Nat.lt_trans hlt (hversion hcurrent)
    · exact hversion hcurrent
  · obtain ⟨current, hcurrent, hlt | ⟨rfl, -⟩⟩ := h.free seen (hpc ▸ hr)
    · exact Nat.lt_trans hlt (hversion hcurrent)
    · exact hversion hcurrent

theorem Sound.write (h : Sound id s) (hothers : ∀ j, j ≠ i → ¬ s.Leads j)
    (hr : ∀ quiet, r.Sound (id i) (s.write spec).lease quiet) :
    Sound id ((s.write spec).set i r) := by
  intro j
  rw [replica_set]
  split_ifs with heq
  · subst heq
    exact hr _
  · exact (h j).overwritten rfl (fun hpc => absurd hpc (hothers j heq)) _

/-! ### One leader -/

variable (id s)

/-- The lease names the replica. -/
def Holds (i : ι) : Prop :=
  ∃ lease ∈ s.lease, lease.spec.bind (·.holderIdentity) = some (id i)

/-- The clock does not go back, and the last patch of every leader that reached the server is not
older than the lease's duration. -/
def Prompt : LeaderEvent ι → Prop
  | .pass now => s.clock ≤ now
  | _ => ∀ i, s.Leads i → s.clock ≤ (s.replica i).stamp + 30 * 1000000000

/-- Writes that know what they overwrite. The patch that takes the lease reaches the server while
the lease is the one that was read; the patches that renew or release it do so while it names their
replica. -/
def Careful : LeaderEvent ι → Prop
  | .perform i delivery => delivery.performed →
      ∀ seen ∈ (s.replica i).pc.seen, ∀ lease ∈ s.lease, lease.resourceVersion = seen
  | .renew i delivery => delivery.performed → (s.replica i).renewal ≠ none → Holds id s i
  | .release i delivery => delivery.performed → (s.replica i).pc = .releasing → Holds id s i
  | _ => True

variable {id s} {now stamp : ℤ}

omit [DecidableEq ι] in
theorem Holds.others (hid : Function.Injective id) (h : Sound id s) (hholds : Holds id s i) (j : ι)
    (hj : j ≠ i) : ¬ s.Leads j := by
  intro hleads
  obtain ⟨lease, hlease, hholder⟩ := hholds
  obtain ⟨version, hheld⟩ := (h j).held hleads
  obtain rfl := Option.some.inj (hheld.symm.trans hlease)
  exact hj (hid (Option.some.inj hholder))

theorem not_expired (holder : String) (h : now ≤ stamp + 30 * 1000000000) :
    expired now (some ⟨some holder, some 30, some stamp⟩) = false := by
  have hage : ¬ (30 < ageSecs now stamp) := by
    rw [ageSecs, Int.tdiv_eq_ediv]
    split_ifs
    · omega
    · have hsign : (1000000000 : ℤ).sign = 1 := rfl
      omega
  simp [expired, hage]

omit [DecidableEq ι] in
theorem not_mayAcquire (hid : Function.Injective id) (hne : ∀ i, id i ≠ "") (hij : i ≠ j)
    (hnow : now ≤ stamp + 30 * 1000000000) (version : ℕ) :
    mayAcquire (id i) now ⟨some ⟨some (id j), some 30, some stamp⟩, version⟩ = false := by
  have hother : id j ≠ id i := fun heq => hij (hid heq).symm
  simp [mayAcquire, not_expired (id j) hnow, hother, hne]

theorem Sound.judge (hid : Function.Injective id) (hne : ∀ i, id i ≠ "") (h : Sound id s)
    (hprompt : ∀ i, s.Leads i → s.clock ≤ (s.replica i).stamp + 30 * 1000000000) :
    Sound id (s.judge id i) := by
  unfold Cluster.judge
  split
  · exact h.rest nofun nofun rfl
  · rename_i lease hpc
    split_ifs with hmay
    · refine h.set ⟨nofun, nofun, fun seen hseen => ?_⟩ nofun
      obtain rfl : lease.resourceVersion = seen := Option.some.inj hseen
      obtain ⟨current, hcurrent, hlt | rfl⟩ := (h i).read lease hpc
      · exact ⟨current, hcurrent, .inl hlt⟩
      -- the lease is as it was read, so a leader would be named in it and in time
      · refine ⟨lease, hcurrent, .inr ⟨rfl, fun j hj => ?_⟩⟩
        have hij : i ≠ j := by
          rintro rfl
          rw [Leads, hpc] at hj
          cases hj
        obtain ⟨version, hheld⟩ := (h j).held hj
        obtain rfl := Option.some.inj (hcurrent.symm.trans hheld)
        rw [not_mayAcquire hid hne hij (hprompt j hj)] at hmay
        cases hmay
    · exact h.rest nofun nofun rfl
  · exact h

theorem Sound.acquired (h : Sound id s)
    (hspec : spec = ⟨some (id i), some 30, some now⟩) (hnone : s.Quiet) :
    Sound id ((s.write spec).set i (s.acquired i now delivery)) := by
  refine h.write (fun j _ => hnone j) fun quiet => ?_
  cases delivery with
  | answered =>
    rw [hspec]
    exact ⟨fun _ => ⟨_, rfl⟩, nofun, nofun⟩
  | unanswered | lost => exact Replica.sound_of_rest nofun nofun rfl

theorem Sound.perform (h : Sound id s)
    (hcareful : Careful id s (.perform i delivery)) : Sound id (s.perform id i delivery) := by
  unfold Cluster.perform
  split
  · rename_i now hpc hlease
    split_ifs
    · refine h.acquired rfl fun j hj => ?_
      obtain ⟨version, hheld⟩ := (h j).held hj
      rw [hlease] at hheld
      cases hheld
    · exact h.rest nofun nofun rfl
  · exact h.rest nofun nofun rfl
  · rename_i seen now lease hpc hlease
    split_ifs with hperformed
    · refine h.acquired rfl ?_
      have hseen : (s.replica i).pc.seen = some seen := by
        rw [hpc]
        rfl
      have hsame := hcareful hperformed seen hseen lease hlease
      obtain ⟨current, hcurrent, hlt | ⟨-, hnone⟩⟩ := (h i).free seen hseen
      · obtain rfl := Option.some.inj (hlease.symm.trans hcurrent)
        exact absurd hsame (Nat.ne_of_gt hlt)
      · exact hnone
    · exact h.rest nofun nofun rfl
  · exact h.rest nofun nofun rfl
  · exact h

variable (hid : Function.Injective id)

include hid

theorem Sound.renew (h : Sound id s)
    (hcareful : Careful id s (.renew i delivery)) : Sound id (s.renew id i delivery) := by
  unfold Cluster.renew
  split
  · rename_i now lease hrenewal hlease
    split_ifs with hperformed
    · have hholds := hcareful hperformed (by simp [hrenewal])
      refine h.write (hholds.others hid h) ((h i).overwritten rfl fun _ => ?_)
      simp [renewPatch, renewed, hperformed]
    · refine h.samePc rfl ?_
      simp [renewed, hperformed]
  · exact h.samePc rfl rfl
  · exact h

theorem Sound.release (h : Sound id s)
    (hcareful : Careful id s (.release i delivery)) : Sound id (s.release i delivery) := by
  unfold Cluster.release
  split
  · rename_i lease hpc hlease
    split_ifs with hperformed
    · have hholds := hcareful hperformed hpc
      exact h.write (hholds.others hid h) fun _ => Replica.sound_of_rest nofun nofun rfl
    · exact h.rest nofun nofun rfl
  · exact h.rest nofun nofun rfl
  · exact h

theorem Sound.step (hne : ∀ i, id i ≠ "") (h : Sound id s)
    {e : LeaderEvent ι} (hprompt : Prompt s e) (hcareful : Careful id s e) :
    Sound id (s.step id e).1 := by
  cases e with
  | pass => exact h
  | get =>
    unfold Cluster.step Cluster.get
    dsimp only
    split
    · exact h.set ⟨nofun, fun lease hpc => ⟨lease, Pc.got.inj hpc, .inr rfl⟩, nofun⟩ nofun
    · exact h
  | judge => exact h.judge hid hne hprompt
  | send i =>
    unfold Cluster.step send
    dsimp only
    split
    · rename_i seen hpc
      refine h.set ⟨nofun, nofun, fun seen' hseen => (h i).free seen' ?_⟩ nofun
      rw [hpc]
      exact hseen
    · exact h
  | perform => exact h.perform hcareful
  | tick =>
    unfold Cluster.step tick
    dsimp only
    split_ifs
    · exact h.samePc rfl rfl
    · exact h
  | renew => exact h.renew hid hcareful
  | finish =>
    unfold Cluster.step finish
    dsimp only
    split
    · exact h.rest nofun nofun rfl
    · exact h
  | release => exact h.release hid hcareful
  | crash => exact h.rest nofun nofun rfl

omit hid

omit [DecidableEq ι] in
theorem sound_start (id : ι → String) (clock : ℤ) (lease : Option Lease) :
    Sound id (start clock lease) :=
  fun _ => Replica.sound_of_rest nofun nofun rfl

theorem holderId_ne_empty (podName uuid : String) : holderId podName uuid ≠ "" := by
  intro h
  have hlist := congrArg String.toList h
  simp [holderId] at hlist

/-- At most one replica leads, in every run whose writes are all `Careful`. -/
theorem at_most_one_leader (podName uuid : ι → String)
    (hid : Function.Injective fun i => holderId (podName i) (uuid i)) {clock : ℤ}
    {lease : Option Lease} {h : List (LeaderEvent ι × Unit)}
    (hrun : Run (Cluster.step fun i => holderId (podName i) (uuid i))
      (fun _ s e => Prompt s e ∧ Careful (fun i => holderId (podName i) (uuid i)) s e)
      (Cluster.start clock lease) h s) {j : ι} (hi : s.Leads i) (hj : s.Leads j) : i = j := by
  have hsound : Sound (fun i => holderId (podName i) (uuid i)) s := by
    refine hrun.invariant (I := fun _ s => Sound (fun i => holderId (podName i) (uuid i)) s)
      (sound_start _ clock lease) ?_
    exact fun _ s e hs hok => hs.step hid (fun i => holderId_ne_empty _ _) hok.1 hok.2
  obtain ⟨version, hheld⟩ := (hsound i).held hi
  have hholds : Holds (fun i => holderId (podName i) (uuid i)) s i := ⟨_, hheld, rfl⟩
  by_contra hij
  exact hholds.others hid hsound j (fun heq => hij heq.symm) hj

end

namespace Demo

def podName (i : Fin 3) : String := ["a", "b", "c"].get i

def replicaId (i : Fin 3) : String := holderId (podName i) "0"

theorem replicaId_injective : Function.Injective replicaId := by
  have hinj : ∀ i j, replicaId i = replicaId j → i = j := by
    decide
  exact fun i j => hinj i j

/-- A lease whose holder has not renewed it for 40 seconds. -/
def stale : Option Lease := some ⟨some ⟨some "d", some 30, some 0⟩, 1⟩

def after (events : List (LeaderEvent (Fin 3))) :
    List (LeaderEvent (Fin 3) × Unit) × Cluster (Fin 3) :=
  exec (Cluster.step replicaId) [] (Cluster.start 40000000000 stale) events

/-- A replica takes the lease, from its read to the answer. -/
def takes (i : Fin 3) : List (LeaderEvent (Fin 3)) :=
  [.get i, .judge i, .send i, .perform i .answered]

instance (s : Cluster (Fin 3)) : DecidablePred (Prompt s) := by
  intro e
  cases e <;> unfold Prompt <;> infer_instance

instance (s : Cluster (Fin 3)) : DecidablePred (Holds replicaId s) :=
  fun _ => inferInstanceAs (Decidable (∃ lease ∈ s.lease, _))

instance (s : Cluster (Fin 3)) : DecidablePred (Careful replicaId s) := by
  intro e
  cases e <;> unfold Careful <;> infer_instance

/-- The first replica leads, renews and releases the lease, and the second one takes it. -/
def handover : List (LeaderEvent (Fin 3)) :=
  takes 0 ++ [.tick 0, .pass 50000000000, .renew 0 .answered, .finish 0, .release 0 .answered] ++
    takes 1

theorem at_most_one_leader_handover : (after handover).2.Leads 1 ∧
    ∀ i j, (after handover).2.Leads i → (after handover).2.Leads j → i = j := by
  have hmeets : Meets (step replicaId) (fun _ s e => Prompt s e ∧ Careful replicaId s e) []
      (start 40000000000 stale) handover := by
    decide
  exact ⟨by decide, fun i j =>
    at_most_one_leader podName (fun _ => "0") replicaId_injective (run_exec hmeets)⟩

/-- Two replicas read the stale lease before either takes it. -/
def race : List (LeaderEvent (Fin 3)) :=
  [.get 0, .get 1, .judge 0, .judge 1, .send 0, .send 1, .perform 0 .answered, .perform 1 .answered]

/-- The release of a replica that has finished comes when the next one leads. -/
def lateRelease : List (LeaderEvent (Fin 3)) :=
  takes 0 ++ [.finish 0, .pass 80000000000] ++ takes 1 ++ [.release 0 .answered] ++ takes 2

/-- The events are a run in which leaders renew the lease in time. -/
def Runs (events : List (LeaderEvent (Fin 3))) : Prop :=
  Run (Cluster.step replicaId) (fun _ s e => Prompt s e) (Cluster.start 40000000000 stale)
    (after events).1 (after events).2

theorem two_leaders : (Runs race ∧ (after race).2.Leads 0 ∧ (after race).2.Leads 1) ∧
    Runs lateRelease ∧ (after lateRelease).2.Leads 1 ∧ (after lateRelease).2.Leads 2 := by
  refine ⟨⟨run_exec (by decide), ?_, ?_⟩, run_exec (by decide), ?_, ?_⟩ <;> decide

end Demo

end Tunnet.Operator

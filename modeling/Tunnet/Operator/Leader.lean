import Mathlib.Data.Int.Notation
import Mathlib.Data.Nat.Notation
import Mathlib.Logic.Function.Basic

/-!
# The operator's leader election

Replicas of the operator share one lease object. A replica reads the lease, and takes it with a
merge patch if it is free, expired or its own; while its controllers run, a task renews the lease,
and afterwards it is released.
-/

namespace Tunnet.Operator

/-! ### The lease -/

/-- The fields that the code reads; times are nanoseconds. -/
structure LeaseSpec where
  holderIdentity : Option String
  leaseDurationSeconds : Option ℤ
  renewTime : Option ℤ
  deriving DecidableEq

/-- `resourceVersion` changes with every write; the code does not look at it. -/
structure Lease where
  spec : Option LeaseSpec
  resourceVersion : ℕ
  deriving DecidableEq

/-- `format!("{}-{}", ctx.pod_name, Uuid::new_v4())`. -/
def holderId (podName uuid : String) : String := podName ++ "-" ++ uuid

/-- `duration_since(..).as_secs()`. -/
def ageSecs (now time : ℤ) : ℤ := (now - time).tdiv 1000000000

def expired (now : ℤ) (spec : Option LeaseSpec) : Bool :=
  let leaseDuration := (spec.bind (·.leaseDurationSeconds)).getD 30
  ((spec.bind (·.renewTime)).map fun t => decide (leaseDuration < ageSecs now t)).getD true

/-- The test of `try_acquire` on the lease it has read. -/
def mayAcquire (holder : String) (now : ℤ) (lease : Lease) : Bool :=
  let current := (lease.spec.bind (·.holderIdentity)).getD ""
  current == holder || current == "" || expired now lease.spec

/-- The lease that `try_acquire` creates. -/
def newLease (holder : String) (now : ℤ) : LeaseSpec := ⟨some holder, some 30, some now⟩

/-- The merge patch of `renew_lease`, with which a lease is also taken. -/
def renewPatch (holder : String) (now : ℤ) (_ : Option LeaseSpec) : LeaseSpec :=
  ⟨some holder, some 30, some now⟩

/-- The merge patch of `release_lease`. -/
def releasePatch (now : ℤ) (spec : Option LeaseSpec) : LeaseSpec :=
  ⟨none, spec.bind (·.leaseDurationSeconds), some now⟩

/-! ### Replicas -/

/-- Where a replica is in `run_as_leader`. `seen` is the version that was read; the patch does not
carry it. -/
inductive Pc
  | idle
  | got (lease : Option Lease)
  | creating (now : ℤ)
  | acquiring (seen : ℕ)
  | patching (seen : ℕ) (now : ℤ)
  | leading
  | releasing
  | finished
  deriving DecidableEq

structure Replica where
  pc : Pc
  /-- The task that renews the lease goes on. -/
  renewing : Bool
  /-- A renewal that is on its way, with its time. -/
  renewal : Option ℤ
  /-- The time of the last patch of this replica that reached the server. -/
  stamp : ℤ

/-- What becomes of a request. -/
inductive Delivery
  | answered
  | unanswered
  | lost
  deriving DecidableEq

def Delivery.performed : Delivery → Bool
  | .lost => false
  | _ => true

structure Cluster (ι : Type) where
  clock : ℤ
  lease : Option Lease
  replica : ι → Replica

inductive LeaderEvent (ι : Type)
  | pass (now : ℤ)
  | get (i : ι)
  | judge (i : ι)
  | send (i : ι)
  | perform (i : ι) (delivery : Delivery)
  | tick (i : ι)
  | renew (i : ι) (delivery : Delivery)
  | finish (i : ι)
  | release (i : ι) (delivery : Delivery)
  | crash (i : ι)

namespace Cluster

variable {ι : Type} [DecidableEq ι]

def set (s : Cluster ι) (i : ι) (r : Replica) : Cluster ι :=
  { s with replica := Function.update s.replica i r }

/-- A request that writes the lease. -/
def write (s : Cluster ι) (spec : LeaseSpec) : Cluster ι :=
  { s with lease := some ⟨some spec, (s.lease.map (·.resourceVersion)).getD 0 + 1⟩ }

section

variable (id : ι → String) (s : Cluster ι) (i : ι)

/-- `leases.get`. -/
def get : Cluster ι :=
  match (s.replica i).pc with
  | .idle => s.set i { s.replica i with pc := .got s.lease }
  | _ => s

/-- What `try_acquire` does with its answer. -/
def judge : Cluster ι :=
  match (s.replica i).pc with
  | .got none => s.set i { s.replica i with pc := .creating s.clock }
  | .got (some lease) =>
    if mayAcquire (id i) s.clock lease then
      s.set i { s.replica i with pc := .acquiring lease.resourceVersion }
    else s.set i { s.replica i with pc := .idle }
  | _ => s

/-- `renew_lease` builds the patch. -/
def send : Cluster ι :=
  match (s.replica i).pc with
  | .acquiring seen => s.set i { s.replica i with pc := .patching seen s.clock }
  | _ => s

/-- The replica leads if it is told of the success. -/
def acquired (now : ℤ) : Delivery → Replica
  | .answered => ⟨.leading, true, none, now⟩
  | _ => { s.replica i with pc := .idle, stamp := now }

/-- The server creates the lease unless it is there, or patches it unless it is not there. -/
def perform (delivery : Delivery) : Cluster ι :=
  match (s.replica i).pc, s.lease with
  | .creating now, none =>
    if delivery.performed then (s.write (newLease (id i) now)).set i (s.acquired i now delivery)
    else s.set i { s.replica i with pc := .idle }
  | .creating _, some _ => s.set i { s.replica i with pc := .idle }
  | .patching _ now, some lease =>
    if delivery.performed then
      (s.write (renewPatch (id i) now lease.spec)).set i (s.acquired i now delivery)
    else s.set i { s.replica i with pc := .idle }
  | .patching _ _, none => s.set i { s.replica i with pc := .idle }
  | _, _ => s

/-- The interval of the task ticks. -/
def tick : Cluster ι :=
  if (s.replica i).renewing ∧ (s.replica i).renewal = none then
    s.set i { s.replica i with renewal := some s.clock }
  else s

/-- The task ends with the first renewal that fails. -/
def renewed (now : ℤ) (delivery : Delivery) : Replica :=
  { s.replica i with
    renewal := none
    renewing := (s.replica i).renewing && decide (delivery = .answered)
    stamp := if delivery.performed then now else (s.replica i).stamp }

def renew (delivery : Delivery) : Cluster ι :=
  match (s.replica i).renewal, s.lease with
  | some now, some lease =>
    if delivery.performed then
      (s.write (renewPatch (id i) now lease.spec)).set i (s.renewed i now delivery)
    else s.set i (s.renewed i now delivery)
  | some now, none => s.set i (s.renewed i now .lost)
  | none, _ => s

/-- The controllers return, and the task is aborted; a renewal may be on its way. -/
def finish : Cluster ι :=
  match (s.replica i).pc with
  | .leading => s.set i { s.replica i with pc := .releasing, renewing := false }
  | _ => s

/-- `release_lease`; its error is dropped. -/
def release (delivery : Delivery) : Cluster ι :=
  match (s.replica i).pc, s.lease with
  | .releasing, some lease =>
    if delivery.performed then
      (s.write (releasePatch s.clock lease.spec)).set i { s.replica i with pc := .finished }
    else s.set i { s.replica i with pc := .finished }
  | .releasing, none => s.set i { s.replica i with pc := .finished }
  | _, _ => s

def crash : Cluster ι := s.set i { s.replica i with pc := .finished, renewing := false }

end

def step (id : ι → String) (s : Cluster ι) : LeaderEvent ι → Cluster ι × Unit
  | .pass now => ({ s with clock := now }, ())
  | .get i => (s.get i, ())
  | .judge i => (s.judge id i, ())
  | .send i => (s.send i, ())
  | .perform i delivery => (s.perform id i delivery, ())
  | .tick i => (s.tick i, ())
  | .renew i delivery => (s.renew id i delivery, ())
  | .finish i => (s.finish i, ())
  | .release i delivery => (s.release i delivery, ())
  | .crash i => (s.crash i, ())

/-- The controllers of a replica run. -/
def Leads (s : Cluster ι) (i : ι) : Prop := (s.replica i).pc = .leading

instance (s : Cluster ι) (i : ι) : Decidable (s.Leads i) :=
  inferInstanceAs (Decidable ((s.replica i).pc = .leading))

/-- Nobody has started yet. -/
def start (clock : ℤ) (lease : Option Lease) : Cluster ι :=
  ⟨clock, lease, fun _ => ⟨.idle, false, none, clock⟩⟩

end Cluster

end Tunnet.Operator

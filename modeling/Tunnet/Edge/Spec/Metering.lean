import Mathlib.Algebra.Group.Nat.Even
import Tunnet.Edge.Usage

/-!
# Which bytes are metered

Bytes that are recorded for a tunnel are lost when an upload fails, when the sum of the meter
overflows, and when the tunnel has no id.

* `Usage.Keeps`: the call does none of this to the bytes of a tunnel.
* `Usage.conserved_iff`: the recorded bytes are all accounted for exactly if every call keeps them.
-/

namespace Tunnet.Edge

/-- The bytes of a tunnel that a call records. -/
def UsageCall.bytes (tunnelId : String) : UsageCall → ℕ
  | .record id bytes => if id = tunnelId then bytes.toNat else 0
  | .flush _ _ => 0

def recorded (tunnelId : String) : List UsageCall → ℕ
  | [] => 0
  | c :: calls => c.bytes tunnelId + recorded tunnelId calls

namespace Usage

variable (u : Usage) (tunnelId : String)

/-- The bytes of a tunnel in acknowledged uploads and in the meter. -/
def total : ℕ := u.acknowledged tunnelId + (u.meter tunnelId).toNat

/-- A call keeps the bytes of a tunnel: what it records is added to them, and if it uploads any the
upload is acknowledged. -/
def Keeps : UsageCall → Prop
  | .record id bytes => id = tunnelId → bytes = 0 ∨
      tunnelId ≠ "" ∧ (u.meter tunnelId).toNat + bytes.toNat < 2 ^ 64
  | .flush metering acknowledged => metering → u.meter tunnelId = 0 ∨ acknowledged

theorem toNat_record (bytes : UInt64) : let meter := u.meter.record tunnelId bytes
    (meter tunnelId).toNat ≤ (u.meter tunnelId).toNat + bytes.toNat ∧
      ((meter tunnelId).toNat = (u.meter tunnelId).toNat + bytes.toNat ↔
        u.Keeps tunnelId (.record tunnelId bytes)) := by
  unfold UsageMeter.record Keeps
  have hzero : bytes = 0 ↔ bytes.toNat = 0 := UInt64.toNat_inj.symm
  split_ifs with hskip
  · refine ⟨Nat.le_add_right _ _, ?_⟩
    rcases hskip with h | h
    · simp [h]
    · simp [h, hzero]
  · rw [not_or] at hskip
    simp only [Function.update_self, UInt64.toNat_add, forall_true_left, hskip, ne_eq,
      not_false_eq_true, true_and, false_or]
    have hle := Nat.mod_le ((u.meter tunnelId).toNat + bytes.toNat) (2 ^ 64)
    refine ⟨hle, fun heq => ?_, Nat.mod_eq_of_lt⟩
    rw [← heq]
    exact Nat.mod_lt _ (by decide)

/-- A call adds at most what it records, and exactly that if it keeps the bytes of the tunnel. -/
theorem total_step (c : UsageCall) :
    (u.step c).total tunnelId ≤ u.total tunnelId + c.bytes tunnelId ∧
      ((u.step c).total tunnelId = u.total tunnelId + c.bytes tunnelId ↔ u.Keeps tunnelId c) := by
  unfold total
  cases c with
  | record id bytes =>
    by_cases hid : id = tunnelId
    · subst hid
      obtain ⟨hle, hiff⟩ := u.toNat_record id bytes
      simp only [step, UsageCall.bytes, if_true, ← hiff]
      omega
    · have hother : u.meter.record id bytes tunnelId = u.meter tunnelId := by
        unfold UsageMeter.record
        split_ifs
        · rfl
        · exact Function.update_of_ne (Ne.symm hid) _ _
      simp [step, UsageCall.bytes, Keeps, hother, hid]
  | flush metering acknowledged =>
    have hzero : u.meter tunnelId = 0 ↔ (u.meter tunnelId).toNat = 0 := UInt64.toNat_inj.symm
    cases metering <;> cases acknowledged <;>
      simp [step, flushUsage, UsageMeter.takeAll, UsageCall.bytes, Keeps, hzero]

/-- Every call keeps the bytes of the tunnel. -/
def AllKeep : Usage → List UsageCall → Prop
  | _, [] => True
  | u, c :: calls => u.Keeps tunnelId c ∧ AllKeep (u.step c) calls

theorem total_run (calls : List UsageCall) :
    (u.run calls).total tunnelId ≤ u.total tunnelId + recorded tunnelId calls ∧
      ((u.run calls).total tunnelId = u.total tunnelId + recorded tunnelId calls ↔
        AllKeep tunnelId u calls) := by
  induction calls generalizing u with
  | nil => exact ⟨Nat.le_refl (u.total tunnelId), iff_of_true rfl trivial⟩
  | cons c calls ih =>
    obtain ⟨hstep, hkeeps⟩ := u.total_step tunnelId c
    obtain ⟨hrest, hall⟩ := ih (u.step c)
    have hrun : u.run (c :: calls) = (u.step c).run calls := rfl
    rw [AllKeep, ← hkeeps, ← hall, hrun, recorded]
    omega

/-- The recorded bytes of a tunnel are those in acknowledged uploads and in the meter exactly if
every call keeps them. -/
theorem conserved_iff (calls : List UsageCall) :
    recorded tunnelId calls = (initial.run calls).acknowledged tunnelId +
        ((initial.run calls).meter tunnelId).toNat ↔ AllKeep tunnelId initial calls := by
  rw [← (total_run initial tunnelId calls).2, eq_comm]
  exact iff_of_eq (congrArg _ (Nat.zero_add _).symm)

end Usage

namespace Demo

/-- An upload fails, and the five bytes are gone. -/
theorem failed_upload_loses : let calls := [.record "t" 5, .flush true false]
    recorded "t" calls = 5 ∧ (Usage.initial.run calls).acknowledged "t" = 0 ∧
      (Usage.initial.run calls).meter "t" = 0 := by
  decide

end Demo

end Tunnet.Edge

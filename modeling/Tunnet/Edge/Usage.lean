import Mathlib.Data.Nat.Notation
import Mathlib.Logic.Function.Basic

/-!
# Metered bytes

`tunnet-edge/src/usage.rs`, and `flush_usage` of `control.rs`. The bytes of a tunnel add up in the
meter. A flush takes them out and uploads them; when the upload fails they are not put back.
-/

namespace Tunnet.Edge

/-- The bytes of each tunnel that wait to be uploaded. -/
abbrev UsageMeter := String → UInt64

namespace UsageMeter

/-- The sum is taken modulo 2 ^ 64, as in a release build. -/
def record (m : UsageMeter) (tunnelId : String) (bytes : UInt64) : UsageMeter :=
  if bytes = 0 ∨ tunnelId = "" then m else Function.update m tunnelId (m tunnelId + bytes)

/-- What is taken out, and the meter afterwards. -/
def takeAll (m : UsageMeter) : UsageMeter × UsageMeter := (m, fun _ => 0)

end UsageMeter

inductive UsageCall
  | record (tunnelId : String) (bytes : UInt64)
  /-- A flush: whether metering is enabled, and whether the upload is acknowledged. -/
  | flush (metering acknowledged : Bool)

/-- The meter, and the bytes of each tunnel in acknowledged uploads. -/
structure Usage where
  meter : UsageMeter
  acknowledged : String → ℕ

namespace Usage

variable (u : Usage)

def flushUsage (acknowledged : Bool) : Usage :=
  let (drained, meter) := u.meter.takeAll
  if acknowledged then ⟨meter, fun id => u.acknowledged id + (drained id).toNat⟩
  else { u with meter }

def step : UsageCall → Usage
  | .record id bytes => { u with meter := u.meter.record id bytes }
  | .flush metering acknowledged => if metering then u.flushUsage acknowledged else u

def run (calls : List UsageCall) : Usage := calls.foldl step u

def initial : Usage := ⟨fun _ => 0, fun _ => 0⟩

end Usage

end Tunnet.Edge

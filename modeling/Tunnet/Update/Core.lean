import Mathlib.Order.Lattice
import Tunnet.Util.Faults

/-!
# Updating the Core

The Core is a unit of two binaries. An update copies the installed binaries aside, replaces each of
them by two renames, and leaves a marker; the next start of the agent looks at the marker and may
put the old binaries back.
-/

namespace Tunnet.Update

abbrev Bytes := List UInt8

/-- `core_unit_names`, in the order in which they are replaced. -/
inductive UnitName
  | tunnet
  | tunnetd
  deriving DecidableEq

def unitNames : List UnitName := [.tunnet, .tunnetd]

/-- A binary where it is installed, with the files that `replace_install_file` puts beside it. -/
structure Slot where
  dest : Option Bytes
  staged : Option Bytes
  rejected : Option Bytes

/-- Times are nanoseconds; the marker has whole seconds. -/
structure PendingUpdate where
  installedAtUnix : ℤ
  fromVersion : String
  toVersion : String
  apiVersion : ℕ
  healthWindowSecs : ℕ
  boots : ℕ
  deriving DecidableEq

/-- The installation, the directory of the previous unit, the payload that was verified, and the
marker. -/
structure CoreDisk where
  install : UnitName → Slot
  previous : Option (UnitName → Option Bytes)
  payload : UnitName → Option Bytes
  pending : Option PendingUpdate

namespace CoreDisk

def setSlot (d : CoreDisk) (n : UnitName) (slot : Slot) : CoreDisk :=
  { d with install := Function.update d.install n slot }

def previousFile (d : CoreDisk) (n : UnitName) : Option Bytes := d.previous.bind (· n)

end CoreDisk

/-! ### Steps -/

inductive ReplaceStep
  | removeStaged
  | removeRejected
  | copy
  | renameAway
  | renameIn
  | cleanup
  deriving DecidableEq

/-- The steps at which the machine may stop. `restore` is used by `restore_previous_unit` and by
`restore_unit`. -/
inductive UpdateStep
  | readPending
  | removePrevious
  | createPrevious
  | backup (n : UnitName)
  | activate (n : UnitName) (s : ReplaceStep)
  | stageDir
  | createUpdateDir
  | writePending
  | reload
  | restore (n : UnitName) (s : ReplaceStep)
  | removePending
  | discardPrevious
  | restart
  | copyWorker
  deriving DecidableEq

abbrev Upd := Faulty UpdateStep CoreDisk String

/-- What an interrupted step leaves: so many bytes of a copy, and these files of a directory that is
removed. -/
structure Leftover where
  copied : ℕ
  kept : UnitName → Bool

open Faulty (act raise attempt get)

section

variable (cut : Leftover)

/-! ### Replacing a binary -/

/-- `std::fs::copy`. -/
def copyFile (i : UpdateStep) (src : Option Bytes) (put : Bytes → CoreDisk → CoreDisk) : Upd Unit :=
  match src with
  | none => raise "copy"
  | some b => act i "copy" (put b) (put (b.take cut.copied))

/-- The binary that is installed, if there is one, makes way. -/
def renameAway (step : ReplaceStep → UpdateStep) (n : UnitName) : Upd Unit := do
  if ((← get).install n).dest.isSome then
    act (step .renameAway) "rename" fun d =>
      d.setSlot n { d.install n with dest := none, rejected := (d.install n).dest }

/-- Remove what an earlier replacement left beside the binary. -/
def removeLeft (step : ReplaceStep → UpdateStep) (n : UnitName) : Upd Unit := do
  let _ ← attempt (act (step .removeStaged) ""
    fun d => d.setSlot n { d.install n with staged := none })
  let _ ← attempt (act (step .removeRejected) ""
    fun d => d.setSlot n { d.install n with rejected := none })

def replaceInstallFile (step : ReplaceStep → UpdateStep) (src : Option Bytes) (n : UnitName) :
    Upd Unit := do
  removeLeft step n
  copyFile cut (step .copy) src fun b d => d.setSlot n { d.install n with staged := some b }
  renameAway step n
  act (step .renameIn) "rename" fun d =>
    d.setSlot n { d.install n with dest := (d.install n).staged, staged := none }
  let _ ← attempt (act (step .cleanup) ""
    fun d => d.setSlot n { d.install n with rejected := none })

/-- One name of `restoreUnit`. -/
def restoreFile (n : UnitName) : Upd Unit := do
  match (← get).previousFile n with
  | some b => replaceInstallFile cut (.restore n) (some b) n
  | none => pure ()

/-- `restore_previous_unit` and `restore_unit`. -/
def restoreUnit : List UnitName → Upd Unit
  | [] => pure ()
  | n :: ns => do
    restoreFile cut n
    restoreUnit ns

/-! ### Activation -/

structure CoreManifest where
  version : String
  apiVersion : ℕ

/-- `trim_start_matches('v')`. -/
def CoreManifest.target (m : CoreManifest) : String :=
  String.ofList (m.version.toList.dropWhile (· == 'v'))

/-- Seconds of a time, as the marker has them. -/
def asSecond (time : ℤ) : ℤ := time.tdiv 1000000000

def defaultHealthSecs : ℕ := 30

/-- The marker of a new update. -/
def newPending (now : ℤ) (fromVersion toVersion : String)
    (targetApiVersion healthWindowSecs : ℕ) : PendingUpdate where
  installedAtUnix := asSecond now
  fromVersion := fromVersion
  toVersion := toVersion
  apiVersion := targetApiVersion
  healthWindowSecs := if healthWindowSecs = 0 then defaultHealthSecs else healthWindowSecs
  boots := 0

def writePending (pending : PendingUpdate) : Upd Unit := do
  act .createUpdateDir "create" id
  act .writePending "write" fun d => { d with pending := some pending }

/-- `stage_pending` creates the directory of the update, and `write_pending` does so again. -/
def stagePending (now : ℤ) (fromVersion toVersion : String)
    (targetApiVersion healthWindowSecs : ℕ) :
    Upd Unit := do
  act .stageDir "create" id
  writePending (newPending now fromVersion toVersion targetApiVersion healthWindowSecs)

/-- Files that are left of a directory that is being removed. -/
def Leftover.of (cut : Leftover) (files : UnitName → Option Bytes) (n : UnitName) : Option Bytes :=
  if cut.kept n then files n else none

/-- One name of `backup`. -/
def backupFile (n : UnitName) : Upd Unit := do
  match ((← get).install n).dest with
  | some b =>
    copyFile cut (.backup n) (some b) fun b d =>
      { d with previous := d.previous.map fun files => Function.update files n (some b) }
  | none => pure ()

/-- Copy the installed binaries to the directory of the previous unit. -/
def backup : List UnitName → Upd Unit
  | [] => pure ()
  | n :: ns => do
    backupFile cut n
    backup ns

/-- One name of `replaceAll`. -/
def activateFile (n : UnitName) : Upd Unit := do
  replaceInstallFile cut (.activate n) ((← get).payload n) n

def replaceAll : List UnitName → Upd Unit
  | [] => pure ()
  | n :: ns => do
    activateFile cut n
    replaceAll ns

variable (now : ℤ) (running : String) (m : CoreManifest)

/-- The closure of `activate_verified`. -/
def activate : Upd Unit := do
  replaceAll cut unitNames
  stagePending now running m.target m.apiVersion 30
  act .reload "reload" id

/-- Remove the directory of the previous unit. -/
def clearPrevious : Upd Unit := do
  if (← get).previous.isSome then
    act .removePrevious "remove" (fun d => { d with previous := none })
      fun d => { d with previous := d.previous.map cut.of }

/-- The part of `activate_verified` before the first binary is replaced. -/
def prepare : Upd Unit := do
  clearPrevious cut
  act .createPrevious "create" fun d => { d with previous := some fun _ => none }
  backup cut unitNames

/-- What `activate_verified` does after an error. -/
def recover : Upd Unit := do
  let _ ← attempt (restoreUnit cut unitNames)
  let _ ← attempt (act .removePending "" fun d => { d with pending := none })
  raise "Core activation failed; restored the previous installation unit"

/-- The end of `activate_verified`. -/
def conclude : Except String Unit → Upd Unit
  | .ok _ => pure ()
  | .error _ => recover cut

/-- The part of `activate_verified` when the previous unit is saved. -/
def activateOrRecover : Upd Unit := do
  let result ← attempt (activate cut now running m)
  conclude cut result

def activateVerified : Upd Unit := do
  prepare cut
  activateOrRecover cut now running m

end

/-! ## The agent's start after an update

The marker of an update counts the starts of the new version. A second start within the health
window puts the previous unit back; once the window has passed, the update is confirmed and the
previous unit is discarded. -/

open Faulty (query)

/-- What a daemon was built as. -/
structure Build where
  version : String
  api : ℕ

section

variable (windows : Bool) (cut : Leftover)

/-- Remove the directory of the previous unit. -/
def discardPrevious : Upd Unit :=
  act .discardPrevious "" (fun d => { d with previous := none })
    fun d => { d with previous := d.previous.map cut.of }

def removePending : Upd Unit := act .removePending "" fun d => { d with pending := none }

/-- The part of `revert_to_previous` that follows the restored unit. -/
def afterRestore : Upd Unit := do
  let _ ← attempt (discardPrevious cut)
  let _ ← attempt removePending
  let _ ← attempt (act .restart "" id)

def revertToPrevious : Upd Unit := do
  if (← get).previous.isSome then
    restoreUnit cut unitNames
    afterRestore cut
  else
    let _ ← attempt removePending

/-- The worker of `schedule_rollback`. -/
def copyWorker : Upd Unit := do
  copyFile cut .copyWorker ((← get).previousFile .tunnetd) fun _ d => d

/-- On Windows a copy of the previous daemon puts the unit back. -/
def rollback : Upd Unit :=
  if windows then do
    copyWorker cut
    revertToPrevious cut
  else revertToPrevious cut

def confirm : Upd Unit := do
  let _ ← attempt removePending
  let _ ← attempt (discardPrevious cut)

variable (pending : PendingUpdate)

def markUpdateSuccess : Upd Unit := do
  match (← get).pending with
  | none => pure ()
  | some current => if current.toVersion = pending.toVersion then confirm cut else pure ()

/-- Whole seconds from the activation to now. -/
def PendingUpdate.elapsed (now : ℤ) : ℕ :=
  ((now - pending.installedAtUnix * 1000000000).tdiv 1000000000).toNat

def PendingUpdate.window : ℕ := max pending.healthWindowSecs 1

/-- `saturating_add` on `u32`. -/
def PendingUpdate.boot : PendingUpdate :=
  { pending with boots := min (pending.boots + 1) 0xFFFFFFFF }

/-- The running daemon is not the one that the marker is about. -/
def PendingUpdate.Mismatch (running : Build) : Prop :=
  pending.toVersion ≠ running.version ∨ pending.apiVersion ≠ running.api

instance (pending : PendingUpdate) (running : Build) : Decidable (pending.Mismatch running) :=
  inferInstanceAs (Decidable (_ ∨ _))

/-- The task that confirms the update when the rest of the window has passed. -/
structure HealthCheck where
  remaining : ℕ
  pending : PendingUpdate

/-- What a start does with the marker. -/
def checkPending (running : Build) (now : ℤ) (pending : PendingUpdate) : Upd (Option HealthCheck) :=
  if pending.Mismatch running then do
    rollback windows cut
    return none
  else do
    writePending pending.boot
    if 1 < pending.boot.boots ∧ pending.elapsed now < pending.window then
      rollback windows cut
      return none
    else if pending.window ≤ pending.elapsed now then
      markUpdateSuccess cut pending.boot
      return none
    else return some ⟨pending.window - pending.elapsed now, pending.boot⟩

def onAgentStart (running : Build) (now : ℤ) : Upd (Option HealthCheck) := do
  if (← get).pending.isSome then
    let pending ← query .readPending "read update pending" (·.pending)
    checkPending windows cut running now pending
  else return none

end

end Tunnet.Update

import Depot.Inventory.Json
import Depot.Site.State

/-!
# Using the inventory

The calls by which a depot reads and changes its inventory. Each may be refused beforehand. A change is
written to the inventory's file at once; if that fails, so does the call, although the inventory has
changed in memory.
-/

namespace Depot.Records

open Act Time

/-- Whether a fault strikes on this occasion. -/
def strikes (f : Fault) : Act Bool := do
  match (← get).faults f with
  | [] => return false
  | pattern =>
    modify fun s => { s with faults := fun g => if g = f then pattern.next.2 else s.faults g }
    return pattern.next.1

/-- Begin a call, unless it is refused. -/
def reach (call : StoreCall) : Act Unit := do
  if ← strikes (.refuse call) then
    throw (.store ("injected " ++ call.name))

/-- Write the inventory to its file, if it has one. -/
def persist : Act Unit := do
  let s ← get
  match s.storePath with
  | none => pure ()
  | some path =>
    let (disk, written) := s.disk.replace path (some s.inventory.text)
    set { s with disk := disk }
    if !written then throw (.filesystem none)

/-- Change the inventory, in memory and in its file. -/
def change (f : Inventory → Inventory) : Act Unit := do
  modify fun s => { s with inventory := f s.inventory }
  persist

/-! ### Files -/

/-- The record of a file. -/
def loadFile (id : FileId) : Act (Option FileRecord) := do
  reach .loadFile
  if ← strikes .missFile then return none
  return (← get).inventory.files.get? id

/-- Keep a record. -/
def saveFile (f : FileRecord) : Act Unit := do
  reach .saveFile
  change (·.saveFile f)

/-- Drop a record and the references to its file; none if there is no record to drop. -/
def deleteFile (id : FileId) : Act (Option FileRecord) := do
  reach .deleteFile
  if ← strikes .loseClaim then return none
  let found := (← get).inventory.files.get? id
  change (·.deleteFile id)
  return found

/-- The kilobytes of the files that are there. -/
def sumAvailable : Act Nat := do
  reach .sumAvailable
  return (← get).inventory.availableKb

/-- The files that may be let go before a time, the earliest first. -/
def findUnlocked (time : Instant) : Act (List FileRecord) := do
  reach .findUnlocked
  return (← get).inventory.unlockedBefore time

/-- The files still to come. -/
def findPending : Act (List FileRecord) := do
  reach .findPending
  return (← get).inventory.pendingFiles

/-! ### References -/

/-- Let a request refer to a file. -/
def addReference (id : FileId) (r : RequestId) : Act Unit := do
  reach .addReference
  if !(← get).inventory.refers id r then change (·.addReference id r)

/-- Take back the reference of a request to a file. -/
def removeReference (id : FileId) (r : RequestId) : Act Unit := do
  reach .removeReference
  if (← get).inventory.refers id r then change (·.removeReference id r)

/-- The requests that refer to a file. -/
def findReferrers (id : FileId) : Act (List RequestId) := do
  reach .findReferrers
  return (← get).inventory.referrers id

/-! ### Jobs -/

/-- A job. -/
def loadJob (r : RequestId) : Act (Option Job) := do
  reach .loadJob
  if ← strikes .missJob then return none
  return (← get).inventory.jobs.get? r

/-- Keep a job. -/
def saveJob (j : Job) : Act Unit := do
  reach .saveJob
  change (·.saveJob j)

/-- The jobs with a status, by their creation. -/
def findByStatus (status : JobStatus) : Act (List Job) := do
  reach .findByStatus
  return (← get).inventory.jobsWithStatus status

/-- The jobs that expire after one time and not after another. -/
def findExpiring (after upTo : Instant) : Act (List Job) := do
  reach .findExpiring
  return (← get).inventory.expiringBetween after upTo

/-- The jobs that do not expire, or only after a time. -/
def findUnexpired (time : Instant) : Act (List Job) := do
  reach .findUnexpired
  return (← get).inventory.unexpiredAt time

/-- Give a job another status from outside: no call is counted, and nobody learns of a failure. -/
def overwriteStatus (r : RequestId) (status : JobStatus) : Act Unit := do
  if (← get).inventory.jobs.contains r then
    forgive (change (·.overwriteStatus r status))

end Depot.Records

import Depot.Job.Record
import Depot.Sorting
import Depot.Table

/-!
# The inventory

All that the depot remembers: a record of every file, the requests that refer to each file, and the
jobs. This module holds the changes and queries themselves; how they may fail, and how an inventory is
kept in a file, is not its concern.

## Main statements

* `Inventory.mem_unlockedBefore`, `Inventory.mem_expiringBetween`, `Inventory.mem_unexpiredAt` — what
  the queries find.
-/

namespace Depot

open Time

/-- What the depot remembers. -/
structure Inventory where
  schemaVersion : UInt32
  files : Table FileId FileRecord := .empty
  /-- The requests that refer to a file. -/
  references : Table FileId (KeySet RequestId) := .empty
  jobs : Table RequestId Job := .empty
  deriving DecidableEq

namespace Inventory

/-- The version of inventories that the depot starts. -/
def currentVersion : UInt32 := 1

/-- A new inventory. -/
def fresh : Inventory := { schemaVersion := currentVersion }

instance : Inhabited Inventory := ⟨fresh⟩

/-! ### Changes -/

/-- Keep a file record under its own name. -/
def saveFile (v : Inventory) (f : FileRecord) : Inventory :=
  { v with files := v.files.insert f.fileId f }

/-- Drop a file record and the references to it. -/
def deleteFile (v : Inventory) (id : FileId) : Inventory :=
  { v with files := v.files.erase id, references := v.references.erase id }

/-- The requests that refer to a file, in order. -/
def referrers (v : Inventory) (id : FileId) : List RequestId :=
  ((v.references.get? id).map Table.keys).getD []

/-- Whether a request refers to a file. -/
def refers (v : Inventory) (id : FileId) (r : RequestId) : Bool :=
  ((v.references.get? id).map fun s => s.contains r).getD false

/-- Let a request refer to a file. -/
def addReference (v : Inventory) (id : FileId) (r : RequestId) : Inventory :=
  { v with
    references := v.references.insert id (((v.references.get? id).getD .empty : KeySet _).add r) }

/-- Take back the reference of a request to a file; a file without any has no set. -/
def removeReference (v : Inventory) (id : FileId) (r : RequestId) : Inventory :=
  match v.references.get? id with
  | none => v
  | some s =>
    if (s.erase r).size = 0 then { v with references := v.references.erase id }
    else { v with references := v.references.insert id (s.erase r) }

/-- Keep a job under its own name. -/
def saveJob (v : Inventory) (j : Job) : Inventory :=
  { v with jobs := v.jobs.insert j.requestId j }

/-- Give a job another status, whatever its life cycle says. -/
def overwriteStatus (v : Inventory) (r : RequestId) (s : JobStatus) : Inventory :=
  match v.jobs.get? r with
  | none => v
  | some j => v.saveJob { j with status := s }

/-! ### Queries -/

/-- The kilobytes of the files that are there. -/
def availableKb (v : Inventory) : Nat := v.files.total FileRecord.chargedKb

/-- Files are let go by their unlock times, and those of the same time by their names. -/
def unlockOrder : FileRecord → FileRecord → Ordering :=
  compareLex (compareOn FileRecord.unlockAt) (compareOn FileRecord.fileId)

/-- The files that may be let go before a time, the earliest first. -/
def unlockedBefore (v : Inventory) (time : Instant) : List FileRecord :=
  sortBy unlockOrder (v.files.values.filter fun f => f.unlockAt.any fun u => decide (u < time))

/-- The files still to come. -/
def pendingFiles (v : Inventory) : List FileRecord := v.files.values.filter FileRecord.isPending

/-- Jobs are listed by their creation, and those of the same time by their names. -/
def creationOrder : Job → Job → Ordering :=
  compareLex (compareOn Job.createdAt) (compareOn Job.requestId)

/-- The jobs with a status. -/
def jobsWithStatus (v : Inventory) (s : JobStatus) : List Job :=
  sortBy creationOrder (v.jobs.values.filter fun j => j.status = s)

/-- The jobs that expire after one time and not after another. -/
def expiringBetween (v : Inventory) (after upTo : Instant) : List Job :=
  sortBy creationOrder
    (v.jobs.values.filter fun j => j.expiresAt.any fun e => decide (after < e) && decide (e ≤ upTo))

/-- The jobs that do not expire, or only after a time. -/
def unexpiredAt (v : Inventory) (time : Instant) : List Job :=
  sortBy creationOrder (v.jobs.values.filter fun j => !j.isExpiredAt time)

theorem mem_unlockedBefore {v : Inventory} {time : Instant} {f : FileRecord} :
    f ∈ v.unlockedBefore time ↔ f ∈ v.files.values ∧ ∃ u, f.unlockAt = some u ∧ u < time := by
  simp [unlockedBefore, Option.any_eq_true]

theorem mem_expiringBetween {v : Inventory} {after upTo : Instant} {j : Job} :
    j ∈ v.expiringBetween after upTo ↔
      j ∈ v.jobs.values ∧ ∃ e, j.expiresAt = some e ∧ after < e ∧ e ≤ upTo := by
  simp [expiringBetween, Option.any_eq_true]

theorem mem_unexpiredAt {v : Inventory} {time : Instant} {j : Job} :
    j ∈ v.unexpiredAt time ↔ j ∈ v.jobs.values ∧ j.isExpiredAt time = false := by
  simp [unexpiredAt]

end Inventory

end Depot

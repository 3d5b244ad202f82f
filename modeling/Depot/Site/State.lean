import Depot.Account
import Depot.Disk
import Depot.Inventory
import Depot.Notice
import Depot.Settings
import Depot.Site.Task
import Depot.Time.Clock

/-!
# The state of a depot

A `Site` is a depot at work, with all that surrounds it: its inventory and the file that keeps it,
the working directory, the clock, the archive that answers calls for files, the packager of
catalogues, and those who react to notices. What happens is written into one log, in order.

An operation is an `Act`: it may fail, and what it did before it failed stays done.

How the surroundings will behave is part of the state: each call of the inventory may be refused, after
a pattern that is given in advance.

All that is still to be done is in one list, in the order in which it is done when it is due at the same
moment. A task that is not over after a move goes to the end of the list, unless it goes on at once.
-/

namespace Depot

open Time

/-! ### Failing calls -/

/-- The calls by which the depot uses its inventory. -/
inductive StoreCall
  | loadFile
  | saveFile
  | deleteFile
  | sumAvailable
  | findUnlocked
  | findPending
  | addReference
  | removeReference
  | findReferrers
  | loadJob
  | saveJob
  | findByStatus
  | findExpiring
  | findUnexpired
  deriving DecidableEq, Repr

/-- The name under which a refused call is reported. -/
def StoreCall.name : StoreCall → String
  | loadFile => "load_cached_file"
  | saveFile => "save_cached_file"
  | deleteFile => "delete_cached_file"
  | sumAvailable => "sum_available_size_kb"
  | findUnlocked => "find_unlocked_before"
  | findPending => "find_pending_files"
  | addReference => "add_file_reference"
  | removeReference => "remove_file_reference"
  | findReferrers => "jobs_referencing"
  | loadJob => "load_job"
  | saveJob => "save_job"
  | findByStatus => "find_jobs_by_status"
  | findExpiring => "find_expiring_between"
  | findUnexpired => "find_unexpired_jobs"

/-- Every call of the inventory. -/
def StoreCall.all : List StoreCall :=
  [loadFile, saveFile, deleteFile, sumAvailable, findUnlocked, findPending, addReference,
    removeReference, findReferrers, loadJob, saveJob, findByStatus, findExpiring, findUnexpired]

/-- What may go wrong in a call of the inventory. -/
inductive Fault
  /-- The call is refused before anything is touched. -/
  | refuse (call : StoreCall)
  /-- A deletion finds that somebody else was faster. -/
  | loseClaim
  /-- A file record is not found. -/
  | missFile
  /-- A job is not found. -/
  | missJob
  deriving DecidableEq, Repr

/-- So many occasions on which a fault strikes, or does not. -/
structure Streak where
  length : Nat
  strikes : Bool

/-- On which occasions a fault strikes; on none after the last streak. -/
abbrev FaultPattern := List Streak

/-- Whether a fault strikes on the first occasion, and the pattern from then on. -/
def FaultPattern.next : FaultPattern → Bool × FaultPattern
  | [] => (false, [])
  | ⟨0, _⟩ :: rest => FaultPattern.next rest
  | ⟨n + 1, strikes⟩ :: rest => (strikes, ⟨n, strikes⟩ :: rest)

/-! ### Surroundings -/

/-- How the packager of catalogues will answer. -/
structure Packager where
  /-- The status that the job is given meanwhile, by the catalogue being packaged. -/
  interference : Table FileId JobStatus := .empty
  /-- The catalogues that cannot be packaged. -/
  failures : Table FileId Failure := .empty

/-- What those who are told of one job do to others. -/
abbrev Reactions := Table RequestId (List (RequestId × JobStatus))

/-! ### What happens -/

/-- An entry of the log. -/
inductive Happening
  /-- A notice was delivered. -/
  | told (notice : Notice)
  /-- An operator has given a job a status. -/
  | ordered (request : RequestId) (status : JobStatus)
  /-- A transfer was queued, with its record. -/
  | queued (record : FileRecord)
  /-- A call for a file began, so many milliseconds after the depot was opened; one with a source is to
  make the file again. -/
  | called (time : Nat) (file : FileId) (source : Option String)
  /-- With the beginning of a call: the record of its file, as it was kept then. -/
  | begun (file : FileId) (kept : Option FileRecord)
  /-- A call of a transfer ended, with its record as it was then, and a result. -/
  | returned (time : Nat) (record : FileRecord) (result : Except Failure Delivery)
  /-- A catalogue was to be packaged. -/
  | packaged (request : RequestId) (file : FileId) (succeeded : Bool)
  /-- A file was evicted at a moment, and the inventory then was what is left. -/
  | evicted (record : FileRecord) (moment : Instant) (left : Inventory)

/-! ### The whole -/

/-- A depot at work and what surrounds it. -/
structure Site where
  settings : Settings
  inventory : Inventory := .fresh
  /-- The file that keeps the inventory, if there is one. -/
  storePath : Option String := none
  faults : Fault → FaultPattern := fun _ => []
  disk : Disk := {}
  clock : Clock
  account : Account := { committed := 0 }
  /-- The files that count as on their way. -/
  inFlight : KeySet FileId := .empty
  /-- What is to be done, in the order in which it is done when it is due at the same time. -/
  tasks : List Task := []
  /-- The jobs whose requesters have been warned of their expiry. -/
  warned : KeySet RequestId := .empty
  supply : Supply := {}
  packager : Option Packager := none
  reactions : Reactions := .empty
  log : List Happening := []

/-- The transfers among the tasks. -/
def Site.transfers (s : Site) : List Transfer := s.tasks.filterMap Task.transfer?

/-- An operation of a depot. It may fail; what was done before stays. -/
abbrev Act (α : Type) := ExceptT Failure (StateM Site) α

namespace Act

/-- Carry on after a failure. -/
def attempt {α : Type} (x : Act α) : Act (Except Failure α) :=
  ExceptT.mk do
    let r ← x.run
    pure (.ok r)

/-- Carry on after a failure as if nothing had been asked for. -/
def forgive {α : Type} (x : Act α) : Act Unit := do
  let _ ← attempt x

/-- Write down what happens. -/
def note (h : Happening) : Act Unit := modify fun s => { s with log := s.log ++ [h] }

/-- The time by the depot's clock. -/
def now : Act Instant := return (← get).clock.now

/-- Put a task at the end of the list. -/
def join (t : Task) : Act Unit :=
  modify fun s => { s with tasks := s.tasks ++ [t] }

/-- Put a task on the list again after a move: in front if it goes on at once, and otherwise at the
end. -/
def rejoin (t : Task) : Act Unit := do
  let time := (← get).clock.elapsed
  if t.due?.any (· ≤ time) then modify fun s => { s with tasks := t :: s.tasks } else join t

/-- Take the task at a place off the list. -/
def takeOff (place : Nat) : Act (Option Task) := do
  let task := (← get).tasks[place]?
  modify fun s => { s with tasks := s.tasks.eraseIdx place }
  return task

end Act

end Depot

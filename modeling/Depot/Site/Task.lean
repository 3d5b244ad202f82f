import Depot.File.Record
import Depot.Site.Supply

/-!
# Tasks

What a depot has still to do. A *transfer* brings one file, in as many calls as it takes; a *duty* is
done in rounds, for as long as the depot is told to. A task makes its next move when a time has come;
only a transfer that waits for a turn has no such time.
-/

namespace Depot

/-! ### Transfers -/

/-- Where a transfer stands. Times are in milliseconds since the depot was opened. -/
inductive Phase
  /-- It asks for a turn to make a call when a time has come. -/
  | resting (ends : Nat)
  /-- It has asked for a turn and waits until one is handed over. -/
  | waiting
  /-- A turn was handed over to it at a time, and it begins its call at once. -/
  | chosen (since : Nat)
  /-- Its call ends at a time. -/
  | calling (ends : Nat) (result : Except Failure Delivery)

/-- A file on its way, with its record as the transfer knows it. -/
structure Transfer where
  record : FileRecord
  phase : Phase

namespace Transfer

/-- Whether a transfer takes up a turn. -/
def holdsTurn (t : Transfer) : Bool :=
  match t.phase with
  | .chosen _ | .calling .. => true
  | .resting _ | .waiting => false

/-- Whether a transfer waits for a turn. -/
def isWaiting (t : Transfer) : Bool :=
  match t.phase with
  | .waiting => true
  | _ => false

/-- The time of a transfer's next move; none as long as it waits for a turn. -/
def due? (t : Transfer) : Option Nat :=
  match t.phase with
  | .resting time | .chosen time | .calling time _ => some time
  | .waiting => none

end Transfer

/-! ### Duties -/

/-- What a depot does in rounds. -/
inductive Duty
  /-- Bring jobs forward. -/
  | advanceJobs
  /-- Warn of jobs that are nearly over. -/
  | warn
  /-- Keep room free. -/
  | keepRoom
  deriving DecidableEq, Repr

/-! ### Both -/

/-- Something that a depot has to do. -/
inductive Task
  | transfer (t : Transfer)
  /-- The next round of a duty is at a time. -/
  | duty (d : Duty) (round : Nat)

namespace Task

/-- The transfer that a task is. -/
def transfer? : Task → Option Transfer
  | transfer t => some t
  | duty .. => none

/-- Whether a task is a transfer that waits for a turn. -/
def isWaiting : Task → Bool
  | transfer t => t.isWaiting
  | duty .. => false

/-- Whether a task is a duty. -/
def isDuty : Task → Bool
  | transfer _ => false
  | duty .. => true

/-- The time of a task's next move, if that has a time. -/
def due? : Task → Option Nat
  | transfer t => t.due?
  | duty _ round => some round

end Task

end Depot

import Depot.Site.Warnings

/-!
# The passage of time

Time passes from one due moment to the next: the end of a call, the end of a pause, the next round of a
duty. What is due at one moment is done until nothing is left to do then. No pause, call or interval
lasts longer than one can wait at once.

Of the tasks that are due at the same moment the one that has been on the list longest, so the one whose
pause began first, moves first, whether it is a transfer or a duty. What is new at that moment comes
after all of them: a transfer that a turn was handed over to, and one that a round has queued.

The depot's three duties are done in rounds at fixed intervals: bringing jobs forward, warning of
expiries, and keeping room free.
-/

namespace Depot.Passage

open Act Time

/-! ### Due moments -/

/-- The earlier of two moves, the first of two at one moment. -/
def earlier (a b : Nat × Nat) : Nat × Nat := if b.1 < a.1 then b else a

/-- The moment of the next move among tasks, and the place of the task that makes it. -/
def nextAmong : List (Task × Nat) → Option (Nat × Nat)
  | [] => none
  | (t, place) :: rest =>
    match t.due?, nextAmong rest with
    | none, later => later
    | some time, none => some (time, place)
    | some time, some later => some (earlier (time, place) later)

/-- The moment of the next move, and the place of the task that makes it. -/
def nextMove (s : Site) : Option (Nat × Nat) := nextAmong s.tasks.zipIdx

/-- Let time pass up to a moment, unless it has passed already. -/
def passTo (moment : Nat) : Act Unit :=
  modify fun s => { s with clock := { s.clock with elapsed := max s.clock.elapsed moment } }

/-- What makes an end to the moves of transfers. -/
inductive Halt
  /-- Nothing more is due. -/
  | quiet
  /-- A transfer that is looked out for has ended. -/
  | ended (ending : Transfers.Ending)
  /-- It is time for a round of a duty. -/
  | round (d : Duty)

/-- Make moves of transfers until a round of a duty comes next, until one is the last of a transfer that
is looked out for, or until none is due by a given moment, or any moment if none is given. -/
def makeMoves (target : Option Nat) (awaited : Option FileId) : Nat → Act Halt
  | 0 => return .quiet
  | fuel + 1 => do
    match nextMove (← get) with
    | none => return .quiet
    | some (moment, place) =>
      if target.any (· < moment) then return .quiet
      passTo moment
      match ← takeOff place with
      | none => return .quiet
      | some (.duty d _) => return .round d
      | some (.transfer t) =>
        match ← Transfers.advance t with
        | none => makeMoves target awaited fuel
        | some ending =>
          if awaited = some ending.file then return .ended ending
          else makeMoves target awaited fuel

/-- A bound on the moves that the transfers of a site can make: three for each call. -/
def moveBound (s : Site) : Nat :=
  s.transfers.length * (3 * (s.settings.maxRetries.toNat + 3)) + 1

/-- Do all that is due up to a moment. -/
def doUntil (moment : Nat) : Act Unit := do
  let _ ← makeMoves (some moment) none (moveBound (← get))
  passTo moment

/-- Let a number of milliseconds pass. -/
def run (millis : Nat) : Act Unit := do
  doUntil ((← get).clock.elapsed + millis)

/-- Do all that is due now. -/
def catchUp : Act Unit := run 0

/-- The status of a file by its record. -/
def storedStatus (id : FileId) : Act (Option FileStatus) :=
  return (← Records.loadFile id).map FileRecord.status

/-- Let time pass until the transfer of a file ends, and find out how. Where it leaves no status, the
record is read after all else that is due has been done. -/
def awaitEnding (id : FileId) : Act (Option FileStatus) := do
  if (← get).inFlight.contains id then
    match ← makeMoves none (some id) (moveBound (← get)) with
    | .ended ⟨_, some status⟩ => return some status
    | _ =>
      catchUp
      storedStatus id
  else storedStatus id

/-- Wait for a file; then, unless its status cannot be found out, do what else is due. -/
def wait (id : FileId) : Act (Option FileStatus) := do
  let status ← awaitEnding id
  catchUp
  return status

/-! ### Duties -/

/-- The interval between the rounds of a duty, in milliseconds. -/
def intervalMs (s : Settings) : Duty → Nat
  | .advanceJobs => waitMs (s.lifecycleSweepSecs * 1000)
  | .warn => waitMs (s.expirySweepSecs * 1000)
  | .keepRoom => waitMs (s.reclaimSweepSecs * 1000)

/-- One round of a duty. -/
def makeRound : Duty → Act Unit
  | .advanceJobs => forgive Jobs.poll
  | .warn => do forgive (Warnings.notify (← get).settings.warningMs)
  | .keepRoom => do forgive (Room.reclaim (← get).settings.headroomKb)

/-- Plan the next round of a duty; a duty without an interval has none. -/
def planRound (d : Duty) : Act Unit := do
  let s ← get
  let interval := intervalMs s.settings d
  if 0 < interval then join (.duty d (s.clock.elapsed + interval))

/-- Take up a duty. Before their first round those who bring jobs forward have the transfers of all files
still to come queued. -/
def takeUp (d : Duty) : Act Unit := do
  if d = .advanceJobs then forgive Transfers.resumePending
  planRound d

/-- Give up all duties. -/
def layDown : Act Unit :=
  modify fun s => { s with tasks := s.tasks.filter fun t => !t.isDuty }

/-- A bound on the rounds of duties in a span. -/
def roundBound (s : Settings) (millis : Nat) (duties : List Duty) : Nat :=
  (duties.map fun d => millis / intervalMs s d).foldr (· + ·) 1

/-- Make moves and rounds until none is due by a moment. -/
def makeRounds (target : Nat) : Nat → Act Unit
  | 0 => return
  | fuel + 1 => do
    match ← makeMoves (some target) none (moveBound (← get)) with
    | .round d =>
      makeRound d
      planRound d
      makeRounds target fuel
    | _ => return

/-- Do duties for a number of milliseconds. -/
def serve (duties : List Duty) (millis : Nat) : Act Unit := do
  catchUp
  duties.forM takeUp
  let s ← get
  let target := s.clock.elapsed + millis
  makeRounds target (roundBound s.settings millis duties)
  passTo target
  layDown

end Depot.Passage

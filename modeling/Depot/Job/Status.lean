/-!
# The states of a job

A data access job is prepared, may be paused, becomes ready when all its files are there, and ends
in an error, by expiry or by cancellation. `JobStatus.canBecome` is the whole life cycle; a status
is *live* while the job may still need its files.
-/

namespace Depot

/-- Where a job stands. -/
inductive JobStatus
  | preparing
  | paused
  | ready
  | error
  | expired
  | cancelled
  deriving DecidableEq, Repr

namespace JobStatus

/-- Every status. -/
def all : List JobStatus := [preparing, paused, ready, error, expired, cancelled]

/-- The written name of a status. -/
def name : JobStatus → String
  | preparing => "PREPARING"
  | paused => "PAUSED"
  | ready => "READY"
  | error => "ERROR"
  | expired => "EXPIRED"
  | cancelled => "CANCELLED"

/-- The status with a written name. -/
def ofName? (s : String) : Option JobStatus := all.find? (·.name = s)

/-- A job that has ended does not change again. -/
def isTerminal : JobStatus → Bool
  | error | expired | cancelled => true
  | preparing | paused | ready => false

/-- A live job still pins every file of its manifest. -/
def isLive (s : JobStatus) : Bool := !s.isTerminal

/-- The steps of the life cycle. -/
def canBecome : JobStatus → JobStatus → Bool
  | preparing, ready | preparing, error | preparing, paused => true
  | paused, preparing => true
  | ready, expired => true
  | preparing, cancelled | paused, cancelled | ready, cancelled => true
  | _, _ => false

theorem ofName?_name (s : JobStatus) : ofName? s.name = some s := by
  cases s <;> decide

/-- A status is terminal exactly when no step leaves it. -/
theorem isTerminal_iff (s : JobStatus) : s.isTerminal = true ↔ ∀ t, s.canBecome t = false := by
  constructor
  · intro h t
    revert h
    cases s <;> cases t <;> decide
  · intro h
    have := h .cancelled
    revert this
    cases s <;> decide

/-- Only what is being prepared can be paused. -/
theorem eq_preparing_of_canBecome {s : JobStatus} (h : s.canBecome .paused = true) : s = .preparing := by
  revert h
  cases s <;> decide

/-- Only what is paused can be prepared again. -/
theorem eq_paused_of_canBecome {s : JobStatus} (h : s.canBecome .preparing = true) : s = .paused := by
  revert h
  cases s <;> decide

/-- Every step is one of a live job. -/
theorem isLive_of_canBecome {s t : JobStatus} (h : s.canBecome t = true) : s.isLive = true := by
  revert h
  cases s <;> cases t <;> decide

/-- A live job may be cancelled. -/
theorem canBecome_cancelled {s : JobStatus} (h : s.isLive = true) : s.canBecome .cancelled = true := by
  revert h
  cases s <;> decide

end JobStatus

end Depot

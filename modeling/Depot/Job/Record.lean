import Depot.File.Record

/-!
# Jobs

A job is one request for data: a manifest of files and where the request stands. Its status changes
by `Job.move?` alone, which takes the steps of the life cycle and no others.

## Main statements

* `Job.move?_eq_ok_iff` — a job moves exactly along its life cycle, and only its status and its time
  of modification change.
-/

namespace Depot

open Time

/-- How the requester collects the files. -/
inductive DownloadMode
  | web
  | scripted
  deriving DecidableEq, Repr

namespace DownloadMode

/-- The written name of a mode. -/
def name : DownloadMode → String
  | web => "WEB"
  | scripted => "SCRIPTED"

/-- The mode with a written name. -/
def ofName? (s : String) : Option DownloadMode := [web, scripted].find? (·.name = s)

theorem ofName?_name (m : DownloadMode) : ofName? m.name = some m := by
  cases m <;> decide

end DownloadMode

/-- A request for data. -/
structure Job where
  requestId : RequestId
  status : JobStatus
  createdAt : Instant
  /-- When all its files were there. -/
  availableAt : Option Instant
  /-- Until when it is kept. -/
  expiresAt : Option Instant
  modifiedAt : Instant
  mode : DownloadMode
  errorMessage : Option String
  manifest : List ManifestEntry
  deriving DecidableEq

namespace Job

/-- A job newly asked for. -/
def create (requestId : RequestId) (mode : DownloadMode) (manifest : List ManifestEntry)
    (now : Instant) : Job where
  requestId := requestId
  status := .preparing
  createdAt := now
  availableAt := none
  expiresAt := none
  modifiedAt := now
  mode := mode
  errorMessage := none
  manifest := manifest

/-- The entries whose files are transferred. -/
def retrievable (j : Job) : List ManifestEntry := j.manifest.filter ManifestEntry.isRetrievable

/-- The entries whose files are packaged. -/
def catalogues (j : Job) : List ManifestEntry := j.manifest.filter fun e => e.kind.isCatalogue

/-- Take a step of the life cycle. -/
def move? (j : Job) (next : JobStatus) (now : Instant) : Except Failure Job :=
  if j.status.canBecome next then .ok { j with status := next, modifiedAt := now }
  else .error (.invalidTransition j.requestId.text j.status next)

/-- A job moves exactly along its life cycle, and only its status and its time of modification
change. -/
theorem move?_eq_ok_iff {j j' : Job} {next : JobStatus} {now : Instant} :
    j.move? next now = .ok j' ↔
      j.status.canBecome next = true ∧ j' = { j with status := next, modifiedAt := now } := by
  unfold move?
  by_cases h : j.status.canBecome next = true <;> simp [h, eq_comm]

/-- Whether the job's time is over at a moment. -/
def isExpiredAt (j : Job) (now : Instant) : Bool :=
  match j.expiresAt with
  | some e => decide (e ≤ now)
  | none => false

end Job

end Depot

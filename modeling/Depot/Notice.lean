import Depot.Job.Json

/-!
# Notices

What the depot tells the world about a job.
-/

namespace Depot

open Time

/-- News of a job. -/
inductive Notice
  /-- All files are there, until a time. -/
  | ready (request : RequestId) (expiresAt : Instant)
  | failed (request : RequestId) (message : String)
  | expired (request : RequestId)
  | cancelled (request : RequestId)
  /-- The job's time is nearly over. -/
  | expiringSoon (request : RequestId) (expiresAt : Instant)
  deriving DecidableEq

namespace Notice

/-- The job that a notice is about. -/
def request : Notice → RequestId
  | ready r _ | failed r _ | expired r | cancelled r | expiringSoon r _ => r

/-- The written name of a notice. -/
def name : Notice → String
  | ready .. => "ready"
  | failed .. => "failed"
  | expired .. => "expired"
  | cancelled .. => "cancelled"
  | expiringSoon .. => "expiring_soon"

/-- What a notice says beside its name and its job. -/
def details : Notice → List (String × Json)
  | ready _ e | expiringSoon _ e => [("expires_at", e.toJson)]
  | failed _ message => [("message", .string message)]
  | expired _ | cancelled _ => []

/-- A notice in writing. -/
def toJson (n : Notice) : Json :=
  .record (("event", .string n.name) :: ("request_id", n.request.toJson) :: n.details)

end Notice

end Depot

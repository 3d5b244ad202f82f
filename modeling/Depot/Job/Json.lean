import Depot.File.Json
import Depot.Job.Record

/-!
# Written jobs

How jobs are written in JSON, and read back.
-/

namespace Depot

open Time

namespace RequestId

/-- A name as a string. -/
def toJson (id : RequestId) : Json := .string id.text

/-- The name that a string is; it is not checked. -/
def ofJson? (j : Json) : Option RequestId := j.asString?.map RequestId.mk

end RequestId

namespace JobStatus

/-- A status by its name. -/
def toJson (s : JobStatus) : Json := .string s.name

/-- The status that is named. -/
def ofJson? (j : Json) : Option JobStatus := do ofName? (← j.asName?)

end JobStatus

namespace DownloadMode

/-- A mode by its name. -/
def toJson (m : DownloadMode) : Json := .string m.name

/-- The mode that is named. -/
def ofJson? (j : Json) : Option DownloadMode := do ofName? (← j.asName?)

end DownloadMode

namespace Job

/-- The fields of a job. -/
def fields : List Json.Field :=
  [⟨"request_id", false⟩, ⟨"status", false⟩, ⟨"created_timestamp", false⟩,
    ⟨"available_timestamp", false⟩, ⟨"expired_timestamp", false⟩, ⟨"last_modified", false⟩,
    ⟨"download_mode", false⟩, ⟨"error_message", false⟩, ⟨"manifest", false⟩]

/-- A job in writing. -/
def toJson (j : Job) : Json :=
  .record
    [("request_id", j.requestId.toJson),
      ("status", j.status.toJson),
      ("created_timestamp", j.createdAt.toJson),
      ("available_timestamp", .ofOption Instant.toJson j.availableAt),
      ("expired_timestamp", .ofOption Instant.toJson j.expiresAt),
      ("last_modified", j.modifiedAt.toJson),
      ("download_mode", j.mode.toJson),
      ("error_message", .ofOption .string j.errorMessage),
      ("manifest", .list ManifestEntry.toJson j.manifest)]

/-- The job that a value is. -/
def ofJson? (j : Json) : Option Job := do
  let row ← j.row? fields
  let requestId ← row.required "request_id" RequestId.ofJson?
  let status ← row.required "status" JobStatus.ofJson?
  let createdAt ← row.required "created_timestamp" Instant.ofJson?
  let availableAt ← row.optional "available_timestamp" Instant.ofJson?
  let expiresAt ← row.optional "expired_timestamp" Instant.ofJson?
  let modifiedAt ← row.required "last_modified" Instant.ofJson?
  let mode ← row.required "download_mode" DownloadMode.ofJson?
  let errorMessage ← row.optional "error_message" Json.asString?
  let manifest ← row.required "manifest" (Json.asList? ManifestEntry.ofJson?)
  some ⟨requestId, status, createdAt, availableAt, expiresAt, modifiedAt, mode, errorMessage,
    manifest⟩

end Job

end Depot

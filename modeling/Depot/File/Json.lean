import Depot.File.Record
import Depot.Json.Row
import Depot.Time.Stamp

/-!
# Written file records

How entries and records of files are written in JSON, and read back. A record is written with all its
fields, an absent value as `null`.
-/

namespace Depot

open Time

/-- An instant as a string. -/
def Time.Instant.toJson (i : Instant) : Json := .string i.text

/-- The instant that a string names. -/
def Time.Instant.ofJson? (j : Json) : Option Instant := do Instant.ofText? (← j.asString?)

/-- A number of 64 bits. -/
def Json.word (n : UInt64) : Json := .nat n.toNat

namespace FileId

/-- A name as a string. -/
def toJson (id : FileId) : Json := .string id.text

/-- The name that a string is; it is not checked. -/
def ofJson? (j : Json) : Option FileId := j.asString?.map FileId.mk

end FileId

namespace FileKind

/-- A kind by its name. -/
def toJson (k : FileKind) : Json := .string k.name

/-- The kind that is named. -/
def ofJson? (j : Json) : Option FileKind := do ofName? (← j.asName?)

end FileKind

namespace ManifestEntry

/-- The fields of an entry. -/
def fields : List Json.Field :=
  [⟨"file_id", false⟩, ⟨"file_type", false⟩, ⟨"original_file_path", true⟩,
    ⟨"estimated_size_kb", true⟩]

/-- An entry in writing. -/
def toJson (e : ManifestEntry) : Json :=
  .record
    [("file_id", e.fileId.toJson),
      ("file_type", e.kind.toJson),
      ("original_file_path", .ofOption .string e.sourcePath),
      ("estimated_size_kb", .ofOption .word e.estimatedKb)]

/-- The entry that a value is. -/
def ofJson? (j : Json) : Option ManifestEntry := do
  let row ← j.row? fields
  let fileId ← row.required "file_id" FileId.ofJson?
  let kind ← row.required "file_type" FileKind.ofJson?
  let sourcePath ← row.optional "original_file_path" Json.asString?
  let estimatedKb ← row.optional "estimated_size_kb" Json.asUInt64?
  some ⟨fileId, kind, sourcePath, estimatedKb⟩

end ManifestEntry

namespace FileRecord

/-- The fields of a record. -/
def fields : List Json.Field :=
  [⟨"file_id", false⟩, ⟨"file_type", false⟩, ⟨"size_kb", false⟩, ⟨"estimated_size_kb", false⟩,
    ⟨"unlock_at", false⟩, ⟨"available", false⟩, ⟨"failed", true⟩, ⟨"original_file_path", false⟩,
    ⟨"retry_count", false⟩, ⟨"location", false⟩, ⟨"last_error", true⟩]

/-- A record in writing. -/
def toJson (f : FileRecord) : Json :=
  .record
    [("file_id", f.fileId.toJson),
      ("file_type", f.kind.toJson),
      ("size_kb", .ofOption .word f.sizeKb),
      ("estimated_size_kb", .word f.estimatedKb),
      ("unlock_at", .ofOption Instant.toJson f.unlockAt),
      ("available", .bool f.available),
      ("failed", .bool f.failed),
      ("original_file_path", .ofOption .string f.sourcePath),
      ("retry_count", .nat f.retryCount.toNat),
      ("location", .ofOption .string f.location),
      ("last_error", .ofOption .string f.lastError)]

/-- The record that a value is. -/
def ofJson? (j : Json) : Option FileRecord := do
  let row ← j.row? fields
  let fileId ← row.required "file_id" FileId.ofJson?
  let kind ← row.required "file_type" FileKind.ofJson?
  let sizeKb ← row.optional "size_kb" Json.asUInt64?
  let estimatedKb ← row.required "estimated_size_kb" Json.asUInt64?
  let unlockAt ← row.optional "unlock_at" Instant.ofJson?
  let available ← row.required "available" Json.asBool?
  let failed ← row.defaulted "failed" Json.asBool? false
  let sourcePath ← row.optional "original_file_path" Json.asString?
  let retryCount ← row.required "retry_count" Json.asUInt32?
  let location ← row.optional "location" Json.asString?
  let lastError ← row.optional "last_error" Json.asString?
  some ⟨fileId, kind, sizeKb, estimatedKb, unlockAt, available, failed, sourcePath, retryCount,
    location, lastError⟩

end FileRecord

end Depot

import Depot.Inventory
import Depot.Job.Json
import Depot.Json.Reader
import Depot.Json.Writer

/-!
# Written inventories

An inventory is kept in a file as JSON: maps sorted by their keys, sets of requests as arrays. What a
file does not mention is empty.
-/

namespace Depot.Inventory

/-- The fields of an inventory. -/
def fields : List Json.Field :=
  [⟨"schema_version", true⟩, ⟨"files", true⟩, ⟨"references", true⟩, ⟨"jobs", true⟩]

/-- An inventory in writing. -/
def toJson (v : Inventory) : Json :=
  .record
    [("schema_version", .nat v.schemaVersion.toNat),
      ("files", .record (v.files.entries.map fun (id, f) => (id.text, f.toJson))),
      ("references", .record (v.references.entries.map fun (id, s) =>
        (id.text, .list RequestId.toJson s.keys))),
      ("jobs", .record (v.jobs.entries.map fun (id, j) => (id.text, j.toJson)))]

/-- The set of requests that an array lists. -/
def referrersOfJson? (j : Json) : Option (KeySet RequestId) :=
  (j.asList? RequestId.ofJson?).map KeySet.ofKeys

/-- The table that the members of an object make up; the last of a name counts. -/
def tableOfJson? {κ α : Type} [Ord κ] [Std.TransOrd κ] (key : String → κ)
    (decode : Json → Option α) (j : Json) : Option (Table κ α) :=
  (j.asEntries? key decode).map Table.ofList

/-- The inventory that a value is. -/
def ofJson? (j : Json) : Option Inventory := do
  let row ← j.row? fields
  let schemaVersion ← row.defaulted "schema_version" Json.asUInt32? 0
  let files ← row.defaulted "files" (tableOfJson? FileId.mk FileRecord.ofJson?) .empty
  let references ← row.defaulted "references" (tableOfJson? FileId.mk referrersOfJson?) .empty
  let jobs ← row.defaulted "jobs" (tableOfJson? RequestId.mk Job.ofJson?) .empty
  some ⟨schemaVersion, files, references, jobs⟩

/-- The text of an inventory's file. -/
def text (v : Inventory) : String := v.toJson.pretty

/-- The inventory whose file has a text. -/
def ofText? (s : String) : Option Inventory := (Json.parse? s).bind ofJson?

end Depot.Inventory

import Depot.File.Kind
import Depot.Ident
import Depot.Time.Instant

/-!
# Records of files

A `ManifestEntry` asks for a file; a `FileRecord` is what the depot knows of it. A record is pending
until its transfer ends, and then available, with a size and a location, or failed. Its unlock time
is the moment from which the file may be evicted; it only ever moves forward.

## Main statements

* `FileRecord.unlockAt_extendUnlock` — extending never shortens, and reaches the time asked for.
-/

namespace Depot

open Time

/-- A file that a job asks for. -/
structure ManifestEntry where
  fileId : FileId
  kind : FileKind
  /-- Where the file was made from, for one that can be made again. -/
  sourcePath : Option String := none
  /-- The kilobytes to reserve, where the job knows them. -/
  estimatedKb : Option UInt64 := none
  deriving DecidableEq

/-- What the depot knows of a file. -/
structure FileRecord where
  fileId : FileId
  kind : FileKind
  /-- The kilobytes that the file takes up, once it is there. -/
  sizeKb : Option UInt64
  /-- The kilobytes reserved while it is on its way. -/
  estimatedKb : UInt64
  /-- From when on it may be evicted; never, while unset. -/
  unlockAt : Option Instant
  available : Bool
  failed : Bool
  sourcePath : Option String
  /-- The calls for it that have failed so far. -/
  retryCount : UInt32
  /-- Where its bytes are. -/
  location : Option String
  lastError : Option String
  deriving DecidableEq

/-- Entries that are transferred, not packaged. -/
def ManifestEntry.isRetrievable (e : ManifestEntry) : Bool := !e.kind.isCatalogue

namespace FileRecord

/-- The record of a file newly asked for. -/
def ofEntry (e : ManifestEntry) (defaultEstimateKb : UInt64) : FileRecord where
  fileId := e.fileId
  kind := e.kind
  sizeKb := none
  estimatedKb := e.estimatedKb.getD defaultEstimateKb
  unlockAt := none
  available := false
  failed := false
  sourcePath := e.sourcePath
  retryCount := 0
  location := none
  lastError := none

/-- The source that the file is made again from; none if it is fetched. -/
def regenerationSource (f : FileRecord) : Option String :=
  if f.kind = .imageCutout then f.sourcePath else none

/-- Cutouts with a known source are made again, not fetched. -/
def isRegenerated (f : FileRecord) : Bool := f.regenerationSource.isSome

/-- Whether the file is still to come. -/
def isPending (f : FileRecord) : Bool := !f.available && !f.failed

/-- Whether the file is there; a failure outweighs the rest. -/
def status (f : FileRecord) : FileStatus :=
  if f.failed then .failed else if f.available then .available else .pending

/-- The kilobytes that the file is charged with: its size while it is available. -/
def chargedKb (f : FileRecord) : Nat :=
  if f.available then (f.sizeKb.map UInt64.toNat).getD 0 else 0

/-- Keep the file at least until a time. -/
def extendUnlock (f : FileRecord) (moment : Instant) : FileRecord :=
  { f with
    unlockAt := some (match f.unlockAt with
      | some current => if moment < current then current else moment
      | none => moment) }

/-- Extending never shortens, and reaches the time asked for. -/
theorem unlockAt_extendUnlock (f : FileRecord) (moment : Instant) :
    ∃ u, (f.extendUnlock moment).unlockAt = some u ∧ moment ≤ u ∧
      ∀ current, f.unlockAt = some current → current ≤ u := by
  unfold extendUnlock
  cases h : f.unlockAt with
  | none => exact ⟨moment, by simp, Int.le_refl _, by simp⟩
  | some current =>
    by_cases hlt : moment < current
    · exact ⟨current, by simp [hlt], Int.le_of_lt hlt, fun c hc => by
        cases hc; exact Int.le_refl _⟩
    · exact ⟨moment, by simp [hlt], Int.le_refl _, fun c hc => by
        cases hc; exact Int.not_lt.1 hlt⟩

end FileRecord

end Depot

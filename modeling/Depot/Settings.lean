import Depot.Disk
import Depot.Failure
import Depot.Job.Record
import Depot.Json.Reader
import Depot.Json.Row
import Depot.File.Json

/-!
# Settings

`Preferences` are what an operator writes down, each of them optional; `Settings` are what the depot
works with. Preferences resolve to settings when the limits on them hold: room and concurrency are not
zero, and no span is longer than a hundred years.

## Main statements

* `Settings.backoffMs_le` — no pause between attempts is longer than the longest pause allowed.
-/

namespace Depot

/-- What an operator may choose. -/
structure Preferences where
  cacheRoot : Option String := none
  maxCacheSizeKb : Option UInt64 := none
  warnMarginKb : Option UInt64 := none
  maxRetryCount : Option UInt32 := none
  retryBackoffMs : Option UInt64 := none
  maxBackoffMs : Option UInt64 := none
  maxConcurrentRetrievals : Option UInt64 := none
  defaultEstimatedSizeKb : Option UInt64 := none
  fileUnlockHours : Option UInt64 := none
  webTtlHours : Option UInt64 := none
  scriptedTtlHours : Option UInt64 := none
  staleJobHours : Option UInt64 := none
  lifecycleSweepSecs : Option UInt64 := none
  expirySweepSecs : Option UInt64 := none
  reclaimSweepSecs : Option UInt64 := none
  reclaimHeadroomKb : Option UInt64 := none
  expiryWarningHours : Option UInt64 := none

/-- What the depot works with. Spans are whole milliseconds unless they are named otherwise; a finer span is
not told from the milliseconds in it. -/
structure Settings where
  /-- The directory that holds the files. -/
  cacheRoot : String
  /-- The kilobytes that the files may take up. -/
  limitKb : UInt64 := 100 * 1024 * 1024
  /-- How close to the limit the depot warns. -/
  marginKb : UInt64 := 0
  /-- How many failed calls for a file are borne. -/
  maxRetries : UInt32 := 2
  /-- The pause after the first failed call. -/
  retryBackoffMs : Nat := 30000
  /-- The longest pause. -/
  maxBackoffMs : Nat := 600000
  /-- How many calls may be under way at once. -/
  maxConcurrent : Nat := 4
  /-- The kilobytes reserved for a file of unknown size. -/
  defaultEstimateKb : UInt64 := 1024
  /-- How long a file is kept after it has arrived. -/
  keepMs : Int := 168 * 3600000
  /-- How long a job stays ready, by its mode. -/
  webTtlMs : Int := 168 * 3600000
  scriptedTtlMs : Int := 336 * 3600000
  /-- How long a job may be prepared without a change. -/
  staleAfterMs : Int := 48 * 3600000
  lifecycleSweepSecs : Nat := 60
  expirySweepSecs : Nat := 3600
  reclaimSweepSecs : Nat := 300
  /-- The room that the reclaiming sweep keeps free. -/
  headroomKb : UInt64 := 0
  /-- How long before its expiry a job is warned of. -/
  warningMs : Int := 24 * 3600000

namespace Preferences

/-- The fields of preferences. -/
def fields : List Json.Field :=
  ["cache_root", "max_cache_size_kb", "warn_margin_kb", "max_retry_count", "retry_backoff_ms",
    "max_backoff_ms", "max_concurrent_retrievals", "default_estimated_size_kb",
    "file_unlock_hours", "web_ttl_hours", "scripted_ttl_hours", "stale_job_hours",
    "lifecycle_sweep_secs", "expiry_sweep_secs", "reclaim_sweep_secs", "reclaim_headroom_kb",
    "expiry_warning_hours"].map fun name => ⟨name, true⟩

/-- Preferences in writing. -/
def toJson (p : Preferences) : Json :=
  .record
    [("cache_root", .ofOption .string p.cacheRoot),
      ("max_cache_size_kb", .ofOption .word p.maxCacheSizeKb),
      ("warn_margin_kb", .ofOption .word p.warnMarginKb),
      ("max_retry_count", .ofOption (fun n => .nat n.toNat) p.maxRetryCount),
      ("retry_backoff_ms", .ofOption .word p.retryBackoffMs),
      ("max_backoff_ms", .ofOption .word p.maxBackoffMs),
      ("max_concurrent_retrievals", .ofOption .word p.maxConcurrentRetrievals),
      ("default_estimated_size_kb", .ofOption .word p.defaultEstimatedSizeKb),
      ("file_unlock_hours", .ofOption .word p.fileUnlockHours),
      ("web_ttl_hours", .ofOption .word p.webTtlHours),
      ("scripted_ttl_hours", .ofOption .word p.scriptedTtlHours),
      ("stale_job_hours", .ofOption .word p.staleJobHours),
      ("lifecycle_sweep_secs", .ofOption .word p.lifecycleSweepSecs),
      ("expiry_sweep_secs", .ofOption .word p.expirySweepSecs),
      ("reclaim_sweep_secs", .ofOption .word p.reclaimSweepSecs),
      ("reclaim_headroom_kb", .ofOption .word p.reclaimHeadroomKb),
      ("expiry_warning_hours", .ofOption .word p.expiryWarningHours)]

/-- The preferences that a value is. -/
def ofJson? (j : Json) : Option Preferences := do
  let row ← j.row? fields
  let word := fun name => row.optional name Json.asUInt64?
  some {
    cacheRoot := ← row.optional "cache_root" Json.asString?
    maxCacheSizeKb := ← word "max_cache_size_kb"
    warnMarginKb := ← word "warn_margin_kb"
    maxRetryCount := ← row.optional "max_retry_count" Json.asUInt32?
    retryBackoffMs := ← word "retry_backoff_ms"
    maxBackoffMs := ← word "max_backoff_ms"
    maxConcurrentRetrievals := ← word "max_concurrent_retrievals"
    defaultEstimatedSizeKb := ← word "default_estimated_size_kb"
    fileUnlockHours := ← word "file_unlock_hours"
    webTtlHours := ← word "web_ttl_hours"
    scriptedTtlHours := ← word "scripted_ttl_hours"
    staleJobHours := ← word "stale_job_hours"
    lifecycleSweepSecs := ← word "lifecycle_sweep_secs"
    expirySweepSecs := ← word "expiry_sweep_secs"
    reclaimSweepSecs := ← word "reclaim_sweep_secs"
    reclaimHeadroomKb := ← word "reclaim_headroom_kb"
    expiryWarningHours := ← word "expiry_warning_hours" }

end Preferences

namespace Settings

/-- How long a job stays ready in a mode. -/
def ttlMs (s : Settings) : DownloadMode → Int
  | .web => s.webTtlMs
  | .scripted => s.scriptedTtlMs

/-- The pause after a number of failed calls: it doubles from call to call, up to the longest. -/
def backoffMs (s : Settings) (failures : Nat) : Nat :=
  min (s.retryBackoffMs * Nat.pow 2 (min (failures - 1) 16)) s.maxBackoffMs

/-- No pause between attempts is longer than the longest pause allowed. -/
theorem backoffMs_le (s : Settings) (failures : Nat) : s.backoffMs failures ≤ s.maxBackoffMs :=
  Nat.min_le_right _ _

/-- The longest span that may be preferred: a hundred years. -/
def maxHours : Nat := 876000

/-- A limit that may not be zero. -/
def nonzero (name : String) (n : UInt64) : Except Failure UInt64 :=
  if n = 0 then .error (.configParse (some (name ++ " must be greater than zero"))) else .ok n

/-- A span preferred in hours, in milliseconds. -/
def spanMs (name : String) (hours : Option UInt64) (default : Int) : Except Failure Int :=
  match hours with
  | none => .ok default
  | some h =>
    if h.toNat ≤ maxHours then .ok (h.toNat * 3600000)
    else .error (.configParse
      (some (name ++ " must not exceed " ++ toString maxHours ++ " hours")))

/-- Where the files are kept unless it is preferred otherwise, for the home directory of the user. -/
def defaultRoot (home : String) : String := Path.join (Path.join home ".cache") "staging-cache"

/-- The settings that preferences stand for. -/
def resolve (home : String) (p : Preferences) : Except Failure Settings := do
  let default : Settings := { cacheRoot := p.cacheRoot.getD (defaultRoot home) }
  let limitKb ← nonzero "max_cache_size_kb" (p.maxCacheSizeKb.getD default.limitKb)
  let maxConcurrent ← nonzero "max_concurrent_retrievals"
    (p.maxConcurrentRetrievals.getD (UInt64.ofNat default.maxConcurrent))
  let keepMs ← spanMs "file_unlock_hours" p.fileUnlockHours default.keepMs
  let webTtlMs ← spanMs "web_ttl_hours" p.webTtlHours default.webTtlMs
  let scriptedTtlMs ← spanMs "scripted_ttl_hours" p.scriptedTtlHours default.scriptedTtlMs
  let staleAfterMs ← spanMs "stale_job_hours" p.staleJobHours default.staleAfterMs
  let warningMs ← spanMs "expiry_warning_hours" p.expiryWarningHours default.warningMs
  .ok { default with
    limitKb, keepMs, webTtlMs, scriptedTtlMs, staleAfterMs, warningMs
    maxConcurrent := maxConcurrent.toNat
    marginKb := p.warnMarginKb.getD default.marginKb
    maxRetries := p.maxRetryCount.getD default.maxRetries
    retryBackoffMs := (p.retryBackoffMs.map UInt64.toNat).getD default.retryBackoffMs
    maxBackoffMs := (p.maxBackoffMs.map UInt64.toNat).getD default.maxBackoffMs
    defaultEstimateKb := p.defaultEstimatedSizeKb.getD default.defaultEstimateKb
    lifecycleSweepSecs := (p.lifecycleSweepSecs.map UInt64.toNat).getD default.lifecycleSweepSecs
    expirySweepSecs := (p.expirySweepSecs.map UInt64.toNat).getD default.expirySweepSecs
    reclaimSweepSecs := (p.reclaimSweepSecs.map UInt64.toNat).getD default.reclaimSweepSecs
    headroomKb := p.reclaimHeadroomKb.getD default.headroomKb }

/-- The file that preferences are looked for in when none is named. -/
def defaultFile : String := "staging-cache.json"

/-- The settings written in a file. Where no file is named, the default file may be missing. -/
def load (home : String) (disk : Disk) (path : Option String) : Except Failure Settings :=
  if path = none ∧ disk.holds defaultFile = false then resolve home {}
  else
    match disk.read? (path.getD defaultFile) with
    | none => .error (.configRead (path.getD defaultFile))
    | some text =>
      match (Json.parse? text).bind Preferences.ofJson? with
      | none => .error (.configParse none)
      | some p => resolve home p

end Settings

end Depot

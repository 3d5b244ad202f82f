import Depot.Job.Status

/-!
# Why an operation fails

Every refusal of the depot is one of the causes below. The wording is in `Failure.message` alone.
Where the cause lies in a foreign reader or in the file system, its own account of it is optional:
the depot adds none.
-/

namespace Depot

/-- A cause of failure. -/
inductive Failure
  /-- A text that names no file. -/
  | invalidFileId (value : String)
  /-- A text that names no request. -/
  | invalidRequestId (value : String)
  /-- A reservation that does not fit, even after eviction. -/
  | capacityExceeded (required : UInt64) (available : Int)
  /-- A transfer that went wrong and may be tried again. -/
  | retrievalFailed (detail : String)
  /-- A transfer given up after its last attempt. -/
  | retrievalExhausted (file : String) (attempts : UInt32)
  /-- Records that contradict each other. -/
  | inconsistentState (detail : String)
  /-- A kind of file that is never transferred. -/
  | notRetrievable (kind : String)
  | jobNotFound (request : String)
  | jobAlreadyExists (request : String)
  /-- A step that is not in the life cycle of a job. -/
  | invalidTransition (request : String) (source target : JobStatus)
  /-- The inventory could not be consulted or read back. -/
  | store (detail : String)
  /-- The file system refused. -/
  | filesystem (detail : Option String)
  /-- Preferences that cannot be read as text. -/
  | configRead (path : String)
  /-- Preferences that are malformed or out of bounds. -/
  | configParse (detail : Option String)
  | logging (detail : String)
  deriving DecidableEq, Repr

namespace Failure

/-- A heading, followed by a detail if there is one. -/
private def headed (heading : String) : Option String → String
  | none => heading
  | some detail => heading ++ ": " ++ detail

/-- The account of a failure for a reader. -/
def message : Failure → String
  | invalidFileId value => headed "invalid file id" value
  | invalidRequestId value => headed "invalid request id" value
  | capacityExceeded required available =>
    "cache capacity exceeded: " ++ toString required.toNat ++ " KB required, " ++
      toString available ++ " KB available"
  | retrievalFailed detail => headed "retrieval failed" detail
  | retrievalExhausted file attempts =>
    "retrieval of " ++ file ++ " exhausted after " ++ toString attempts.toNat ++ " attempts"
  | inconsistentState detail => headed "inconsistent state" detail
  | notRetrievable kind =>
    kind ++ " files are generated by the packager and cannot be retrieved"
  | jobNotFound request => headed "job not found" request
  | jobAlreadyExists request => headed "job already exists" request
  | invalidTransition request source target =>
    "job " ++ request ++ " cannot move from " ++ source.name ++ " to " ++ target.name
  | store detail => headed "store error" detail
  | filesystem detail => headed "filesystem error" detail
  | configRead path => "failed to read config file at " ++ path
  | configParse detail => headed "failed to parse JSON config" detail
  | logging detail => headed "failed to initialise logging" detail

/-- Whether the same request may succeed when it is made again. -/
def isRetryable : Failure → Bool
  | retrievalFailed _ | inconsistentState _ | filesystem _ => true
  | _ => false

/-- What the reader of a failure can do about it. -/
def advice : Failure → Option String
  | capacityExceeded _ _ => "free space by expiring jobs or raise max_cache_size_kb"
  | _ => none

end Failure

end Depot

import Depot.Site.Transfers

/-!
# Jobs at work

A job is created with its catalogues packaged and its other files asked for. Sweeps then bring every job
forward: one whose files are all there becomes ready and keeps them until its expiry, one that cannot
have a file, or that has waited too long, ends in an error, and one whose time is over expires. Of each
change that is stored a notice is delivered.
-/

namespace Depot

open Act Time

/-- Deliver a notice; those who are told may change the status of other jobs. -/
def Act.tell (n : Notice) : Act Unit := do
  note (.told n)
  ((((← get).reactions.get? n.request).getD []).forM fun (r, status) =>
    Records.overwriteStatus r status)

namespace Jobs

/-! ### Single jobs -/

/-- A job that must exist. -/
def find (r : RequestId) : Act Job := do
  match ← Records.loadJob r with
  | some job => return job
  | none => throw (.jobNotFound r.text)

/-- Change a job as it is stored now; nothing is stored if the change does not apply. -/
def apply (r : RequestId) (change : Job → Act (Option Job)) : Act (Option Job) := do
  let job ← find r
  match ← change job with
  | none => return none
  | some changed =>
    Records.saveJob changed
    return some changed

/-- Take a step of the life cycle. -/
def move (job : Job) (next : JobStatus) (time : Instant) : Act Job :=
  ExceptT.mk (pure (job.move? next time))

/-- Make a step that an operator asks for. -/
def administer (r : RequestId) (next : JobStatus) : Act Job := do
  let time ← now
  match ← apply r fun job => return some (← move job next time) with
  | some job =>
    note (.ordered job.requestId next)
    return job
  | none => throw (.jobNotFound r.text)

/-- Pause a job that is being prepared. -/
def pause (r : RequestId) : Act Job := administer r .paused

/-- Prepare a paused job again. -/
def resume (r : RequestId) : Act Job := administer r .preparing

/-- End a job in an error, if it is still being prepared. -/
def fail (r : RequestId) (message : String) : Act Job := do
  let time ← now
  let failed ← apply r fun job => do
    if job.status ≠ .preparing then return none
    return some { ← move job .error time with errorMessage := some message }
  match failed with
  | some job =>
    tell (.failed job.requestId message)
    return job
  | none => find r

/-- Keep files until a time. -/
def keepUntil (time : Instant) : List ManifestEntry → Act Unit
  | [] => return
  | entry :: rest => do
    if let some f ← Records.loadFile entry.fileId then
      Records.saveFile (f.extendUnlock time)
    keepUntil time rest

/-- Hours in a span of milliseconds, rounded toward zero. -/
def hoursOf (millis : Int) : Int := Int.tdiv millis 3600000

/-- Make a job ready, if it is still being prepared: its files are kept until it expires. -/
def promote (r : RequestId) : Act Job := do
  let time ← now
  let ttl := (← get).settings.ttlMs (← find r).mode
  match time.addMillis? ttl with
  | none =>
    fail r ("Expiry of " ++ toString (hoursOf ttl) ++ " hours overflows the calendar")
  | some expiry =>
    let promoted ← apply r fun job => do
      if job.status ≠ .preparing then return none
      keepUntil expiry job.retrievable
      return some
        { ← move job .ready time with availableAt := some time, expiresAt := some expiry }
    match promoted with
    | some job =>
      tell (.ready job.requestId (job.expiresAt.getD time))
      return job
    | none => find r

/-! ### Files of a job -/

/-- How a job stands with its files. -/
inductive Assessment
  | ready
  | waiting
  | failed (message : String)

/-- Why a file could not be had. -/
def lossMessage (id : FileId) : Option FileRecord → String
  | none => "File " ++ id.text ++ " could not be retrieved"
  | some f =>
    "File " ++ id.text ++ " could not be retrieved after " ++ toString f.retryCount.toNat ++
      " attempts: " ++ f.lastError.getD ""

/-- Ask for the files of entries, up to the first that cannot be had. Where records are expected, each is
looked for beforehand. -/
def assessEntries (r : RequestId) (expectRecords : Bool) :
    List ManifestEntry → Bool → Act Assessment
  | [], waiting => return if waiting then .waiting else .ready
  | entry :: rest, waiting => do
    if expectRecords then
      let _ ← Records.loadFile entry.fileId
    match ← attempt (Transfers.ensure r entry) with
    | .ok .available => assessEntries r expectRecords rest waiting
    | .ok .pending => assessEntries r expectRecords rest true
    | .ok .failed =>
      return .failed (lossMessage entry.fileId (← Records.loadFile entry.fileId))
    | .error e =>
      match e with
      | .capacityExceeded .. =>
        return .failed ("File " ++ entry.fileId.text ++ " does not fit in the cache: " ++ e.message)
      | _ => throw e

/-- Ask for the files of a job. -/
def assess (job : Job) (expectRecords : Bool) : Act Assessment :=
  assessEntries job.requestId expectRecords job.retrievable false

/-! ### Creation -/

/-- Have a catalogue packaged for a job. -/
def package (r : RequestId) (entry : ManifestEntry) : Act Unit := do
  match (← get).packager with
  | none => throw (.notRetrievable entry.kind.name)
  | some p =>
    let failure := p.failures.get? entry.fileId
    note (.packaged r entry.fileId failure.isNone)
    if let some status := p.interference.get? entry.fileId then
      Records.overwriteStatus r status
    if let some e := failure then throw e

/-- Package catalogues, up to the first that cannot be; that one, and why. -/
def packageAll (r : RequestId) : List ManifestEntry → Act (Option (FileId × Failure))
  | [] => return none
  | entry :: rest => do
    match ← attempt (package r entry) with
    | .ok () => packageAll r rest
    | .error e => return some (entry.fileId, e)

/-- Create a job: package its catalogues, and ask for its other files. -/
def create (r : RequestId) (mode : DownloadMode) (manifest : List ManifestEntry) : Act Job := do
  let time ← now
  if (← Records.loadJob r).isSome then throw (.jobAlreadyExists r.text)
  let job := Job.create r mode manifest time
  Records.saveJob job
  match ← packageAll r job.catalogues with
  | some (id, e) => fail r ("Failed to package catalogue " ++ id.text ++ ": " ++ e.message)
  | none =>
    match ← assess job false with
    | .ready => promote r
    | .failed message => fail r message
    | .waiting => find r

/-! ### Sweeps -/

/-- What a sweep has done. -/
structure Report where
  promoted : List RequestId := []
  failed : List RequestId := []
  expired : List RequestId := []
  stillPreparing : Nat := 0
  deriving DecidableEq

/-- Whether a sweep has changed nothing. -/
def Report.isEmpty (p : Report) : Bool :=
  p.promoted.isEmpty && p.failed.isEmpty && p.expired.isEmpty

/-- Whether a job has been prepared for too long at a time. -/
def isStale (staleAfterMs : Int) (job : Job) (time : Instant) : Bool :=
  decide (staleAfterMs * 1000000 < time.nanosSince job.modifiedAt)

/-- End a job in an error, and report it if that is where it ends. -/
def reportFailure (r : RequestId) (message : String) (p : Report) : Act Report := do
  let job ← fail r message
  return if job.status = .error then { p with failed := p.failed ++ [job.requestId] } else p

/-- Bring a job forward that is being prepared. -/
def advance (job : Job) (p : Report) : Act Report := do
  match ← assess job true with
  | .ready =>
    let job ← promote job.requestId
    return if job.status = .ready then { p with promoted := p.promoted ++ [job.requestId] } else p
  | .failed message => reportFailure job.requestId message p
  | .waiting =>
    let staleAfterMs := (← get).settings.staleAfterMs
    if isStale staleAfterMs job (← now) then
      reportFailure job.requestId ("Job has been preparing for more than " ++
        toString (hoursOf staleAfterMs) ++ " hours") p
    else return { p with stillPreparing := p.stillPreparing + 1 }

/-- Bring jobs forward; a failure with one of them does not hold up the others. -/
def advanceAll : List Job → Report → Act Report
  | [], p => return p
  | job :: rest, p => do
    match ← attempt (advance job p) with
    | .ok p => advanceAll rest p
    | .error _ => advanceAll rest p

/-- Let the jobs of a list expire whose time is over. -/
def expireAll (time : Instant) : List Job → Report → Act Report
  | [], p => return p
  | job :: rest, p => do
    if !job.isExpiredAt time then expireAll time rest p
    else
      let expired ← apply job.requestId fun job => do
        if job.status ≠ .ready then return none
        return some (← move job .expired time)
      match expired with
      | none => expireAll time rest p
      | some job =>
        tell (.expired job.requestId)
        expireAll time rest { p with expired := p.expired ++ [job.requestId] }

/-- Bring every job forward. -/
def poll : Act Report := do
  let report ← advanceAll (← Records.findByStatus .preparing) {}
  let time ← now
  expireAll time (← Records.findByStatus .ready) report

/-! ### Cancellation -/

/-- The message of a cancelled job. -/
def cancelledMessage : String := "Job cancelled because the data access cache was cleared"

/-- Cancel the live jobs of a list; how many there were. -/
def cancelAmong (time : Instant) : List Job → Act Nat
  | [] => return 0
  | job :: rest => do
    if !job.status.isLive then cancelAmong time rest
    else
      let moved ← move job .cancelled time
      Records.saveJob
        { moved with expiresAt := some time, errorMessage := some cancelledMessage }
      tell (.cancelled job.requestId)
      return (← cancelAmong time rest) + 1

/-- Cancel every live job whose time is not over. -/
def cancelAll : Act Nat := do
  let time ← now
  cancelAmong time (← Records.findUnexpired time)

/-! ### Lists -/

/-- The jobs that ended in an error, the last first. -/
def failed : Act (List Job) :=
  return sortBy (fun a b => compare b.modifiedAt a.modifiedAt) (← Records.findByStatus .error)

/-- The jobs that are ready, the last first. -/
def completed : Act (List Job) :=
  return sortBy (fun a b => compare b.availableAt a.availableAt) (← Records.findByStatus .ready)

/-- The jobs being prepared, the first first. -/
def preparing : Act (List Job) :=
  return sortBy (compareOn Job.createdAt) (← Records.findByStatus .preparing)

/-- The paused jobs, the first first. -/
def paused : Act (List Job) :=
  return sortBy (compareOn Job.createdAt) (← Records.findByStatus .paused)

end Jobs

end Depot

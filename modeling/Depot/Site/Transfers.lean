import Depot.Site.Room

/-!
# Transfers

A file that a job asks for and that is not there is transferred: it counts as on its way, room is
reserved for it, and its transfer is queued. A file on its way is not transferred once more, however
many jobs ask for it. Where the inventory keeps a record under another name than its own, the file is
looked for under the one name and transferred under the other, and then it may have more transfers than
one; the first to end takes it off its way.

A transfer moves in three kinds of moves, each at a moment of its own (`advance`): it asks for a turn, it
begins a call that it has waited for, and it deals with the end of its call. There are never more calls
under way than there are turns. A transfer whose call has ended hands its turn over to the one that has
waited longest. A call that fails is repeated after a pause, unless it has failed too often or there is
no sense in it; then the file counts as failed.

A transfer goes on as long as it need not pause.
-/

namespace Depot.Transfers

open Act Time

/-! ### Queueing -/

/-- A file is no longer on its way. -/
def leaveFlight (id : FileId) : Act Unit :=
  modify fun s => { s with inFlight := s.inFlight.erase id }

/-- A file is on its way. -/
def enterFlight (id : FileId) : Act Unit :=
  modify fun s => { s with inFlight := s.inFlight.add id }

/-- A record that is kept may be evicted from now on, unless it has a time for that. -/
def unlock (f : FileRecord) : Act Unit := do
  if f.unlockAt = none then
    if (← Records.loadFile f.fileId).isSome then
      Records.saveFile { f with unlockAt := some (← now) }

/-- Queue the transfer of a file that counts as on its way. A record that could not be given room is
unlocked; where that fails too, the file still counts as on its way. -/
def queue (f : FileRecord) : Act Unit := do
  match ← attempt (Room.reserve f.fileId f.estimatedKb) with
  | .error e =>
    unlock f
    leaveFlight f.fileId
    throw e
  | .ok () =>
    match ← attempt (Records.saveFile f) with
    | .error e =>
      Room.release f.fileId
      leaveFlight f.fileId
      throw e
    | .ok () =>
      note (.queued f)
      join (.transfer ⟨f, .resting (← get).clock.elapsed⟩)

/-- What is to be done about a file that a job asks for. -/
inductive Need
  /-- Nothing: it is there, or has failed. -/
  | settled (status : FileStatus)
  /-- It must be transferred; whether its record is new. -/
  | transfer (record : FileRecord) (isNew : Bool)

/-- What is to be done about a file, going by its record. One that is there without a size is transferred
again. -/
def needOf (entry : ManifestEntry) (defaultEstimateKb : UInt64) : Option FileRecord → Need
  | none => .transfer (.ofEntry entry defaultEstimateKb) true
  | some f =>
    if f.failed then .settled .failed
    else if f.available && f.sizeKb.isSome then .settled .available
    else .transfer { f with available := false } false

/-- See to it that a file will be there for a request. Trouble with the transfer shows later, in the
file's status. -/
def ensure (request : RequestId) (entry : ManifestEntry) : Act FileStatus := do
  if entry.kind.isCatalogue then throw (.notRetrievable entry.kind.name)
  Records.addReference entry.fileId request
  if (← get).inFlight.contains entry.fileId then return .pending
  let found ← Records.loadFile entry.fileId
  match needOf entry (← get).settings.defaultEstimateKb found with
  | .settled status => return status
  | .transfer f isNew =>
    enterFlight f.fileId
    match ← attempt (queue f) with
    | .ok () => return .pending
    | .error e =>
      if isNew then Records.removeReference f.fileId request
      throw e

/-- Queue the transfers of those files of a list that are not on their way; how many could be. -/
def resumeAll : List FileRecord → Act Nat
  | [] => return 0
  | f :: rest => do
    if f.kind.isCatalogue || (← get).inFlight.contains f.fileId then resumeAll rest
    else
      enterFlight f.fileId
      match ← attempt (queue f) with
      | .ok () => return (← resumeAll rest) + 1
      | .error _ => resumeAll rest

/-- Queue the transfers of all files still to come; how many could be. -/
def resumePending : Act Nat := do
  resumeAll (← Records.findPending)

/-! ### Calls -/

/-- Take the next outcome of a file from its script. -/
def takeOutcome (scripts : Table FileId Script) (standard : Outcome) (id : FileId) :
    Outcome × Table FileId Script :=
  match scripts.get? id with
  | some script => (script.next, scripts.insert id script.rest)
  | none => (standard, scripts)

/-- Call the archive for a file, or have it made again from its source. -/
def callFor (f : FileRecord) : Act Outcome := do
  let s ← get
  note (.called s.clock.elapsed f.fileId f.regenerationSource)
  note (.begun f.fileId (s.inventory.files.get? f.fileId))
  match f.regenerationSource with
  | some source =>
    if s.supply.regenerates then
      let (o, rest) := takeOutcome s.supply.regenerations s.supply.standard f.fileId
      modify fun s => { s with supply := { s.supply with regenerations := rest } }
      return o
    else
      return { result := .error (.retrievalFailed ("no regenerator configured for " ++
        f.fileId.text ++ " (source " ++ source ++ ")")) }
  | none =>
    let (o, rest) := takeOutcome s.supply.fetches s.supply.standard f.fileId
    modify fun s => { s with supply := { s.supply with fetches := rest } }
    return o

/-- Where the bytes of a delivery are put. -/
def placeOf (cacheRoot : String) (id : FileId) (d : Delivery) : String :=
  d.location.getD (Path.join cacheRoot id.text)

/-- Put the bytes of a delivery where they belong, if that is in the working directory. -/
def deliver (id : FileId) (d : Delivery) : Act String := do
  let place := placeOf (← get).settings.cacheRoot id d
  if d.writes && (Path.ofString place).isLocal then
    modify fun s => { s with disk := (s.disk.write place (some "x")).1 }
  return place

/-! ### Moves -/

/-- The record of a file that has arrived. -/
def arrived (s : Site) (f : FileRecord) (sizeKb : UInt64) (place : String) : FileRecord :=
  { f with available := true, sizeKb := some sizeKb, location := some place, lastError := none
    }.extendUnlock (s.clock.now.addMillis s.settings.keepMs)

/-- The record of a file whose call has failed. -/
def setBack (f : FileRecord) (e : Failure) : FileRecord :=
  { f with retryCount := f.retryCount + 1, lastError := some e.message }

/-- The record of a file given up. -/
def givenUp (s : Site) (f : FileRecord) : FileRecord :=
  { f with failed := true }.extendUnlock s.clock.now

/-- Whether a file is given up after a failed call. -/
def isHopeless (s : Site) (f : FileRecord) (e : Failure) : Bool :=
  decide (s.settings.maxRetries < f.retryCount) || !e.isRetryable

/-- Deal with the end of a call: the transfer ends with a status, or it pauses and is on the list
again. -/
def settle (f : FileRecord) : Except Failure Delivery → Act (Option FileStatus)
  | .ok d => do
    let place ← deliver f.fileId d
    Room.commit (arrived (← get) f d.sizeKb place)
    return some .available
  | .error e => do
    let f := setBack f e
    if isHopeless (← get) f e then
      Records.saveFile (givenUp (← get) f)
      Room.release f.fileId
      return some .failed
    else
      Records.saveFile f
      let s ← get
      let pause := waitMs (s.settings.backoffMs f.retryCount.toNat)
      rejoin (.transfer ⟨f, .resting (s.clock.elapsed + pause)⟩)
      return none

/-- How a transfer has ended. A transfer that is broken off, because the inventory cannot be used, leaves
no status. -/
structure Ending where
  file : FileId
  status : Option FileStatus

/-- End a transfer: its file is no longer on its way. -/
def conclude (id : FileId) (status : Option FileStatus) : Act (Option Ending) := do
  leaveFlight id
  return some ⟨id, status⟩

/-- Whether a turn is free. -/
def hasTurn (s : Site) : Bool :=
  s.transfers.countP Transfer.holdsTurn < s.settings.maxConcurrent

/-- Hand a turn over to the transfer that has waited longest. -/
def handOver : Act Unit :=
  modify fun s =>
    match s.transfers.find? Transfer.isWaiting with
    | none => s
    | some t =>
      let chosen := .transfer ⟨t.record, .chosen s.clock.elapsed⟩
      { s with tasks := s.tasks.eraseP Task.isWaiting ++ [chosen] }

/-- Begin a call. -/
def begin (f : FileRecord) : Act Unit := do
  let o ← callFor f
  let time := (← get).clock.elapsed
  rejoin (.transfer ⟨f, .calling (time + waitMs o.delayMs) o.result⟩)

/-- Make the next move of a transfer that has been taken off the list; its ending, if that was the
last. -/
def advance (t : Transfer) : Act (Option Ending) := do
  let id := t.record.fileId
  match t.phase with
  | .resting _ =>
    if hasTurn (← get) then begin t.record else join (.transfer ⟨t.record, .waiting⟩)
    return none
  | .waiting =>
    join (.transfer t)
    return none
  | .chosen _ =>
    begin t.record
    return none
  | .calling _ result =>
    note (.returned (← get).clock.elapsed t.record result)
    handOver
    match ← attempt (settle t.record result) with
    | .ok none => return none
    | .ok (some status) => conclude id (some status)
    | .error _ =>
      Room.release id
      conclude id none

end Depot.Transfers

import Depot.Proofs.Act
import Depot.Proofs.Table
import Depot.Site.Opening

/-!
# What may happen to a depot

All that ever happens to a depot is a course of single changes, and each change has its conditions: a
file is evicted only if it is unlocked, not reserved, and no live job refers to it; a job becomes ready
only if all its files are there. This module lists the changes, with what is true when they are made.
That every operation of a depot is a course of them is proved in the modules on operations; what holds
of every depot is then proved by going through this list once.

A file that is asked for enters its flight, room is made for it, and it is queued or given up. Room is
made while the file is in flight, but evictions do not look at that; so the change `FileChange.queued`
puts the file in flight, reserves its room, keeps its record and queues its transfer all at once, and
the evictions come before it. A file that is given up leaves its flight, so it is never seen there; but if
its record cannot be unlocked it stays, and that is the change `FileChange.strayed`. Between any two
changes the depot is as it is between two operations.

The changes and the creation of jobs are what is done while a depot is open (`Sitting`). All that happens
to a depot (`History`) is that, and that it is opened again.

## Honest scope

Nobody else touches the inventory (`Site.Secluded`): it is not kept in a file, those who are told of jobs
leave jobs alone, and a call of it does what it says or is refused, after any pattern. The packager may
give jobs another status while it packages.
-/

namespace Depot

open Time

/-! ### Surroundings -/

/-- A depot whose inventory nobody else touches, and whose calls of it do what they say or are
refused. -/
structure Site.Secluded (s : Site) : Prop where
  inMemory : s.storePath = none
  claims : s.faults .loseClaim = []
  files : s.faults .missFile = []
  jobs : s.faults .missJob = []
  unheard : s.reactions = .empty

/-- A depot is as secluded as another with the same surroundings. -/
theorem Site.Secluded.of_same {s s' : Site} (h : s.Secluded) (storePath : s'.storePath = s.storePath)
    (faults : s'.faults = s.faults) (reactions : s'.reactions = s.reactions) : s'.Secluded := by
  constructor
  · rw [storePath, h.inMemory]
  · rw [faults, h.claims]
  · rw [faults, h.files]
  · rw [faults, h.jobs]
  · rw [reactions, h.unheard]

/-- No call of the inventory is ever refused. -/
def Site.Faultless (s : Site) : Prop := ∀ fault, s.faults fault = []

/-- The packager gives jobs a status while it packages some catalogue. -/
def Site.Interferes (s : Site) (status : JobStatus) : Prop :=
  ∃ p id, s.packager = some p ∧ p.interference.get? id = some status

/-- The packager leaves jobs alone. -/
def Site.Discreet (s : Site) : Prop := ∀ status, ¬s.Interferes status

/-- A fault that was not to strike is still not to strike. -/
def FaultsGoOn (faults later : Fault → FaultPattern) : Prop :=
  ∀ fault, faults fault = [] → later fault = []

/-- A failure of a call that was refused. -/
def Site.Refused (s : Site) (e : Failure) : Prop := (∃ detail, e = .store detail) ∧ ¬s.Faultless

theorem FaultsGoOn.refl (faults : Fault → FaultPattern) : FaultsGoOn faults faults := fun _ h => h

theorem FaultsGoOn.trans {f g h : Fault → FaultPattern} (h₁ : FaultsGoOn f g) (h₂ : FaultsGoOn g h) :
    FaultsGoOn f h := fun fault hf => h₂ fault (h₁ fault hf)

/-! ### Records -/

/-- Every file record and every job is kept under its own name. -/
structure Inventory.Named (v : Inventory) : Prop where
  files : ∀ id f, v.files.get? id = some f → f.fileId = id
  jobs : ∀ r j, v.jobs.get? r = some j → j.requestId = r

/-- The file is there, with a size. -/
structure FileRecord.IsThere (f : FileRecord) : Prop where
  available : f.available = true
  sized : f.sizeKb.isSome = true
  sound : f.failed = false

/-- A file is there for a request that refers to it. -/
def Inventory.Holds (v : Inventory) (r : RequestId) (id : FileId) : Prop :=
  v.refers id r = true ∧ ∃ f, v.files.get? id = some f ∧ f.IsThere

/-- A file is there for a request that refers to it, and may not be evicted before a time. -/
def Inventory.HoldsUntil (v : Inventory) (r : RequestId) (id : FileId) (time : Instant) : Prop :=
  v.refers id r = true ∧ ∃ f u, v.files.get? id = some f ∧ f.IsThere ∧ f.unlockAt = some u ∧ time ≤ u

/-- A record to be transferred: the one that is kept, if there is one, taken to be still to come. -/
structure Inventory.Wants (v : Inventory) (f : FileRecord) : Prop where
  pending : f.isPending = true
  kept : ∀ f₀, v.files.get? f.fileId = some f₀ → ¬f₀.IsThere ∧ f₀.failed = false ∧
    f = { f₀ with available := false }

/-- The records of the transfers in a list of tasks. -/
def recordsOf (l : List Task) : List FileRecord := (l.filterMap Task.transfer?).map Transfer.record

/-- The records on their way. -/
def Site.carried (s : Site) : List FileRecord := recordsOf s.tasks

/-- The records on their way are those of the transfers. -/
theorem Site.carried_eq (s : Site) : s.carried = s.transfers.map Transfer.record := rfl

/-- How many transfers in a list of tasks take up a turn. -/
def turnsOf (l : List Task) : Nat := (l.filterMap Task.transfer?).countP Transfer.holdsTurn

/-! ### Changes of files -/

/-- What does not concern the inventory goes on. -/
inductive Aside : Site → Site → Prop
  | intro {s : Site} (faults : Fault → FaultPattern) (disk : Disk) (supply : Supply)
      (goOn : FaultsGoOn s.faults faults) :
      Aside s { s with faults := faults, disk := disk, supply := supply }

/-- A file is evicted. -/
inductive Evict : Site → Site → Prop
  | aside {s s' : Site} (h : Aside s s') : Evict s s'
  | evicted {s : Site} {f : FileRecord} (disk : Disk)
      (kept : s.inventory.files.get? f.fileId = some f)
      (unlocked : ∃ u, f.unlockAt = some u ∧ u < s.clock.now)
      (free : s.account.isReserved f.fileId = false)
      (unpinned : ∀ r ∈ s.inventory.referrers f.fileId, ∀ j, s.inventory.jobs.get? r = some j →
        j.status.isLive = false) :
      Evict s
        { s with
          inventory := s.inventory.deleteFile f.fileId
          disk := disk
          account := s.account.discharge f.chargedKb
          log := s.log ++ [.evicted f s.clock.now (s.inventory.deleteFile f.fileId)] }

/-- **A file is stranded**: while it counted as on its way no room could be reserved for it, and then its
record could not be unlocked. The site is the one between these two calls, but for the file in flight. -/
structure Site.Strands (s : Site) (f : FileRecord) : Prop where
  grounded : s.inFlight.contains f.fileId = false
  noRoom : ∃ s₀ e, (Room.reserve f.fileId f.estimatedKb).answer s₀ = .error e ∧
    (Room.reserve f.fileId f.estimatedKb).after s₀ = { s with inFlight := s.inFlight.add f.fileId }
  refused : ∃ e, (Transfers.unlock f).answer { s with inFlight := s.inFlight.add f.fileId } = .error e

/-- Something happens to files that are not on their way. -/
inductive FileChange : Site → Site → Prop
  | evict {s s' : Site} (h : Evict s s') : FileChange s s'
  /-- A request refers to a file. -/
  | attached {s : Site} (id : FileId) (r : RequestId) :
      FileChange s { s with inventory := s.inventory.addReference id r }
  /-- A request refers no longer to a file that has no record. -/
  | detached {s : Site} (id : FileId) (r : RequestId)
      (absent : s.inventory.files.get? id = none) :
      FileChange s { s with inventory := s.inventory.removeReference id r }
  /-- A transfer is queued, for which there is room. -/
  | queued {s : Site} {f : FileRecord} (time : Nat)
      (grounded : s.inFlight.contains f.fileId = false)
      (wanted : s.inventory.Wants f)
      (room : s.hasRoom (some f.estimatedKb) = true) :
      FileChange s
        { s with
          inventory := s.inventory.saveFile f
          account := s.account.reserve f.fileId f.estimatedKb
          inFlight := s.inFlight.add f.fileId
          tasks := s.tasks ++ [.transfer ⟨f, .resting time⟩]
          log := s.log ++ [.queued f] }
  /-- A record that could not be given room may be evicted from now on. -/
  | unlocked {s : Site} {f : FileRecord}
      (grounded : s.inFlight.contains f.fileId = false)
      (wanted : s.inventory.Wants f)
      (kept : s.inventory.files.contains f.fileId = true)
      (locked : f.unlockAt = none) :
      FileChange s
        { s with inventory := s.inventory.saveFile { f with unlockAt := some s.clock.now } }
  /-- A file counts as on its way although it has no transfer, for calls were refused. -/
  | strayed {s : Site} {f : FileRecord} (stranded : s.Strands f) (faulty : ¬s.Faultless) :
      FileChange s { s with inFlight := s.inFlight.add f.fileId }
  /-- A file that is there is kept until a time. -/
  | extended {s : Site} {f : FileRecord} (time : Instant)
      (kept : s.inventory.files.get? f.fileId = some f)
      (there : f.IsThere)
      (grounded : s.inFlight.contains f.fileId = false) :
      FileChange s { s with inventory := s.inventory.saveFile (f.extendUnlock time) }

/-! ### Changes of transfers -/

/-- A transfer makes a move. In all of them the others keep their records, and no more turns are taken
up than before or than there are. -/
inductive TransferChange : Site → Site → Prop
  /-- It asks for a turn, or begins a call. -/
  | moved {s : Site} (tasks : List Task) (log : List Happening)
      (same : (recordsOf tasks).Perm s.carried)
      (calls : log = [] ∨ ∃ f ∈ s.carried, ∃ time source,
        log = [.called time f.fileId source, .begun f.fileId (s.inventory.files.get? f.fileId)])
      (turns : turnsOf tasks ≤ max (turnsOf s.tasks) s.settings.maxConcurrent) :
      TransferChange s { s with tasks := tasks, log := s.log ++ log }
  /-- Its file has arrived. -/
  | arrived {s : Site} {f : FileRecord} (d : Delivery) (place : String) (tasks : List Task)
      (rest : s.carried.Perm (f :: recordsOf tasks))
      (turns : turnsOf tasks ≤ max (turnsOf s.tasks) s.settings.maxConcurrent) :
      TransferChange s
        { s with
          inventory := s.inventory.saveFile (Transfers.arrived s f d.sizeKb place)
          account := s.account.commit f.fileId d.sizeKb
          inFlight := s.inFlight.erase f.fileId
          tasks := tasks
          log := s.log ++ [.returned s.clock.elapsed f (.ok d)] }
  /-- It is given up after a failure. -/
  | givenUp {s : Site} {f : FileRecord} (e : Failure) (tasks : List Task)
      (rest : s.carried.Perm (f :: recordsOf tasks))
      (hopeless : Transfers.isHopeless s (Transfers.setBack f e) e = true)
      (turns : turnsOf tasks ≤ max (turnsOf s.tasks) s.settings.maxConcurrent) :
      TransferChange s
        { s with
          inventory := s.inventory.saveFile (Transfers.givenUp s (Transfers.setBack f e))
          account := s.account.release f.fileId
          inFlight := s.inFlight.erase f.fileId
          tasks := tasks
          log := s.log ++ [.returned s.clock.elapsed f (.error e)] }
  /-- It pauses after a failure. -/
  | setBack {s : Site} {f : FileRecord} (e : Failure) (tasks others : List Task)
      (rest : s.carried.Perm (f :: recordsOf others))
      (back : (recordsOf tasks).Perm (Transfers.setBack f e :: recordsOf others))
      (hopeful : Transfers.isHopeless s (Transfers.setBack f e) e = false)
      (turns : turnsOf tasks ≤ max (turnsOf s.tasks) s.settings.maxConcurrent) :
      TransferChange s
        { s with
          inventory := s.inventory.saveFile (Transfers.setBack f e)
          tasks := tasks
          log := s.log ++ [.returned s.clock.elapsed f (.error e)] }
  /-- It is broken off, for a call was refused. -/
  | brokenOff {s : Site} {f : FileRecord} (result : Except Failure Delivery) (tasks : List Task)
      (rest : s.carried.Perm (f :: recordsOf tasks))
      (faulty : ¬s.Faultless)
      (turns : turnsOf tasks ≤ max (turnsOf s.tasks) s.settings.maxConcurrent) :
      TransferChange s
        { s with
          account := s.account.release f.fileId
          inFlight := s.inFlight.erase f.fileId
          tasks := tasks
          log := s.log ++ [.returned s.clock.elapsed f result] }

/-! ### Changes of jobs -/

/-- Something happens while a job is created. -/
inductive Founding (r : RequestId) : Site → Site → Prop
  | created {s : Site} (mode : DownloadMode) (manifest : List ManifestEntry)
      (unknown : s.inventory.jobs.get? r = none) :
      Founding r s
        { s with inventory := s.inventory.saveJob (Job.create r mode manifest s.clock.now) }
  /-- A catalogue was to be packaged. -/
  | packaged {s : Site} (id : FileId) (succeeded : Bool) :
      Founding r s { s with log := s.log ++ [.packaged r id succeeded] }
  /-- The packager gives the job a status. -/
  | overwritten {s : Site} (status : JobStatus) (meddled : s.Interferes status) :
      Founding r s { s with inventory := s.inventory.overwriteStatus r status }

/-- Something happens to a job, and it is told. -/
inductive JobChange : Site → Site → Prop
  /-- It is paused, or prepared again. -/
  | administered {s : Site} {j : Job} (next : JobStatus)
      (kept : s.inventory.jobs.get? j.requestId = some j)
      (allowed : j.status.canBecome next = true)
      (either : next = .paused ∨ next = .preparing) :
      JobChange s
        { s with
          inventory := s.inventory.saveJob { j with status := next, modifiedAt := s.clock.now }
          log := s.log ++ [.ordered j.requestId next] }
  | failed {s : Site} {j : Job} (message : String)
      (kept : s.inventory.jobs.get? j.requestId = some j)
      (preparing : j.status = .preparing) :
      JobChange s
        { s with
          inventory := s.inventory.saveJob
            { j with status := .error, modifiedAt := s.clock.now, errorMessage := some message }
          log := s.log ++ [.told (.failed j.requestId message)] }
  /-- It is ready: all its files are there, and are kept until it expires. -/
  | readied {s : Site} {j : Job} (expiry : Instant)
      (kept : s.inventory.jobs.get? j.requestId = some j)
      (preparing : j.status = .preparing)
      (ends : s.clock.now.addMillis? (s.settings.ttlMs j.mode) = some expiry)
      (held : ∀ e ∈ j.retrievable, s.inventory.HoldsUntil j.requestId e.fileId expiry)
      (grounded : ∀ e ∈ j.retrievable, s.inFlight.contains e.fileId = false) :
      JobChange s
        { s with
          inventory := s.inventory.saveJob
            { j with
              status := .ready
              modifiedAt := s.clock.now
              availableAt := some s.clock.now
              expiresAt := some expiry }
          log := s.log ++ [.told (.ready j.requestId expiry)] }
  | expired {s : Site} {j : Job}
      (kept : s.inventory.jobs.get? j.requestId = some j)
      (ready : j.status = .ready)
      (due : j.isExpiredAt s.clock.now = true) :
      JobChange s
        { s with
          inventory := s.inventory.saveJob { j with status := .expired, modifiedAt := s.clock.now }
          log := s.log ++ [.told (.expired j.requestId)] }
  | cancelled {s : Site} {j : Job}
      (kept : s.inventory.jobs.get? j.requestId = some j)
      (live : j.status.isLive = true)
      (unexpired : j.isExpiredAt s.clock.now = false) :
      JobChange s
        { s with
          inventory := s.inventory.saveJob
            { j with
              status := .cancelled
              modifiedAt := s.clock.now
              expiresAt := some s.clock.now
              errorMessage := some Jobs.cancelledMessage }
          log := s.log ++ [.told (.cancelled j.requestId)] }

/-! ### All changes -/

/-- **What may happen to a depot in one go**, apart from the creation of jobs. -/
inductive Change : Site → Site → Prop
  | file {s s' : Site} (h : FileChange s s') : Change s s'
  | transfer {s s' : Site} (h : TransferChange s s') : Change s s'
  | job {s s' : Site} (h : JobChange s s') : Change s s'
  /-- Other jobs count as warned of. -/
  | warned {s : Site} (requests : KeySet RequestId) : Change s { s with warned := requests }
  /-- A job is warned of. -/
  | told {s : Site} (r : RequestId) (expiry : Instant) :
      Change s { s with log := s.log ++ [.told (.expiringSoon r expiry)] }
  /-- Time passes, or the clock is set. -/
  | clocked {s : Site} (clock : Clock) : Change s { s with clock := clock }
  /-- Duties are taken up or laid down. -/
  | duties {s : Site} (tasks : List Task)
      (same : tasks.filterMap Task.transfer? = s.transfers) : Change s { s with tasks := tasks }
  /-- Other catalogues cannot be packaged. -/
  | spoiled {s : Site} (failures : Table FileId Failure) :
      Change s
        { s with packager := s.packager.map fun p => { p with failures := failures } }

/-- A course of changes. -/
abbrev Course : Site → Site → Prop := Relation.ReflTransGen Change

/-- What may happen to an open depot in one go, the creation of jobs included. -/
inductive Deed : Site → Site → Prop
  | change {s s' : Site} (h : Change s s') : Deed s s'
  | founding {s s' : Site} (r : RequestId) (h : Founding r s s') : Deed s s'

/-- All that happens to a depot as long as it is open. -/
abbrev Sitting : Site → Site → Prop := Relation.ReflTransGen Deed

/-- A depot that is closed and opened again, with settings. -/
def Site.reopen (s : Site) (settings : Settings) : Site :=
  { s with
    settings := settings
    account := { committed := s.inventory.availableKb }
    inFlight := .empty
    tasks := []
    warned := .empty
    clock := { s.clock with elapsed := 0 } }

/-- **What may happen to a depot in one go**. -/
inductive Event : Site → Site → Prop
  | deed {s s' : Site} (h : Deed s s') : Event s s'
  | reopened {s : Site} (settings : Settings) : Event s (s.reopen settings)

/-- All that happens to a depot. -/
abbrev History : Site → Site → Prop := Relation.ReflTransGen Event

theorem Course.sitting {s s' : Site} (h : Course s s') : Sitting s s' :=
  Relation.ReflTransGen.mono (fun _ _ c => .change c) _ _ h

theorem Sitting.history {s s' : Site} (h : Sitting s s') : History s s' :=
  Relation.ReflTransGen.mono (fun _ _ c => .deed c) _ _ h

theorem Course.history {s s' : Site} (h : Course s s') : History s s' := h.sitting.history

end Depot

import Depot.Proofs.Room

/-!
# Asking for files

To ask for a file is to attach a reference to it and then, if it is not there, to queue its transfer. A
file that is found to be there costs nothing but the reference; and where a transfer cannot be queued,
its file is on its way no longer, unless it is stranded.

## Main statements

* `Transfers.leads_queue`, `Transfers.leads_ensure` — whether they fail or not, they are courses of changes
  of files.
* `Transfers.leads_ensure` also says of a file that is found to be there that it is, that the request
  refers to it, and that nothing else was done.
-/

namespace Depot

open Act Time

variable {s s' : Site}

/-! ### Courses of changes of files -/

/-- A course of changes of files that are not on their way. -/
abbrev FileCourse : Site → Site → Prop := Relation.ReflTransGen FileChange

theorem Evictions.fileCourse (h : Evictions s s') : FileCourse s s' :=
  Relation.ReflTransGen.mono (fun _ _ e => .evict e) _ _ h

theorem Aside.fileCourse (h : Aside s s') : FileCourse s s' := h.evictions.fileCourse

namespace FileCourse

/-- What changes of files leave alone. -/
structure Frame (s s' : Site) : Prop where
  jobs : s'.inventory.jobs = s.inventory.jobs
  settings : s'.settings = s.settings
  clock : s'.clock = s.clock
  packager : s'.packager = s.packager

theorem frame (h : FileCourse s s') : Frame s s' := by
  induction h with
  | refl => exact ⟨rfl, rfl, rfl, rfl⟩
  | tail _ c ih =>
    obtain ⟨h₁, h₂, h₃, h₄⟩ := ih
    cases c with
    | evict e =>
      cases e with
      | aside a => cases a; exact ⟨h₁, h₂, h₃, h₄⟩
      | evicted => exact ⟨h₁, h₂, h₃, h₄⟩
    | detached id r => exact ⟨(Inventory.jobs_removeReference ..).trans h₁, h₂, h₃, h₄⟩
    | attached | queued | unlocked | strayed | extended => exact ⟨h₁, h₂, h₃, h₄⟩

theorem course (h : FileCourse s s') : Course s s' :=
  Relation.ReflTransGen.mono (fun _ _ c => .file c) _ _ h

theorem secluded (h : FileCourse s s') (hs : s.Secluded) : s'.Secluded := h.course.secluded hs

theorem refused {e : Failure} (h : FileCourse s s') (hr : s'.Refused e) : s.Refused e :=
  h.course.refused hr

theorem balanced (h : FileCourse s s') (hs : s.Balanced) : s'.Balanced := hs.course h.course

end FileCourse

/-! ### Asking for what is there -/

/-- A reference is attached, and nothing else happens. -/
inductive Ask : Site → Site → Prop
  | aside {s s' : Site} (h : Aside s s') : Ask s s'
  | attached {s : Site} (id : FileId) (r : RequestId) :
      Ask s { s with inventory := s.inventory.addReference id r }

/-- References are attached, and nothing else happens. -/
abbrev Asking : Site → Site → Prop := Relation.ReflTransGen Ask

namespace Asking

theorem fileCourse (h : Asking s s') : FileCourse s s' := by
  refine Relation.ReflTransGen.mono (fun _ _ a => ?_) _ _ h
  cases a with
  | aside a => exact .evict (.aside a)
  | attached id r => exact .attached id r

/-- What asking leaves alone. -/
structure Frame (s s' : Site) : Prop where
  files : s'.inventory.files = s.inventory.files
  jobs : s'.inventory.jobs = s.inventory.jobs
  inFlight : s'.inFlight = s.inFlight
  tasks : s'.tasks = s.tasks
  evictions : s'.evictions = s.evictions

theorem frame (h : Asking s s') : Frame s s' := by
  induction h with
  | refl => exact ⟨rfl, rfl, rfl, rfl, rfl⟩
  | tail _ a ih =>
    obtain ⟨h₁, h₂, h₃, h₄, h₅⟩ := ih
    cases a with
    | aside a => cases a; exact ⟨h₁, h₂, h₃, h₄, h₅⟩
    | attached => exact ⟨h₁, h₂, h₃, h₄, h₅⟩

theorem refers (h : Asking s s') {id : FileId} {r : RequestId} (hr : s.inventory.refers id r = true) :
    s'.inventory.refers id r = true := by
  induction h with
  | refl => exact hr
  | tail _ a ih =>
    cases a with
    | aside a => cases a; exact ih
    | attached id' r' => exact (Inventory.refers_addReference ..).2 (.inr ih)

theorem holds (h : Asking s s') {id : FileId} {r : RequestId} (hr : s.inventory.Holds r id) :
    s'.inventory.Holds r id := by
  obtain ⟨hr, hf⟩ := hr
  exact ⟨h.refers hr, by rw [h.frame.files]; exact hf⟩

end Asking

/-! ### Other files -/

/-- The records of other files are dropped at most. -/
def Inventory.OnlyDrops (id : FileId) (v v' : Inventory) : Prop :=
  ∀ id' f, id' ≠ id → v'.files.get? id' = some f → v.files.get? id' = some f

theorem Evictions.onlyDrops (h : Evictions s s') (id : FileId) :
    s.inventory.OnlyDrops id s'.inventory := fun _ _ _ hf => h.get?_of_get? hf

theorem Inventory.OnlyDrops.saveFile {v v' : Inventory} {id : FileId} {f : FileRecord}
    (h : v.OnlyDrops id v') (hid : f.fileId = id) : v.OnlyDrops id (v'.saveFile f) := by
  intro id' g hne hg
  rw [Inventory.get?_saveFile, hid, if_neg hne] at hg
  exact h id' g hne hg

/-! ### Live jobs -/

/-- A request is a live job. -/
def Inventory.Lives (v : Inventory) (r : RequestId) : Prop :=
  ∃ j, v.jobs.get? r = some j ∧ j.status.isLive = true

/-- What no live job refers to is not what a live job refers to. -/
theorem Inventory.Lives.ne_of_unpinned {v : Inventory} {r : RequestId} {id id' : FileId} (live : v.Lives r)
    (hr : v.refers id r = true)
    (unpinned : ∀ r ∈ v.referrers id', ∀ j, v.jobs.get? r = some j → j.status.isLive = false) :
    id ≠ id' := by
  rintro rfl
  obtain ⟨j, hj, hlive⟩ := live
  rw [unpinned r ((Inventory.mem_referrers _).2 hr) j hj] at hlive
  cases hlive

theorem Evictions.lives (h : Evictions s s') {r : RequestId} (live : s.inventory.Lives r) :
    s'.inventory.Lives r := by
  unfold Inventory.Lives
  rw [h.frame.jobs]
  exact live

/-- A live job that refers to a file refers to it after evictions. -/
theorem Evictions.refers (h : Evictions s s') {id : FileId} {r : RequestId}
    (live : s.inventory.Lives r) (hr : s.inventory.refers id r = true) :
    s'.inventory.refers id r = true := by
  induction h with
  | refl => exact hr
  | tail ht e ih =>
    cases e with
    | aside a => cases a; exact ih
    | evicted disk kept unlocked free unpinned =>
      have hne := (Evictions.lives ht live).ne_of_unpinned ih unpinned
      exact (Inventory.refers_deleteFile_of_ne _ hne r).trans ih

/-- Evictions spare a file that a live job refers to. -/
theorem Evictions.spared (h : Evictions s s') {id : FileId} {r : RequestId}
    (live : s.inventory.Lives r) (hr : s.inventory.refers id r = true) : Spared id s s' := by
  induction h with
  | refl => exact .of_eq rfl
  | tail ht e ih =>
    refine ih.trans ?_
    cases e with
    | aside a => cases a; exact .of_eq rfl
    | evicted disk kept unlocked free unpinned =>
      have hrefers := Evictions.refers ht live hr
      exact .of_evicted rfl ((Evictions.lives ht live).ne_of_unpinned hrefers unpinned).symm

namespace Transfers

/-! ### Queueing -/

/-- A file for which no transfer could be queued: its record is not new. -/
structure NotQueued (id : FileId) (s s' : Site) : Prop where
  course : FileCourse s s'
  others : s.inventory.OnlyDrops id s'.inventory
  absent : s.inventory.files.get? id = none → s'.inventory.files.get? id = none
  tasks : s'.tasks = s.tasks
  spared : ∀ r, s.inventory.Lives r → s.inventory.refers id r = true → Spared id s s'

/-- A file for which a transfer was queued: it counts as on its way. -/
structure Queued (id : FileId) (s s' : Site) : Prop where
  course : FileCourse s s'
  others : s.inventory.OnlyDrops id s'.inventory
  flying : s'.inFlight.contains id = true
  refers : ∀ r, s.inventory.Lives r → s.inventory.refers id r = true →
    s'.inventory.refers id r = true
  spared : ∀ r, s.inventory.Lives r → s.inventory.refers id r = true → Spared id s s'

/-- A failure to make room for a file, or of a call that was refused. -/
def NoRoom (s : Site) (e : Failure) : Prop := s.Refused e ∨ ∃ kb room, e = .capacityExceeded kb room

/-- Evictions are all that happened while a file was in flight. -/
theorem notQueued_of_evictions {id : FileId} (h : Evictions s s') : NotQueued id s s' :=
  ⟨h.fileCourse, h.onlyDrops id, h.get?_eq_none, h.frame.tasks, fun _ live hr => h.spared live hr⟩

/-- No room could be reserved for a file, and that is where it left the depot. -/
def LeftBy (f : FileRecord) (s : Site) : Prop :=
  ∃ s₀ e, (Room.reserve f.fileId f.estimatedKb).answer s₀ = .error e ∧
    (Room.reserve f.fileId f.estimatedKb).after s₀ = s

/-- A file is stranded: it could not leave its flight. -/
theorem notQueued_of_strayed {f : FileRecord} {s'' : Site} (grounded : s.inFlight.contains f.fileId = false)
    (h : Evictions { s with inFlight := s.inFlight.add f.fileId } s') (full : LeftBy f s')
    (refused : ∃ e, (unlock f).answer s' = .error e) (faulty : ¬s'.Faultless) (h' : Aside s' s'') :
    NotQueued f.fileId s s'' := by
  have hevict : Evictions _ s'' := h.trans h'.evictions
  obtain ⟨t, ht, rfl⟩ := h.grounded
  have hstray : { t with inFlight := s.inFlight.add f.fileId } =
      { t with inFlight := t.inFlight.add f.fileId } := by rw [ht.frame.inFlight]
  rw [hstray] at full refused faulty h'
  have hgrounded : t.inFlight.contains f.fileId = false := by rw [ht.frame.inFlight, grounded]
  have hcourse := ht.fileCourse.tail (.strayed ⟨hgrounded, full, refused⟩ faulty)
  exact ⟨hcourse.trans h'.fileCourse, hevict.onlyDrops _, hevict.get?_eq_none, hevict.frame.tasks,
    fun _ live hr => hevict.spared live hr⟩

/-- The file left its flight after evictions. -/
theorem notQueued_of_left {id : FileId} (grounded : s.inFlight.contains id = false)
    (h : Evictions { s with inFlight := s.inFlight.add id } s') :
    NotQueued id s { s' with inFlight := s'.inFlight.erase id } := by
  obtain ⟨t, ht, rfl⟩ := h.grounded
  have hleft : { t with inFlight := (s.inFlight.add id).erase id } = t := by
    rw [KeySet.erase_add grounded, ← ht.frame.inFlight]
  dsimp only
  rw [hleft]
  exact notQueued_of_evictions ht

/-- The record is kept, and the file left its flight after evictions. -/
theorem notQueued_of_unlocked {f : FileRecord} (grounded : s.inFlight.contains f.fileId = false)
    (wanted : s.inventory.Wants f) (locked : f.unlockAt = none)
    (h : Evictions { s with inFlight := s.inFlight.add f.fileId } s')
    (kept : s'.inventory.files.contains f.fileId = true) :
    NotQueued f.fileId s
      { s' with
        inventory := s'.inventory.saveFile { f with unlockAt := some s'.clock.now }
        inFlight := s'.inFlight.erase f.fileId } := by
  obtain ⟨t, ht, rfl⟩ := h.grounded
  have hflight : (s.inFlight.add f.fileId).erase f.fileId = t.inFlight := by
    rw [KeySet.erase_add grounded, ← ht.frame.inFlight]
  have hgrounded : t.inFlight.contains f.fileId = false := by rw [ht.frame.inFlight]; exact grounded
  dsimp only at kept ⊢
  rw [hflight]
  refine ⟨ht.fileCourse.tail (.unlocked hgrounded (ht.wants wanted) kept locked),
    (ht.onlyDrops _).saveFile rfl, fun hnone => ?_, ht.frame.tasks, fun _ live hr => ht.spared live hr⟩
  rw [Table.contains_eq_false.2 (ht.get?_eq_none hnone)] at kept
  cases kept

/-- The record was kept after evictions, for there was room. -/
theorem queued_of_evictions {f : FileRecord} (time : Nat) (grounded : s.inFlight.contains f.fileId = false)
    (wanted : s.inventory.Wants f) (h : Evictions s s')
    (room : s'.hasRoom (some f.estimatedKb) = true) :
    Queued f.fileId s
      { s' with
        inventory := s'.inventory.saveFile f
        account := s'.account.reserve f.fileId f.estimatedKb
        inFlight := s.inFlight.add f.fileId
        tasks := s'.tasks ++ [.transfer ⟨f, .resting time⟩]
        log := s'.log ++ [.queued f] } := by
  have hgrounded : s'.inFlight.contains f.fileId = false := by rw [h.frame.inFlight, grounded]
  refine ⟨?_, (h.onlyDrops _).saveFile rfl, ?_, fun r live hr => h.refers live hr,
    fun r live hr => (h.spared live hr).trans (.of_eq (Site.evictions_of_log rfl rfl))⟩
  · rw [← h.frame.inFlight]
    exact h.fileCourse.tail (.queued time hgrounded (h.wants wanted) room)
  · rw [KeySet.contains_add]
    exact .inl rfl

/-- A record is unlocked, if it is kept and need be. Where that fails nothing has changed. -/
theorem leads_unlock (h : s.Secluded) (f : FileRecord) :
    Leads (unlock f) (fun e s' => s.Refused e ∧ Aside s s')
      (fun _ s' => Aside s s' ∨ ∃ s₁, Aside s s₁ ∧ f.unlockAt = none ∧
        s₁.inventory.files.contains f.fileId = true ∧
        s' = { s₁ with
          inventory := s₁.inventory.saveFile { f with unlockAt := some s₁.clock.now } }) s := by
  unfold unlock
  by_cases hlocked : f.unlockAt = none
  · simp only [hlocked, if_true, leads_bind]
    refine (Records.leads_loadFile h f.fileId).mono (fun _ _ hr => hr) ?_
    rintro found s₁ ⟨hfound, ha⟩
    refine leads_ite.2 ⟨fun hsome => ?_, fun _ => ?_⟩
    · simp only [leads_bind, leads_now]
      refine (Records.leads_saveFile (h.aside ha) _).mono
        (fun e s₂ hr => ⟨hr.1.aside ha, ha.trans hr.2⟩) ?_
      rintro _ s₂ ⟨s₃, ha', rfl⟩
      have hkept : s₃.inventory.files.contains f.fileId = true := by
        cases ha
        cases ha'
        rw [hfound] at hsome
        exact hsome
      have hclock : s₁.clock = s₃.clock := by cases ha'; rfl
      rw [hclock]
      exact .inr ⟨s₃, ha.trans ha', trivial, hkept, rfl⟩
    · rw [leads_pure]
      exact .inl ha
  · simp only [hlocked, if_false, leads_pure]
    exact .inl (.refl s)

/-- A file that was given no room leaves its flight, unless it is stranded. -/
theorem leads_queue_full (h : s.Secluded) {f : FileRecord} {e : Failure}
    (grounded : s.inFlight.contains f.fileId = false) (wanted : s.inventory.Wants f)
    (evictions : Evictions { s with inFlight := s.inFlight.add f.fileId } s') (full : LeftBy f s')
    (noRoom : NoRoom s e) :
    Leads (do
        unlock f
        leaveFlight f.fileId
        throw e : Act Unit)
      (fun e s' => NoRoom s e ∧ NotQueued f.fileId s s') (fun _ s' => Queued f.fileId s s') s' := by
  have hs' : s'.Secluded := evictions.secluded (h.of_same rfl rfl rfl)
  simp only [leaveFlight, leads_bind, leads_modify, leads_throw]
  refine ((leads_unlock hs' f).and (leads_answer (unlock f) s')).mono ?_ ?_
  · rintro e' s₁ ⟨⟨hr, ha⟩, hanswer, -⟩
    have hr' : Site.Refused _ e' := evictions.refused hr
    exact ⟨.inl hr', notQueued_of_strayed grounded evictions full ⟨e', hanswer⟩ hr.2 ha⟩
  · rintro _ s₁ ⟨ha | ⟨s₂, ha, locked, kept, rfl⟩, -⟩
    · exact ⟨noRoom, notQueued_of_left grounded (evictions.trans ha.evictions)⟩
    · exact ⟨noRoom, notQueued_of_unlocked grounded wanted locked (evictions.trans ha.evictions) kept⟩

/-- **Queueing a transfer.** Where it fails, no transfer was queued and the record is not new. -/
theorem leads_queue (h : s.Secluded) (hb : s.Balanced) {f : FileRecord}
    (grounded : s.inFlight.contains f.fileId = false) (wanted : s.inventory.Wants f) :
    Leads (queue f) (fun e s' => NoRoom s e ∧ NotQueued f.fileId s s')
      (fun _ s' => Queued f.fileId s s')
      { s with inFlight := s.inFlight.add f.fileId } := by
  have hflying : ({ s with inFlight := s.inFlight.add f.fileId } : Site).Secluded :=
    h.of_same rfl rfl rfl
  simp only [queue, leads_bind, leads_attempt]
  refine ((Room.leads_reserve hflying hb.named f.estimatedKb (hb.not_reserved grounded)).and
    (leads_answer _ _)).mono ?_ ?_
  · rintro e s₁ ⟨⟨hev, he⟩, hanswer, hafter⟩
    have hfull : LeftBy f s₁ := ⟨_, e, hanswer, hafter.symm⟩
    simpa only [leads_bind] using leads_queue_full h grounded wanted hev hfull he
  · rintro _ s₁ ⟨⟨s₂, hev, hroom, rfl⟩, -⟩
    obtain ⟨t, ht, rfl⟩ := hev.grounded
    have hgrounded : t.inFlight.contains f.fileId = false := by rw [ht.frame.inFlight, grounded]
    have hreserved := (ht.fileCourse.balanced hb).not_reserved hgrounded
    have hready : ({ t with
        account := t.account.reserve f.fileId f.estimatedKb
        inFlight := s.inFlight.add f.fileId } : Site).Secluded := (ht.secluded h).of_same rfl rfl rfl
    have hback : ∀ {faults disk supply}, FaultsGoOn t.faults faults →
        Evictions s { t with faults := faults, disk := disk, supply := supply } :=
      fun goOn => ht.tail (.aside (.intro _ _ _ goOn))
    refine (Records.leads_saveFile hready f).mono ?_ ?_
    · -- The record could not be kept: the room is given back.
      rintro e s₃ ⟨hr, faults, disk, supply, goOn⟩
      simp only [Room.release, leaveFlight, leads_modify, leads_throw]
      refine ⟨.inl (ht.refused hr), ?_⟩
      rw [Account.release_reserve _ hreserved, KeySet.erase_add grounded, ← ht.frame.inFlight]
      exact notQueued_of_evictions (hback goOn)
    · rintro _ s₃ ⟨s₄, ⟨faults, disk, supply, goOn⟩, rfl⟩
      simp only [leads_note, leads_get, leads_join]
      exact queued_of_evictions _ grounded wanted (hback goOn) hroom

/-! ### Asking for one file -/

/-- The record to be transferred is the one that is wanted, and a new one is not known. -/
theorem wants_of_needOf {v : Inventory} (hv : v.Named) {entry : ManifestEntry} {kb : UInt64}
    {f : FileRecord} {isNew : Bool}
    (h : needOf entry kb (v.files.get? entry.fileId) = .transfer f isNew) :
    f.fileId = entry.fileId ∧ v.Wants f ∧
      (isNew = true → v.files.get? entry.fileId = none) := by
  cases hfound : v.files.get? entry.fileId with
  | none =>
    rw [hfound, needOf, Need.transfer.injEq] at h
    obtain ⟨rfl, rfl⟩ := h
    refine ⟨rfl, ⟨rfl, fun f₀ hf₀ => ?_⟩, fun _ => rfl⟩
    rw [show (FileRecord.ofEntry entry kb).fileId = entry.fileId from rfl, hfound] at hf₀
    cases hf₀
  | some f₀ =>
    have hid : f₀.fileId = entry.fileId := hv.files _ f₀ hfound
    rw [hfound] at h
    simp only [needOf] at h
    split at h
    · cases h
    next hsound =>
    split at h
    · cases h
    next hmissing =>
    obtain ⟨rfl, rfl⟩ := Need.transfer.injEq .. ▸ h
    have hsound' : f₀.failed = false := by simpa using hsound
    refine ⟨hid, ⟨?_, fun f₁ hf₁ => ?_⟩, fun hnew => by cases hnew⟩
    · simp [FileRecord.isPending, hsound']
    · have hf : some f₀ = some f₁ := by
        rw [← hf₁, ← hfound, ← hid]
      cases hf
      refine ⟨fun hthere => hmissing ?_, hsound', rfl⟩
      rw [hthere.available, hthere.sized]
      rfl

/-- A file found to be there is. -/
theorem isThere_of_needOf {entry : ManifestEntry} {kb : UInt64} {found : Option FileRecord}
    (h : needOf entry kb found = .settled .available) : ∃ f, found = some f ∧ f.IsThere := by
  cases found with
  | none => cases h
  | some f =>
    simp only [needOf] at h
    split at h
    · cases h
    next hsound =>
    split at h
    · next hthere =>
      rw [Bool.and_eq_true] at hthere
      exact ⟨f, rfl, hthere.1, hthere.2, by simpa using hsound⟩
    · cases h

/-- What is found is never still to come. -/
theorem not_pending_of_needOf (entry : ManifestEntry) (kb : UInt64) (found : Option FileRecord) :
    needOf entry kb found ≠ .settled .pending := by
  cases found with
  | none => exact fun h => by cases h
  | some f =>
    simp only [needOf]
    split
    · exact fun h => by cases h
    · split <;> exact fun h => by cases h

/-- What has happened while a live job asked for a file, whatever came of it: it was not evicted. -/
structure Sought (r : RequestId) (id : FileId) (s s' : Site) : Prop where
  course : FileCourse s s'
  spared : s.inventory.Lives r → Spared id s s'

theorem Sought.trans_aside {r : RequestId} {id : FileId} {s'' : Site} (h : Sought r id s s')
    (a : Aside s' s'') : Sought r id s s'' :=
  ⟨h.course.trans a.fileCourse, fun live => (h.spared live).trans (.of_eq (by cases a; rfl))⟩

theorem sought_of_asking (h : Asking s s') (r : RequestId) (id : FileId) : Sought r id s s' :=
  ⟨h.fileCourse, fun _ => .of_eq h.frame.evictions⟩

/-- What has happened while a request asked for a file in vain: no transfer is new. -/
structure Denied (r : RequestId) (id : FileId) (s s' : Site) : Prop extends Sought r id s s' where
  tasks : s'.tasks = s.tasks

theorem Denied.trans_aside {r : RequestId} {id : FileId} {s'' : Site} (h : Denied r id s s')
    (a : Aside s' s'') : Denied r id s s'' :=
  ⟨h.toSought.trans_aside a, by cases a; exact h.tasks⟩

theorem denied_of_asking (h : Asking s s') (r : RequestId) (id : FileId) : Denied r id s s' :=
  ⟨sought_of_asking h r id, h.frame.tasks⟩

/-- A request refers to a file, and no transfer could be queued. -/
theorem Denied.of_notQueued {r : RequestId} {id : FileId} {s₁ : Site} (ask : Asking s s₁)
    (refers : s₁.inventory.refers id r = true) (h : NotQueued id s₁ s') : Denied r id s s' := by
  refine ⟨⟨ask.fileCourse.trans h.course, fun live => ?_⟩, h.tasks.trans ask.frame.tasks⟩
  have hlives : s₁.inventory.Lives r := by
    unfold Inventory.Lives
    rw [ask.frame.jobs]
    exact live
  exact ((sought_of_asking ask r id).spared live).trans (h.spared r hlives refers)

/-- What has come of asking for a file. -/
structure Asked (r : RequestId) (id : FileId) (status : FileStatus) (s s' : Site) : Prop
    extends Sought r id s s' where
  available : status = .available →
    Asking s s' ∧ s'.inventory.Holds r id ∧ s'.inFlight.contains id = false
  pending : status = .pending → s'.inFlight.contains id = true ∧
    (s.inventory.Lives r → s'.inventory.refers id r = true)

/-- A request refers to a file, and a transfer was queued. -/
theorem Asked.of_queued {r : RequestId} {id : FileId} {s₁ : Site} (ask : Asking s s₁)
    (refers : s₁.inventory.refers id r = true) (h : Queued id s₁ s') : Asked r id .pending s s' := by
  have hlives : s.inventory.Lives r → s₁.inventory.Lives r := by
    unfold Inventory.Lives
    rw [ask.frame.jobs]
    exact fun live => live
  refine ⟨⟨ask.fileCourse.trans h.course, fun live => ?_⟩, nofun, fun _ => ⟨h.flying, fun live => ?_⟩⟩
  · exact ((sought_of_asking ask r id).spared live).trans (h.spared r (hlives live) refers)
  · exact h.refers r (hlives live) refers

/-- A request that no transfer could be queued for gives up its reference to a file without a record. -/
theorem leads_ensure_full (h : s.Secluded) {r : RequestId} {id : FileId} {e : Failure} {isNew : Bool}
    {Q : FileStatus → Site → Prop} (full : NoRoom s e) (denied : Denied r id s s')
    (absent : isNew = true → s'.inventory.files.get? id = none) :
    Leads (do
        if isNew then Records.removeReference id r
        throw e)
      (fun e s'' => NoRoom s e ∧ Denied r id s s'') Q s' := by
  cases isNew with
  | false =>
    simp only [Bool.false_eq_true, if_false, leads_throw]
    exact ⟨full, denied⟩
  | true =>
    simp only [if_true, leads_bind, leads_throw]
    refine (Records.leads_removeReference (denied.course.secluded h) id r).mono
      (fun e' s₁ hr => ⟨.inl (denied.course.refused hr.1), denied.trans_aside hr.2⟩) ?_
    rintro _ s₁ ⟨t, ha, hs₁⟩
    have hdenied := denied.trans_aside ha
    refine ⟨full, ?_⟩
    rcases hs₁ with rfl | rfl
    · exact hdenied
    · refine ⟨⟨hdenied.course.tail (.detached id r ?_), fun live => hdenied.spared live⟩, hdenied.tasks⟩
      cases ha
      exact absent rfl

/-- **Asking for a file.** -/
theorem leads_ensure (h : s.Secluded) (hb : s.Balanced) {entry : ManifestEntry}
    (retrievable : entry.kind.isCatalogue = false) (r : RequestId) :
    Leads (ensure r entry) (fun e s' => NoRoom s e ∧ Denied r entry.fileId s s')
      (fun status s' => Asked r entry.fileId status s s') s := by
  simp only [ensure, retrievable, Bool.false_eq_true, if_false, leads_bind]
  refine (Records.leads_addReference h entry.fileId r).mono
    (fun e s₁ hr => ⟨.inl hr.1, denied_of_asking (.single (.aside hr.2)) r _⟩) ?_
  rintro _ s₁ ⟨t, ha, hs₁⟩
  have hask : Asking s s₁ := by
    subst hs₁
    exact (Relation.ReflTransGen.single (.aside ha)).tail (.attached entry.fileId r)
  have hrefers : s₁.inventory.refers entry.fileId r = true := by
    subst hs₁
    exact (Inventory.refers_addReference ..).2 (.inl ⟨rfl, rfl⟩)
  clear hs₁
  simp only [leads_get]
  refine leads_ite.2 ⟨fun hflying => ?_, fun hgrounded => ?_⟩
  · rw [leads_pure]
    exact ⟨sought_of_asking hask r _, nofun, fun _ => ⟨hflying, fun _ => hrefers⟩⟩
  rw [leads_bind]
  refine (Records.leads_loadFile (hask.fileCourse.secluded h) entry.fileId).mono
    (fun e s₂ hr => ⟨.inl (hask.fileCourse.refused hr.1), (denied_of_asking hask r _).trans_aside hr.2⟩) ?_
  rintro found s₂ ⟨hfound, ha⟩
  have hask₂ : Asking s s₂ := hask.tail (.aside ha)
  have hcourse := hask₂.fileCourse
  obtain ⟨hfound, hgrounded, hrefers⟩ :
      found = s₂.inventory.files.get? entry.fileId ∧ s₂.inFlight.contains entry.fileId = false ∧
        s₂.inventory.refers entry.fileId r = true := by
    cases ha
    exact ⟨hfound, hgrounded, hrefers⟩
  simp only [leads_bind, leads_get]
  cases hneed : needOf entry s₂.settings.defaultEstimateKb found with
  | settled status =>
    rw [leads_pure]
    refine ⟨sought_of_asking hask₂ r _, fun havailable => ?_, fun hpending => ?_⟩
    · subst havailable
      obtain ⟨f, hf, hthere⟩ := isThere_of_needOf hneed
      exact ⟨hask₂, ⟨hrefers, f, hfound ▸ hf, hthere⟩, hgrounded⟩
    · subst hpending
      exact absurd hneed (not_pending_of_needOf _ _ _)
  | transfer f isNew =>
    rw [hfound] at hneed
    obtain ⟨hid, hwanted, hnew⟩ := wants_of_needOf (hcourse.balanced hb).named hneed
    rw [← hid] at hgrounded hrefers hnew ⊢
    simp only [enterFlight, leads_bind, leads_modify, leads_attempt]
    refine (leads_queue (hcourse.secluded h) (hcourse.balanced hb) hgrounded hwanted).mono ?_ ?_
    · rintro e s₃ ⟨he, hnot⟩
      exact leads_ensure_full h (he.imp_left hcourse.refused) (.of_notQueued hask₂ hrefers hnot)
        fun hisNew => hnot.absent (hnew hisNew)
    · intro _ s₃ hqueued
      rw [leads_pure]
      exact .of_queued hask₂ hrefers hqueued

end Transfers

end Depot

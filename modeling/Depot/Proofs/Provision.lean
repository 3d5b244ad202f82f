import Depot.Proofs.Quiet
import Depot.Proofs.Sweeps

/-!
# What a sweep leaves

A sweep asks for the files of every job that is being prepared, and then makes it ready, or ends it, or lets
it wait. What was found of a job that waits must still be true when the sweep is over, although others have
asked for the same files since and have had files evicted to make room. It is: a file is not evicted as long
as a live job refers to it, no transfer is queued of a file that is there, and a file that there is no room
for was neither there nor in flight.

A sweep goes through the jobs with a status one by one. `Inventory.Sifts` says how far it has come: some are
still on the list, and what was to be found of the others has been found.

## Main statements

* `Transfers.Reply.upholds` — whoever asks for a file, no live job loses what is provided for it.
* `Jobs.leads_advance_of_quiet` — bringing one job forward leaves those waiting that waited.
* `Jobs.leads_poll_settles` — a sweep leaves nothing to do for another.
-/

namespace Depot

open Act Time

variable {s s' : Site} {r : RequestId} {id : FileId}

/-! ### Provided files -/

/-- A file is provided for a request: it refers to the file, which is in flight or there. -/
structure Site.Provides (s : Site) (r : RequestId) (id : FileId) : Prop where
  refers : s.inventory.refers id r = true
  coming : s.inFlight.contains id = true ∨ ∃ f, s.inventory.files.get? id = some f ∧ f.IsThere

namespace Site.Provides

/-- A file that is in flight, or there, is not to be transferred. -/
theorem ne_of_wants (h : s.Provides r id) {f : FileRecord} (wanted : s.inventory.Wants f)
    (grounded : s.inFlight.contains f.fileId = false) : id ≠ f.fileId := by
  rintro rfl
  rcases h.coming with hflying | ⟨f₀, hf₀, hthere⟩
  · rw [grounded] at hflying
    cases hflying
  · exact (wanted.kept f₀ hf₀).1 hthere

/-- A record is written, of another file or of one in flight. -/
theorem saveFile (h : s.Provides r id) {f : FileRecord} (inventory : s'.inventory = s.inventory.saveFile f)
    (stays : ∀ id, s.inFlight.contains id = true → s'.inFlight.contains id = true)
    (flies : id = f.fileId → s'.inFlight.contains id = true) : s'.Provides r id := by
  refine ⟨by rw [inventory]; exact h.refers, ?_⟩
  by_cases hid : id = f.fileId
  · exact .inl (flies hid)
  · rw [inventory, Inventory.get?_saveFile_of_ne _ hid]
    exact h.coming.imp_left (stays id)

/-- Evictions spare the files of live jobs. -/
theorem evictions (h : s.Provides r id) (live : s.inventory.Lives r) (e : Evictions s s') :
    s'.Provides r id := by
  have hrefers := e.refers live h.refers
  refine ⟨hrefers, ?_⟩
  rw [e.frame.inFlight]
  rcases e.kept_or_dropped id with ⟨hfile, -⟩ | ⟨-, href⟩
  · rw [hfile]
    exact h.coming
  · rw [Inventory.refers, href] at hrefers
    cases hrefers

/-- It makes no difference until when files are kept. -/
theorem relocks (h : s.Provides r id) {v : Inventory} (relocks : s.inventory.Relocks v)
    (files : s'.inventory.files = v.files) (references : s'.inventory.references = v.references)
    (inFlight : s'.inFlight = s.inFlight) : s'.Provides r id := by
  refine ⟨by rw [Inventory.refers, references, relocks.references]; exact h.refers, ?_⟩
  rw [inFlight, files]
  refine h.coming.imp_right ?_
  rintro ⟨f, hf, hthere⟩
  rcases relocks.files id with hsame | ⟨f₀, u, hf₀, hrelocked⟩
  · exact ⟨f, hsame.trans hf, hthere⟩
  · obtain rfl := Option.some.inj (hf.symm.trans hf₀)
    exact ⟨_, hrelocked, hthere.1, hthere.2, hthere.3⟩

end Site.Provides

/-! ### Asking for files -/

/-- Nothing happens to jobs, and no live job loses what is provided for it. -/
structure Site.Upholds (s s' : Site) : Prop where
  jobs : s'.inventory.jobs = s.inventory.jobs
  settings : s'.settings = s.settings
  clock : s'.clock = s.clock
  inFlight : ∀ id, s.inFlight.contains id = true → s'.inFlight.contains id = true
  provides : ∀ r id, s.inventory.Lives r → s.Provides r id → s'.Provides r id

namespace Site.Upholds

theorem refl (s : Site) : s.Upholds s := ⟨rfl, rfl, rfl, fun _ h => h, fun _ _ _ h => h⟩

theorem lives (h : s.Upholds s') (live : s.inventory.Lives r) : s'.inventory.Lives r := by
  unfold Inventory.Lives
  rw [h.jobs]
  exact live

theorem trans {s'' : Site} (h : s.Upholds s') (h' : s'.Upholds s'') : s.Upholds s'' := by
  refine ⟨h'.jobs.trans h.jobs, h'.settings.trans h.settings, h'.clock.trans h.clock, ?_, ?_⟩
  · exact fun id hflying => h'.inFlight id (h.inFlight id hflying)
  · exact fun r id live hprovided => h'.provides r id (h.lives live) (h.provides r id live hprovided)

theorem evictions (e : Evictions s s') : s.Upholds s' := by
  refine ⟨e.frame.jobs, e.frame.settings, e.frame.clock, fun id hflying => ?_, ?_⟩
  · rw [e.frame.inFlight]
    exact hflying
  · exact fun r id live hprovided => hprovided.evictions live e

/-- A request refers to one more file. -/
theorem attach (s : Site) (id : FileId) (r : RequestId) : s.Upholds (s.attach id r) := by
  refine ⟨rfl, rfl, rfl, fun _ h => h, fun r' id' _ hprovided => ⟨?_, hprovided.coming⟩⟩
  exact (Inventory.refers_addReference ..).2 (.inr hprovided.refers)

end Site.Upholds

namespace Transfers

variable {f : FileRecord} {entry : ManifestEntry}

theorem Dispatched.upholds (c : Dispatched f s s') : s.Upholds s' := by
  cases c with
  | @intro t account evictions =>
    have hevictions := Site.Upholds.evictions evictions
    have hstays : ∀ id, t.inFlight.contains id = true → (t.inFlight.add f.fileId).contains id = true :=
      fun id hflying => (KeySet.contains_add ..).2 (.inr hflying)
    refine ⟨hevictions.jobs, hevictions.settings, hevictions.clock, fun id hflying => ?_,
      fun r id live hprovided => ?_⟩
    · exact hstays id (hevictions.inFlight id hflying)
    · exact (hevictions.provides r id live hprovided).saveFile rfl hstays fun hid =>
        (KeySet.contains_add ..).2 (.inl hid)

theorem TurnedAway.upholds (c : TurnedAway f s s') (wanted : s.inventory.Wants f)
    (grounded : s.inFlight.contains f.fileId = false) : s.Upholds s' := by
  cases c with
  | left evictions => exact .evictions evictions
  | @unlocked t evictions _ _ =>
    have hevictions := Site.Upholds.evictions evictions
    refine ⟨hevictions.jobs, hevictions.settings, hevictions.clock, hevictions.inFlight,
      fun r id live hprovided => ?_⟩
    exact (hevictions.provides r id live hprovided).saveFile rfl (fun _ hflying => hflying) fun hid =>
      absurd (show id = f.fileId from hid) (hprovided.ne_of_wants wanted grounded)

/-- The reference to a file that was neither there nor in flight is taken back. -/
theorem upholds_removeReference (h : s.Upholds s') (r : RequestId)
    (unprovided : ∀ r', ¬s.Provides r' id) :
    s.Upholds { s' with inventory := s'.inventory.removeReference id r } := by
  refine ⟨(Inventory.jobs_removeReference ..).trans h.jobs, h.settings, h.clock, h.inFlight,
    fun r' id' live hprovided => ?_⟩
  have hne : id' ≠ id := fun hid => unprovided r' (hid ▸ hprovided)
  have hkept := h.provides r' id' live hprovided
  refine ⟨(Inventory.refers_removeReference_of_ne _ hne r r').trans hkept.refers, ?_⟩
  refine hkept.coming.imp_right ?_
  rintro ⟨f, hf, hthere⟩
  refine ⟨f, ?_, hthere⟩
  exact (congrArg (Table.get? · id') (Inventory.files_removeReference ..)).trans hf

/-- **Whoever asks for a file, no live job loses what is provided for it**, whatever comes of it. -/
theorem Reply.upholds {answer : Except Failure FileStatus} (c : Reply r entry s answer s')
    (hn : s.inventory.Named) : s.Upholds s' := by
  have hattach := Site.Upholds.attach s entry.fileId r
  cases c with
  | flying | settled => exact hattach
  | dispatched _ _ sent => exact hattach.trans sent.upholds
  | @turnedAway f isNew t kb room grounded need left =>
    obtain ⟨hid, hwanted, -⟩ := wants_of_needOf hn need
    have hgrounded : s.inFlight.contains f.fileId = false := hid ▸ grounded
    have hleft : s.Upholds t := hattach.trans (left.upholds ⟨hwanted.pending, hwanted.kept⟩ hgrounded)
    cases isNew with
    | false => exact hleft
    | true =>
      rw [if_pos rfl]
      exact upholds_removeReference hleft r fun r' hprovided =>
        hprovided.ne_of_wants hwanted hgrounded hid.symm

/-- A file that a live job has asked for, and that has not failed, is provided for it. -/
theorem Reply.provides {status : FileStatus} (c : Reply r entry s (.ok status) s')
    (hn : s.inventory.Named) (live : s.inventory.Lives r) (sound : status ≠ .failed) :
    s'.Provides r entry.fileId := by
  have hrefers : (s.attach entry.fileId r).inventory.refers entry.fileId r = true :=
    (Inventory.refers_addReference ..).2 (.inl ⟨rfl, rfl⟩)
  cases c with
  | flying flying => exact ⟨hrefers, .inl flying⟩
  | settled _ need =>
    cases status with
    | available => exact ⟨hrefers, .inr (isThere_of_needOf need)⟩
    | pending => exact absurd need (not_pending_of_needOf _ _ _)
    | failed => exact absurd rfl sound
  | @dispatched f isNew _ _ need sent =>
    obtain ⟨hid, -, -⟩ := wants_of_needOf hn need
    cases sent with
    | intro account evictions =>
      have hkept := Evictions.refers evictions live hrefers
      exact ⟨hkept, .inl ((KeySet.contains_add ..).2 (.inl hid.symm))⟩

/-- A file that is still to come is in flight. -/
theorem Reply.flies (c : Reply r entry s (.ok .pending) s') (hn : s.inventory.Named) :
    s'.inFlight.contains entry.fileId = true := by
  cases c with
  | flying flying => exact flying
  | settled _ need => exact absurd need (not_pending_of_needOf _ _ _)
  | @dispatched f isNew _ _ need sent =>
    obtain ⟨hid, -, -⟩ := wants_of_needOf hn need
    cases sent with
    | intro => exact (KeySet.contains_add ..).2 (.inl hid.symm)

end Transfers

/-! ### Waiting jobs -/

/-- **A job waits for its files**: each of them is provided for it, one of them is in flight, and it has not
waited for too long. -/
structure Site.Awaits (s : Site) (j : Job) : Prop where
  provided : ∀ e ∈ j.retrievable, s.Provides j.requestId e.fileId
  flying : ∃ e ∈ j.retrievable, s.inFlight.contains e.fileId = true
  fresh : Jobs.isStale s.settings.staleAfterMs j s.clock.now = false

theorem Site.Awaits.upholds {j : Job} (h : s.Awaits j) (live : s.inventory.Lives j.requestId)
    (u : s.Upholds s') : s'.Awaits j := by
  obtain ⟨e, he, hflying⟩ := h.flying
  refine ⟨fun e he => u.provides _ _ live (h.provided e he), ⟨e, he, u.inFlight _ hflying⟩, ?_⟩
  rw [u.settings, u.clock]
  exact h.fresh

/-- A job waits no less when others are changed, and files are kept longer. -/
theorem Site.Awaits.relocks {j : Job} {v : Inventory} (h : s.Awaits j) (relocks : s.inventory.Relocks v)
    (files : s'.inventory.files = v.files) (references : s'.inventory.references = v.references)
    (inFlight : s'.inFlight = s.inFlight) (settings : s'.settings = s.settings)
    (clock : s'.clock = s.clock) : s'.Awaits j := by
  refine ⟨fun e he => (h.provided e he).relocks relocks files references inFlight, ?_, ?_⟩
  · rw [inFlight]
    exact h.flying
  · rw [settings, clock]
    exact h.fresh

namespace Jobs

/-- What has come of asking for the files of entries, for a job that waits already or does not. -/
structure Surveyed (r : RequestId) (l : List ManifestEntry) (waiting : Bool) (result : Assessment)
    (s s' : Site) : Prop where
  quiet : s'.Quiet
  named : s'.inventory.Named
  upholds : s.Upholds s'
  waits : result = .waiting → (∀ e ∈ l, s'.Provides r e.fileId) ∧
    (waiting = true ∨ ∃ e ∈ l, s'.inFlight.contains e.fileId = true)

/-- An entry whose file has not failed, before others. -/
theorem Surveyed.cons {e : ManifestEntry} {rest : List ManifestEntry} {waiting : Bool}
    {status : FileStatus} {result : Assessment} {s₁ s₂ : Site} (hn : s.inventory.Named)
    (live : s.inventory.Lives r) (c : Transfers.Reply r e s (.ok status) s₁) (sound : status ≠ .failed)
    (h : Surveyed r rest (waiting || status = .pending) result s₁ s₂) :
    Surveyed r (e :: rest) waiting result s s₂ := by
  have hasked := c.upholds hn
  refine ⟨h.quiet, h.named, hasked.trans h.upholds, fun hwaits => ?_⟩
  obtain ⟨hprovided, hwaiting⟩ := h.waits hwaits
  constructor
  · intro e' he'
    rcases List.mem_cons.1 he' with rfl | he'
    · exact h.upholds.provides _ _ (hasked.lives live) (c.provides hn live sound)
    · exact hprovided e' he'
  · rcases hwaiting with hwaiting | ⟨e', he', hflying⟩
    · rw [Bool.or_eq_true, decide_eq_true_eq] at hwaiting
      refine hwaiting.imp_right fun hpending => ⟨e, .head _, ?_⟩
      subst hpending
      exact h.upholds.inFlight _ (c.flies hn)
    · exact .inr ⟨e', .tail _ he', hflying⟩

/-- **Asking for the files of entries**, for a live job. -/
theorem leads_assessEntries_of_quiet (r : RequestId) : ∀ (l : List ManifestEntry) (waiting : Bool)
    {s : Site}, s.Quiet → s.inventory.Named → s.inventory.Lives r →
      (∀ e ∈ l, e.kind.isCatalogue = false) →
        Leads (assessEntries r true l waiting) (fun _ _ => False)
          (fun result s' => Surveyed r l waiting result s s') s
  | [], waiting, s, h, hn, live, hl => by
    rw [assessEntries, leads_pure]
    refine ⟨h, hn, .refl s, fun hwaits => ⟨fun e he => (by cases he), .inl ?_⟩⟩
    cases waiting with
    | true => rfl
    | false => cases hwaits
  | e :: rest, waiting, s, h, hn, live, hl => by
    have hrest : ∀ e' ∈ rest, e'.kind.isCatalogue = false := fun e' he' => hl e' (.tail _ he')
    simp only [assessEntries, if_true, leads_bind, leads_attempt]
    rw [Records.leads_loadFile_of_quiet h]
    refine (Transfers.leads_ensure_of_quiet h hn r (hl e (.head _))).mono ?_ ?_
    · intro failure s₁ c
      have hlost : ∀ message, Surveyed r (e :: rest) waiting (.failed message) s s₁ := fun message =>
        ⟨c.quiet h, c.named hn, c.upholds hn, fun hwaits => by cases hwaits⟩
      cases c with
      | turnedAway =>
        dsimp only
        rw [leads_pure]
        exact hlost _
    · intro status s₁ c
      have h₁ := c.quiet h
      have hnext : status ≠ .failed → Leads (assessEntries r true rest (waiting || status = .pending))
          (fun _ _ => False) (fun result s' => Surveyed r (e :: rest) waiting result s s') s₁ :=
        fun sound => (leads_assessEntries_of_quiet r rest _ h₁ (c.named hn) ((c.upholds hn).lives live)
          hrest).mono (fun _ _ hfalse => hfalse) fun _ _ hsurveyed => hsurveyed.cons hn live c sound
      cases status with
      | available => simpa using hnext (by decide)
      | pending => simpa using hnext (by decide)
      | failed =>
        simp only [leads_bind, leads_pure]
        rw [Records.leads_loadFile_of_quiet h₁]
        exact ⟨h₁, c.named hn, c.upholds hn, fun hwaits => by cases hwaits⟩

end Jobs

/-! ### Jobs gone through one by one -/

theorem Inventory.Named.mem_jobsWithStatus {v : Inventory} (hn : v.Named) {j : Job}
    {status : JobStatus} :
    j ∈ v.jobsWithStatus status ↔ v.jobs.get? j.requestId = some j ∧ j.status = status := by
  rw [Inventory.jobsWithStatus, mem_sortBy, List.mem_filter, decide_eq_true_eq, Table.mem_values]
  refine and_congr_left fun _ => ⟨?_, fun hj => ⟨_, hj⟩⟩
  rintro ⟨r, hr⟩
  rwa [hn.jobs r j hr]

/-- **The jobs with a status are gone through one by one**: some are still on the list, and the others, so many,
have a property. -/
def Inventory.Sifts (v : Inventory) (status : JobStatus) (P : Job → Prop) (rest : List Job)
    (count : Nat) : Prop :=
  ∃ done, (v.jobsWithStatus status).Perm (done ++ rest) ∧ done.length = count ∧ ∀ j ∈ done, P j

namespace Inventory.Sifts

variable {v v' : Inventory} {status : JobStatus} {P P' : Job → Prop} {rest : List Job} {count : Nat}
  {job : Job}

theorem start (v : Inventory) (status : JobStatus) (P : Job → Prop) :
    v.Sifts status P (v.jobsWithStatus status) 0 := ⟨[], .refl _, rfl, fun _ hj => by cases hj⟩

/-- When the list is empty all of them have the property. -/
theorem finish (h : v.Sifts status P [] count) :
    (∀ j ∈ v.jobsWithStatus status, P j) ∧ count = (v.jobsWithStatus status).length := by
  obtain ⟨done, hperm, rfl, hdone⟩ := h
  rw [List.append_nil] at hperm
  exact ⟨fun j hj => hdone j (hperm.mem_iff.1 hj), hperm.length_eq.symm⟩

/-- The next job on the list is kept, and has the status. -/
theorem next (h : v.Sifts status P (job :: rest) count) (hn : v.Named) :
    v.jobs.get? job.requestId = some job ∧ job.status = status := by
  obtain ⟨done, hperm, -, -⟩ := h
  exact hn.mem_jobsWithStatus.1 (hperm.mem_iff.2 (List.mem_append_right _ (.head _)))

/-- The next job on the list has the property. -/
theorem done (h : v.Sifts status P (job :: rest) count) (hjob : P job) :
    v.Sifts status P rest (count + 1) := by
  obtain ⟨done, hperm, rfl, hdone⟩ := h
  refine ⟨job :: done, hperm.trans List.perm_middle, rfl, fun j hj => ?_⟩
  rcases List.mem_cons.1 hj with rfl | hj
  · exact hjob
  · exact hdone j hj

/-- Nothing happens to jobs, and those with the property have another. -/
theorem mono (h : v.Sifts status P rest count) (jobs : v'.jobs = v.jobs)
    (imp : ∀ j ∈ v.jobsWithStatus status, P j → P' j) : v'.Sifts status P' rest count := by
  obtain ⟨done, hperm, hcount, hdone⟩ := h
  refine ⟨done, ?_, hcount, fun j hj => ?_⟩
  · rw [jobsWithStatus, jobs]
    exact hperm
  · exact imp j (hperm.mem_iff.2 (List.mem_append_left _ hj)) (hdone j hj)

/-- The next job on the list gets another status. -/
theorem leaves {j' : Job} (h : v.Sifts status P (job :: rest) count) (hn : v.Named)
    (id : j'.requestId = job.requestId) (left : j'.status ≠ status) :
    (v.saveJob j').Sifts status P rest count := by
  obtain ⟨hkept, hstatus⟩ := h.next hn
  obtain ⟨done, hperm, hcount, hdone⟩ := h
  have hnext := jobsWithStatus_saveJob v (id ▸ hkept) left
  rw [List.filter_cons_of_pos (by simpa using hstatus)] at hnext
  exact ⟨done, ((hnext.symm.trans hperm).trans List.perm_middle).cons_inv, hcount, hdone⟩

/-- A job with another status gets a third. -/
theorem apart {j j' : Job} (h : v.Sifts status P rest count)
    (kept : v.jobs.get? j'.requestId = some j) (other : j.status ≠ status)
    (left : j'.status ≠ status) : (v.saveJob j').Sifts status P rest count := by
  obtain ⟨done, hperm, hcount, hdone⟩ := h
  have hsame := jobsWithStatus_saveJob v kept left
  rw [List.filter_cons_of_neg (by simpa using other)] at hsame
  exact ⟨done, hsame.symm.trans hperm, hcount, hdone⟩

end Inventory.Sifts

/-! ### In the middle of a sweep -/

/-- **In the middle of a sweep**: so many of the jobs that are being prepared wait, and the others are still
on the list. -/
structure Site.Midway (s : Site) (rest : List Job) (count : Nat) : Prop where
  quiet : s.Quiet
  named : s.inventory.Named
  prepared : s.inventory.Sifts .preparing s.Awaits rest count

namespace Site.Midway

variable {job : Job} {rest : List Job} {count : Nat}

/-- The next job on the list is kept, and is being prepared. -/
theorem next (h : s.Midway (job :: rest) count) :
    s.inventory.jobs.get? job.requestId = some job ∧ job.status = .preparing := h.prepared.next h.named

/-- The files of a job are asked for. -/
theorem upholds (h : s.Midway rest count) (u : s.Upholds s') (quiet : s'.Quiet)
    (named : s'.inventory.Named) : s'.Midway rest count := by
  refine ⟨quiet, named, h.prepared.mono u.jobs fun j hj awaits => ?_⟩
  obtain ⟨hkept, hpreparing⟩ := h.named.mem_jobsWithStatus.1 hj
  refine awaits.upholds ⟨j, hkept, ?_⟩ u
  rw [hpreparing]
  rfl

/-- The next job on the list waits. -/
theorem waits (h : s.Midway (job :: rest) count) (awaits : s.Awaits job) :
    s.Midway rest (count + 1) := ⟨h.quiet, h.named, h.prepared.done awaits⟩

/-- The next job on the list is no longer being prepared. -/
theorem concludes {j' : Job} (h : s.Midway (job :: rest) count)
    (c : Jobs.Concludes job.requestId s j' s') : s'.Midway rest count := by
  obtain ⟨hnext, hpreparing⟩ := h.next
  cases c with
  | stays kept settled =>
    obtain rfl := Option.some.inj (kept.symm.trans hnext)
    exact absurd hpreparing settled
  | @leaves k _ v n kept preparing relocks id ended told =>
    have hn : v.Named := relocks.named h.named
    have hleft : j'.status ≠ .preparing := by
      rcases ended with ended | ended <;> rw [ended] <;> decide
    have hprepared := (h.prepared.mono relocks.jobs fun _ _ awaits => awaits).leaves hn id hleft
    refine ⟨h.quiet.of_same rfl rfl rfl, hn.saveJob j', hprepared.mono rfl fun j _ awaits => ?_⟩
    exact awaits.relocks relocks rfl rfl rfl rfl rfl

end Site.Midway

namespace Jobs

variable {job : Job} {rest : List Job} {p : Report}

theorem leads_reportFailure_of_quiet (message : String) (h : s.Midway (job :: rest) p.stillPreparing) :
    Leads (reportFailure job.requestId message p) (fun _ _ => False)
      (fun p' s' => s'.Midway rest p'.stillPreparing) s := by
  rw [reportFailure, leads_bind]
  refine (leads_fail_of_quiet h.quiet h.named job.requestId message).mono ?_ fun j s' c => ?_
  · rintro e s' ⟨hnone, -⟩
    rw [h.next.1] at hnone
    cases hnone
  · rw [leads_pure]
    split <;> exact h.concludes c

/-- **Bringing one job forward** leaves those waiting that waited. -/
theorem leads_advance_of_quiet (h : s.Midway (job :: rest) p.stillPreparing) :
    Leads (advance job p) (fun _ _ => False) (fun p' s' => s'.Midway rest p'.stillPreparing) s := by
  obtain ⟨hkept, hpreparing⟩ := h.next
  have hlive : s.inventory.Lives job.requestId := ⟨job, hkept, by rw [hpreparing]; rfl⟩
  rw [advance, leads_bind]
  refine (leads_assessEntries_of_quiet job.requestId job.retrievable false h.quiet h.named hlive
    (not_catalogue_of_retrievable job)).mono (fun _ _ hfalse => hfalse) fun result s₁ c => ?_
  have h₁ : s₁.Midway (job :: rest) p.stillPreparing := h.upholds c.upholds c.quiet c.named
  cases result with
  | ready =>
    simp only [leads_bind]
    refine (leads_promote_of_quiet c.quiet c.named job.requestId).mono ?_ fun j s₂ c₂ => ?_
    · rintro e s₂ ⟨hnone, -⟩
      rw [h₁.next.1] at hnone
      cases hnone
    · rw [leads_pure]
      split <;> exact h₁.concludes c₂
  | failed message => exact leads_reportFailure_of_quiet message h₁
  | waiting =>
    simp only [leads_bind, leads_get, leads_now]
    refine leads_ite.2 ⟨fun _ => leads_reportFailure_of_quiet _ h₁, fun hfresh => ?_⟩
    obtain ⟨hprovided, hwaiting⟩ := c.waits rfl
    rw [leads_pure]
    exact h₁.waits ⟨hprovided, hwaiting.resolve_left Bool.false_ne_true, hfresh⟩

theorem leads_advanceAll_of_quiet : ∀ (l : List Job) (p : Report) {s : Site},
    s.Midway l p.stillPreparing → Leads (advanceAll l p) (fun _ _ => False)
      (fun p' s' => s'.Midway [] p'.stillPreparing) s
  | [], p, s, h => by
    rw [advanceAll, leads_pure]
    exact h
  | job :: rest, p, s, h => by
    rw [advanceAll, leads_bind, leads_attempt]
    exact (leads_advance_of_quiet h).mono (fun _ _ hfalse => hfalse.elim)
      fun p' s' h' => leads_advanceAll_of_quiet rest p' h'

end Jobs

/-! ### At the end of a sweep -/

/-- **At the end of a sweep**: so many jobs wait, and no others are being prepared; of those that are ready, so
many have time left, and the others are still on the list. -/
structure Site.Ending (s : Site) (rest : List Job) (count lasting : Nat) : Prop where
  midway : s.Midway [] count
  ready : s.inventory.Sifts .ready (fun j => j.isExpiredAt s.clock.now = false) rest lasting

/-- The next job on the list has expired. -/
theorem Site.Ending.expires {job job' : Job} {rest : List Job} {count lasting : Nat}
    (h : s.Ending (job :: rest) count lasting) (n : Notice) (id : job'.requestId = job.requestId)
    (expired : job'.status = .expired) :
    Site.Ending { s with inventory := s.inventory.saveJob job', log := s.log ++ [.told n] } rest count
      lasting := by
  obtain ⟨hquiet, hn, hprepared⟩ := h.midway
  obtain ⟨hkept, hready⟩ := h.ready.next hn
  have hothers := hprepared.apart (id ▸ hkept) (by rw [hready]; decide) (by rw [expired]; decide)
  refine ⟨⟨hquiet.of_same rfl rfl rfl, hn.saveJob job', hothers.mono rfl fun j _ awaits => ?_⟩,
    h.ready.leaves hn id (by rw [expired]; decide)⟩
  exact awaits.relocks (.refl _) rfl rfl rfl rfl rfl

/-- **Nothing is left for a sweep to do**: whatever is being prepared waits, and whatever is ready has time
left. -/
structure Site.Settled (s : Site) : Prop where
  waiting : ∀ j ∈ s.inventory.jobsWithStatus .preparing, s.Awaits j
  lasting : ∀ j ∈ s.inventory.jobsWithStatus .ready, j.isExpiredAt s.clock.now = false

namespace Jobs

theorem leads_expireAll_of_quiet (time : Instant) : ∀ (l : List Job) (p : Report) {lasting : Nat}
    {s : Site}, s.clock.now = time → s.Ending l p.stillPreparing lasting →
      Leads (expireAll time l p) (fun _ _ => False)
        (fun p' s' => ∃ lasting, s'.Ending [] p'.stillPreparing lasting) s
  | [], p, lasting, s, ht, h => by
    rw [expireAll, leads_pure]
    exact ⟨lasting, h⟩
  | job :: rest, p, lasting, s, ht, h => by
    rw [expireAll]
    refine leads_ite.2 ⟨fun hlasts => ?_, fun _ => ?_⟩
    · refine leads_expireAll_of_quiet time rest p ht ⟨h.midway, h.ready.done ?_⟩
      rw [ht]
      simpa using hlasts
    obtain ⟨hkept, hready⟩ := h.ready.next h.midway.named
    simp only [apply, leads_bind]
    rw [leads_find_of_quiet h.midway.quiet hkept, if_neg (by simpa using hready)]
    simp only [leads_bind, leads_pure]
    refine leads_move.2 ⟨fun _ => ?_, fun hnot => by rw [hready] at hnot; cases hnot⟩
    refine (leads_saveJob_tell_of_quiet h.midway.quiet _ _).2 ?_
    exact leads_expireAll_of_quiet time rest _ ht (h.expires _ rfl rfl)

/-- **A sweep leaves nothing to do for another**, and says how many jobs wait. -/
theorem leads_poll_settles (h : s.Quiet) (hn : s.inventory.Named) :
    Leads poll (fun _ _ => False)
      (fun p s' => s'.Quiet ∧ s'.Settled ∧
        p.stillPreparing = (s'.inventory.jobsWithStatus .preparing).length) s := by
  simp only [poll, leads_bind, leads_now]
  rw [Records.leads_findByStatus_of_quiet h]
  have hstart : s.Midway (s.inventory.jobsWithStatus .preparing) 0 := ⟨h, hn, .start ..⟩
  refine (leads_advanceAll_of_quiet _ {} hstart).mono (fun _ _ hfalse => hfalse) fun p s₁ h₁ => ?_
  rw [Records.leads_findByStatus_of_quiet h₁.quiet]
  refine (leads_expireAll_of_quiet s₁.clock.now _ p rfl ⟨h₁, .start ..⟩).mono
    (fun _ _ hfalse => hfalse) ?_
  rintro p' s₂ ⟨lasting, h₂⟩
  obtain ⟨hwaiting, hcount⟩ := h₂.midway.prepared.finish
  exact ⟨h₂.midway.quiet, ⟨hwaiting, h₂.ready.finish.1⟩, hcount⟩

end Jobs

end Depot

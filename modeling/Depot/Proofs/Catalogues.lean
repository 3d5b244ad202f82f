import Depot.Proofs.Run

/-!
# The catalogues of ready jobs

Catalogues are packaged once, when a job is created, and no sweep asks for them again. So a job that is
ready has its catalogues exactly if all of them could be packaged when it was created. If one could not,
the job ends in an error, and from an error nothing leads to where it is ready. But it does not get that
far if a call is refused just then, or if the packager has given it another status meanwhile; and such a
job may be made ready later.

The log tells which catalogues were packaged for which job, and which job was told to be ready. The
invariant of runs is about each job and the step by which it was created.

## Main statements

* `Site.Traced.step` — every step keeps every job's record of its catalogues.
* `catalogues_of_ready_jobs` — what a job that becomes ready has had packaged.
* `unpackaged_job_becomes_ready` — it need not be all that it was to have.

## Honest scope

The packager gives no job the status of a ready one.
-/

namespace Depot

open Act Time

variable {s s' : Site}

/-! ### What becomes of a job -/

/-- In such a status a job has not failed, and never will. -/
def JobStatus.cannotFail : JobStatus → Bool
  | ready | expired | cancelled => true
  | preparing | paused | error => false

theorem JobStatus.cannotFail_of_canBecome {status next : JobStatus} (h : status.canBecome next = true) :
    status.cannotFail = true → next.cannotFail = true := by
  revert h
  cases status <;> cases next <;> decide

/-- What may become of a job in the course of time. -/
structure Job.Follows (j j' : Job) : Prop where
  manifest : j'.manifest = j.manifest
  error : j.status = .error → j'.status = .error
  safe : j.status.cannotFail = true → j'.status.cannotFail = true

namespace Job.Follows

theorem refl (j : Job) : j.Follows j := ⟨rfl, id, id⟩

theorem trans {j j' j'' : Job} (h : j.Follows j') (h' : j'.Follows j'') : j.Follows j'' :=
  ⟨h'.manifest.trans h.manifest, fun he => h'.error (h.error he), fun hs => h'.safe (h.safe hs)⟩

/-- Every step of the life cycle is one. -/
theorem of_canBecome {j j' : Job} (manifest : j'.manifest = j.manifest)
    (allowed : j.status.canBecome j'.status = true) : j.Follows j' := by
  refine ⟨manifest, fun herror => ?_, JobStatus.cannotFail_of_canBecome allowed⟩
  rw [herror] at allowed
  cases allowed

end Job.Follows

/-! ### Going on -/

/-- Whether an entry of the log tells neither of a catalogue nor of a job that is ready. -/
def Happening.isQuiet : Happening → Bool
  | .packaged .. => false
  | .told (.ready ..) => false
  | _ => true

/-- Entries of the log between which no catalogue is packaged, and of which those that tell of a job to be
ready are right. -/
structure Inventory.Explains (v : Inventory) (more : List Happening) : Prop where
  unpackaged : ∀ r id ok, .packaged r id ok ∉ more
  ready : ∀ r x, .told (.ready r x) ∈ more → ∃ j, v.jobs.get? r = some j ∧ j.status.cannotFail = true

theorem Inventory.Explains.of_quiet {v : Inventory} {more : List Happening}
    (h : ∀ e ∈ more, e.isQuiet = true) : v.Explains more :=
  ⟨fun _ _ _ hmem => absurd (h _ hmem) nofun, fun _ _ hmem => absurd (h _ hmem) nofun⟩

theorem Inventory.Explains.nil (v : Inventory) : v.Explains [] := .of_quiet fun e he => by cases he

theorem Inventory.Explains.singleton {v : Inventory} {e : Happening} (h : e.isQuiet = true) :
    v.Explains [e] := .of_quiet fun e' he' => by rw [List.mem_singleton.1 he']; exact h

/-- No job is new, none is lost, and no catalogue is packaged. -/
structure Site.Progress (s s' : Site) : Prop where
  keeps : s.inventory.KeepsManifests s'.inventory
  jobs : ∀ r j', s'.inventory.jobs.get? r = some j' →
    ∃ j, s.inventory.jobs.get? r = some j ∧ j.Follows j'
  log : ∃ more, s'.log = s.log ++ more ∧ s'.inventory.Explains more

namespace Site.Progress

theorem refl (s : Site) : s.Progress s :=
  ⟨Inventory.keepsManifests_of_eq rfl, fun _ j hj => ⟨j, hj, .refl j⟩,
    [], (List.append_nil _).symm, .nil _⟩

theorem trans {s'' : Site} (h : s.Progress s') (h' : s'.Progress s'') : s.Progress s'' := by
  obtain ⟨more, hmore, hexplains⟩ := h.log
  obtain ⟨more', hmore', hexplains'⟩ := h'.log
  refine ⟨fun r j hj => ?_, fun r j'' hj'' => ?_, more ++ more', ?_, ?_⟩
  · obtain ⟨j₁, hj₁, h₁⟩ := h.keeps r j hj
    obtain ⟨j₂, hj₂, h₂⟩ := h'.keeps r j₁ hj₁
    exact ⟨j₂, hj₂, h₂.trans h₁⟩
  · obtain ⟨j', hj', hfollows'⟩ := h'.jobs r j'' hj''
    obtain ⟨j, hj, hfollows⟩ := h.jobs r j' hj'
    exact ⟨j, hj, hfollows.trans hfollows'⟩
  · rw [hmore', hmore, List.append_assoc]
  · refine ⟨fun r id ok hmem => ?_, fun r x hmem => ?_⟩
    · rcases List.mem_append.1 hmem with hmem | hmem
      · exact hexplains.unpackaged r id ok hmem
      · exact hexplains'.unpackaged r id ok hmem
    · rcases List.mem_append.1 hmem with hmem | hmem
      · obtain ⟨j', hj', hsafe⟩ := hexplains.ready r x hmem
        obtain ⟨j'', hj'', -⟩ := h'.keeps r j' hj'
        obtain ⟨k, hk, hfollows⟩ := h'.jobs r j'' hj''
        rw [hj'] at hk
        cases hk
        exact ⟨j'', hj'', hfollows.safe hsafe⟩
      · exact hexplains'.ready r x hmem

/-- Nothing happens to jobs. -/
theorem of_same {more : List Happening} (jobs : s'.inventory.jobs = s.inventory.jobs)
    (log : s'.log = s.log ++ more) (explains : s'.inventory.Explains more) : s.Progress s' :=
  ⟨Inventory.keepsManifests_of_eq jobs, fun _ j hj => ⟨j, jobs ▸ hj, .refl j⟩, more, log, explains⟩

theorem reopen (s : Site) (settings : Settings) : s.Progress (s.reopen settings) :=
  of_same rfl (List.append_nil _).symm (.nil _)

/-- One job is replaced by what may become of it. -/
theorem of_job {j j' : Job} {more : List Happening} (kept : s.inventory.jobs.get? j.requestId = some j)
    (saved : s'.inventory = s.inventory.saveJob j') (log : s'.log = s.log ++ more)
    (id : j'.requestId = j.requestId) (follows : j.Follows j') (explains : s'.inventory.Explains more) :
    s.Progress s' := by
  refine ⟨?_, fun r k' hk' => ?_, more, log, explains⟩
  · rw [saved]
    exact Inventory.keepsManifests_saveJob kept id follows.manifest
  · rw [saved, Inventory.get?_saveJob, id] at hk'
    split at hk'
    · next hr =>
      cases hk'
      exact ⟨j, hr ▸ kept, follows⟩
    · exact ⟨k', hk', .refl k'⟩

end Site.Progress

/-- What is logged of a step of a job tells of no catalogue, and that it is ready only if it is. -/
theorem Enters.explains {j j' : Job} {h : Happening} (e : Enters s s' j j' h) :
    s'.inventory.Explains [h] := by
  refine ⟨fun r id ok hmem => ?_, fun r x hmem => ?_⟩
  · obtain rfl := List.mem_singleton.1 hmem
    cases e.told
  · obtain rfl := List.mem_singleton.1 hmem
    have hready : Happening.status? r (.told (.ready r x)) = some .ready := if_pos rfl
    by_cases hr : r = j.requestId
    · subst hr
      have hstatus : j'.status = .ready := Option.some.inj (e.told.symm.trans hready)
      refine ⟨j', by rw [e.get?, if_pos rfl], ?_⟩
      rw [hstatus]
      rfl
    · rw [e.ofOthers r hr] at hready
      cases hready

theorem JobChange.progress (c : JobChange s s') : s.Progress s' := by
  obtain ⟨j, j', h, e⟩ := c.enters
  exact .of_job e.kept e.written e.logged e.goesOn.requestId
    (.of_canBecome e.goesOn.manifest e.allowed) e.explains

/-- **No change** creates a job, loses one, or brings one out of an error. -/
theorem Change.progress (c : Change s s') : s.Progress s' := by
  have hsilent : s.log = s.log ++ [] := (List.append_nil _).symm
  cases c with
  | file c =>
    cases c with
    | evict e =>
      cases e with
      | aside a => cases a; exact .of_same rfl hsilent (.nil _)
      | evicted => exact .of_same rfl rfl (.singleton rfl)
    | detached => exact .of_same (Inventory.jobs_removeReference ..) hsilent (.nil _)
    | queued => exact .of_same rfl rfl (.singleton rfl)
    | attached | unlocked | strayed | extended => exact .of_same rfl hsilent (.nil _)
  | transfer c =>
    cases c with
    | moved tasks log same calls =>
      refine .of_same rfl rfl (.of_quiet ?_)
      rcases calls with rfl | ⟨f, -, time, source, rfl⟩ <;> simp [Happening.isQuiet]
    | arrived | givenUp | setBack | brokenOff => exact .of_same rfl rfl (.singleton rfl)
  | job c => exact c.progress
  | told => exact .of_same rfl rfl (.singleton rfl)
  | warned | clocked | duties | spoiled => exact .of_same rfl hsilent (.nil _)

theorem Course.progress (c : Course s s') : s.Progress s' := by
  induction c with
  | refl => exact .refl s
  | tail _ c ih => exact ih.trans c.progress

/-! ### Where jobs come from -/

/-- Why a job may become ready although one of its catalogues could not be packaged when it was created:
the creation was answered with the failure of a call that was refused, or the packager gave the job another
status. -/
def Site.Excuses (c : Site) (r : RequestId) (mode : DownloadMode) (manifest : List ManifestEntry) : Prop :=
  Jobs.Answered ((Jobs.create r mode manifest).answer c) c ∨
    ∃ e ∈ manifest, e.kind.isCatalogue = true ∧ c.Meddles e.fileId

/-- How a job that was created at a depot stands with its catalogues, by what the log tells. -/
structure Provenance (c : Site) (r : RequestId) (mode : DownloadMode) (j : Job)
    (log : List Happening) : Prop where
  honest : ∀ id, .packaged r id true ∈ log → c.packages id = true
  /-- All that could be packaged were packaged before the job could be ready. -/
  whole : (∀ e ∈ j.catalogues, c.packages e.fileId = true) → ∃ early late, log = early ++ late ∧
    (∀ e ∈ j.catalogues, .packaged r e.fileId true ∈ early) ∧ ∀ x, .told (.ready r x) ∉ early
  ready : ∀ x, .told (.ready r x) ∈ log → j.status.cannotFail = true
  excused : (∃ e ∈ j.catalogues, c.packages e.fileId = false) →
    j.status = .error ∨ c.Excuses r mode j.manifest

theorem Provenance.later {c : Site} {r : RequestId} {mode : DownloadMode} {j j' : Job}
    {log more : List Happening} (h : Provenance c r mode j log) (follows : j.Follows j')
    (unpackaged : ∀ id ok, .packaged r id ok ∉ more)
    (ready : ∀ x, .told (.ready r x) ∈ more → j'.status.cannotFail = true) :
    Provenance c r mode j' (log ++ more) := by
  have hcatalogues : j'.catalogues = j.catalogues := by rw [Job.catalogues, follows.manifest, Job.catalogues]
  refine ⟨fun id hmem => ?_, fun hall => ?_, fun x hmem => ?_, fun hlost => ?_⟩
  · exact h.honest id ((List.mem_append.1 hmem).resolve_right (unpackaged id true))
  · rw [hcatalogues] at hall ⊢
    obtain ⟨early, late, hlog, hpackaged, hunready⟩ := h.whole hall
    exact ⟨early, late ++ more, by rw [hlog, List.append_assoc], hpackaged, hunready⟩
  · rcases List.mem_append.1 hmem with hmem | hmem
    · exact follows.safe (h.ready x hmem)
    · exact ready x hmem
  · rw [hcatalogues] at hlost
    rw [follows.manifest]
    exact (h.excused hlost).imp_left follows.error

/-- The jobs of a depot, after steps from a start, are those that were created in one of the steps, and the
log speaks of no others. -/
structure Site.Traced (start : Site) (steps : List Step) (s : Site) : Prop where
  jobs : ∀ r j, s.inventory.jobs.get? r = some j → ∃ mode before after,
    steps = before ++ .create r mode j.manifest :: after ∧
      Provenance (start.run before) r mode j s.log
  packaged : ∀ r id ok, .packaged r id ok ∈ s.log → ∃ j, s.inventory.jobs.get? r = some j
  ready : ∀ r x, .told (.ready r x) ∈ s.log → ∃ j, s.inventory.jobs.get? r = some j

namespace Site.Traced

variable {start : Site} {steps : List Step}

/-- More steps do not matter. -/
theorem append (h : start.Traced steps s) (more : List Step) : start.Traced (steps ++ more) s := by
  refine ⟨fun r j hj => ?_, h.packaged, h.ready⟩
  obtain ⟨mode, before, after, hsteps, hprovenance⟩ := h.jobs r j hj
  refine ⟨mode, before, after ++ more, ?_, hprovenance⟩
  rw [hsteps, List.append_assoc, List.cons_append]

theorem progress (h : start.Traced steps s) (p : s.Progress s') : start.Traced steps s' := by
  obtain ⟨more, hlog, hexplains⟩ := p.log
  have hstored : ∀ r j, s.inventory.jobs.get? r = some j → ∃ j', s'.inventory.jobs.get? r = some j' :=
    fun r j hj => (p.keeps r j hj).imp fun _ hj' => hj'.1
  refine ⟨fun r j' hj' => ?_, fun r id ok hmem => ?_, fun r x hmem => ?_⟩
  · obtain ⟨j, hj, hfollows⟩ := p.jobs r j' hj'
    obtain ⟨mode, before, after, hsteps, hprovenance⟩ := h.jobs r j hj
    refine ⟨mode, before, after, by rw [hsteps, hfollows.manifest], ?_⟩
    rw [hlog]
    refine hprovenance.later hfollows (hexplains.unpackaged r) fun x hmem => ?_
    obtain ⟨k, hk, hsafe⟩ := hexplains.ready r x hmem
    rw [hj'] at hk
    cases hk
    exact hsafe
  · rw [hlog] at hmem
    obtain ⟨j, hj⟩ :=
      h.packaged r id ok ((List.mem_append.1 hmem).resolve_right (hexplains.unpackaged r id ok))
    exact hstored r j hj
  · rw [hlog] at hmem
    rcases List.mem_append.1 hmem with hmem | hmem
    · obtain ⟨j, hj⟩ := h.ready r x hmem
      exact hstored r j hj
    · obtain ⟨j', hj', -⟩ := hexplains.ready r x hmem
      exact ⟨j', hj'⟩

end Site.Traced

/-! ### Creation -/

namespace Jobs

/-- What is left of the creation of a job: first the log tells which catalogues were packaged, and whatever
it tells later is right. -/
structure Creation.Left (job : Job) (answer : Except Failure Job) (packaged later : List Happening)
    (s s' : Site) : Prop where
  unknown : s.inventory.jobs.get? job.requestId = none
  log : s'.log = s.log ++ (packaged ++ later)
  said : ∀ h ∈ packaged, ∃ id, h = .packaged job.requestId id (s.packages id)
  explains : s'.inventory.Explains later
  stored : ∃ j, s'.inventory.jobs.get? job.requestId = some j
  keeps : s.inventory.KeepsManifests s'.inventory
  others : ∀ r j', r ≠ job.requestId → s'.inventory.jobs.get? r = some j' →
    ∃ j, s.inventory.jobs.get? r = some j ∧ j.Follows j'
  manifest : ∀ j, s'.inventory.jobs.get? job.requestId = some j → j.manifest = job.manifest
  whole : (∀ e ∈ job.catalogues, s.packages e.fileId = true) →
    ∀ e ∈ job.catalogues, .packaged job.requestId e.fileId true ∈ packaged
  spoilt : (∃ e ∈ job.catalogues, s.packages e.fileId = false) →
    ∀ j, s'.inventory.jobs.get? job.requestId = some j →
      j.status = .error ∨ Answered answer s ∨ ∃ e ∈ job.catalogues, s.Meddles e.fileId

theorem Creation.left {job : Job} {answer : Except Failure Job} (hn : s.inventory.Named)
    (preparing : job.status = .preparing) (c : Creation job answer s s') :
    ∃ packaged later, Creation.Left job answer packaged later s s' := by
  cases c with
  | @intro s₁ s₂ s₃ lost unknown aside packed goesOn =>
    obtain ⟨packaged, hshelved⟩ := packed.shelved hn aside
    have hcourse : Course s₂ s' := goesOn.asked.course.trans goesOn.ended.course
    have hprogress := hcourse.progress
    obtain ⟨later, hlater, hexplains⟩ := hprogress.log
    obtain ⟨j₂, hj₂, hmanifest₂⟩ := hshelved.stored
    obtain ⟨j₃, hj₃, hmanifest₃⟩ := hprogress.keeps _ _ hj₂
    refine ⟨packaged, later, ⟨unknown, ?_, hshelved.said, hexplains, ⟨j₃, hj₃⟩, ?_, ?_, ?_, ?_, ?_⟩⟩
    · rw [hlater, hshelved.log, List.append_assoc]
    · intro r j hj
      have hr : r ≠ job.requestId := by
        rintro rfl
        rw [unknown] at hj
        cases hj
      rw [← hshelved.others r hr] at hj
      exact hprogress.keeps r j hj
    · intro r j' hr hj'
      rw [← hshelved.others r hr]
      exact hprogress.jobs r j' hj'
    · intro j hj
      rw [hj₃] at hj
      cases hj
      exact hmanifest₃.trans hmanifest₂
    · exact fun hwhole => hshelved.whole (hshelved.lost_eq_none_iff.2 hwhole)
    · rintro ⟨e, he, hfails⟩ j hj
      have hlost : lost ≠ none := fun hnone => by
        rw [hshelved.lost_eq_none_iff.1 hnone e he] at hfails
        cases hfails
      rcases goesOn.spoilt hlost with hends | hanswered
      · by_cases hmeddles : ∃ e ∈ job.catalogues, s.Meddles e.fileId
        · exact .inr (.inr hmeddles)
        · have hinventory := hshelved.untouched fun e he hm => hmeddles ⟨e, he, hm⟩
          obtain ⟨j', hj', herror⟩ := hends job (by rw [hinventory, Inventory.get?_saveJob_self]) preparing
          rw [hj] at hj'
          cases hj'
          exact .inl herror
      · exact .inr (.inl (hanswered.of_packed hn aside packed))

namespace Creation.Left

variable {job : Job} {answer : Except Failure Job} {packaged later : List Happening}

/-- Catalogues are packaged for the new job only, if they can be. -/
theorem of_packaged_mem (c : Creation.Left job answer packaged later s s') {r : RequestId} {id : FileId}
    {ok : Bool} (h : .packaged r id ok ∈ packaged ++ later) :
    r = job.requestId ∧ ok = s.packages id := by
  obtain ⟨id', hid'⟩ :=
    c.said _ ((List.mem_append.1 h).resolve_right (c.explains.unpackaged r id ok))
  cases hid'
  exact ⟨rfl, rfl⟩

/-- No job is told to be ready while catalogues are packaged. -/
theorem ready_not_mem (c : Creation.Left job answer packaged later s s') (r : RequestId) (x : Instant) :
    .told (.ready r x) ∉ packaged := by
  intro hmem
  obtain ⟨id, hid⟩ := c.said _ hmem
  cases hid

/-- A job that is told to be ready cannot fail any more. -/
theorem of_ready_mem (c : Creation.Left job answer packaged later s s') {r : RequestId} {x : Instant}
    (h : .told (.ready r x) ∈ packaged ++ later) :
    ∃ j, s'.inventory.jobs.get? r = some j ∧ j.status.cannotFail = true :=
  c.explains.ready r x ((List.mem_append.1 h).resolve_left (c.ready_not_mem r x))

end Creation.Left

end Jobs

/-- A job that has just been created, and its catalogues. -/
theorem Jobs.Creation.Left.provenance {start : Site} {steps : List Step} {r : RequestId}
    {mode : DownloadMode} {manifest : List ManifestEntry} {packaged later : List Happening}
    (h : start.Traced steps s)
    (c : Creation.Left (Job.create r mode manifest s.clock.now) ((Jobs.create r mode manifest).answer s)
      packaged later s s') {j : Job} (hj : s'.inventory.jobs.get? r = some j) :
    Provenance s r mode j s'.log := by
  have hmanifest : j.manifest = manifest := c.manifest j hj
  have hcatalogues : j.catalogues = (Job.create r mode manifest s.clock.now).catalogues := by
    rw [Job.catalogues, hmanifest]
    rfl
  have hunknown : ∀ k, s.inventory.jobs.get? r ≠ some k := fun k hk => by
    have hnone : s.inventory.jobs.get? r = none := c.unknown
    rw [hnone] at hk
    cases hk
  have huntold : ∀ x, .told (.ready r x) ∉ s.log := fun x hmem =>
    (h.ready r x hmem).elim hunknown
  rw [c.log]
  refine ⟨fun id hmem => ?_, fun hall => ?_, fun x hmem => ?_, fun hfails => ?_⟩
  · rcases List.mem_append.1 hmem with hmem | hmem
    · exact (h.packaged r id true hmem).elim fun k hk => absurd hk (hunknown k)
    · exact (c.of_packaged_mem hmem).2.symm
  · rw [hcatalogues] at hall ⊢
    refine ⟨s.log ++ packaged, later, (List.append_assoc ..).symm,
      fun e he => List.mem_append_right _ (c.whole hall e he), fun x hmem => ?_⟩
    rcases List.mem_append.1 hmem with hmem | hmem
    · exact huntold x hmem
    · exact c.ready_not_mem r x hmem
  · obtain ⟨k, hk, hsafe⟩ := c.of_ready_mem ((List.mem_append.1 hmem).resolve_left (huntold x))
    rw [hj] at hk
    cases hk
    exact hsafe
  · rw [hcatalogues] at hfails
    rw [hmanifest]
    refine (c.spoilt hfails j hj).imp_right (.imp_right ?_)
    rintro ⟨e, he, hmeddles⟩
    obtain ⟨hmem, hkind⟩ := List.mem_filter.1 he
    exact ⟨e, hmem, hkind, hmeddles⟩

namespace Site.Traced

variable {start : Site} {steps : List Step}

/-- A job is created. -/
theorem creation {r : RequestId} {mode : DownloadMode} {manifest : List ManifestEntry}
    {packaged later : List Happening} (h : start.Traced steps s) (reached : start.run steps = s)
    (c : Jobs.Creation.Left (Job.create r mode manifest s.clock.now)
      ((Jobs.create r mode manifest).answer s) packaged later s s') :
    start.Traced (steps ++ [.create r mode manifest]) s' := by
  have hkeeps : ∀ {r' j}, s.inventory.jobs.get? r' = some j → ∃ j', s'.inventory.jobs.get? r' = some j' :=
    fun hj => (c.keeps _ _ hj).imp fun _ hj' => hj'.1
  refine ⟨fun r' j' hj' => ?_, fun r' id ok hmem => ?_, fun r' x hmem => ?_⟩
  · by_cases hr : r' = r
    · subst hr
      have hmanifest : j'.manifest = manifest := c.manifest j' hj'
      refine ⟨mode, steps, [], by rw [hmanifest], ?_⟩
      rw [reached]
      exact c.provenance h hj'
    · obtain ⟨j, hj, hfollows⟩ := c.others r' j' hr hj'
      obtain ⟨mode', before, after, hsteps, hprovenance⟩ := (h.append [_]).jobs r' j hj
      refine ⟨mode', before, after, by rw [hsteps, hfollows.manifest], ?_⟩
      rw [c.log]
      refine hprovenance.later hfollows (fun id ok hmem => hr (c.of_packaged_mem hmem).1) fun x hmem => ?_
      obtain ⟨k, hk, hsafe⟩ := c.of_ready_mem hmem
      rw [hj'] at hk
      cases hk
      exact hsafe
  · rw [c.log] at hmem
    rcases List.mem_append.1 hmem with hmem | hmem
    · exact (h.packaged r' id ok hmem).elim fun _ hj => hkeeps hj
    · obtain rfl : r' = r := (c.of_packaged_mem hmem).1
      exact c.stored
  · rw [c.log] at hmem
    rcases List.mem_append.1 hmem with hmem | hmem
    · exact (h.ready r' x hmem).elim fun _ hj => hkeeps hj
    · exact (c.of_ready_mem hmem).imp fun _ hj => hj.1

/-- **Every step** leaves it known of each job by which step it was created, and how its catalogues were
packaged then. -/
theorem step (h : start.Traced steps s) (sound : s.Sound) (reached : start.run steps = s) (step : Step) :
    start.Traced (steps ++ [step]) (step.take s) := by
  cases hopen : step.reopens with
  | true =>
    cases step with
    | restart settings =>
      refine (h.append [_]).progress ?_
      rcases Step.restarted sound.secluded settings with ha | ⟨s₁, ha, hs₁⟩
      · exact ha.course.progress
      · rw [hs₁]
        exact ha.course.progress.trans (.reopen s₁ settings)
    | _ => cases hopen
  | false =>
  cases hstep : step.creates with
  | false => exact (h.append [step]).progress (Step.course sound hstep hopen).progress
  | true =>
    cases step with
    | create r mode manifest =>
      rcases Step.creation sound r mode manifest with ha | hc
      · exact (h.append [_]).progress ha.course.progress
      · obtain ⟨packaged, later, hleft⟩ := hc.left sound.balanced.named rfl
        exact h.creation reached hleft
    | _ => cases hstep

theorem run (h : start.Traced steps s) (sound : s.Sound) (reached : start.run steps = s)
    (more : List Step) : start.Traced (steps ++ more) (s.run more) := by
  induction more generalizing steps s with
  | nil =>
    rw [List.append_nil]
    exact h
  | cons step rest ih =>
    have hreached : start.run (steps ++ [step]) = step.take s := by
      rw [Site.run_append, reached, Site.run_cons, Site.run_nil]
    have hrest := ih (h.step sound reached step) (sound.history (Step.history sound step)) hreached
    rwa [List.append_assoc, List.singleton_append] at hrest

end Site.Traced

/-! ### Telling of ready jobs -/

/-- Every job that is ready was told to be. -/
def Site.TellsReady (s : Site) : Prop :=
  ∀ r j, s.inventory.jobs.get? r = some j → j.status = .ready → ∃ x, .told (.ready r x) ∈ s.log

namespace Site.TellsReady

/-- One job is replaced by another. -/
theorem saveJob {j : Job} (h : s.TellsReady) (more : List Happening)
    (saved : s'.inventory = s.inventory.saveJob j) (log : s'.log = s.log ++ more)
    (ready : j.status = .ready → ∃ x, .told (.ready j.requestId x) ∈ more) : s'.TellsReady := by
  intro r k hk hready
  rw [saved, Inventory.get?_saveJob] at hk
  rw [log]
  split at hk
  · next hr =>
    cases hk
    obtain ⟨x, hx⟩ := ready hready
    exact ⟨x, List.mem_append_right _ (hr ▸ hx)⟩
  · obtain ⟨x, hx⟩ := h r k hk hready
    exact ⟨x, List.mem_append_left _ hx⟩

theorem jobChange (h : s.TellsReady) (c : JobChange s s') : s'.TellsReady := by
  cases c with
  | administered next kept allowed either =>
    refine h.saveJob _ rfl rfl fun hready => ?_
    rcases either with rfl | rfl <;> cases hready
  | failed | expired | cancelled => exact h.saveJob _ rfl rfl fun hready => by cases hready
  | readied expiry => exact h.saveJob _ rfl rfl fun _ => ⟨expiry, .head _⟩

/-- Jobs are as they were. -/
theorem of_same (h : s.TellsReady) (jobs : s'.inventory.jobs = s.inventory.jobs)
    (log : ∃ more, s'.log = s.log ++ more) : s'.TellsReady := by
  intro r j hj hready
  rw [jobs] at hj
  obtain ⟨more, hmore⟩ := log
  obtain ⟨x, hx⟩ := h r j hj hready
  exact ⟨x, hmore ▸ List.mem_append_left _ hx⟩

theorem event (h : s.TellsReady) (unready : ¬s.Interferes .ready) (e : Event s s') :
    s'.TellsReady := by
  cases e with
  | reopened settings => exact h.of_same rfl ⟨[], (List.append_nil _).symm⟩
  | deed d =>
  cases d with
  | change c =>
    have hlog : ∃ more, s'.log = s.log ++ more := c.progress.log.imp fun _ hmore => hmore.1
    cases c with
    | file c => exact h.of_same (FileCourse.frame (.single c)).jobs hlog
    | transfer c => cases c <;> exact h.of_same rfl hlog
    | job c => exact h.jobChange c
    | warned | told | clocked | duties | spoiled => exact h.of_same rfl hlog
  | founding r c =>
    cases c with
    | created =>
      exact h.saveJob [] rfl (List.append_nil _).symm fun hready => by cases hready
    | packaged => exact h.of_same rfl ⟨_, rfl⟩
    | overwritten status meddled =>
      have hne : status ≠ .ready := fun hready => unready (hready ▸ meddled)
      cases hj : s.inventory.jobs.get? r with
      | none =>
        refine h.of_same ?_ ⟨[], (List.append_nil _).symm⟩
        simp only [Inventory.overwriteStatus, hj]
      | some j =>
        refine h.saveJob (j := { j with status := status }) [] ?_ (List.append_nil _).symm fun hready =>
          absurd hready hne
        simp only [Inventory.overwriteStatus, hj]

theorem history (h : s.TellsReady) (unready : ¬s.Interferes .ready) (c : History s s') :
    s'.TellsReady := by
  induction c with
  | refl => exact h
  | tail hc e ih => exact ih.event (fun hready => unready (Site.Interferes.history hc hready)) e

end Site.TellsReady

/-! ### Runs -/

/-- What comes before an entry of the log that a first part does not have begins with that part. -/
theorem mem_of_append_eq {α : Type} {early late earlier rest : List α} {a b : α}
    (h : earlier ++ a :: rest = early ++ late) (ha : a ∉ early) (hb : b ∈ early) : b ∈ earlier := by
  rcases List.append_eq_append_iff.1 h with ⟨l, rfl, hl⟩ | ⟨l, rfl, -⟩
  · cases l with
    | nil => rwa [List.append_nil] at hb
    | cons c l =>
      rw [List.cons_append] at hl
      obtain ⟨rfl, -⟩ := List.cons.inj hl
      exact absurd (List.mem_append_right _ (.head _)) ha
  · exact List.mem_append_left _ hb

/-- **Which catalogues ready jobs have.** In every run that begins with nothing, whichever calls are refused:
each job that is ready was told to be, and each that is told to be ready was created in a step of the run.
By then, all its catalogues had been packaged for it exactly if all of them could be when it was created;
and if one could not, then the creation was answered with the failure of a call that was refused, or the
packager gave the job another status. -/
theorem catalogues_of_ready_jobs (h : s.Secluded) (ho : s.Opened) (fresh : s.inventory = .fresh)
    (silent : s.log = []) (unready : ¬s.Interferes .ready) (steps : List Step) :
    (∀ r j, (s.run steps).inventory.jobs.get? r = some j → j.status = .ready →
      ∃ x, .told (.ready r x) ∈ (s.run steps).log) ∧
    ∀ r x earlier rest, (s.run steps).log = earlier ++ .told (.ready r x) :: rest →
      ∃ j mode before after, (s.run steps).inventory.jobs.get? r = some j ∧
        steps = before ++ .create r mode j.manifest :: after ∧
        ((∀ e ∈ j.catalogues, .packaged r e.fileId true ∈ earlier) ↔
          ∀ e ∈ j.catalogues, (s.run before).packages e.fileId = true) ∧
        ((∃ e ∈ j.catalogues, (s.run before).packages e.fileId = false) →
          (s.run before).Excuses r mode j.manifest) := by
  have hsound : s.Sound := ⟨h, ho.balanced (fresh ▸ .fresh)⟩
  have hnone : ∀ r j, s.inventory.jobs.get? r ≠ some j := fun r j hj => by
    rw [fresh] at hj
    cases hj
  have htells : s.TellsReady := fun r j hj => absurd hj (hnone r j)
  have hstart : s.Traced [] s := by
    refine ⟨fun r j hj => absurd hj (hnone r j), fun r id ok hmem => ?_, fun r x hmem => ?_⟩ <;>
    · rw [silent] at hmem
      cases hmem
  refine ⟨htells.history unready (Site.run_history hsound steps), fun r x earlier rest hlog => ?_⟩
  have htraced := hstart.run hsound rfl steps
  rw [List.nil_append] at htraced
  have htold : .told (.ready r x) ∈ (s.run steps).log := hlog ▸ List.mem_append_right _ (.head _)
  obtain ⟨j, hj⟩ := htraced.ready r x htold
  obtain ⟨mode, before, after, hsteps, hprovenance⟩ := htraced.jobs r j hj
  refine ⟨j, mode, before, after, hj, hsteps, ⟨fun hall e he => ?_, fun hall e he => ?_⟩, fun hfails => ?_⟩
  · exact hprovenance.honest e.fileId (hlog ▸ List.mem_append_left _ (hall e he))
  · obtain ⟨early, late, hsplit, hpackaged, hunready⟩ := hprovenance.whole hall
    exact mem_of_append_eq (hlog ▸ hsplit) (hunready x) (hpackaged e he)
  · refine (hprovenance.excused hfails).resolve_left fun herror => ?_
    have hsafe := hprovenance.ready x htold
    rw [herror] at hsafe
    cases hsafe

/-- A job of one catalogue, which the packager can package, is ready as soon as it is created. -/
theorem job_of_one_catalogue_has_it :
    let s : Site := { Site.blank { cacheRoot := "cache" } with packager := some {} }
    ∃ x earlier rest,
      (s.run [.create ⟨"j"⟩ .web [⟨⟨"c"⟩, .catalogue, none, none⟩]]).log =
        earlier ++ .told (.ready ⟨"j"⟩ x) :: rest ∧
      .packaged ⟨"j"⟩ ⟨"c"⟩ true ∈ earlier := by
  intro s
  have hsecluded : s.Secluded := ⟨rfl, rfl, rfl, rfl, rfl⟩
  have hopened : s.Opened := ⟨rfl, rfl, rfl⟩
  have hunready : ¬s.Interferes .ready := by
    rintro ⟨p, id, hp, hid⟩
    cases hp
    cases hid
  obtain ⟨htold, hruns⟩ := catalogues_of_ready_jobs hsecluded hopened rfl rfl hunready
    [.create ⟨"j"⟩ .web [⟨⟨"c"⟩, .catalogue, none, none⟩]]
  have hready : ((s.run [.create ⟨"j"⟩ .web [⟨⟨"c"⟩, .catalogue, none, none⟩]]).inventory.jobs.get?
      ⟨"j"⟩).map Job.status = some .ready := by decide +kernel
  obtain ⟨k, hk, hstatus⟩ := Option.map_eq_some_iff.1 hready
  obtain ⟨x, hx⟩ := htold _ k hk hstatus
  obtain ⟨earlier, rest, hlog⟩ := List.append_of_mem hx
  obtain ⟨j, mode, before, after, -, hsteps, hiff, -⟩ := hruns _ x earlier rest hlog
  obtain ⟨rfl, hcreate, -⟩ : before = [] ∧ _ ∧ after = [] := by
    cases before with
    | nil => exact ⟨rfl, (List.cons.inj hsteps).1, (List.cons.inj hsteps).2.symm⟩
    | cons step before => exact absurd (List.cons.inj hsteps).2 (by simp)
  obtain ⟨-, -, hmanifest⟩ := Step.create.inj hcreate
  refine ⟨x, earlier, rest, hlog, hiff.2 (fun e _ => rfl) ⟨⟨"c"⟩, .catalogue, none, none⟩ ?_⟩
  rw [Job.catalogues, ← hmanifest]
  exact .head _

/-- A packager that cannot package a catalogue, and pauses the job while it tries. -/
def pausingSite : Site :=
  { Site.blank { cacheRoot := "cache" } with
    packager := some
      { interference := Table.empty.insert ⟨"c"⟩ .paused
        failures := Table.empty.insert ⟨"c"⟩ (.store "no catalogue") } }

/-- A job that was paused while its catalogue was packaged goes on. -/
def pausedRun : List Step :=
  [.create ⟨"j"⟩ .web [⟨⟨"c"⟩, .catalogue, none, none⟩], .resume ⟨"j"⟩, .poll]

/-- **A job may become ready without its catalogue**: if it is paused while the catalogue cannot be
packaged, it does not end in an error, and no sweep asks for the catalogue again. -/
theorem unpackaged_job_becomes_ready :
    ∃ j, (pausingSite.run pausedRun).inventory.jobs.get? ⟨"j"⟩ = some j ∧ j.status = .ready ∧
      ∃ e ∈ j.catalogues, .packaged ⟨"j"⟩ e.fileId true ∉ (pausingSite.run pausedRun).log := by
  have hready : ((pausingSite.run pausedRun).inventory.jobs.get? ⟨"j"⟩).map (fun j => (j.status, j.catalogues)) =
      some (.ready, [⟨⟨"c"⟩, .catalogue, none, none⟩]) := by decide +kernel
  have hlost : (pausingSite.run pausedRun).log.all (fun
      | .packaged _ _ ok => !ok
      | _ => true) = true := by decide +kernel
  obtain ⟨j, hj, hstands⟩ := Option.map_eq_some_iff.1 hready
  obtain ⟨hstatus, hcatalogues⟩ := Prod.mk.inj hstands
  refine ⟨j, hj, hstatus, ⟨⟨"c"⟩, .catalogue, none, none⟩, by rw [hcatalogues]; exact .head _, fun hmem => ?_⟩
  have hfailed := List.all_eq_true.1 hlost _ hmem
  cases hfailed

end Depot

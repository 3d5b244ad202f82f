import Depot.Proofs.Run

/-!
# Live jobs pin their files

A live job is meant to pin every file of its manifest. It does so by its references: once it has asked for
all its files, it refers to each of them, and nothing evicts a file that a live job refers to. But a job
is live from the beginning of its creation, and asks for its files one by one; while it makes room for one
of them, those that come after it in its manifest may be evicted.

So evictions spare the files of all live jobs but those of a job that is being created just then.

## Main statements

* `Inventory.Pins.change` — jobs that have asked for their files keep them pinned, whatever happens.
* `eviction_takes_live_file_iff` — in every run, an eviction takes a file of a live job exactly if the job is
  created in that step and lists the file after its first.
* `creation_evicts_own_file` — this happens.

## Honest scope

No call of the inventory is refused, and the packager leaves jobs alone.
-/

namespace Depot

open Act Time

variable {s s' : Site}

/-! ### Who needs a file -/

/-- Whether a request is a live job that has a file in its manifest, other than as a catalogue. -/
def Inventory.needs (v : Inventory) (r : RequestId) (id : FileId) : Bool :=
  (v.jobs.get? r).any fun j => j.status.isLive && j.retrievable.any fun e => e.fileId = id

theorem Inventory.needs_eq_true {v : Inventory} {r : RequestId} {id : FileId} :
    v.needs r id = true ↔ ∃ j, v.jobs.get? r = some j ∧ j.status.isLive = true ∧
      ∃ e ∈ j.retrievable, e.fileId = id := by
  simp only [needs, Option.any_eq_true, Bool.and_eq_true, List.any_eq_true, decide_eq_true_eq]

/-- The live jobs but some pin their files. -/
def Inventory.Pins (v : Inventory) (exempt : RequestId → Prop) : Prop :=
  ∀ r j, v.jobs.get? r = some j → j.status.isLive = true → ¬exempt r →
    ∀ e ∈ j.retrievable, v.Pinned r e.fileId

/-! ### Pinned files stay pinned -/

theorem Inventory.Pinned.mono {v v' : Inventory} {r : RequestId} {id : FileId} (h : v.Pinned r id)
    (references : v'.references = v.references)
    (files : v.files.contains id = true → v'.files.contains id = true) : v'.Pinned r id := by
  refine ⟨?_, files h.kept⟩
  have hrefers := h.refers
  unfold Inventory.refers at hrefers ⊢
  rw [references]
  exact hrefers

/-- A job is replaced by another with the same manifest that is live only if it was. -/
theorem Inventory.Pins.saveJob {v : Inventory} {exempt : RequestId → Prop} {j j' : Job}
    (h : v.Pins exempt) (kept : v.jobs.get? j.requestId = some j)
    (id : j'.requestId = j.requestId) (manifest : j'.manifest = j.manifest)
    (live : j'.status.isLive = true → j.status.isLive = true) : (v.saveJob j').Pins exempt := by
  intro r k hk hlive hnot e he
  rw [Inventory.get?_saveJob, id] at hk
  split at hk
  · next hr =>
    cases hk
    rw [Job.retrievable, manifest] at he
    exact (h r j (hr ▸ kept) (live hlive) hnot e he).mono rfl fun hkept => hkept
  · exact (h r k hk hlive hnot e he).mono rfl fun hkept => hkept

theorem Inventory.Pins.jobChange {exempt : RequestId → Prop} (h : s.inventory.Pins exempt) (c : JobChange s s') :
    s'.inventory.Pins exempt := by
  obtain ⟨j, j', _, e⟩ := c.enters
  rw [e.written]
  exact h.saveJob e.kept e.goesOn.requestId e.goesOn.manifest fun _ =>
    JobStatus.isLive_of_canBecome e.allowed

/-- **Whatever happens**, the jobs that pin their files go on doing so. -/
theorem Inventory.Pins.change {exempt : RequestId → Prop} (h : s.inventory.Pins exempt)
    (c : Change s s') : s'.inventory.Pins exempt := by
  cases c with
  | file c =>
    intro r j hj hlive hnot e he
    rw [(FileCourse.frame (.single c)).jobs] at hj
    exact c.pinned ⟨j, hj, hlive⟩ (h r j hj hlive hnot e he)
  | transfer c =>
    intro r j hj hlive hnot e he
    cases c with
    | moved => exact h r j hj hlive hnot e he
    | arrived | givenUp | setBack =>
      exact (h r j hj hlive hnot e he).mono rfl (Inventory.contains_saveFile _ _)
    | brokenOff => exact h r j hj hlive hnot e he
  | job c => exact h.jobChange c
  | warned | told | clocked | duties | spoiled => exact h

theorem Inventory.Pins.course {exempt : RequestId → Prop} (h : s.inventory.Pins exempt)
    (c : Course s s') : s'.inventory.Pins exempt := by
  induction c with
  | refl => exact h
  | tail _ c ih => exact ih.change c

/-! ### Evictions -/

/-- An eviction spares the files of the live jobs that pin theirs. -/
def Spares (exempt : RequestId → Prop) (x : FileRecord × Inventory) : Prop :=
  ∀ r, ¬exempt r → x.2.needs r x.1.fileId = false

theorem Inventory.Pins.spares {exempt : RequestId → Prop} {f : FileRecord}
    (h : s.inventory.Pins exempt)
    (unpinned : ∀ r ∈ s.inventory.referrers f.fileId, ∀ j, s.inventory.jobs.get? r = some j →
      j.status.isLive = false) : Spares exempt (f, s.inventory.deleteFile f.fileId) := by
  intro r hnot
  rw [← Bool.not_eq_true, Inventory.needs_eq_true]
  rintro ⟨j, hj, hlive, e, he, hid⟩
  have hlives : s.inventory.Lives r := ⟨j, hj, hlive⟩
  exact hlives.ne_of_unpinned (h r j hj hlive hnot e he).refers unpinned hid

/-- In one go at most one file is evicted, and it is spared to those who pin it. -/
theorem Change.evictions {exempt : RequestId → Prop} (c : Change s s')
    (h : s.inventory.Pins exempt) :
    s'.evictions = s.evictions ∨ ∃ x, s'.evictions = s.evictions ++ [x] ∧
      x.2.jobs = s.inventory.jobs ∧ Spares exempt x := by
  rcases (Deed.change c).evicts_or_quiet with ⟨f, e⟩ | ⟨more, hlog, hquiet⟩
  · refine .inr ⟨(f, s.inventory.deleteFile f.fileId), ?_, rfl, h.spares e.unpinned⟩
    rw [Site.evictions, e.logged]
    exact List.filterMap_append
  · refine .inl ?_
    rw [Site.evictions, hlog, List.filterMap_append, List.filterMap_eq_nil_iff.2 hquiet]
    exact List.append_nil _

/-- The evictions of a course spare the files of those who pin them. -/
theorem Course.evictions {exempt : RequestId → Prop} (c : Course s s')
    (h : s.inventory.Pins exempt) :
    ∃ more, s'.evictions = s.evictions ++ more ∧ ∀ x ∈ more, Spares exempt x := by
  induction c with
  | refl => exact ⟨[], (List.append_nil _).symm, fun x hx => by cases hx⟩
  | tail hc c ih =>
    obtain ⟨more, hmore, hspares⟩ := ih
    rcases c.evictions (h.course hc) with hsame | ⟨x, hx, -, hspare⟩
    · exact ⟨more, hsame.trans hmore, hspares⟩
    · refine ⟨more ++ [x], by rw [hx, hmore, List.append_assoc], fun y hy => ?_⟩
      rcases List.mem_append.1 hy with hy | hy
      · exact hspares y hy
      · rw [List.mem_singleton.1 hy]
        exact hspare

/-- While only files change, the jobs at an eviction are those from before. -/
theorem FileCourse.evictions {exempt : RequestId → Prop} (c : FileCourse s s')
    (h : s.inventory.Pins exempt) :
    ∃ more, s'.evictions = s.evictions ++ more ∧
      ∀ x ∈ more, Spares exempt x ∧ x.2.jobs = s.inventory.jobs := by
  induction c with
  | refl => exact ⟨[], (List.append_nil _).symm, fun x hx => by cases hx⟩
  | tail hc c ih =>
    obtain ⟨more, hmore, hspares⟩ := ih
    rcases (Change.file c).evictions (h.course (FileCourse.course hc)) with hsame | ⟨x, hx, hj, hspare⟩
    · exact ⟨more, hsame.trans hmore, hspares⟩
    · refine ⟨more ++ [x], by rw [hx, hmore, List.append_assoc], fun y hy => ?_⟩
      rcases List.mem_append.1 hy with hy | hy
      · exact hspares y hy
      · rw [List.mem_singleton.1 hy]
        exact ⟨hspare, hj.trans (FileCourse.frame hc).jobs⟩

/-! ### Creation -/

theorem Site.Discreet.not_meddles (h : s.Discreet) (id : FileId) : ¬s.Meddles id :=
  fun ⟨p, status, hp, hid⟩ => h status ⟨p, id, hp, hid⟩

namespace Jobs

/-- A new job that is being prepared pins its files when it has gone on, unless it has ended. -/
theorem GoesOn.pins {job : Job} {lost : Option FileId} {answer : Except Failure Job} {s₁ : Site}
    (calm : s.Calm) (pins : s.inventory.Pins (· = job.requestId))
    (stored : s.inventory.jobs.get? job.requestId = some job) (preparing : job.status = .preparing)
    (c : GoesOn job lost answer s s₁ s') : s'.inventory.Pins fun _ => False := by
  have hunanswered : ¬Answered answer s := fun ⟨e, _, hr⟩ => hr.2 calm.faultless
  have hends : Ends job.requestId s s' → s'.inventory.Pins fun _ => False := by
    intro hends r j hj hlive _ e he
    by_cases hr : r = job.requestId
    · subst hr
      obtain ⟨j', hj', herror⟩ := hends job stored preparing
      rw [hj] at hj'
      cases hj'
      rw [herror] at hlive
      cases hlive
    · exact pins.course (c.asked.course.trans c.ended.course) r j hj hlive hr e he
  cases lost with
  | some lost => exact hends ((c.spoilt nofun).resolve_right hunanswered)
  | none =>
    rcases c.whole rfl with hpinned | hended | hanswered
    · refine Inventory.Pins.course ?_ c.ended.course
      intro r j hj hlive _ e he
      by_cases hr : r = job.requestId
      · subst hr
        rw [c.asked.frame.jobs, stored] at hj
        cases hj
        exact hpinned calm ⟨job, stored, by rw [preparing]; rfl⟩ e he
      · exact pins.course c.asked.course r j hj hlive hr e he
    · exact hends hended
    · exact absurd hanswered hunanswered

/-- Meanwhile evictions spare the files of all other jobs, and of its own the first. -/
theorem GoesOn.evictions {job : Job} {lost : Option FileId} {answer : Except Failure Job} {s₁ : Site}
    (calm : s.Calm) (pins : s.inventory.Pins (· = job.requestId))
    (stored : s.inventory.jobs.get? job.requestId = some job) (preparing : job.status = .preparing)
    (c : GoesOn job lost answer s s₁ s') :
    ∃ more, s'.evictions = s.evictions ++ more ∧
      ∀ x ∈ more, Spares (· = job.requestId) x ∧ x.2.jobs.get? job.requestId = some job ∧
        ∀ e ∈ job.retrievable.head?, x.1.fileId ≠ e.fileId := by
  obtain ⟨more, hmore, hspares⟩ := FileCourse.evictions c.asked pins
  refine ⟨more, c.ended.spared.trans hmore, fun x hx => ?_⟩
  obtain ⟨hspare, hjobs⟩ := hspares x hx
  refine ⟨hspare, by rw [hjobs, stored], fun e he => ?_⟩
  obtain ⟨more', hmore', hspared⟩ := c.spared calm ⟨job, stored, by rw [preparing]; rfl⟩ e he
  rw [hmore] at hmore'
  exact hspared x (List.append_cancel_left hmore' ▸ hx)

/-- A job that has been created pins its files unless it has ended, and meanwhile evictions spare the
files of all others, and of its own the first. -/
theorem Creation.pins {job : Job} {answer : Except Failure Job} (hn : s.inventory.Named)
    (discreet : s.Discreet) (calm : s.Calm) (pins : s.inventory.Pins fun _ => False)
    (preparing : job.status = .preparing) (c : Creation job answer s s') :
    s'.inventory.Pins (fun _ => False) ∧
      ∃ more, s'.evictions = s.evictions ++ more ∧
        ∀ x ∈ more, Spares (· = job.requestId) x ∧ x.2.jobs.get? job.requestId = some job ∧
          ∀ e ∈ job.retrievable.head?, x.1.fileId ≠ e.fileId := by
  cases c with
  | @intro s₁ s₂ s₃ lost unknown aside packed goesOn =>
    obtain ⟨packaged, hshelved⟩ := packed.shelved hn aside
    have hn₁ : (s₁.inventory.saveJob job).Named := by
      rw [jobs_aside aside]
      exact hn.saveJob job
    have hframe := packed.founded.frame hn₁
    have hinventory := hshelved.untouched fun e _ => discreet.not_meddles e.fileId
    have hstored : s₂.inventory.jobs.get? job.requestId = some job := by
      rw [hinventory, Inventory.get?_saveJob_self]
    have hpins : s₂.inventory.Pins (· = job.requestId) := by
      intro r j hj hlive hne e he
      rw [hshelved.others r hne] at hj
      rw [hinventory]
      exact (pins r j hj hlive id e he).mono rfl fun hkept => hkept
    have hcalm : s₂.Calm := by
      have hcalm₁ := aside.fileCourse.calm calm
      refine Site.Calm.history ?_ packed.founded.sitting.history
      exact ⟨hcalm₁.faultless, hcalm₁.flights⟩
    have hevictions : s₂.evictions = s.evictions :=
      hframe.evictions.trans (Sparing.aside aside).spared
    obtain ⟨more, hmore, hspares⟩ := goesOn.evictions hcalm hpins hstored preparing
    rw [hevictions] at hmore
    exact ⟨goesOn.pins hcalm hpins hstored preparing, more, hmore, hspares⟩

end Jobs

/-! ### Runs -/

/-- The evictions of a step. -/
def Step.evictions (step : Step) (s : Site) : List (FileRecord × Inventory) :=
  (step.take s).evictions.drop s.evictions.length

/-- A depot in which every live job pins its files, and where nothing is refused. -/
structure Site.Pinning (s : Site) : Prop where
  sound : s.Sound
  discreet : s.Discreet
  calm : s.Calm
  pins : s.inventory.Pins fun _ => False

theorem Step.evictions_eq {step : Step} {more : List (FileRecord × Inventory)}
    (h : (step.take s).evictions = s.evictions ++ more) : step.evictions s = more := by
  rw [Step.evictions, h, List.drop_left]

/-- **Every step** keeps files pinned, and its evictions spare the files of all live jobs but one that it
creates; where it creates one, that job is live at each of them, and its first file is spared. -/
theorem Site.Pinning.step (h : s.Pinning) (step : Step) :
    (step.take s).Pinning ∧ ∀ x ∈ step.evictions s,
      Spares (fun r => ∃ mode manifest, step = .create r mode manifest) x ∧
        ∀ r mode manifest, step = .create r mode manifest →
          x.2.jobs.get? r = some (Job.create r mode manifest s.clock.now) ∧
            ∀ e ∈ (Job.create r mode manifest s.clock.now).retrievable.head?, x.1.fileId ≠ e.fileId := by
  have hhistory := Step.history h.sound step
  have hsound := h.sound.history hhistory
  have hdiscreet := h.discreet.history hhistory
  have hcalm := h.calm.history hhistory
  cases hopen : step.reopens with
  | true =>
    cases step with
    | restart settings =>
      obtain ⟨hpins, hnone⟩ : ((Step.restart settings).take s).inventory.Pins (fun _ => False) ∧
          ((Step.restart settings).take s).evictions = s.evictions ++ [] := by
        rw [List.append_nil]
        rcases Step.restarted h.sound.secluded settings with ha | ⟨s₁, ha, hs₁⟩
        · exact ⟨h.pins.course ha.course, (Sparing.aside ha).spared⟩
        · have hpins := h.pins.course ha.course
          rw [hs₁]
          exact ⟨hpins, (Sparing.aside ha).spared⟩
      refine ⟨⟨hsound, hdiscreet, hcalm, hpins⟩, fun x hx => ?_⟩
      rw [Step.evictions_eq hnone] at hx
      cases hx
    | _ => cases hopen
  | false =>
  cases hstep : step.creates with
  | false =>
    have hcourse := Step.course h.sound hstep hopen
    obtain ⟨more, hmore, hspares⟩ := hcourse.evictions h.pins
    refine ⟨⟨hsound, hdiscreet, hcalm, h.pins.course hcourse⟩, fun x hx => ?_⟩
    rw [Step.evictions_eq hmore] at hx
    refine ⟨fun r _ => hspares x hx r id, fun r mode manifest hcreate => ?_⟩
    rw [hcreate] at hstep
    cases hstep
  | true =>
    cases step with
    | create r mode manifest =>
      rcases Step.creation h.sound r mode manifest with ha | hc
      · refine ⟨⟨hsound, hdiscreet, hcalm, h.pins.course ha.course⟩, fun x hx => ?_⟩
        have hnone := (Sparing.aside ha).spared
        rw [← List.append_nil s.evictions] at hnone
        rw [Step.evictions_eq hnone] at hx
        cases hx
      · obtain ⟨hpins, more, hmore, hspares⟩ :=
          hc.pins h.sound.balanced.named h.discreet h.calm h.pins rfl
        refine ⟨⟨hsound, hdiscreet, hcalm, hpins⟩, fun x hx => ?_⟩
        rw [Step.evictions_eq hmore] at hx
        refine ⟨fun r' hr' => (hspares x hx).1 r' ?_, fun r' mode' manifest' hcreate => ?_⟩
        · rintro rfl
          exact hr' ⟨mode, manifest, rfl⟩
        · cases hcreate
          exact (hspares x hx).2
    | _ => cases hstep

theorem Site.Pinning.run (h : s.Pinning) (steps : List Step) : (s.run steps).Pinning := by
  induction steps generalizing s with
  | nil => exact h
  | cons step rest ih => exact ih (h.step step).1

/-- A depot that has just been opened with nothing in it. -/
theorem Site.Opened.pinning (ho : s.Opened) (h : s.Secluded) (fresh : s.inventory = .fresh)
    (faultless : s.Faultless) (discreet : s.Discreet) : s.Pinning := by
  refine ⟨⟨h, ho.balanced (fresh ▸ .fresh)⟩, discreet, ho.calm faultless, fun r j hj => ?_⟩
  rw [fresh] at hj
  cases hj

/-- **Which evictions take a file of a live job.** In every run that begins with nothing, and after which
any step is taken: an eviction of the step takes a file of a live job, as it is stored at that moment,
exactly if the step creates this job and the job lists the file after its first. -/
theorem eviction_takes_live_file_iff (h : s.Secluded) (ho : s.Opened) (fresh : s.inventory = .fresh)
    (faultless : s.Faultless) (discreet : s.Discreet) (steps : List Step) (step : Step)
    {x : FileRecord × Inventory} (evicted : x ∈ step.evictions (s.run steps)) (r : RequestId) :
    x.2.needs r x.1.fileId = true ↔ ∃ mode manifest, step = .create r mode manifest ∧
      ∃ e ∈ (manifest.filter ManifestEntry.isRetrievable).tail, e.fileId = x.1.fileId := by
  have hrun := (ho.pinning h fresh faultless discreet).run steps
  obtain ⟨hspares, hcreates⟩ := (hrun.step step).2 x evicted
  constructor
  · intro hneeds
    by_cases hr : ∃ mode manifest, step = .create r mode manifest
    · obtain ⟨mode, manifest, hcreate⟩ := hr
      obtain ⟨hstored, hfirst⟩ := hcreates r mode manifest hcreate
      obtain ⟨j, hj, -, e, he, hid⟩ := Inventory.needs_eq_true.1 hneeds
      rw [hstored] at hj
      cases hj
      refine ⟨mode, manifest, hcreate, e, ?_, hid⟩
      change e ∈ manifest.filter ManifestEntry.isRetrievable at he
      change ∀ e ∈ (manifest.filter ManifestEntry.isRetrievable).head?, x.1.fileId ≠ e.fileId at hfirst
      cases hentries : manifest.filter ManifestEntry.isRetrievable with
      | nil =>
        rw [hentries] at he
        cases he
      | cons first rest =>
        rw [hentries] at he hfirst
        rcases List.mem_cons.1 he with rfl | he
        · exact absurd hid.symm (hfirst e rfl)
        · exact he
    · rw [hspares r hr] at hneeds
      cases hneeds
  · rintro ⟨mode, manifest, hcreate, e, he, hid⟩
    exact Inventory.needs_eq_true.2
      ⟨_, (hcreates r mode manifest hcreate).1, rfl, e, List.mem_of_mem_tail he, hid⟩

/-- A depot with room for one of two files. -/
def narrowSite : Site :=
  { Site.blank { cacheRoot := "cache", limitKb := 100, keepMs := 0 } with
    supply := { standard := { result := .ok { sizeKb := 60 } } } }

/-- A file is fetched for a job, the job is cancelled, and time passes. -/
def oldFileRun : List Step :=
  [.create ⟨"j"⟩ .web [⟨⟨"old"⟩, .spectrum, none, some 60⟩], .move 0, .move 0, .cancelAll,
    .setClock { hand := 1000 }]

theorem reclaiming_spares_live_jobs :
    (∃ x, x ∈ (Step.reclaim 60).evictions (narrowSite.run oldFileRun)) ∧
      ∀ x ∈ (Step.reclaim 60).evictions (narrowSite.run oldFileRun), ∀ r,
        x.2.needs r x.1.fileId ≠ true := by
  have hsecluded : narrowSite.Secluded := ⟨rfl, rfl, rfl, rfl, rfl⟩
  have hopened : narrowSite.Opened := ⟨rfl, rfl, rfl⟩
  have hdiscreet : narrowSite.Discreet := by
    rintro status ⟨p, id, hp, -⟩
    cases hp
  refine ⟨⟨_, List.getElem_mem (n := 0) (by decide +kernel)⟩, fun x hx r hneeds => ?_⟩
  obtain ⟨mode, manifest, hcreate, -⟩ := (eviction_takes_live_file_iff hsecluded hopened rfl
    (fun _ => rfl) hdiscreet oldFileRun (.reclaim 60) hx r).1 hneeds
  cases hcreate

/-- **A job that is being created may lose a file of its own.** Room for the first of its files is made by
evicting the second. -/
theorem creation_evicts_own_file :
    ¬∀ x ∈ (Step.create ⟨"k"⟩ .web [⟨⟨"new"⟩, .spectrum, none, some 60⟩,
        ⟨⟨"old"⟩, .spectrum, none, some 60⟩]).evictions (narrowSite.run oldFileRun),
      ∀ r, x.2.needs r x.1.fileId = false := by
  have hevicted : ((Step.create ⟨"k"⟩ .web [⟨⟨"new"⟩, .spectrum, none, some 60⟩,
      ⟨⟨"old"⟩, .spectrum, none, some 60⟩]).evictions (narrowSite.run oldFileRun)).any
        (fun x => x.2.needs ⟨"k"⟩ x.1.fileId) = true := by decide +kernel
  obtain ⟨x, hx, hneeds⟩ := List.any_eq_true.1 hevicted
  intro hspares
  rw [hspares x hx ⟨"k"⟩] at hneeds
  cases hneeds

end Depot

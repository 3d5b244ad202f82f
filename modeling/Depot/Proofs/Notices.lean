import Depot.Proofs.Run

/-!
# What is told of jobs

Whoever reads the notices of a job knows where it stands. As long as a job is prepared nothing is told of
it; it is told once that it is ready, with the time until which it is kept; and once how it has ended. What
has been told is exactly what has been stored: a step that cannot be written is not told of, a step that is
skipped neither, and a step that is written is told of before anything else happens.

Warnings are left aside here: they tell of no step.

## Main statements

* `Site.Announced.change` — every change tells what it does.
* `notices_tell_what_happened` — in every run, what was told of a job is what happened to it.

## Honest scope

While it packages the catalogues of a job, the packager may pause it, or have it prepared again; it gives no
job another status.
-/

namespace Depot

open Time

variable {s s' : Site}

/-! ### Notices of a job -/

/-- Whether a job with this status is still prepared, or paused meanwhile. -/
def JobStatus.isOpening : JobStatus → Bool
  | preparing | paused => true
  | ready | error | expired | cancelled => false

/-- The notice of a step of a job that an entry of the log is. -/
def Happening.notice? (r : RequestId) : Happening → Option Notice
  | .told n => if n.request = r ∧ n.status?.isSome then some n else none
  | _ => none

/-- What a log tells of the steps of a job, in order. -/
def noticesOf (r : RequestId) (log : List Happening) : List Notice := log.filterMap (·.notice? r)

theorem noticesOf_append (r : RequestId) (log more : List Happening) :
    noticesOf r (log ++ more) = noticesOf r log ++ noticesOf r more := List.filterMap_append

/-- What gives a job no status is no notice of a step. -/
theorem Happening.notice?_eq_none {r : RequestId} {h : Happening} (quiet : h.status? r = none) :
    h.notice? r = none := by
  cases h with
  | told n =>
    by_cases hr : n.request = r
    · have hnone : n.status? = none := by simpa only [status?, if_pos hr] using quiet
      simp only [notice?, hnone, Option.isSome_none, Bool.false_eq_true, and_false, if_false]
    · simp only [notice?, hr, false_and, if_false]
  | _ => rfl

theorem noticesOf_eq_nil {r : RequestId} {log : List Happening}
    (quiet : ∀ h ∈ log, h.status? r = none) : noticesOf r log = [] :=
  List.filterMap_eq_nil_iff.2 fun h hh => Happening.notice?_eq_none (quiet h hh)

/-- **What must have been told of a job**, by where it stands. -/
def Job.Told (j : Job) (told : List Notice) : Prop :=
  match j.status with
  | .preparing | .paused => j.availableAt = none ∧ told = []
  | .ready => j.availableAt.isSome = true ∧
      ∃ expiry, j.expiresAt = some expiry ∧ told = [.ready j.requestId expiry]
  | .error => ∃ message, j.errorMessage = some message ∧ told = [.failed j.requestId message]
  | .expired => ∃ expiry, j.expiresAt = some expiry ∧
      told = [.ready j.requestId expiry, .expired j.requestId]
  | .cancelled =>
      if j.availableAt.isSome then ∃ expiry, told = [.ready j.requestId expiry, .cancelled j.requestId]
      else told = [.cancelled j.requestId]

namespace Job.Told

variable {j : Job} {told : List Notice}

/-- Nothing is told of a job as long as it is prepared or paused. -/
theorem opening (h : j.Told told) {j' : Job} (available : j'.availableAt = j.availableAt)
    (before : j.status.isOpening = true) (after : j'.status.isOpening = true) : j'.Told told := by
  have hopen : j.availableAt = none ∧ told = [] := by
    cases hj : j.status <;> rw [hj] at before <;> rw [Told, hj] at h
    case preparing | paused => exact h
    all_goals cases before
  rw [← available] at hopen
  cases hj' : j'.status <;> rw [hj'] at after <;> rw [Told, hj']
  case preparing | paused => exact hopen
  all_goals cases after

/-- A live job is cancelled. -/
theorem cancel (h : j.Told told) (live : j.status.isLive = true) (now : Instant) :
    Told { j with
      status := .cancelled
      modifiedAt := now
      expiresAt := some now
      errorMessage := some Jobs.cancelledMessage } (told ++ [.cancelled j.requestId]) := by
  cases hj : j.status <;> rw [hj] at live <;> rw [Told, hj] at h
  case preparing | paused =>
    obtain ⟨havailable, rfl⟩ := h
    simp only [Told, havailable, Option.isSome_none, Bool.false_eq_true, if_false, List.nil_append]
  case ready =>
    obtain ⟨havailable, expiry, -, rfl⟩ := h
    simp only [Told, havailable, if_true, List.singleton_append]
    exact ⟨expiry, rfl⟩
  all_goals cases live

end Job.Told

/-! ### What is announced -/

/-- **What was told of each job is what happened to it**, and of unknown jobs nothing was told. -/
structure Site.Announced (s : Site) : Prop where
  told : ∀ r j, s.inventory.jobs.get? r = some j → j.Told (noticesOf r s.log)
  untold : ∀ r, s.inventory.jobs.get? r = none → noticesOf r s.log = []

namespace Site.Announced

/-- Jobs are left alone, and nothing is told of their steps. -/
theorem quiet (h : s.Announced) {more : List Happening} (jobs : s'.inventory.jobs = s.inventory.jobs)
    (log : s'.log = s.log ++ more) (silent : ∀ e ∈ more, ∀ r, e.status? r = none) : s'.Announced := by
  have hnotices : ∀ r, noticesOf r s'.log = noticesOf r s.log := fun r => by
    rw [log, noticesOf_append, noticesOf_eq_nil fun e he => silent e he r, List.append_nil]
  refine ⟨fun r j hj => ?_, fun r hr => ?_⟩
  · rw [hnotices]
    exact h.told r j (jobs ▸ hj)
  · rw [hnotices]
    exact h.untold r (jobs ▸ hr)

/-- A job is written, of which has been told what must have been told. -/
theorem saved (h : s.Announced) {j : Job} {more : List Happening}
    (told : j.Told (noticesOf j.requestId (s.log ++ more)))
    (others : ∀ e ∈ more, ∀ r, r ≠ j.requestId → e.status? r = none) :
    { s with inventory := s.inventory.saveJob j, log := s.log ++ more }.Announced := by
  have hothers : ∀ r, r ≠ j.requestId → noticesOf r (s.log ++ more) = noticesOf r s.log := fun r hr => by
    rw [noticesOf_append, noticesOf_eq_nil fun e he => others e he r hr, List.append_nil]
  refine ⟨fun r k hk => ?_, fun r hr => ?_⟩
  · dsimp only at hk ⊢
    rw [Inventory.get?_saveJob] at hk
    split at hk
    · next hr =>
      cases hk
      rw [hr]
      exact told
    · next hr =>
      rw [hothers r hr]
      exact h.told r k hk
  · dsimp only at hr ⊢
    rw [Inventory.get?_saveJob] at hr
    split at hr
    · cases hr
    · next hne =>
      rw [hothers r hne]
      exact h.untold r hr

/-- A job takes a step, and the notice of it is delivered. -/
theorem notified (h : s.Announced) {j j' : Job} (n : Notice)
    (kept : s.inventory.jobs.get? j.requestId = some j) (id : j'.requestId = j.requestId)
    (about : n.request = j.requestId) (step : n.status?.isSome = true)
    (told : ∀ told, j.Told told → j'.Told (told ++ [n])) :
    { s with inventory := s.inventory.saveJob j', log := s.log ++ [Happening.told n] }.Announced := by
  refine h.saved ?_ fun e he r hr => ?_
  · have hnotice : noticesOf j'.requestId [.told n] = [n] := by
      rw [id, ← about]
      exact List.filterMap_cons_some (if_pos ⟨rfl, step⟩)
    rw [noticesOf_append, hnotice, id]
    exact told _ (h.told _ j kept)
  · rw [List.mem_singleton.1 he]
    exact if_neg fun heq => hr (heq.symm.trans (about.trans id.symm))

/-- A job is paused or prepared again, of which nothing is told. -/
theorem administered (h : s.Announced) {j : Job} {next : JobStatus}
    (kept : s.inventory.jobs.get? j.requestId = some j) (allowed : j.status.canBecome next = true)
    (either : next = .paused ∨ next = .preparing) :
    { s with
      inventory := s.inventory.saveJob { j with status := next, modifiedAt := s.clock.now }
      log := s.log ++ [Happening.ordered j.requestId next] }.Announced := by
  have hbefore : j.status.isOpening = true := by
    rcases either with rfl | rfl
    · rw [JobStatus.eq_preparing_of_canBecome allowed]
      rfl
    · rw [JobStatus.eq_paused_of_canBecome allowed]
      rfl
  have hafter : next.isOpening = true := by rcases either with rfl | rfl <;> rfl
  refine h.saved ?_ fun e he r hr => ?_
  · rw [noticesOf_append]
    rw [show noticesOf j.requestId [.ordered j.requestId next] = [] from rfl, List.append_nil]
    exact (h.told _ j kept).opening rfl hbefore hafter
  · rw [List.mem_singleton.1 he]
    exact if_neg hr.symm

/-- **Every change of a job** tells what it does. -/
theorem jobChange (h : s.Announced) (c : JobChange s s') : s'.Announced := by
  cases c with
  | administered next kept allowed either => exact h.administered kept allowed either
  | @failed j message kept preparing =>
    refine h.notified (.failed j.requestId message) kept rfl rfl rfl fun told hj => ?_
    rw [Job.Told, preparing] at hj
    rw [hj.2]
    exact ⟨message, rfl, rfl⟩
  | @readied j expiry kept preparing =>
    refine h.notified (.ready j.requestId expiry) kept rfl rfl rfl fun told hj => ?_
    rw [Job.Told, preparing] at hj
    rw [hj.2]
    exact ⟨rfl, expiry, rfl, rfl⟩
  | @expired j kept ready =>
    refine h.notified (.expired j.requestId) kept rfl rfl rfl fun told hj => ?_
    rw [Job.Told, ready] at hj
    obtain ⟨-, expiry, hexpiry, rfl⟩ := hj
    exact ⟨expiry, hexpiry, rfl⟩
  | @cancelled j kept live =>
    refine h.notified (.cancelled j.requestId) kept rfl rfl rfl fun told hj => ?_
    exact hj.cancel live s.clock.now

/-- **Every change** tells what it does. -/
theorem change (h : s.Announced) (c : Change s s') : s'.Announced := by
  rcases c.job_or_quiet with c | ⟨hjobs, more, hlog, hquiet⟩
  · exact h.jobChange c
  · exact h.quiet hjobs hlog hquiet

theorem course (h : s.Announced) (c : Course s s') : s'.Announced := by
  induction c with
  | refl => exact h
  | tail _ c ih => exact ih.change c

end Site.Announced

/-! ### Creation -/

/-- The packager gives a job no status but that of one that is prepared or paused. -/
def Site.OnlyPauses (s : Site) : Prop := ∀ status, s.Interferes status → status.isOpening = true

theorem Site.OnlyPauses.history (h : s.OnlyPauses) (c : History s s') : s'.OnlyPauses :=
  fun status hmeddles => h status (hmeddles.history c)

/-- A job is stored that is prepared or paused. -/
def Inventory.Opens (v : Inventory) (r : RequestId) : Prop :=
  ∃ j, v.jobs.get? r = some j ∧ j.status.isOpening = true

namespace Jobs

/-- While a catalogue is packaged nothing is told, and its job is prepared or paused as before. -/
theorem Package.announced {r : RequestId} {id : FileId} {ok : Bool} (c : Package r id ok s s')
    (hn : s.inventory.Named) (pauses : s.OnlyPauses) (opens : s.inventory.Opens r) (h : s.Announced) :
    s'.inventory.Opens r ∧ s'.Announced := by
  cases c with
  | nobody => exact ⟨opens, h⟩
  | tried =>
    refine ⟨opens, h.quiet rfl rfl fun e he r' => ?_⟩
    rw [List.mem_singleton.1 he]
    rfl
  | @meddled s p status present loud =>
    obtain ⟨j, hj, hopening⟩ := opens
    have hstatus := pauses status ⟨p, id, present, loud⟩
    have hid : j.requestId = r := hn.jobs r j hj
    subst hid
    simp only [Inventory.overwriteStatus, hj]
    refine ⟨⟨_, Inventory.get?_saveJob_self .., hstatus⟩, h.saved ?_ fun e he r' _ => ?_⟩
    · rw [noticesOf_append, show noticesOf _ [Happening.packaged _ id _] = [] from rfl, List.append_nil]
      exact (h.told _ j hj).opening rfl hopening hstatus
    · rw [List.mem_singleton.1 he]
      rfl

theorem Packed.announced {r : RequestId} {l : List ManifestEntry} {lost : Option FileId}
    (c : Packed r l lost s s') (hn : s.inventory.Named) (pauses : s.OnlyPauses)
    (opens : s.inventory.Opens r) (h : s.Announced) : s'.Announced := by
  induction c with
  | all => exact h
  | next first _ ih =>
    obtain ⟨hopens, hannounced⟩ := first.announced hn pauses opens h
    exact ih (first.founded.frame hn).named (pauses.history first.founded.sitting.history) hopens hannounced
  | lost first => exact (first.announced hn pauses opens h).2

/-- **The creation of a job** tells what becomes of it. -/
theorem Creation.announced {r : RequestId} {mode : DownloadMode} {manifest : List ManifestEntry}
    {answer : Except Failure Job} (c : Creation (Job.create r mode manifest s.clock.now) answer s s')
    (hn : s.inventory.Named) (pauses : s.OnlyPauses) (h : s.Announced) : s'.Announced := by
  cases c with
  | @intro s₁ s₂ s₃ lost unknown aside packed goesOn =>
    have hpauses : s₁.OnlyPauses := pauses.history aside.course.history
    have hn₁ : s₁.inventory.Named := by
      rw [jobs_aside aside]
      exact hn
    have hunknown : s₁.inventory.jobs.get? r = none := by
      rw [jobs_aside aside]
      exact unknown
    generalize hjob : Job.create r mode manifest s.clock.now = job at packed goesOn
    have hcreated : { s₁ with inventory := s₁.inventory.saveJob job, log := s₁.log ++ [] }.Announced := by
      refine (h.course aside.course).saved ?_ fun e he => by cases he
      subst hjob
      rw [List.append_nil]
      exact ⟨rfl, (h.course aside.course).untold r hunknown⟩
    rw [List.append_nil] at hcreated
    have hpacked : s₂.Announced := by
      refine packed.announced (hn₁.saveJob job) hpauses ⟨job, Inventory.get?_saveJob_self .., ?_⟩ hcreated
      rw [← hjob]
      rfl
    exact hpacked.course (goesOn.asked.course.trans goesOn.ended.course)

end Jobs

/-! ### Runs -/

/-- **The notices tell what happened.** In every run that begins with a depot just opened, with nothing in
it, whichever calls are refused, wherever the clock is set and however often the depot is opened again: what
has been told of a job that is stored, warnings apart, is exactly and in order what must have been told of
it by where it stands; and nothing has been told of others. -/
theorem notices_tell_what_happened (h : s.Secluded) (pauses : s.OnlyPauses) (ho : s.Opened)
    (fresh : s.inventory = .fresh) (silent : s.log = []) (steps : List Step) (r : RequestId) :
    match (s.run steps).inventory.jobs.get? r with
    | some j => j.requestId = r ∧ j.Told (noticesOf r (s.run steps).log)
    | none => noticesOf r (s.run steps).log = [] := by
  have hsound : s.Sound := ⟨h, ho.balanced (fresh ▸ .fresh)⟩
  have hstart : s.OnlyPauses ∧ s.Announced := by
    refine ⟨pauses, fun r j hj => ?_, fun r _ => by rw [silent]; rfl⟩
    rw [fresh] at hj
    cases hj
  obtain ⟨-, hannounced⟩ : (s.run steps).OnlyPauses ∧ (s.run steps).Announced := by
    refine @Site.run_induction_of_creation s (fun s => s.OnlyPauses ∧ s.Announced) (fun _ => True)
      ?_ ?_ ?_ hsound hstart steps fun _ _ => trivial
    · intro s s' _ c hp
      exact ⟨hp.1.history (.single (.deed (.change c))), hp.2.change c⟩
    · intro s s' r mode manifest answer hs c hp
      exact ⟨hp.1.history c.sitting.history, c.announced hs.balanced.named hp.1 hp.2⟩
    · exact fun _ _ hp => ⟨hp.1, hp.2.told, hp.2.untold⟩
  cases hj : (s.run steps).inventory.jobs.get? r with
  | none => exact hannounced.untold r hj
  | some j =>
    have hn := (hsound.history (Site.run_history hsound steps)).balanced.named
    exact ⟨hn.jobs r j hj, hannounced.told r j hj⟩

/-- A depot where the second writing of a job is refused. -/
def reluctantSite : Site :=
  { Site.blank { cacheRoot := "cache" } with
    faults := fun fault => if fault = .refuse .saveJob then [⟨1, false⟩, ⟨1, true⟩] else [] }

/-- A job without files is not made ready at once, for that is refused; a sweep makes it ready, and another
lets it expire, after the depot has been opened again. -/
def expiredJobRun : List Step :=
  [.create ⟨"j"⟩ .web [], .poll, .restart { cacheRoot := "cache" }, .setClock { hand := 604800000 }, .poll]

theorem notices_of_expired_job :
    ∃ expiry, noticesOf ⟨"j"⟩ (reluctantSite.run expiredJobRun).log =
      [.ready ⟨"j"⟩ expiry, .expired ⟨"j"⟩] := by
  have hexpired : ((reluctantSite.run expiredJobRun).inventory.jobs.get? ⟨"j"⟩).map Job.status =
      some .expired := by decide +kernel
  obtain ⟨j, hj, hstatus⟩ := Option.map_eq_some_iff.1 hexpired
  have hpauses : reluctantSite.OnlyPauses := by
    rintro status ⟨p, id, hp, -⟩
    cases hp
  have htold := notices_tell_what_happened (s := reluctantSite) ⟨rfl, rfl, rfl, rfl, rfl⟩ hpauses
    ⟨rfl, rfl, rfl⟩ rfl rfl expiredJobRun ⟨"j"⟩
  rw [hj] at htold
  obtain ⟨hid, htold⟩ := htold
  rw [Job.Told, hstatus, hid] at htold
  obtain ⟨expiry, -, hnotices⟩ := htold
  exact ⟨expiry, hnotices⟩

end Depot

import Depot.Proofs.Lifecycle
import Depot.Proofs.Run

/-!
# Coherent jobs

The fields of a job always agree with its status, and its status has come about step by step along the
life cycle: the log tells each status that the job was given, and these form a path from its preparation
to where it stands. Its name, its time of creation, its mode and its manifest stay, and when it has ended
nothing of it changes any more.

Refused calls do no harm: a job is written as a whole or not at all, and it is told of only when it has
been written.

## Main statements

* `Site.Recorded.deed` — whatever happens, jobs stay coherent, and the log tells how they came to stand
  where they stand.
* `History.jobsGoOn` — nothing that has ended changes.
* `jobs_stay_coherent` — all of that, in every run.

## Honest scope

The packager leaves jobs alone. However often the depot is opened again, ready jobs of the same mode are
kept for the same time.
-/

namespace Depot

variable {s s' : Site}

/-! ### The path of a job -/

/-- The statuses that a job has been given, as a log tells. -/
def statusesOf (r : RequestId) (log : List Happening) : List JobStatus := log.filterMap (·.status? r)

theorem statusesOf_append (r : RequestId) (log more : List Happening) :
    statusesOf r (log ++ more) = statusesOf r log ++ statusesOf r more := List.filterMap_append

/-- A new job that was given these statuses took a step of the life cycle each time, and has the last. -/
structure JobStatus.Reached (given : List JobStatus) (status : JobStatus) : Prop where
  path : (preparing :: given).IsChain fun a b => a.canBecome b = true
  last : (preparing :: given).getLast? = some status

namespace JobStatus.Reached

theorem nil : Reached [] preparing := ⟨.singleton _, rfl⟩

theorem snoc {given : List JobStatus} {status next : JobStatus} (h : Reached given status)
    (allowed : status.canBecome next = true) : Reached (given ++ [next]) next := by
  constructor
  · rw [← List.cons_append, List.isChain_append]
    refine ⟨h.path, .singleton next, fun a ha b hb => ?_⟩
    rw [h.last] at ha
    cases ha
    cases hb
    exact allowed
  · rw [← List.cons_append, List.getLast?_append]
    rfl

end JobStatus.Reached

/-! ### What is recorded -/

/-- **Jobs are coherent**, the log tells how each of them came to stand where it stands, and tells nothing
of those that are unknown. -/
structure Site.Recorded (ttl : DownloadMode → Int) (s : Site) : Prop where
  settings : s.settings.ttlMs = ttl
  coherent : ∀ r j, s.inventory.jobs.get? r = some j → j.Coherent ttl
  reached : ∀ r j, s.inventory.jobs.get? r = some j → JobStatus.Reached (statusesOf r s.log) j.status
  unknown : ∀ r, s.inventory.jobs.get? r = none → statusesOf r s.log = []

namespace Site.Recorded

variable {ttl : DownloadMode → Int}

/-- What gives no job another status, as the log tells, and leaves jobs as they are. -/
theorem quiet (h : s.Recorded ttl) {more : List Happening} (settings : s'.settings = s.settings)
    (jobs : s'.inventory.jobs = s.inventory.jobs) (log : s'.log = s.log ++ more)
    (silent : ∀ r, statusesOf r more = []) : s'.Recorded ttl := by
  have hstatuses : ∀ r, statusesOf r s'.log = statusesOf r s.log := fun r => by
    rw [log, statusesOf_append, silent, List.append_nil]
  refine ⟨settings ▸ h.settings, fun r j hj => ?_, fun r j hj => ?_, fun r hr => ?_⟩
  · exact h.coherent r j (jobs ▸ hj)
  · rw [hstatuses]
    exact h.reached r j (jobs ▸ hj)
  · rw [hstatuses]
    exact h.unknown r (jobs ▸ hr)

/-- One job is written, whose status has been reached as the log tells now. -/
theorem saved (h : s.Recorded ttl) {r : RequestId} {j : Job} (settings : s'.settings = s.settings)
    (found : ∀ r', s'.inventory.jobs.get? r' = if r' = r then some j else s.inventory.jobs.get? r')
    (coherent : j.Coherent ttl) (reached : JobStatus.Reached (statusesOf r s'.log) j.status)
    (others : ∀ r', r' ≠ r → statusesOf r' s'.log = statusesOf r' s.log) : s'.Recorded ttl := by
  refine ⟨settings ▸ h.settings, fun r' k hk => ?_, fun r' k hk => ?_, fun r' hr' => ?_⟩
  · rw [found] at hk
    split at hk
    · cases hk
      exact coherent
    · exact h.coherent r' k hk
  · rw [found] at hk
    split at hk
    · next hr =>
      cases hk
      rw [hr]
      exact reached
    · next hr =>
      rw [others r' hr]
      exact h.reached r' k hk
  · rw [found] at hr'
    split at hr'
    · cases hr'
    · next hr =>
      rw [others r' hr]
      exact h.unknown r' hr'

/-- A job takes a step of its life cycle. -/
theorem enters (h : s.Recorded ttl) {j j' : Job} {entry : Happening} (e : Enters s s' j j' entry)
    (settings : s'.settings = s.settings) : s'.Recorded ttl := by
  refine h.saved settings e.get? ?_ ?_ fun r hr => ?_
  · rw [← h.settings]
    exact e.coherent (h.settings ▸ h.coherent _ j e.kept)
  · have hstatuses : statusesOf j.requestId s'.log = statusesOf j.requestId s.log ++ [j'.status] := by
      rw [e.logged, statusesOf_append]
      simp only [statusesOf, List.filterMap_cons, e.told, List.filterMap_nil]
    rw [hstatuses]
    exact (h.reached _ j e.kept).snoc e.allowed
  · rw [e.logged, statusesOf_append]
    simp only [statusesOf, List.filterMap_cons, e.ofOthers r hr, List.filterMap_nil, List.append_nil]

/-- A job is created, of which the log told nothing. -/
theorem created (h : s.Recorded ttl) {r : RequestId} (mode : DownloadMode) (manifest : List ManifestEntry)
    (unknown : s.inventory.jobs.get? r = none) :
    { s with inventory := s.inventory.saveJob (Job.create r mode manifest s.clock.now) }.Recorded ttl := by
  refine h.saved rfl (fun r' => Inventory.get?_saveJob _ _ r') (.create r mode manifest s.clock.now) ?_
    fun _ _ => rfl
  dsimp only [Job.create]
  rw [h.unknown r unknown]
  exact .nil

theorem change (h : s.Recorded ttl) (c : Change s s') : s'.Recorded ttl := by
  have hsettings := Deed.settings (.change c)
  rcases c.job_or_quiet with c | ⟨hjobs, more, hlog, hquiet⟩
  · obtain ⟨j, j', entry, e⟩ := c.enters
    exact h.enters e hsettings
  · exact h.quiet hsettings hjobs hlog fun r =>
      List.filterMap_eq_nil_iff.2 fun entry hentry => hquiet entry hentry r

/-- **Whatever happens**, jobs stay coherent, and the log tells how they came to stand where they stand. -/
theorem deed (h : s.Recorded ttl) (discreet : s.Discreet) (d : Deed s s') : s'.Recorded ttl := by
  cases d with
  | change c => exact h.change c
  | founding r c =>
    cases c with
    | created mode manifest unknown => exact h.created mode manifest unknown
    | packaged => exact h.quiet rfl rfl rfl fun _ => rfl
    | overwritten status meddled => exact absurd meddled (discreet status)

theorem reopen (h : s.Recorded ttl) {settings : Settings} (same : settings.ttlMs = ttl) :
    (s.reopen settings).Recorded ttl := ⟨same, h.coherent, h.reached, h.unknown⟩

end Site.Recorded

/-! ### What has ended -/

/-- All jobs go on. -/
def Inventory.JobsGoOn (v v' : Inventory) : Prop :=
  ∀ r j, v.jobs.get? r = some j → ∃ j', v'.jobs.get? r = some j' ∧ j.GoesOn j'

namespace Inventory.JobsGoOn

theorem of_eq {v v' : Inventory} (h : v'.jobs = v.jobs) : v.JobsGoOn v' :=
  fun _ j hj => ⟨j, h ▸ hj, .refl j⟩

theorem trans {v v' v'' : Inventory} (h : v.JobsGoOn v') (h' : v'.JobsGoOn v'') : v.JobsGoOn v'' := by
  intro r j hj
  obtain ⟨j', hj', hgoes⟩ := h r j hj
  obtain ⟨j'', hj'', hgoes'⟩ := h' r j' hj'
  exact ⟨j'', hj'', hgoes.trans hgoes'⟩

end Inventory.JobsGoOn

theorem Enters.jobsGoOn {j j' : Job} {entry : Happening} (e : Enters s s' j j' entry) :
    s.inventory.JobsGoOn s'.inventory := by
  intro r k hk
  rw [e.get?]
  split
  · next hr =>
    rw [hr, e.kept] at hk
    cases hk
    exact ⟨j', rfl, e.goesOn⟩
  · exact ⟨k, hk, .refl k⟩

/-- No deed changes what has ended. -/
theorem Deed.jobsGoOn (d : Deed s s') (discreet : s.Discreet) : s.inventory.JobsGoOn s'.inventory := by
  cases d with
  | change c =>
    cases c with
    | file c => exact .of_eq (FileCourse.frame (.single c)).jobs
    | transfer c => cases c <;> exact .of_eq rfl
    | job c =>
      obtain ⟨_, _, _, e⟩ := c.enters
      exact e.jobsGoOn
    | warned | told | clocked | duties | spoiled => exact .of_eq rfl
  | founding r c =>
    cases c with
    | created mode manifest unknown =>
      intro r' k hk
      have hne : r' ≠ r := by
        rintro rfl
        rw [unknown] at hk
        cases hk
      exact ⟨k, (Inventory.get?_saveJob_of_ne _ hne).trans hk, .refl k⟩
    | packaged => exact .of_eq rfl
    | overwritten status meddled => exact absurd meddled (discreet status)

/-- **Nothing that has ended changes**, and a job keeps its name, its time of creation, its mode and its
manifest. -/
theorem History.jobsGoOn (c : History s s') (discreet : s.Discreet) :
    s.inventory.JobsGoOn s'.inventory := by
  induction c with
  | refl => exact .of_eq rfl
  | tail hc e ih =>
    cases e with
    | deed d => exact ih.trans (d.jobsGoOn (discreet.history hc))
    | reopened => exact ih

/-! ### Runs -/

/-- **Jobs stay coherent.** In every run that begins with a depot just opened, with nothing in it, whichever
calls are refused and wherever the clock is set, where ready jobs are kept for the same time however often
the depot is opened again. The fields of each job agree with its status. The statuses that it was given, as
the log tells, form a path along the life cycle from its preparation to where it stands. And whatever comes
after: its name, its time of creation, its mode and its manifest stay, and if it has ended, it is the same in
every field. -/
theorem jobs_stay_coherent (h : s.Secluded) (discreet : s.Discreet) (ho : s.Opened)
    (fresh : s.inventory = .fresh) (silent : s.log = []) (steps more : List Step)
    (same : ∀ settings, .restart settings ∈ steps → settings.ttlMs = s.settings.ttlMs)
    {r : RequestId} {j : Job} (kept : (s.run steps).inventory.jobs.get? r = some j) :
    j.Coherent s.settings.ttlMs ∧
    ((.preparing :: statusesOf r (s.run steps).log).IsChain (fun a b => a.canBecome b = true) ∧
      (.preparing :: statusesOf r (s.run steps).log).getLast? = some j.status) ∧
    ∃ j', (s.run (steps ++ more)).inventory.jobs.get? r = some j' ∧ j'.requestId = j.requestId ∧
      j'.createdAt = j.createdAt ∧ j'.mode = j.mode ∧ j'.manifest = j.manifest ∧
      (j.status.isTerminal = true → j' = j) := by
  have hsound : s.Sound := ⟨h, ho.balanced (fresh ▸ .fresh)⟩
  have hstart : s.Discreet ∧ s.Recorded s.settings.ttlMs := by
    refine ⟨discreet, rfl, fun r j hj => ?_, fun r j hj => ?_, fun r _ => by rw [silent]; rfl⟩
    all_goals
      rw [fresh] at hj
      cases hj
  obtain ⟨hdiscreet, hrecorded⟩ : (s.run steps).Discreet ∧ (s.run steps).Recorded s.settings.ttlMs :=
    Site.run_induction (P := fun s' => s'.Discreet ∧ s'.Recorded s.settings.ttlMs)
      (fun _ d hp => ⟨hp.1.history (.single (.deed d)), hp.2.deed hp.1 d⟩)
      (fun _ hsame hp => ⟨hp.1, hp.2.reopen hsame⟩) hsound hstart steps same
  have hreached := hrecorded.reached r j kept
  have hrun := Site.run_history hsound steps
  have hmore := Site.run_history (hsound.history hrun) more
  obtain ⟨j', hj', hgoes⟩ := hmore.jobsGoOn hdiscreet r j kept
  refine ⟨hrecorded.coherent r j kept, ⟨hreached.path, hreached.last⟩, j', ?_, hgoes.requestId,
    hgoes.createdAt, hgoes.mode, hgoes.manifest, hgoes.ended⟩
  rw [Site.run_append]
  exact hj'

/-- A job without files is ready at once; the depot is opened again, and the job is cancelled. -/
def cancelledJobRun : List Step :=
  [.create ⟨"j"⟩ .web [], .restart { cacheRoot := "cache" }, .cancelAll]

theorem cancelled_job_stays :
    let s := Site.blank { cacheRoot := "cache" }
    ∃ j, (s.run cancelledJobRun).inventory.jobs.get? ⟨"j"⟩ = some j ∧ j.status = .cancelled ∧
      j.expiresAt = some j.modifiedAt ∧
      (s.run (cancelledJobRun ++ [.setClock { hand := 5 }, .resume ⟨"j"⟩, .poll])).inventory.jobs.get?
        ⟨"j"⟩ = some j := by
  intro s
  have hcancelled : ((s.run cancelledJobRun).inventory.jobs.get? ⟨"j"⟩).map Job.status =
      some .cancelled := by decide +kernel
  obtain ⟨j, hj, hstatus⟩ := Option.map_eq_some_iff.1 hcancelled
  have hdiscreet : s.Discreet := by
    rintro status ⟨p, id, hp, -⟩
    cases hp
  have hsame : ∀ settings, .restart settings ∈ cancelledJobRun → settings.ttlMs = s.settings.ttlMs := by
    intro settings hmem
    simp only [cancelledJobRun, List.mem_cons, reduceCtorEq, Step.restart.injEq, List.not_mem_nil,
      or_false, false_or] at hmem
    rw [hmem]
    rfl
  obtain ⟨hcoherent, -, j', hj', -, -, -, -, hended⟩ :=
    jobs_stay_coherent (s := s) (Site.secluded_blank _) hdiscreet (Site.opened_blank _) rfl rfl
      cancelledJobRun [.setClock { hand := 5 }, .resume ⟨"j"⟩, .poll] hsame hj
  rw [Job.Coherent, hstatus] at hcoherent
  rw [hended (by rw [hstatus]; rfl)] at hj'
  exact ⟨j, hj, hstatus, hcoherent.1, hj'⟩

end Depot

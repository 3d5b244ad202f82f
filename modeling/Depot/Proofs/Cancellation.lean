import Depot.Proofs.Expiry

/-!
# Cancelling all jobs

When the depot is cleared, every live job is cancelled whose time is not over. The jobs are listed once, and each is
written as it was listed: that is as it is kept, for nothing comes between. So it can be said exactly which jobs are
cancelled, in what order their notices are delivered, and that nothing else is changed.

A live job whose time is over is left to the next sweep. If no job that is still prepared or paused has an expiry, as
is so in every depot that has only been used through its own operations, the sweep lets all of these expire.

## Main statements

* `Jobs.leads_cancelAll_iff` — what comes of cancelling all jobs.
* `unexpired_jobs_are_cancelled_once` — which jobs are cancelled, and that nothing is left to do after that.
-/

namespace Depot

open Act Time

variable {s s' : Site} {E : Failure → Site → Prop}

/-! ### Cancelled jobs -/

/-- A job that has been cancelled, as it is written. -/
def Job.cancelledAt (j : Job) (time : Instant) : Job :=
  { j with
    status := .cancelled
    modifiedAt := time
    expiresAt := some time
    errorMessage := some Jobs.cancelledMessage }

theorem Job.requestId_cancelledAt (j : Job) (time : Instant) : (j.cancelledAt time).requestId = j.requestId :=
  rfl

/-- A depot when the jobs of a list have been cancelled. -/
def Site.cancelEach (time : Instant) (s : Site) (l : List Job) : Site :=
  s.amendEach (fun j => j.cancelledAt time) (fun j => .cancelled j.requestId) l

/-- The live jobs whose time is not over, in the order in which they are cancelled. -/
def Site.activeJobs (s : Site) : List Job :=
  (s.inventory.unexpiredAt s.clock.now).filter fun j => j.status.isLive

theorem JobStatus.isLive_iff {status : JobStatus} :
    status.isLive = true ↔ status = .preparing ∨ status = .paused ∨ status = .ready := by
  cases status <;> decide

theorem Job.isExpiredAt_eq_false {j : Job} {time : Instant} :
    j.isExpiredAt time = false ↔ ∀ e, j.expiresAt = some e → time < e := by
  unfold isExpiredAt
  cases j.expiresAt with
  | none => simp
  | some e =>
    simp only [decide_eq_false_iff_not, Option.some.injEq, forall_eq']
    exact Int.not_le

namespace Site

theorem listsJobs_activeJobs (hn : s.inventory.Named) : s.ListsJobs s.activeJobs := by
  have hl := hn.listsJobs (fun j => !j.isExpiredAt s.clock.now) Inventory.creationOrder
  exact ⟨hl.nodup.sublist (List.filter_sublist.map _), fun j hj => hl.kept j (List.mem_of_mem_filter hj)⟩

/-- **The jobs that are cancelled** are kept and live, and their time is not over. -/
theorem mem_activeJobs (hn : s.inventory.Named) {j : Job} :
    j ∈ s.activeJobs ↔ s.inventory.jobs.get? j.requestId = some j ∧ j.status.isLive = true ∧
      ∀ e, j.expiresAt = some e → s.clock.now < e := by
  rw [activeJobs, List.mem_filter, Inventory.mem_unexpiredAt, Job.isExpiredAt_eq_false, Table.mem_values]
  constructor
  · rintro ⟨⟨⟨r, hr⟩, hlasts⟩, hlive⟩
    exact ⟨hn.jobs r j hr ▸ hr, hlive, hlasts⟩
  · rintro ⟨hkept, hlive, hlasts⟩
    exact ⟨⟨⟨_, hkept⟩, hlasts⟩, hlive⟩

/-- They go one after the other: none comes at the same place as another. -/
theorem pairwise_activeJobs (hn : s.inventory.Named) :
    s.activeJobs.Pairwise fun i j => Inventory.creationOrder i j = .lt := by
  have hordered : s.activeJobs.Pairwise fun i j => (Inventory.creationOrder i j).isLE :=
    (pairwise_sortBy _).sublist List.filter_sublist
  refine pairwise_lt_of_nodup hordered (listsJobs_activeJobs hn).nodup fun i j hij => ?_
  have hid : compareOn Job.requestId i j = .eq := (compareLex_eq_eq.1 hij).2
  exact Std.LawfulEqOrd.eq_of_compare hid

end Site

/-! ### Following a cancellation -/

theorem Records.leads_findUnexpired_of_quiet (h : s.Quiet) (time : Instant) {Q : List Job → Site → Prop} :
    Leads (findUnexpired time) E Q s ↔ Q (s.inventory.unexpiredAt time) s :=
  leads_read_of_quiet h .findUnexpired (·.unexpiredAt time)

namespace Jobs

/-- The live jobs of a list are cancelled, one after the other. -/
theorem leads_cancelAmong_iff (time : Instant) : ∀ (l : List Job) {s : Site}, s.Quiet →
    ∀ {Q : Nat → Site → Prop}, (Leads (cancelAmong time l) E Q s ↔
      Q (l.filter fun j => j.status.isLive).length
        (s.cancelEach time (l.filter fun j => j.status.isLive)))
  | [], s, h, Q => by
    rw [cancelAmong, leads_pure]
    rfl
  | job :: rest, s, h, Q => by
    rw [cancelAmong]
    cases hlive : job.status.isLive with
    | false =>
      rw [Bool.not_false, if_pos rfl, List.filter_cons_of_neg (by rw [hlive]; decide)]
      exact leads_cancelAmong_iff time rest h
    | true =>
      have hlisted : (job :: rest).filter (fun j => j.status.isLive) =
          job :: rest.filter fun j => j.status.isLive := List.filter_cons_of_pos hlive
      have hamended : (s.amend (fun j => j.cancelledAt time) (fun j => .cancelled j.requestId) job).Quiet :=
        h.of_same rfl rfl rfl
      have hrest := leads_cancelAmong_iff time rest hamended (Q := fun n => Q (n + 1))
      have hmoves := JobStatus.canBecome_cancelled hlive
      rw [Bool.not_true, if_neg Bool.false_ne_true, hlisted, leads_bind, leads_move, hmoves]
      simp only [leads_bind, leads_pure, forall_true_left, Bool.true_eq_false, false_implies, and_true]
      rw [leads_saveJob_tell_of_quiet h]
      exact hrest

/-- **What comes of cancelling all jobs.** -/
theorem leads_cancelAll_iff (h : s.Quiet) {Q : Nat → Site → Prop} :
    Leads cancelAll E Q s ↔ Q s.activeJobs.length (s.cancelEach s.clock.now s.activeJobs) := by
  simp only [cancelAll, leads_bind, leads_now]
  rw [Records.leads_findUnexpired_of_quiet h, leads_cancelAmong_iff _ _ h, Site.activeJobs]

/-- Where no job is being prepared a sweep begins with nothing to do. -/
theorem leads_advancePreparing_of_none (h : s.Quiet) (none : s.inventory.jobsWithStatus .preparing = [])
    {Q : Report → Site → Prop} : Leads advancePreparing E Q s ↔ Q {} s := by
  rw [advancePreparing, leads_bind, Records.leads_findByStatus_of_quiet h, none, advanceAll, leads_pure]

end Jobs

/-! ### After a cancellation -/

namespace Site

/-- Jobs are cancelled that are active, and no others. -/
theorem get?_cancelEach (hn : s.inventory.Named) (r : RequestId) :
    (s.cancelEach s.clock.now s.activeJobs).inventory.jobs.get? r =
      (s.inventory.jobs.get? r).map fun j =>
        if j ∈ s.activeJobs then j.cancelledAt s.clock.now else j :=
  get?_amendEach (fun j => j.requestId_cancelledAt _) hn (listsJobs_activeJobs hn) r

/-- **A job that is live after all were cancelled** is as it was, and its time is over. -/
theorem over_of_live (hn : s.inventory.Named) {r : RequestId} {j : Job}
    (kept : (s.cancelEach s.clock.now s.activeJobs).inventory.jobs.get? r = some j)
    (live : j.status.isLive = true) :
    s.inventory.jobs.get? r = some j ∧ ∃ e, j.expiresAt = some e ∧ e ≤ s.clock.now := by
  rw [get?_cancelEach hn, Option.map_eq_some_iff] at kept
  obtain ⟨j₀, hj₀, hsame⟩ := kept
  split at hsame
  · rw [← hsame] at live
    cases live
  next hnot =>
  subst hsame
  refine ⟨hj₀, Job.isExpiredAt_eq_true.1 ?_⟩
  rw [← Bool.not_eq_false, Job.isExpiredAt_eq_false]
  intro hlasts
  exact hnot ((mem_activeJobs hn).2 ⟨hn.jobs r j₀ hj₀ ▸ hj₀, live, hlasts⟩)

/-- Nothing is left to cancel, at that time or later. -/
theorem activeJobs_cancelEach (hn : s.inventory.Named) {c : Clock} (later : s.clock.now ≤ c.now) :
    ({ s.cancelEach s.clock.now s.activeJobs with clock := c } : Site).activeJobs = [] := by
  have hnamed : ({ s.cancelEach s.clock.now s.activeJobs with clock := c } : Site).inventory.Named :=
    hn.amendEach _
  refine List.eq_nil_iff_forall_not_mem.2 fun j hj => ?_
  obtain ⟨hkept, hlive, hlasts⟩ := (mem_activeJobs hnamed).1 hj
  obtain ⟨-, e, he, hover⟩ := over_of_live hn hkept hlive
  exact absurd (hlasts e he) (Int.not_lt.2 (Int.le_trans hover later))

end Site

namespace Jobs

/-- **A sweep with nothing to prepare lets every ready job expire whose time is over**, and changes no other. -/
theorem leads_poll_of_none (h : s.Quiet) (hn : s.inventory.Named)
    (none : s.inventory.jobsWithStatus .preparing = []) :
    Leads poll (fun _ _ => False)
      (fun _ s' => s'.inventory.jobs = (s.expireEach s.dueJobs).inventory.jobs) s := by
  have hnever : ∀ call k, s.refuses call k = false := fun call k => by
    rw [Site.refuses, h.faultless]
    rfl
  have hfirst : IsFirst s.balks s.dueJobs.length s.dueJobs.length := by
    refine ⟨.inl (le_refl _), fun k hk => hk.resolve_right ?_⟩
    rw [Site.balks, hnever, hnever]
    decide
  obtain ⟨hbegun, hthere⟩ := (leads_advancePreparing_of_none h none).1 (leads_answer advancePreparing s)
  have hpoll := leads_poll_upTo h.toSecluded hn hbegun (by rw [← hthere]; exact hnever ..)
    (by rw [← hthere]; exact hfirst)
  rw [← hthere] at hpoll
  refine hpoll.mono (fun _ _ hfailed => lt_irrefl _ hfailed.1) ?_
  rintro _ s' ⟨-, -, hsame⟩
  rw [List.take_length] at hsame
  exact congrArg (fun t => t.inventory.jobs) hsame

/-- **Where every live job is ready and its time is over a sweep leaves no live job.** -/
theorem leads_poll_of_over (h : s.Quiet) (hn : s.inventory.Named)
    (ended : ∀ r j, s.inventory.jobs.get? r = some j → j.status.isLive = true →
      j.status = .ready ∧ ∃ e, j.expiresAt = some e ∧ e ≤ s.clock.now) :
    Leads poll (fun _ _ => False)
      (fun _ s' => ∀ r j, s'.inventory.jobs.get? r = some j → j.status.isLive = false) s := by
  have hnone : s.inventory.jobsWithStatus .preparing = [] := by
    refine List.eq_nil_iff_forall_not_mem.2 fun j hj => ?_
    obtain ⟨hkept, hpreparing⟩ := hn.mem_jobsWithStatus.1 hj
    have hstatus := (ended _ j hkept (by rw [hpreparing]; rfl)).1
    rw [hpreparing] at hstatus
    cases hstatus
  refine (leads_poll_of_none h hn hnone).mono (fun _ _ => id) fun _ s' hsame r j hj => ?_
  rw [hsame] at hj
  by_cases hdue : r ∈ s.dueJobs.map Job.requestId
  · obtain ⟨k, hk, rfl⟩ := List.mem_map.1 hdue
    rw [Site.get?_expireEach_of_mem (Site.nodup_dueJobs hn) hk] at hj
    obtain rfl := Option.some.inj hj
    rfl
  · rw [Site.get?_expireEach_of_not_mem hdue] at hj
    rw [← Bool.not_eq_true]
    intro hlive
    obtain rfl := hn.jobs r j hj
    exact hdue (List.mem_map_of_mem ((Site.mem_dueJobs hn).2 ⟨hj, ended _ j hj hlive⟩))

end Jobs

/-- **Unexpired live jobs are cancelled, once.** In every depot whose jobs are kept under their names, whatever
their states and expiries and whatever else is going on: where no call is refused,

* exactly the jobs are cancelled that are prepared, paused or ready and that do not expire or only after now; each
  is modified and expires now, says why, and keeps all else; every other job stays as it is;
* for each of them one notice is delivered, in the order of their creation and of their names, and their number is
  the answer; nothing else of the depot is changed;
* another cancellation, at that time or later, answers that there was nothing to cancel, and changes nothing;
* if only ready jobs and jobs that have ended had an expiry, a sweep after it gives an answer and leaves no live
  job. -/
theorem unexpired_jobs_are_cancelled_once (h : s.Secluded) (faultless : s.Faultless) (hn : s.inventory.Named) :
    ∃ (cancelled : List Job) (jobs : Table RequestId Job),
      (∀ j, j ∈ cancelled ↔ s.inventory.jobs.get? j.requestId = some j ∧
        (j.status = .preparing ∨ j.status = .paused ∨ j.status = .ready) ∧
        ∀ e, j.expiresAt = some e → s.clock.now < e) ∧
      (cancelled.Pairwise fun i j => Inventory.creationOrder i j = .lt) ∧
      (∀ r, jobs.get? r = (s.inventory.jobs.get? r).map fun j =>
        if j ∈ cancelled then
          { j with
            status := .cancelled
            modifiedAt := s.clock.now
            expiresAt := some s.clock.now
            errorMessage := some Jobs.cancelledMessage }
        else j) ∧
      Jobs.cancelAll.answer s = .ok cancelled.length ∧
      Jobs.cancelAll.after s =
        { s with
          inventory := { s.inventory with jobs := jobs }
          log := s.log ++ cancelled.map fun j => .told (.cancelled j.requestId) } ∧
      (∀ (c : Clock) (s' : Site), s.clock.now ≤ c.now → s' = { Jobs.cancelAll.after s with clock := c } →
        Jobs.cancelAll.answer s' = .ok 0 ∧ Jobs.cancelAll.after s' = s') ∧
      ((∀ r j, s.inventory.jobs.get? r = some j → j.expiresAt ≠ none →
        j.status = .ready ∨ j.status.isTerminal = true) →
        ∃ p, Jobs.poll.answer (Jobs.cancelAll.after s) = .ok p ∧
          ∀ r j, (Jobs.poll.after (Jobs.cancelAll.after s)).inventory.jobs.get? r = some j →
            j.status.isLive = false) := by
  have hquiet : s.Quiet := ⟨h, faultless⟩
  obtain ⟨hanswer, hafter⟩ := (Jobs.leads_cancelAll_iff hquiet).1 (leads_answer Jobs.cancelAll s)
  refine ⟨s.activeJobs, (s.cancelEach s.clock.now s.activeJobs).inventory.jobs, fun j => ?_,
    Site.pairwise_activeJobs hn, Site.get?_cancelEach hn, hanswer, ?_, ?_, fun given => ?_⟩
  · rw [Site.mem_activeJobs hn, JobStatus.isLive_iff]
  · exact hafter.symm.trans (s.amendEach_eq s.activeJobs)
  · rintro c s' hlater rfl
    rw [← hafter]
    have hagain : ({ s.cancelEach s.clock.now s.activeJobs with clock := c } : Site).Quiet :=
      (hquiet.amendEach s.activeJobs).of_same rfl rfl rfl
    obtain ⟨hnone, hstays⟩ := (Jobs.leads_cancelAll_iff hagain).1 (leads_answer Jobs.cancelAll _)
    rw [Site.activeJobs_cancelEach hn hlater] at hnone hstays
    exact ⟨hnone, hstays.symm⟩
  · rw [← hafter]
    refine (Jobs.leads_poll_of_over (hquiet.amendEach _) (hn.amendEach _) fun r j hj hlive => ?_).exists_ok
    obtain ⟨hkept, e, he, hover⟩ := Site.over_of_live hn hj hlive
    have hready : j.status = .ready := by
      refine (given r j hkept (by rw [he]; exact Option.some_ne_none e)).resolve_right fun hended => ?_
      rw [JobStatus.isLive, hended] at hlive
      cases hlive
    exact ⟨hready, e, he, by rw [Site.amendEach_eq]; exact hover⟩

/-- A job without files that has been given a status and an expiry. -/
def agedJob (r : String) (status : JobStatus) (expiresAt : Option Instant) : Job :=
  { Job.create ⟨r⟩ .web [] .epoch with status := status, expiresAt := expiresAt }

/-- A depot, a second into 1970, with a job that is prepared, a ready one whose time is over, a ready one whose time is
not over, and one that has ended. -/
def agedSite : Site :=
  { Site.blank { cacheRoot := "cache" } with
    clock := { hand := 1000 }
    inventory :=
      (((Inventory.fresh.saveJob (agedJob "d" .error none)).saveJob
        (agedJob "c" .ready (some .latest))).saveJob
        (agedJob "b" .ready (some .epoch))).saveJob (agedJob "a" .preparing none) }

/-- Two of the four jobs are cancelled, once, and the next sweep lets the third expire. -/
theorem cancellation_of_agedSite :
    Jobs.cancelAll.answer agedSite = .ok 2 ∧
    Jobs.cancelAll.answer (Jobs.cancelAll.after agedSite) = .ok 0 ∧
    Jobs.cancelAll.after (Jobs.cancelAll.after agedSite) = Jobs.cancelAll.after agedSite ∧
    (Jobs.cancelAll.after agedSite).inventory.jobsWithStatus .ready = [agedJob "b" .ready (some .epoch)] ∧
    ∃ p, Jobs.poll.answer (Jobs.cancelAll.after agedSite) = .ok p ∧
      ∀ r j, (Jobs.poll.after (Jobs.cancelAll.after agedSite)).inventory.jobs.get? r = some j →
        j.status.isLive = false := by
  obtain ⟨cancelled, jobs, -, -, -, hanswer, hafter, hagain, hswept⟩ :=
    unexpired_jobs_are_cancelled_once (s := agedSite) ⟨rfl, rfl, rfl, rfl, rfl⟩ (fun _ => rfl)
      ((((Inventory.Named.fresh.saveJob _).saveJob _).saveJob _).saveJob _)
  have hsame : (Jobs.cancelAll.after agedSite).clock = agedSite.clock := by rw [hafter]
  obtain ⟨hnone, hstays⟩ := hagain agedSite.clock _ (Int.le_refl _) (by rw [← hsame])
  have htwo : (Jobs.cancelAll.answer agedSite).toOption = some 2 := by cbv
  rw [hanswer] at htwo
  have hgiven : ∀ e ∈ agedSite.inventory.jobs.entries, e.2.expiresAt ≠ none →
      e.2.status = .ready ∨ e.2.status.isTerminal = true := by decide +kernel
  refine ⟨?_, hnone, hstays, by cbv, hswept fun r j hj => ?_⟩
  · rw [hanswer, Option.some.inj htwo]
  · exact hgiven (r, j) ((Table.get?_eq_some_iff ..).1 hj)

end Depot

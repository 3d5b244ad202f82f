import Depot.Proofs.Expiry
import Depot.Proofs.Silence

/-!
# What sweeps report

A sweep reports the jobs that it has made ready, ended in an error and let expire. Between the listing of the
jobs and the change of one of them others may have changed it: those who are told of another job, or anybody
who works with the inventory at the same time. A job is therefore read again when it is to be changed, and left
as it is if it is not being prepared any more. It is then looked up once more, and is reported by the status
found: so a job may be reported that was not told of. And a job that was to be ready, but ends in an error
because it would expire after the end of the calendar, is told of and not reported. Jobs that expire are
reported if and only if they are told of.

## Main statements

* `Jobs.leads_fail_ended`, `Jobs.leads_promote_ended` — how a job is given another status, in any depot.
* `Jobs.leads_conclude_accounts`, `Meddling.leads_turn` — what one turn of a sweep tells and reports.
* `Meddling.leads_advanceAll_course` — the same of all turns.
* `sweep_reports_what_it_found` — what a sweep among others tells and reports.
* `reports_differ_from_notices` — a job that is reported and not told of, and one that is told of and not
  reported.
-/

namespace Depot

open Act Time

variable {s s' : Site}

/-! ### Single jobs -/

namespace Records

/-- A job is found as it is stored, or not at all. -/
theorem leads_loadJob_anywhere (r : RequestId) (s : Site) :
    Leads (loadJob r) (fun _ s' => s.Stays s')
      (fun found s' => s.Stays s' ∧ (found = none ∨ found = s.inventory.jobs.get? r)) s :=
  (leads_look_stays .loadJob .missJob (·.jobs.get? r) s).mono (fun _ _ h => h.2) fun _ _ h => ⟨h.1, h.2.1⟩

end Records

namespace Jobs

theorem leads_find_anywhere (r : RequestId) (s : Site) :
    Leads (find r) (fun _ s' => s.Stays s')
      (fun j s' => s.Stays s' ∧ s.inventory.jobs.get? r = some j) s := by
  rw [find, leads_bind]
  refine (Records.leads_loadJob_anywhere r s).mono (fun _ _ h => h) ?_
  rintro found s₁ ⟨hstays, hfound⟩
  cases found with
  | none =>
    rw [leads_throw]
    exact hstays
  | some j =>
    rw [leads_pure]
    exact ⟨hstays, (hfound.resolve_left (Option.some_ne_none j)).symm⟩

/-- How it ends that a job of one status is to be given another: it is found to have a status that the change does
not apply to, or the change has been stored. -/
inductive Applied (s : Site) (r : RequestId) (before after : JobStatus) : Option Job → Site → Prop
  | skipped {s' : Site} {j : Job} (stays : s.Stays s') (stored : s.inventory.jobs.get? r = some j)
      (other : j.status ≠ before) : Applied s r before after none s'
  | made {s' : Site} {j j' : Job} (stored : s.inventory.jobs.get? r = some j) (status : j.status = before)
      (request : j'.requestId = j.requestId) (changed : j'.status = after) (silent : s'.tells = s.tells) :
      Applied s r before after (some j') s'

theorem leads_apply_anywhere {before after : JobStatus} {change : Job → Act (Option Job)}
    (skips : ∀ j, j.status ≠ before → change j = return none)
    (changes : ∀ j s, j.status = before → Leads (change j) (fun _ s' => s'.tells = s.tells)
      (fun changed s' => s'.tells = s.tells ∧
        ∃ j', changed = some j' ∧ j'.requestId = j.requestId ∧ j'.status = after) s)
    (r : RequestId) (s : Site) :
    Leads (apply r change) (fun _ s' => s'.tells = s.tells) (Applied s r before after) s := by
  rw [apply, leads_bind]
  refine (leads_find_anywhere r s).mono (fun _ _ h => h.tells) ?_
  rintro j s₁ ⟨hstays, hj⟩
  rw [leads_bind]
  by_cases hstatus : j.status = before
  · refine (changes j s₁ hstatus).mono (fun _ _ h => h.trans hstays.tells) ?_
    rintro _ s₂ ⟨hsilent, j', rfl, hrequest, hafter⟩
    have hsilent := hsilent.trans hstays.tells
    rw [leads_bind]
    refine (Records.silent_saveJob j' s₂).mono (fun _ _ h => h.trans hsilent) fun _ s₃ hsaved => ?_
    rw [leads_pure]
    exact .made hj hstatus hrequest hafter (hsaved.trans hsilent)
  · rw [skips j hstatus, leads_pure, leads_pure]
    exact .skipped hstays hj hstatus

/-- A step of the life cycle gives a job the status asked for, or cannot be taken. -/
theorem leads_move_anywhere (j : Job) (next : JobStatus) (time : Instant) (s : Site) :
    Leads (move j next time) (fun _ s' => s' = s)
      (fun j' s' => s' = s ∧ j'.requestId = j.requestId ∧ j'.status = next) s :=
  leads_move.2 ⟨fun _ => ⟨rfl, rfl, rfl⟩, fun _ => rfl⟩

/-! ### Conclusions -/

/-- **How it ends that a job being prepared is to be given another status**: whoever asked for it is told, or it is
found to have been given another by somebody else. -/
inductive Ended (s : Site) (r : RequestId) (after : JobStatus) (told : Job → Notice) (job : Job) (s' : Site) :
    Prop
  | told {j : Job} (stored : s.inventory.jobs.get? r = some j) (preparing : j.status = .preparing)
      (request : job.requestId = j.requestId) (status : job.status = after)
      (tells : s'.tells = s.tells ++ [told job])
  | found (stored : s.inventory.jobs.get? r = some job) (settled : job.status ≠ .preparing)
      (tells : s'.tells = s.tells)

/-- The change has been stored, and it is told. -/
theorem leads_tell_ended {after : JobStatus} (told : Job → Notice) {job : Job} {r : RequestId} {s₁ : Site}
    (h : Applied s r .preparing after (some job) s₁) :
    Leads (do tell (told job); return job) (fun _ s' => s'.tells = s.tells) (Ended s r after told) s₁ := by
  cases h with
  | made stored status request changed silent =>
    rw [leads_bind]
    refine (leads_tell_anywhere (told job) s₁).mono (fun _ _ => False.elim) ?_
    rintro _ _ ⟨inventory, disk, rfl⟩
    rw [leads_pure]
    refine .told stored status request changed ?_
    rw [← silent]
    exact Site.tells_told rfl

/-- There was no change, and the job is looked up again. -/
theorem leads_find_ended {after : JobStatus} {told : Job → Notice} {r : RequestId} {s₁ : Site}
    (h : Applied s r .preparing after none s₁) :
    Leads (find r) (fun _ s' => s'.tells = s.tells) (Ended s r after told) s₁ := by
  cases h with
  | skipped stays stored other =>
    refine (leads_find_anywhere r s₁).mono (fun _ _ h => (stays.trans h).tells) ?_
    rintro job s₂ ⟨hstays, hjob⟩
    rw [stays.eq] at hjob
    obtain rfl := Option.some.inj (stored.symm.trans hjob)
    exact .found stored other (stays.trans hstays).tells

theorem Ended.of_stays {r : RequestId} {after : JobStatus} {told : Job → Notice} {job : Job} {s₁ : Site}
    (stays : s.Stays s₁) (h : Ended s₁ r after told job s') : Ended s r after told job s' := by
  have hinventory : s₁.inventory = s.inventory := by rw [stays.eq]
  cases h with
  | told stored preparing request status tells =>
    exact .told (hinventory ▸ stored) preparing request status (by rw [tells, stays.tells])
  | found stored settled tells => exact .found (hinventory ▸ stored) settled (tells.trans stays.tells)

/-- **Where it leads to end a job in an error.** -/
theorem leads_fail_ended (r : RequestId) (message : String) (s : Site) :
    Leads (fail r message) (fun _ s' => s'.tells = s.tells)
      (Ended s r .error fun job => .failed job.requestId message) s := by
  simp only [fail, leads_bind, leads_now]
  refine Leads.mono (Q := Applied s r .preparing .error)
    (leads_apply_anywhere (fun j hj => if_pos hj) (fun j s₁ hj => ?_) r s) (fun _ _ h => h)
    fun changed s₁ h => ?_
  · rw [if_neg (not_not_intro hj), leads_bind]
    refine (leads_move_anywhere j .error _ s₁).mono (fun _ _ h => by rw [h]) ?_
    rintro j' _ ⟨rfl, hrequest, hstatus⟩
    rw [leads_pure]
    exact ⟨rfl, _, rfl, hrequest, hstatus⟩
  · cases changed with
    | none => exact leads_find_ended h
    | some job => exact leads_tell_ended (fun job => .failed job.requestId message) h

/-- **Where it leads to make a job ready**: its files are kept until it expires; but where the calendar ends before,
the job ends in an error. -/
theorem leads_promote_ended (r : RequestId) (s : Site) :
    Leads (promote r) (fun _ s' => s'.tells = s.tells)
      (fun job s' =>
        Ended s r .ready (fun job => .ready job.requestId (job.expiresAt.getD s.clock.now)) job s' ∨
        ∃ j message, s.inventory.jobs.get? r = some j ∧
          s.clock.now.addMillis? (s.settings.ttlMs j.mode) = none ∧
            Ended s r .error (fun job => .failed job.requestId message) job s') s := by
  simp only [promote, leads_bind, leads_now, leads_get]
  refine (leads_find_anywhere r s).mono (fun _ _ h => h.tells) ?_
  rintro j s₁ ⟨hstays, hj⟩
  split
  · next hends =>
    refine (leads_fail_ended r _ s₁).mono (fun _ _ h => h.trans hstays.tells) fun job s₂ h => ?_
    exact .inr ⟨j, _, hj, hends, h.of_stays hstays⟩
  · next expiry hends =>
    rw [leads_bind]
    refine Leads.mono (Q := Applied s₁ r .preparing .ready)
      (leads_apply_anywhere (fun j hj => if_pos hj) (fun j s₂ hj => ?_) r s₁)
      (fun _ _ h => h.trans hstays.tells) fun changed s₂ h => ?_
    · rw [if_neg (not_not_intro hj), leads_bind]
      refine (silent_keepUntil expiry j.retrievable s₂).mono (fun _ _ h => h) fun _ s₃ hkept => ?_
      rw [leads_bind]
      refine (leads_move_anywhere j .ready _ s₃).mono (fun _ _ h => by rw [h, hkept]) ?_
      rintro j' _ ⟨rfl, hrequest, hstatus⟩
      rw [leads_pure]
      exact ⟨hkept, _, rfl, hrequest, hstatus⟩
    · cases changed with
      | none =>
        exact (leads_find_ended h).mono (fun _ _ h => h.trans hstays.tells)
          fun _ _ h => .inl (h.of_stays hstays)
      | some job =>
        exact (leads_tell_ended (fun job => .ready job.requestId (job.expiresAt.getD s.clock.now)) h).mono
          (fun _ _ h => h.trans hstays.tells) fun _ _ h => .inl (h.of_stays hstays)

end Jobs

/-! ### Turns -/

namespace Notice

/-- The job that is told to be ready. -/
@[simp] def ready? : Notice → Option RequestId
  | ready r _ => some r
  | _ => none

/-- The job that is told to have ended in an error. -/
@[simp] def failed? : Notice → Option RequestId
  | failed r _ => some r
  | _ => none

/-- The job that is told to have expired. -/
@[simp] def expired? : Notice → Option RequestId
  | expired r => some r
  | _ => none

end Notice

namespace Jobs

/-- How a turn of a sweep ends, in which a job is brought forward that was being prepared. -/
inductive Turn
  /-- The job is ready now, and this is told and reported. -/
  | ready (request : RequestId) (expiresAt : Instant)
  /-- The job has ended in an error now, and this is told and reported. -/
  | failed (request : RequestId) (message : String)
  /-- The job was to be ready but would have expired after the end of the calendar: it has ended in an error
  now, and this is told but not reported. -/
  | overran (request : RequestId) (message : String)
  /-- The job was to be ready and is found to be, and this is reported. -/
  | foundReady (request : RequestId)
  /-- The job was to end in an error and is found to have, and this is reported. -/
  | foundFailed (request : RequestId)
  /-- Nothing is told or reported. -/
  | left

namespace Turn

/-- What is told in a turn. -/
@[simp] def told : Turn → List Notice
  | ready r expiry => [.ready r expiry]
  | failed r message | overran r message => [.failed r message]
  | foundReady _ | foundFailed _ | left => []

/-- The job that is reported to be ready. -/
@[simp] def promoted? : Turn → Option RequestId
  | ready r _ | foundReady r => some r
  | _ => none

/-- The job that is reported to have ended in an error. -/
@[simp] def failed? : Turn → Option RequestId
  | failed r _ | foundFailed r => some r
  | _ => none

/-- How the turn of a job may end, by what is stored of it when it is concluded: the job changes if it is being
prepared, and is found to have another status if it has. -/
inductive Fits (r : RequestId) (s : Site) : Turn → Prop
  | ready {j : Job} {expiry : Instant} (stored : s.inventory.jobs.get? r = some j)
      (preparing : j.status = .preparing) : Fits r s (.ready j.requestId expiry)
  | failed {j : Job} {message : String} (stored : s.inventory.jobs.get? r = some j)
      (preparing : j.status = .preparing) : Fits r s (.failed j.requestId message)
  | overran {j : Job} {message : String} (stored : s.inventory.jobs.get? r = some j)
      (preparing : j.status = .preparing)
      (endless : s.clock.now.addMillis? (s.settings.ttlMs j.mode) = none) :
      Fits r s (.overran j.requestId message)
  | foundReady {j : Job} (stored : s.inventory.jobs.get? r = some j) (status : j.status = .ready) :
      Fits r s (.foundReady j.requestId)
  | foundFailed {j : Job} (stored : s.inventory.jobs.get? r = some j) (status : j.status = .error) :
      Fits r s (.foundFailed j.requestId)
  | left : Fits r s .left

/-- Who is told to be ready is reported to be. -/
theorem ready_sublist_promoted : ∀ turns : List Turn,
    ((turns.flatMap told).filterMap Notice.ready?).Sublist (turns.filterMap promoted?)
  | [] => .slnil
  | t :: turns => by
    have hrest := ready_sublist_promoted turns
    cases t <;> simp [List.filterMap_cons, hrest]

/-- **The jobs reported to be ready are the jobs told to be**, but for those that are found to be. -/
theorem promoted_eq_ready_iff (turns : List Turn) :
    turns.filterMap promoted? = (turns.flatMap told).filterMap Notice.ready? ↔ ∀ r, foundReady r ∉ turns := by
  induction turns with
  | nil => simp
  | cons t turns ih =>
    cases t with
    | foundReady r =>
      -- There is one more that is reported than are told.
      have hlength := (ready_sublist_promoted turns).length_le
      refine iff_of_false (fun heq => ?_) fun hnone => hnone r (List.mem_cons_self ..)
      have hmore := congrArg List.length heq
      simp only [List.filterMap_cons, promoted?, List.flatMap_cons, told, List.nil_append,
        List.length_cons] at hmore
      omega
    | _ => simp [List.filterMap_cons, ih]

theorem failed_eq_failed {turns : List Turn} (found : ∀ r, foundFailed r ∉ turns)
    (overran : ∀ r message, overran r message ∉ turns) :
    turns.filterMap failed? = (turns.flatMap told).filterMap Notice.failed? := by
  induction turns with
  | nil => rfl
  | cons t turns ih =>
    have hrest := ih (fun r h => found r (.tail _ h)) fun r message h => overran r message (.tail _ h)
    cases t with
    | foundFailed r => exact absurd (List.mem_cons_self ..) (found r)
    | overran r message => exact absurd (List.mem_cons_self ..) (overran r message)
    | _ => simp [List.filterMap_cons, hrest]

end Turn

/-- Bring a job forward, when it is known how it stands with its files. -/
def conclude (job : Job) (p : Report) : Assessment → Act Report
  | .ready => do
    let job ← promote job.requestId
    return if job.status = .ready then { p with promoted := p.promoted ++ [job.requestId] } else p
  | .failed message => reportFailure job.requestId message p
  | .waiting => do
    let staleAfterMs := (← get).settings.staleAfterMs
    if isStale staleAfterMs job (← now) then
      reportFailure job.requestId ("Job has been preparing for more than " ++
        toString (hoursOf staleAfterMs) ++ " hours") p
    else return { p with stillPreparing := p.stillPreparing + 1 }

theorem advance_eq_conclude (job : Job) (p : Report) : advance job p = assess job true >>= conclude job p :=
  bind_congr fun a => by cases a <;> rfl

/-- What turns have added to a report, and to the notices delivered. -/
structure Accounts (turns : List Turn) (p : Report) (s : Site) (p' : Report) (s' : Site) : Prop where
  tells : s'.tells = s.tells ++ turns.flatMap Turn.told
  promoted : p'.promoted = p.promoted ++ turns.filterMap Turn.promoted?
  failed : p'.failed = p.failed ++ turns.filterMap Turn.failed?
  expired : p'.expired = p.expired

namespace Accounts

variable {t : Turn} {turns : List Turn} {p p₁ p' : Report} {s₁ : Site}

theorem nil (p : Report) (silent : s'.tells = s.tells) : Accounts [] p s p s' :=
  ⟨by simp [silent], by simp, by simp, rfl⟩

theorem left (p : Report) (silent : s'.tells = s.tells) : Accounts [.left] p s p s' :=
  ⟨by simp [silent], by simp, by simp, rfl⟩

theorem cons (h : Accounts [t] p s p₁ s₁) (h' : Accounts turns p₁ s₁ p' s') :
    Accounts (t :: turns) p s p' s' := by
  refine ⟨?_, ?_, ?_, h'.expired.trans h.expired⟩
  · rw [h'.tells, h.tells, List.append_assoc, ← List.flatMap_append, List.singleton_append]
  · rw [h'.promoted, h.promoted, List.append_assoc, ← List.filterMap_append, List.singleton_append]
  · rw [h'.failed, h.failed, List.append_assoc, ← List.filterMap_append, List.singleton_append]

/-- What is told before a turn begins is not of it. -/
theorem of_silent (silent : s₁.tells = s.tells) (h : Accounts turns p s₁ p' s') : Accounts turns p s p' s' :=
  ⟨silent ▸ h.tells, h.promoted, h.failed, h.expired⟩

end Accounts

theorem leads_reportFailure_accounts (r : RequestId) (message : String) (p : Report) (s : Site) :
    Leads (reportFailure r message p) (fun _ s' => s'.tells = s.tells)
      (fun p' s' => ∃ t, Turn.Fits r s t ∧ Accounts [t] p s p' s') s := by
  rw [reportFailure, leads_bind]
  refine (leads_fail_ended r message s).mono (fun _ _ h => h) fun job s' h => ?_
  rw [leads_pure]
  cases h with
  | told stored preparing request status tells =>
    rw [request] at tells
    rw [if_pos status, request]
    exact ⟨_, .failed stored preparing, tells, by simp, by simp, rfl⟩
  | found stored settled tells =>
    split
    · next herror =>
      exact ⟨_, .foundFailed stored herror, by simp [tells], by simp,
        by simp, rfl⟩
    · exact ⟨.left, .left, .left p tells⟩

/-- **What a turn comes to**: it fails and tells nobody, or it ends as it fits what is stored. -/
theorem leads_conclude_accounts (job : Job) (p : Report) (a : Assessment) (s : Site) :
    Leads (conclude job p a) (fun _ s' => s'.tells = s.tells)
      (fun p' s' => ∃ t, Turn.Fits job.requestId s t ∧ Accounts [t] p s p' s') s := by
  cases a with
  | ready =>
    rw [conclude, leads_bind]
    refine (leads_promote_ended job.requestId s).mono (fun _ _ h => h) fun job' s' h => ?_
    rw [leads_pure]
    have hfound : s.inventory.jobs.get? job.requestId = some job' → s'.tells = s.tells →
        ∃ t, Turn.Fits job.requestId s t ∧ Accounts [t] p s
          (if job'.status = .ready then { p with promoted := p.promoted ++ [job'.requestId] } else p) s' := by
      intro stored tells
      split
      · next hready =>
        exact ⟨_, .foundReady stored hready, by simp [tells], by simp,
          by simp, rfl⟩
      · exact ⟨.left, .left, .left p tells⟩
    rcases h with hready | ⟨j, message, hj, hends, herror⟩
    · cases hready with
      | told stored preparing request status tells =>
        rw [request] at tells
        rw [if_pos status, request]
        exact ⟨_, .ready stored preparing, tells, by simp, by simp, rfl⟩
      | found stored settled tells => exact hfound stored tells
    · cases herror with
      | told stored preparing request status tells =>
        obtain rfl := Option.some.inj (hj.symm.trans stored)
        rw [request] at tells
        rw [if_neg (by rw [status]; decide)]
        exact ⟨_, .overran stored preparing hends, tells, by simp, by simp,
          rfl⟩
      | found stored settled tells => exact hfound stored tells
  | failed message => exact leads_reportFailure_accounts _ _ _ _
  | waiting =>
    simp only [conclude, leads_bind, leads_get, leads_now]
    refine leads_ite.2 ⟨fun _ => leads_reportFailure_accounts _ _ _ _, fun _ => ?_⟩
    rw [leads_pure]
    exact ⟨.left, .left, by simp, by simp, by simp, rfl⟩

/-- What expires is told and reported. -/
theorem leads_expireAll_tells (time : Instant) : ∀ (l : List Job) (p : Report) (s : Site),
    Leads (expireAll time l p) (fun _ _ => True)
      (fun p' s' => ∃ lapsed, p' = { p with expired := p.expired ++ lapsed } ∧
        s'.tells = s.tells ++ lapsed.map .expired) s
  | [], p, s => by
    rw [expireAll, leads_pure]
    exact ⟨[], by simp, by simp⟩
  | job :: rest, p, s => by
    rw [expireAll]
    refine leads_ite.2 ⟨fun _ => leads_expireAll_tells time rest p s, fun _ => ?_⟩
    rw [leads_bind]
    refine Leads.mono (Q := Applied s job.requestId .ready .expired)
      (leads_apply_anywhere (fun j hj => if_pos hj) (fun j s₁ hj => ?_) job.requestId s)
      (fun _ _ _ => trivial) fun changed s₁ h => ?_
    · rw [if_neg (not_not_intro hj), leads_bind]
      refine (leads_move_anywhere j .expired time s₁).mono (fun _ _ h => by rw [h]) ?_
      rintro j' _ ⟨rfl, hrequest, hstatus⟩
      rw [leads_pure]
      exact ⟨rfl, _, rfl, hrequest, hstatus⟩
    · cases h with
      | skipped stays stored other =>
        refine (leads_expireAll_tells time rest p s₁).mono (fun _ _ h => h) ?_
        rintro p' s' ⟨lapsed, hp, htells⟩
        exact ⟨lapsed, hp, by rw [htells, stays.tells]⟩
      | made stored status request changed silent =>
        dsimp only
        rw [leads_bind]
        refine (leads_tell_anywhere _ s₁).mono (fun _ _ _ => trivial) ?_
        rintro _ _ ⟨inventory, disk, rfl⟩
        refine (leads_expireAll_tells time rest _ _).mono (fun _ _ h => h) ?_
        rintro p' s' ⟨lapsed, rfl, htells⟩
        refine ⟨_ :: lapsed, by simp; rfl, htells.trans ?_⟩
        rw [Site.tells_told rfl, silent]
        simp

end Jobs

/-! ### Sweeps among others -/

/-- A point of a sweep at which others may change the inventory. -/
inductive Juncture
  /-- A job is to be brought forward. -/
  | turn (k : ℕ)
  /-- It is known how a job stands with its files. -/
  | conclusion (k : ℕ)
  /-- The ready jobs are to be listed. -/
  | listing
  /-- A ready job is to expire if its time is over. -/
  | expiry (k : ℕ)

/-- What others make of the inventory, at each such point. To give a job a status while it is changed, or
between that and when it is looked up again, would come to the same as to give it that status before the turn is
concluded, or after. -/
abbrev Meddling := Juncture → Site → Inventory

namespace Meddling

open Jobs (Turn Accounts Report Assessment)

variable {others : Meddling}

/-- Nobody does anything. -/
def nobody : Meddling := fun _ s => s.inventory

/-- Others change the inventory. -/
def act (others : Meddling) (m : Juncture) : Act Unit := modify fun s => { s with inventory := others m s }

/-- Ask for the files of a job. -/
def assess (others : Meddling) (k : ℕ) (job : Job) : Act Assessment := do
  others.act (.turn k)
  let a ← Jobs.assess job true
  others.act (.conclusion k)
  return a

/-- Bring jobs forward. -/
def advanceAll (others : Meddling) : ℕ → List Job → Report → Act Report
  | _, [], p => return p
  | k, job :: rest, p => do
    match ← attempt (others.assess k job >>= Jobs.conclude job p) with
    | .ok p => others.advanceAll (k + 1) rest p
    | .error _ => others.advanceAll (k + 1) rest p

/-- Let jobs expire whose time is over. -/
def expireAll (others : Meddling) (time : Instant) : ℕ → List Job → Report → Act Report
  | _, [], p => return p
  | k, job :: rest, p => do
    others.act (.expiry k)
    others.expireAll time (k + 1) rest (← Jobs.expireAll time [job] p)

/-- Bring every job forward. -/
def poll (others : Meddling) : Act Report := do
  let report ← others.advanceAll 0 (← Records.findByStatus .preparing) {}
  others.act .listing
  let time ← now
  others.expireAll time 0 (← Records.findByStatus .ready) report

/-! #### Nobody -/

theorem act_nobody (m : Juncture) : nobody.act m = pure () := rfl

theorem advanceAll_nobody : ∀ (k : ℕ) (l : List Job) (p : Report), nobody.advanceAll k l p = Jobs.advanceAll l p
  | _, [], _ => rfl
  | k, job :: rest, p => by
    have hassess : nobody.assess k job = Jobs.assess job true := by
      simp only [assess, act_nobody, pure_bind, bind_pure]
    simp only [advanceAll, Jobs.advanceAll, hassess, ← Jobs.advance_eq_conclude]
    refine bind_congr fun result => ?_
    cases result <;> exact advanceAll_nobody ..

theorem expireAll_cons (time : Instant) (job : Job) (rest : List Job) (p : Report) :
    Jobs.expireAll time (job :: rest) p = Jobs.expireAll time [job] p >>= Jobs.expireAll time rest := by
  simp only [Jobs.expireAll]
  split
  · rw [pure_bind]
  · rw [bind_assoc]
    refine bind_congr fun expired => ?_
    cases expired with
    | none => rw [pure_bind]
    | some job => simp only [bind_assoc, pure_bind]

theorem expireAll_nobody (time : Instant) : ∀ (k : ℕ) (l : List Job) (p : Report),
    nobody.expireAll time k l p = Jobs.expireAll time l p
  | _, [], _ => rfl
  | k, job :: rest, p => by
    rw [expireAll, act_nobody, pure_bind, expireAll_cons time job rest]
    exact bind_congr fun p => expireAll_nobody ..

/-- Where nobody else does anything, a sweep among others is a sweep. -/
theorem poll_nobody : nobody.poll = Jobs.poll := by
  simp only [poll, Jobs.poll, advanceAll_nobody, expireAll_nobody, act_nobody, pure_bind]

/-! #### Runs -/

theorem silent_act (others : Meddling) (m : Juncture) : (others.act m).Silent := .modify fun _ => rfl

theorem silent_assess (others : Meddling) (k : ℕ) (job : Job) : (others.assess k job).Silent :=
  .bind (silent_act others _) fun _ => .bind (Jobs.silent_assess job true) fun _ =>
    .bind (silent_act others _) fun _ => .pure _

/-- **The turns of a sweep**: each fits what is stored when its job is known to stand as it does, and the next
begins where it has ended. -/
inductive Course (others : Meddling) : ℕ → List Job → Site → List Turn → Prop
  | done {k : ℕ} {s : Site} : Course others k [] s []
  | turn {k : ℕ} {job : Job} {rest : List Job} {s : Site} {t : Turn} {turns : List Turn} (p : Report)
      (fits : t.Fits job.requestId ((others.assess k job).after s))
      (next : Course others (k + 1) rest ((others.advanceAll k [job] p).after s) turns) :
      Course others k (job :: rest) s (t :: turns)

/-- **What one turn comes to.** -/
theorem leads_turn (k : ℕ) (job : Job) (p : Report) (s : Site) :
    Leads (others.advanceAll k [job] p) (fun _ _ => False)
      (fun p' s' => ∃ t, Turn.Fits job.requestId ((others.assess k job).after s) t ∧ Accounts [t] p s p' s')
      s := by
  have hassess := (leads_answer (others.assess k job) s).and (silent_assess others k job s)
  simp only [advanceAll, leads_bind, leads_attempt]
  refine hassess.mono ?_ ?_
  · rintro e s₁ ⟨-, hsilent⟩
    rw [leads_pure]
    exact ⟨.left, .left, .left p hsilent⟩
  · rintro a _ ⟨⟨-, rfl⟩, hsilent⟩
    refine (Jobs.leads_conclude_accounts job p a _).mono ?_ ?_
    · rintro e s' h
      rw [leads_pure]
      exact ⟨.left, .left, .left p (h.trans hsilent)⟩
    · rintro p' s' ⟨t, hfits, haccounts⟩
      rw [leads_pure]
      exact ⟨t, hfits, haccounts.of_silent hsilent⟩

/-- The first job of a list is brought forward, and then the others. -/
theorem advanceAll_cons (k : ℕ) (job : Job) (rest : List Job) (p : Report) :
    others.advanceAll k (job :: rest) p = others.advanceAll k [job] p >>= others.advanceAll (k + 1) rest := by
  simp only [advanceAll, bind_assoc]
  refine bind_congr fun result => ?_
  cases result <;> exact (pure_bind _ _).symm

/-- **What all turns come to.** -/
theorem leads_advanceAll_course : ∀ (k : ℕ) (l : List Job) (p : Report) (s : Site),
    Leads (others.advanceAll k l p) (fun _ _ => False)
      (fun p' s' => ∃ turns, others.Course k l s turns ∧ Accounts turns p s p' s') s
  | k, [], p, s => by
    rw [advanceAll, leads_pure]
    exact ⟨[], .done, .nil p rfl⟩
  | k, job :: rest, p, s => by
    rw [advanceAll_cons, leads_bind]
    refine ((leads_answer _ s).and (leads_turn k job p s)).mono (fun _ _ h => h.2) ?_
    rintro p₁ _ ⟨⟨-, rfl⟩, t, hfits, hturn⟩
    refine (leads_advanceAll_course (k + 1) rest p₁ _).mono (fun _ _ h => h) ?_
    rintro p' s' ⟨turns, hcourse, hturns⟩
    exact ⟨t :: turns, .turn p hfits hcourse, hturn.cons hturns⟩

theorem leads_expireAll_tells (time : Instant) : ∀ (k : ℕ) (l : List Job) (p : Report) (s : Site),
    Leads (others.expireAll time k l p) (fun _ _ => True)
      (fun p' s' => ∃ lapsed, p' = { p with expired := p.expired ++ lapsed } ∧
        s'.tells = s.tells ++ lapsed.map .expired) s
  | _, [], p, s => by
    rw [expireAll, leads_pure]
    exact ⟨[], by simp, by simp⟩
  | k, job :: rest, p, s => by
    rw [expireAll, leads_bind]
    refine (silent_act others (.expiry k) s).mono (fun _ _ _ => trivial) fun _ s₁ hact => ?_
    rw [leads_bind]
    refine (Jobs.leads_expireAll_tells time [job] p s₁).mono (fun _ _ _ => trivial) ?_
    rintro _ s₂ ⟨lapsed, rfl, htells⟩
    refine (leads_expireAll_tells time (k + 1) rest _ s₂).mono (fun _ _ _ => trivial) ?_
    rintro _ s' ⟨more, rfl, htells'⟩
    refine ⟨lapsed ++ more, by rw [List.append_assoc], ?_⟩
    rw [htells', htells, hact, List.map_append, List.append_assoc]

/-- **What a sweep comes to** that gives an answer. -/
theorem leads_poll_course (s : Site) :
    Leads others.poll (fun _ _ => True)
      (fun p s' => ∃ turns lapsed,
        others.Course 0 (s.inventory.jobsWithStatus .preparing) ((Records.findByStatus .preparing).after s)
          turns ∧
        s'.tells = s.tells ++ (turns.flatMap Turn.told ++ lapsed.map .expired) ∧
        p.promoted = turns.filterMap Turn.promoted? ∧ p.failed = turns.filterMap Turn.failed? ∧
        p.expired = lapsed) s := by
  rw [poll, leads_bind]
  refine ((leads_answer _ s).and (Records.leads_findByStatus_spends .preparing s)).mono
    (fun _ _ _ => trivial) ?_
  rintro _ _ ⟨⟨-, rfl⟩, -, rfl, hspends⟩
  rw [leads_bind]
  refine (leads_advanceAll_course 0 _ {} _).mono (fun _ _ _ => trivial) ?_
  rintro p₁ s₁ ⟨turns, hcourse, haccounts⟩
  rw [leads_bind]
  refine (silent_act others .listing s₁).mono (fun _ _ _ => trivial) fun _ s₂ hact => ?_
  simp only [leads_bind, leads_now]
  refine (Records.silent_findByStatus .ready s₂).mono (fun _ _ _ => trivial) fun l s₃ hlist => ?_
  refine (leads_expireAll_tells _ 0 l p₁ s₃).mono (fun _ _ _ => trivial) ?_
  rintro _ s' ⟨lapsed, rfl, htells⟩
  refine ⟨turns, lapsed, hcourse, ?_, haccounts.promoted, haccounts.failed, ?_⟩
  · rw [htells, hlist, hact, haccounts.tells, hspends.stays.tells, List.append_assoc]
  · rw [haccounts.expired]
    rfl

end Meddling

/-- **A sweep reports what it has told, and what it has found.** Whatever is stored, whatever calls are refused,
and whatever others make of the inventory meanwhile: the notices of a sweep that gives an answer are those of
its turns, one for each job that was being prepared when it began, and after them those of the jobs that have
expired. The jobs reported to have expired are exactly the jobs told to have, in order. The jobs reported to be
ready are exactly the jobs told to be if and only if no job, listed as being prepared, is ready by the time its
turn is concluded without this sweep having made it so; each such job is reported as well. The jobs reported to
have ended in an error are those told to have, but for the jobs that would have expired after the end of the
calendar, and with the jobs that are found to have ended so. -/
theorem sweep_reports_what_it_found (others : Meddling) {p : Jobs.Report}
    (answered : others.poll.answer s = .ok p) :
    Meddling.nobody.poll = Jobs.poll ∧
    ∃ turns told,
      others.Course 0 (s.inventory.jobsWithStatus .preparing) ((Records.findByStatus .preparing).after s) turns ∧
      (others.poll.after s).tells = s.tells ++ told ∧
      told = turns.flatMap Jobs.Turn.told ++ p.expired.map .expired ∧
      p.promoted = turns.filterMap Jobs.Turn.promoted? ∧
      p.failed = turns.filterMap Jobs.Turn.failed? ∧
      p.expired = told.filterMap Notice.expired? ∧
      (p.promoted = told.filterMap Notice.ready? ↔ ∀ r, .foundReady r ∉ turns) ∧
      ((∀ r, .foundFailed r ∉ turns) → (∀ r message, .overran r message ∉ turns) →
        p.failed = told.filterMap Notice.failed?) := by
  obtain ⟨turns, lapsed, hcourse, htells, hpromoted, hfailed, rfl⟩ :=
    (others.leads_poll_course s).of_ok answered
  have hlapsed : ∀ (f : Notice → Option RequestId), (∀ r, f (.expired r) = none) →
      (p.expired.map Notice.expired).filterMap f = [] := fun f hf => by
    rw [List.filterMap_map]
    exact List.filterMap_eq_nil_iff.2 fun r _ => hf r
  have hexpired : (turns.flatMap Jobs.Turn.told).filterMap Notice.expired? = [] := by
    refine List.filterMap_eq_nil_iff.2 fun n hn => ?_
    obtain ⟨t, -, ht⟩ := List.mem_flatMap.1 hn
    cases t <;> simp only [Jobs.Turn.told, List.mem_singleton, List.not_mem_nil] at ht <;> subst ht <;> rfl
  refine ⟨Meddling.poll_nobody, turns, _, hcourse, htells, rfl, hpromoted, hfailed, ?_, ?_, fun hfound hover => ?_⟩
  · rw [List.filterMap_append, hexpired, List.nil_append, List.filterMap_map]
    exact (List.filterMap_some).symm
  · rw [List.filterMap_append, hlapsed _ fun _ => rfl, List.append_nil, hpromoted]
    exact Jobs.Turn.promoted_eq_ready_iff turns
  · rw [List.filterMap_append, hlapsed _ fun _ => rfl, List.append_nil, hfailed]
    exact Jobs.Turn.failed_eq_failed hfound hover

/-- A depot in which two jobs without files are being prepared, one of which is made ready by those who are told
of the other. -/
def echoingSite : Site :=
  { Site.blank { cacheRoot := "cache" } with
    reactions := Table.empty.insert ⟨"a"⟩ [(⟨"b"⟩, .ready)]
    inventory :=
      (Inventory.fresh.saveJob (Job.create ⟨"a"⟩ .web [] .epoch)).saveJob (Job.create ⟨"b"⟩ .web [] .epoch) }

/-- A depot in which a job without files is being prepared, that would be ready for longer than the calendar
lasts. -/
def endlessSite : Site :=
  { Site.blank { cacheRoot := "cache", webTtlMs := 2 ^ 63 - 1 } with
    inventory := Inventory.fresh.saveJob (Job.create ⟨"j"⟩ .web [] .epoch) }

/-- **Reports are not of what was told**: a job is reported to be ready that somebody else made so, and a job of
which it is told that it has ended in an error is not reported. -/
theorem reports_differ_from_notices :
    Jobs.poll.answer echoingSite = .ok { promoted := [⟨"a"⟩, ⟨"b"⟩] } ∧
      (Jobs.poll.after echoingSite).tells.map Notice.ready? = [some ⟨"a"⟩] ∧
    Jobs.poll.answer endlessSite = .ok {} ∧
      (Jobs.poll.after endlessSite).tells.map Notice.failed? = [some ⟨"j"⟩] :=
  ⟨by cbv, by cbv, by cbv, by cbv⟩

/-- The sweep has found a job that it had not made ready. -/
theorem sweep_of_echoingSite : ∃ turns r,
    Meddling.nobody.Course 0 (echoingSite.inventory.jobsWithStatus .preparing)
      ((Records.findByStatus .preparing).after echoingSite) turns ∧ .foundReady r ∈ turns := by
  have hanswer : Meddling.nobody.poll.answer echoingSite = .ok { promoted := [⟨"a"⟩, ⟨"b"⟩] } := by
    rw [Meddling.poll_nobody]
    cbv
  obtain ⟨hpoll, turns, told, hcourse, htells, -, -, -, -, hready, -⟩ :=
    sweep_reports_what_it_found .nobody hanswer
  have htold : (Meddling.nobody.poll.after echoingSite).tells = told := htells
  have hone : told.filterMap Notice.ready? = [⟨"a"⟩] := by
    rw [← htold, hpoll]
    cbv
  by_contra hnone
  have hsame := hready.2 fun r hr => hnone ⟨turns, r, hcourse, hr⟩
  rw [hone] at hsame
  cases hsame

end Depot

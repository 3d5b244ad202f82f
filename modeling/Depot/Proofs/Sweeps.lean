import Depot.Proofs.Errands
import Depot.Site.Warnings

/-!
# Sweeps, cancellation and warnings

Each of these goes through a list of jobs that is read at its beginning, and changes them one by one.
Where a job is changed as it is listed, the list must stay true meanwhile; it does, for each job is on it
once and only its own change touches it.

Warnings are affairs of their own: who was warned before is compared with who is to be warned now, so a call
is looked at as a whole.

## Main statements

* `Jobs.errands_poll`, `Jobs.errands_cancelAll` — sweeps and cancellations are courses of errands.
* `Affairs.course` — courses of affairs, warnings included, are courses of changes.
-/

namespace Depot

open Act Time

variable {α : Type} {s s' : Site}

/-! ### Lists of jobs -/

/-- Jobs of a list: each is on it once, and is kept as it is listed. -/
structure Site.ListsJobs (s : Site) (l : List Job) : Prop where
  nodup : (l.map Job.requestId).Nodup
  kept : ∀ j ∈ l, s.inventory.jobs.get? j.requestId = some j

theorem Inventory.Named.map_requestId {v : Inventory} (h : v.Named) :
    v.jobs.values.map Job.requestId = v.jobs.keys := by
  rw [Table.values, Table.keys, List.map_map]
  refine List.map_congr_left fun e he => ?_
  exact h.jobs e.1 e.2 ((Table.get?_eq_some_iff _ _ _).2 he)

/-- A query lists the jobs that it finds. -/
theorem Inventory.Named.listsJobs (h : s.inventory.Named) (p : Job → Bool)
    (order : Job → Job → Ordering) :
    s.ListsJobs (sortBy order (s.inventory.jobs.values.filter p)) := by
  refine ⟨?_, fun j hj => ?_⟩
  · refine ((sortBy_perm _).map _).nodup_iff.2 (List.Nodup.sublist (List.filter_sublist.map _) ?_)
    rw [h.map_requestId]
    exact Table.nodup_keys _
  · have hvalue := (List.mem_filter.1 ((sortBy_perm _).mem_iff.1 hj)).1
    obtain ⟨r, hr⟩ := Table.mem_values.1 hvalue
    rwa [h.jobs r j hr]

theorem Site.ListsJobs.aside {l : List Job} (h : s.ListsJobs l) (a : Aside s s') : s'.ListsJobs l := by
  cases a
  exact ⟨h.nodup, h.kept⟩

theorem Site.ListsJobs.tail {j : Job} {rest : List Job} (h : s.ListsJobs (j :: rest)) :
    s.ListsJobs rest :=
  ⟨(List.nodup_cons.1 h.nodup).2, fun k hk => h.kept k (.tail _ hk)⟩

/-- The other jobs on the list stay as they are listed. -/
theorem Site.ListsJobs.saveJob {j j' : Job} {rest : List Job} (h : s.ListsJobs (j :: rest))
    (inventory : s'.inventory = s.inventory.saveJob j') (id : j'.requestId = j.requestId) :
    s'.ListsJobs rest := by
  refine ⟨h.tail.nodup, fun k hk => ?_⟩
  have hne : k.requestId ≠ j'.requestId := fun heq =>
    (List.nodup_cons.1 h.nodup).1 (id ▸ heq ▸ List.mem_map_of_mem hk)
  rw [inventory, Inventory.get?_saveJob_of_ne _ hne]
  exact h.tail.kept k hk

namespace Jobs

/-! ### Bringing jobs forward -/

/-- A job is kept that has the manifest of another. -/
def KeepsManifest (s : Site) (job : Job) : Prop :=
  ∃ j, s.inventory.jobs.get? job.requestId = some j ∧ j.manifest = job.manifest

theorem KeepsManifest.course {job : Job} (h : KeepsManifest s job) (c : Course s s') :
    KeepsManifest s' job := by
  obtain ⟨j, hj, hm⟩ := h
  obtain ⟨j', hj', hm'⟩ := c.keepsManifests _ j hj
  exact ⟨j', hj', hm'.trans hm⟩

theorem errands_reportFailure (h : s.Sound) (r : RequestId) (message : String) (p : Report) :
    (reportFailure r message p).Within Errand s :=
  .bind (errands_fail h r message) fun _ s₁ _ => .pure _ s₁

theorem errands_advance (h : s.Sound) {job : Job} (same : KeepsManifest s job) (p : Report) :
    (advance job p).Within Errand s := by
  have hretrievable := not_catalogue_of_retrievable job
  have hassessed := leads_assessEntries job.requestId true job.retrievable false h.secluded h.balanced
    hretrievable
  have herrands := errands_assessEntries job.requestId true job.retrievable false h hretrievable
  simp only [Within, advance, assess, leads_bind]
  refine (hassessed.and herrands).mono (fun _ _ hr => hr.2) ?_
  rintro result s₁ ⟨hassessed, c⟩
  refine Within.after ?_ c
  have h₁ : s₁.Sound := Errands.sound c h
  cases result with
  | ready =>
    refine .bind (errands_promote h₁ job.requestId fun j hj => ?_) fun _ s₂ _ => .pure _ s₂
    obtain ⟨j', hj', hm⟩ := same
    rw [hassessed.course.frame.jobs, hj'] at hj
    cases hj
    rw [Job.retrievable, hm]
    exact (hassessed.ready rfl).2.2
  | failed message => exact errands_reportFailure h₁ _ message p
  | waiting =>
    refine .bind (.get s₁) fun _ s₂ c₂ => ?_
    rw [Within, leads_bind, leads_now]
    refine leads_ite.2 ⟨fun _ => errands_reportFailure (Errands.sound c₂ h₁) _ _ p, fun _ => ?_⟩
    rw [leads_pure]

theorem errands_advanceAll : ∀ (l : List Job) (p : Report) {s : Site}, s.Sound →
    (∀ job ∈ l, KeepsManifest s job) → (advanceAll l p).Within Errand s
  | [], p, s, h, hl => .pure p s
  | job :: rest, p, s, h, hl => by
    have hnext : ∀ p {s₁}, Errands s s₁ → (advanceAll rest p).Within Errand s₁ := fun p s₁ c =>
      errands_advanceAll rest p (c.sound h) fun job' hjob' =>
        (hl job' (.tail _ hjob')).course (c.course h)
    refine .bind (.attempt (errands_advance h (hl job (.head _)) p)) fun result s₁ c => ?_
    cases result with
    | ok p => exact hnext p c
    | error _ => exact hnext p c

/-! ### Expiring -/

theorem errands_expireAll (time : Instant) : ∀ (l : List Job) (p : Report) {s : Site}, s.Sound →
    s.clock.now = time → s.ListsJobs l → (expireAll time l p).Within Errand s
  | [], p, s, h, ht, hl => .pure p s
  | job :: rest, p, s, h, ht, hl => by
    simp only [Within, expireAll]
    refine leads_ite.2 ⟨fun _ => errands_expireAll time rest p h ht hl.tail, fun hover => ?_⟩
    have hover : job.isExpiredAt time = true := by simpa using hover
    simp only [apply, leads_bind]
    refine (leads_find h.secluded job.requestId).mono (fun _ _ hr => hr.1.errands) ?_
    rintro j s₁ ⟨hj, ha⟩
    obtain rfl : j = job := Option.some.inj (hj.symm.trans (hl.kept job (.head _)))
    have h₁ := ha.errands.sound h
    have ht₁ : s₁.clock.now = time := by cases ha; exact ht
    split
    · simp only [leads_pure]
      exact (errands_expireAll time rest p h₁ ht₁ (hl.aside ha).tail).after ha.errands
    next hready =>
    have hready : j.status = .ready := by simpa using hready
    simp only [leads_bind, leads_pure]
    refine leads_move.2 ⟨fun _ => ?_, fun _ => ha.errands⟩
    refine leads_saveJob_tell h₁.secluded _ (fun s₂ ha' => ?_)
      (fun _ s₂ _ ha' => (ha.trans ha').errands) fun s₂ s₃ ha' c hinventory hclock => ?_
    · have hkept : s₂.inventory.jobs.get? j.requestId = some j := by
        rw [jobs_aside (ha.trans ha')]
        exact hj
      have ht₂ : s₂.clock.now = time := by cases ha'; exact ht₁
      subst ht₂
      exact .expired (j := j) hkept hready hover
    · have c : Errands s s₃ := (ha.trans ha').errands.tail (.pursued (.job c))
      refine (errands_expireAll time rest _ (c.sound h) (hclock ▸ ht₁) ?_).after c
      exact (hl.aside ha).saveJob hinventory rfl

theorem errands_poll (h : s.Sound) : poll.Within Errand s := by
  simp only [Within, poll, leads_bind, leads_now]
  refine (Records.leads_findByStatus .preparing s).mono (fun _ _ hr => hr.2.errands) ?_
  rintro l s₁ ⟨hl, ha⟩
  have hlists : s₁.ListsJobs l := by
    rw [hl]
    exact (h.balanced.named.listsJobs _ _).aside ha
  have hadvance := errands_advanceAll l {} (ha.errands.sound h) fun job hjob =>
    ⟨job, hlists.kept job hjob, rfl⟩
  refine (hadvance.after ha.errands).mono (fun _ _ c => c) fun p s₂ c => ?_
  have h₂ : s₂.Sound := Errands.sound c h
  refine (Records.leads_findByStatus .ready s₂).mono (fun _ _ hr => c.trans hr.2.errands) ?_
  rintro l' s₃ ⟨hl', ha'⟩
  refine (errands_expireAll _ l' p (ha'.errands.sound h₂) ?_ ?_).after (c.trans ha'.errands)
  · cases ha'
    rfl
  · rw [hl']
    exact (h₂.balanced.named.listsJobs _ _).aside ha'

/-! ### Cancellation -/

theorem errands_cancelAmong (time : Instant) : ∀ (l : List Job) {s : Site}, s.Sound →
    s.clock.now = time → s.ListsJobs l → (∀ j ∈ l, j.isExpiredAt time = false) →
      (cancelAmong time l).Within Errand s
  | [], s, h, ht, hl, hunexpired => .pure 0 s
  | j :: rest, s, h, ht, hl, hunexpired => by
    have hrest : ∀ k ∈ rest, k.isExpiredAt time = false := fun k hk => hunexpired k (.tail _ hk)
    simp only [Within, cancelAmong]
    refine leads_ite.2 ⟨fun _ => errands_cancelAmong time rest h ht hl.tail hrest, fun hlive => ?_⟩
    have hlive : j.status.isLive = true := by simpa using hlive
    simp only [leads_bind, leads_pure]
    refine leads_move.2 ⟨fun _ => ?_, fun hnot => ?_⟩
    · refine leads_saveJob_tell h.secluded _ (fun s₁ ha => ?_) (fun _ s₁ _ ha => ha.errands)
        fun s₁ s₂ ha c hinventory hclock => ?_
      · have ht₁ : s₁.clock.now = time := by cases ha; exact ht
        subst ht₁
        exact .cancelled (j := j) ((hl.aside ha).kept j (.head _)) hlive (hunexpired j (.head _))
      · have c : Errands s s₂ := ha.errands.tail (.pursued (.job c))
        refine (errands_cancelAmong time rest (c.sound h) (hclock ▸ ht) ?_ hrest).after c
        exact hl.saveJob hinventory rfl
    · cases (JobStatus.canBecome_cancelled hlive).symm.trans hnot

theorem errands_cancelAll (h : s.Sound) : cancelAll.Within Errand s := by
  simp only [Within, cancelAll, leads_bind, leads_now]
  refine (Records.leads_findUnexpired s.clock.now s).mono (fun _ _ hr => hr.2.errands) ?_
  rintro l s₁ ⟨hl, ha⟩
  refine (errands_cancelAmong s.clock.now l (ha.errands.sound h) ?_ ?_ fun j hj => ?_).after ha.errands
  · cases ha
    rfl
  · rw [hl]
    exact (h.balanced.named.listsJobs _ _).aside ha
  · exact (Inventory.mem_unexpiredAt.1 (hl ▸ hj)).2

end Jobs

/-! ### Warnings -/

/-- Something that a call for warnings does. -/
inductive Remark : Site → Site → Prop
  | aside {s s' : Site} (h : Aside s s') : Remark s s'
  | warned {s : Site} (requests : KeySet RequestId) : Remark s { s with warned := requests }
  | told {s : Site} (r : RequestId) (expiry : Instant) :
      Remark s { s with log := s.log ++ [.told (.expiringSoon r expiry)] }

/-- All that a call for warnings does. -/
abbrev Remarks : Site → Site → Prop := Relation.ReflTransGen Remark

theorem Remark.change (c : Remark s s') : Change s s' := by
  cases c with
  | aside h => exact .file (.evict (.aside h))
  | warned requests => exact .warned requests
  | told r expiry => exact .told r expiry

theorem Remarks.course (c : Remarks s s') : Course s s' :=
  Relation.ReflTransGen.mono (fun _ _ c => c.change) _ _ c

namespace Warnings

theorem leads_warnAll : ∀ (l : List Job) {s : Site}, s.Secluded → (warnAll l).Within Remark s
  | [], s, h => .pure 0 s
  | j :: rest, s, h => by
    simp only [Within, warnAll]
    split
    · exact leads_warnAll rest h
    next expiry _ =>
    rw [leads_bind, leads_get]
    refine leads_ite.2 ⟨fun _ => leads_warnAll rest h, fun _ => ?_⟩
    have hwarned : ({ s with warned := s.warned.add j.requestId } : Site).Secluded :=
      h.of_same rfl rfl rfl
    simp only [leads_bind, leads_modify, leads_pure]
    rw [leads_tell hwarned]
    have hc : Remarks s { s with
        warned := s.warned.add j.requestId
        log := s.log ++ [.told (.expiringSoon j.requestId expiry)] } :=
      (Relation.ReflTransGen.single (.warned (s.warned.add j.requestId))).tail (.told _ _)
    exact (leads_warnAll rest (hc.course.secluded h)).after hc

theorem leads_notify (h : s.Secluded) (windowMs : Int) : (notify windowMs).Within Remark s := by
  simp only [Within, notify, nearExpiry, forgetOthers, leads_bind, leads_now, leads_pure,
    leads_modify]
  refine (Records.leads_findExpiring _ _ s).mono (fun _ _ hr => .single (.aside hr.2)) ?_
  rintro l s₁ ⟨-, ha⟩
  have h₁ := h.aside ha
  have hwarn : ∀ warned jobs, Leads (warnAll jobs) (fun _ s' => Remarks s s') (fun _ s' => Remarks s s')
      { s₁ with warned := warned } := by
    intro warned jobs
    refine Within.after ?_ ((Relation.ReflTransGen.single (.aside ha)).tail (.warned warned))
    exact leads_warnAll jobs (h₁.of_same rfl rfl rfl)
  exact hwarn _ _

end Warnings

/-! ### Affairs -/

/-- **An errand, or a call that warns of expiries.** -/
inductive Affair : Site → Site → Prop
  | errand {s s' : Site} (h : Errand s s') : Affair s s'
  | notified {s : Site} (windowMs : Int) : Affair s ((Warnings.notify windowMs).after s)

/-- A course of affairs. -/
abbrev Affairs : Site → Site → Prop := Relation.ReflTransGen Affair

theorem Errands.affairs (c : Errands s s') : Affairs s s' :=
  Relation.ReflTransGen.mono (fun _ _ e => .errand e) _ _ c

theorem Affair.remarks (h : s.Secluded) (windowMs : Int) :
    Remarks s ((Warnings.notify windowMs).after s) := Leads.after (Warnings.leads_notify h windowMs)

theorem Affair.course (a : Affair s s') (h : s.Sound) : Course s s' := by
  cases a with
  | errand e => exact e.course h
  | notified windowMs => exact (remarks h.secluded windowMs).course

namespace Affairs

/-- **Courses of affairs are courses of changes.** -/
theorem course (c : Affairs s s') (h : s.Sound) : Course s s' := by
  induction c with
  | refl => exact .refl
  | tail _ a ih => exact ih.trans (a.course (h.course ih))

theorem sound (c : Affairs s s') (h : s.Sound) : s'.Sound := h.course (c.course h)

end Affairs

/-- An operation that goes on in errands goes on in affairs. -/
theorem Act.Within.affairs {x : Act α} (h : x.Within Errand s) : x.Within Affair s :=
  h.mono fun _ c => Errands.affairs c

end Depot

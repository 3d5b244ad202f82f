import Depot.Proofs.Undertakings

/-!
# Runs of a depot

A run of a depot is any list of steps, one after the other. A step is something that the depot is asked
to do, a move that one of its tasks makes, in any order, or a change of its surroundings: its clock is
set, forward or backward, it is opened again, or other catalogues cannot be packaged. How calls of the
inventory are refused is part of the first site.

What the depot is asked to do is one step, from its beginning to its end: where it waits in between, for
the account or for a call of the inventory, no other step comes in. Only a transfer is taken in moves,
and each of them is a step of its own, so runs interleave whole operations with the moves of transfers.
What is said of every run holds between any two steps.

## Main statements

* `Step.undertakings`, `Step.history` — every step is made of undertakings, and so of single deeds, or it
  is the reopening of the depot.
* `Site.run_history` — every run is a history: a row of courses, creations and reopenings.
* `Site.run_induction`, `Site.run_induction_of_undertaking` — what deeds and reopenings keep, or
  undertakings and reopenings, every run keeps.
* `Site.Opened.balanced` — the books of a depot that has just been opened balance.
-/

namespace Depot

open Act Time

variable {s s' : Site}

/-! ### Steps -/

/-- What may come next in a run. -/
inductive Step
  | create (r : RequestId) (mode : DownloadMode) (manifest : List ManifestEntry)
  | pause (r : RequestId)
  | resume (r : RequestId)
  | poll
  | cancelAll
  | ensure (r : RequestId) (entry : ManifestEntry)
  | resumePending
  | reclaim (kb : UInt64)
  | purge
  | notify (windowMs : Int)
  /-- The task at a place makes its next move, whether or not that is due. -/
  | move (place : Nat)
  /-- All is done that is due within a span. -/
  | pass (millis : Nat)
  | wait (id : FileId)
  | serve (duties : List Duty) (millis : Nat)
  | setClock (clock : Clock)
  /-- The depot is opened again over its inventory, with other settings. -/
  | restart (settings : Settings)
  /-- From now on these catalogues cannot be packaged. -/
  | spoil (failures : Table FileId Failure)

/-- The next move of the task at a place, or round of the duty there. -/
def Passage.moveAt (place : Nat) : Act Unit := do
  match ← takeOff place with
  | none => return
  | some (.duty d _) =>
    makeRound d
    planRound d
  | some (.transfer t) =>
    let _ ← Transfers.advance t

namespace Step

/-- What is done in a step. -/
def act : Step → Act Unit
  | create r mode manifest => do let _ ← Jobs.create r mode manifest
  | pause r => do let _ ← Jobs.pause r
  | resume r => do let _ ← Jobs.resume r
  | poll => do let _ ← Jobs.poll
  | cancelAll => do let _ ← Jobs.cancelAll
  | ensure r entry => do let _ ← Transfers.ensure r entry
  | resumePending => do let _ ← Transfers.resumePending
  | reclaim kb => do let _ ← Room.reclaim kb
  | purge => do let _ ← Room.purge
  | notify windowMs => do let _ ← Warnings.notify windowMs
  | move place => Passage.moveAt place
  | pass millis => Passage.run millis
  | wait id => do let _ ← Passage.wait id
  | serve duties millis => Passage.serve duties millis
  | setClock clock => modify fun s => { s with clock := clock }
  | restart settings => do
    Opening.restart
    modify fun s => { s with settings := settings }
  | spoil failures =>
    modify fun s => { s with packager := s.packager.map fun p => { p with failures := failures } }

/-- The site after a step. -/
def take (step : Step) (s : Site) : Site := step.act.after s

/-- Whether a step is the creation of a job. -/
def creates : Step → Bool
  | create .. => true
  | _ => false

/-- Whether the depot is opened again in a step. -/
def reopens : Step → Bool
  | restart _ => true
  | _ => false

end Step

/-- The site after a run. -/
def Site.run (s : Site) (steps : List Step) : Site := steps.foldl (fun s step => step.take s) s

@[simp] theorem Site.run_nil (s : Site) : s.run [] = s := rfl

@[simp] theorem Site.run_cons (s : Site) (step : Step) (rest : List Step) :
    s.run (step :: rest) = (step.take s).run rest := rfl

theorem Site.run_append (s : Site) (l l' : List Step) : s.run (l ++ l') = (s.run l).run l' :=
  List.foldl_append

/-! ### What steps lead to -/

/-- A move of a transfer is an errand; only the round of a duty may be more. -/
theorem Passage.affairs_moveAt (h : s.Sound) (place : Nat) : (moveAt place).Within Affair s := by
  rw [Within, moveAt, leads_bind, leads_takeOff]
  cases ht : s.tasks[place]? with
  | none => rw [leads_pure, List.eraseIdx_of_length_le (List.getElem?_eq_none_iff.1 ht)]
  | some task =>
    cases task with
    | duty d round =>
      have c : Affairs s _ := .single (.errand (errand_eraseIdx_duty ht))
      refine Within.after (.bind (affairs_makeRound (c.sound h) d) fun _ s₁ _ => ?_) c
      exact (errands_planRound d s₁).affairs
    | transfer t =>
      simp only [leads_bind, leads_pure]
      exact (leads_moveAt h ht).mono (fun _ _ hfalse => hfalse.elim) fun _ _ hm => hm.errands.affairs

/-- Every step of an open depot that is not the creation of a job is done in affairs. -/
theorem Step.affairs (h : s.Sound) : ∀ {step : Step}, step.creates = false → step.reopens = false →
    step.act.Within Affair s := by
  have herrands : ∀ {α : Type} {x : Act α}, x.Within Errand s →
      (do let _ ← x : Act Unit).Within Affair s := fun hx => (Within.discard hx).affairs
  intro step hstep hopen
  cases step with
  | create => cases hstep
  | pause r => exact herrands (Jobs.errands_administer h r (.inl rfl))
  | resume r => exact herrands (Jobs.errands_administer h r (.inr rfl))
  | poll => exact herrands (Jobs.errands_poll h)
  | cancelAll => exact herrands (Jobs.errands_cancelAll h)
  | ensure r entry =>
    refine herrands ?_
    cases hkind : entry.kind.isCatalogue with
    | true => rw [Within, Transfers.ensure, hkind, if_pos rfl, leads_bind, leads_throw]
    | false => exact .whole (.asked r entry hkind)
  | resumePending => exact herrands (Transfers.errands_resumePending h)
  | reclaim kb =>
    exact herrands ((Room.leads_evict h.secluded h.balanced.named (some kb)).mono
      (fun _ _ hr => hr.2.errands) fun _ _ hr => hr.1.errands)
  | purge =>
    exact herrands ((Room.leads_evict h.secluded h.balanced.named none).mono
      (fun _ _ hr => hr.2.errands) fun _ _ hr => hr.1.errands)
  | notify windowMs => exact Within.discard (.whole (.notified windowMs))
  | move place => exact Passage.affairs_moveAt h place
  | pass millis => exact (Passage.errands_run h millis).affairs
  | wait id => exact herrands (Passage.errands_wait h id)
  | serve duties millis => exact Passage.affairs_serve h duties millis
  | setClock clock => exact .modify (.single (.errand (.clocked clock)))
  | restart => cases hopen
  | spoil failures => exact .modify (.single (.errand (.spoiled failures)))

/-- A step of an open depot that is not the creation of a job is a course of changes. -/
theorem Step.course (h : s.Sound) {step : Step} (hstep : step.creates = false)
    (hopen : step.reopens = false) : Course s (step.take s) :=
  Affairs.course (Leads.after (Step.affairs h hstep hopen)) h

/-- **Every step of an open depot is made of undertakings.** -/
theorem Step.undertakings (h : s.Sound) {step : Step} (hopen : step.reopens = false) :
    Undertakings s (step.take s) := by
  cases hstep : step.creates with
  | false => exact Leads.after (Step.affairs h hstep hopen).undertakings
  | true =>
    cases step with
    | create r mode manifest => exact Leads.after (Jobs.undertakings_create h r mode manifest).discard
    | _ => cases hstep

/-- A depot is opened again, or nothing has happened. -/
theorem Step.restarted (h : s.Secluded) (settings : Settings) :
    Aside s ((restart settings).take s) ∨
      ∃ s₁, Aside s s₁ ∧ (restart settings).take s = s₁.reopen settings := by
  have hleads : Leads (restart settings).act
      (fun _ s' => Aside s s' ∨ ∃ s₁, Aside s s₁ ∧ s' = s₁.reopen settings)
      (fun _ s' => Aside s s' ∨ ∃ s₁, Aside s s₁ ∧ s' = s₁.reopen settings) s := by
    simp only [act, leads_bind, leads_modify]
    refine (Opening.leads_restart h).mono (fun _ _ ha => .inl ha) ?_
    rintro _ s₁ ⟨s₂, ha, rfl⟩
    exact .inr ⟨s₂, ha, rfl⟩
  exact hleads.after

/-- The creation of a job goes as it should, or nothing has happened. -/
theorem Step.creation (h : s.Sound) (r : RequestId) (mode : DownloadMode)
    (manifest : List ManifestEntry) :
    Aside s ((create r mode manifest).take s) ∨
      Jobs.Creation (Job.create r mode manifest s.clock.now) ((Jobs.create r mode manifest).answer s) s
        ((create r mode manifest).take s) := by
  have hcreate := (Jobs.leads_create h.secluded h.balanced r mode manifest).and
    (leads_answer (Jobs.create r mode manifest) s)
  have hleads : Leads (create r mode manifest).act
      (fun _ s' => Aside s s' ∨ Jobs.Creation (Job.create r mode manifest s.clock.now)
        ((Jobs.create r mode manifest).answer s) s s')
      (fun _ s' => Aside s s' ∨ Jobs.Creation (Job.create r mode manifest s.clock.now)
        ((Jobs.create r mode manifest).answer s) s s') s := by
    simp only [act, leads_bind, leads_pure]
    refine hcreate.mono (fun e s' ⟨hc, hanswer, _⟩ => ?_) fun j s' ⟨hc, hanswer, _⟩ => ?_
    · rw [hanswer]
      exact hc
    · rw [hanswer]
      exact .inr hc
  exact hleads.after

/-! ### All that happens in a run -/

theorem Jobs.Creation.sitting {r : RequestId} {mode : DownloadMode} {manifest : List ManifestEntry}
    {answer : Except Failure Job}
    (c : Creation (Job.create r mode manifest s.clock.now) answer s s') : Sitting s s' := by
  cases c with
  | @intro s₁ s₂ s₃ lost unknown aside packed goesOn =>
    have hclock : s.clock = s₁.clock := by cases aside; rfl
    have hunknown : s₁.inventory.jobs.get? r = none := by
      rw [jobs_aside aside]
      exact unknown
    rw [hclock] at packed
    have hcreated : Deed s₁ { s₁ with
        inventory := s₁.inventory.saveJob (Job.create r mode manifest s₁.clock.now) } :=
      .founding r (.created mode manifest hunknown)
    exact ((aside.course.sitting.tail hcreated).trans packed.founded.sitting).trans
      (goesOn.asked.course.sitting.trans goesOn.ended.course.sitting)

/-- **Every step of an open depot is made of single deeds.** -/
theorem Step.sitting (h : s.Sound) {step : Step} (hopen : step.reopens = false) :
    Sitting s (step.take s) := (Step.undertakings h hopen).sitting h

/-- **Every step is made of single events.** -/
theorem Step.history (h : s.Sound) (step : Step) : History s (step.take s) := by
  cases hopen : step.reopens with
  | false => exact (Step.sitting h hopen).history
  | true =>
    cases step with
    | restart settings =>
      rcases Step.restarted h.secluded settings with ha | ⟨s₁, ha, hs₁⟩
      · exact ha.course.history
      · rw [hs₁]
        exact ha.course.history.tail (.reopened settings)
    | _ => cases hopen

/-- A run of a sound depot is made of single events. -/
theorem Site.run_history (h : s.Sound) (steps : List Step) : History s (s.run steps) := by
  induction steps generalizing s with
  | nil => exact .refl
  | cons step rest ih =>
    have hstep := Step.history h step
    exact hstep.trans (ih (h.history hstep))

/-- **What every change keeps, every creation of a job, and every reopening with such settings, every run
keeps** that reopens the depot only with such. -/
theorem Site.run_induction_of_creation {P : Site → Prop} {Permitted : Settings → Prop}
    (change : ∀ {s s' : Site}, s.Sound → Change s s' → P s → P s')
    (creation : ∀ {s s' : Site} {r : RequestId} {mode : DownloadMode} {manifest : List ManifestEntry}
      {answer : Except Failure Job}, s.Sound →
        Jobs.Creation (Job.create r mode manifest s.clock.now) answer s s' → P s → P s')
    (reopened : ∀ {s : Site} {settings : Settings}, s.Sound → Permitted settings → P s →
      P (s.reopen settings))
    (h : s.Sound) (start : P s) (steps : List Step)
    (permitted : ∀ settings, .restart settings ∈ steps → Permitted settings) : P (s.run steps) := by
  have hcourse : ∀ {s s' : Site}, s.Sound → Course s s' → P s → P s' := by
    intro s s' h c hs
    induction c with
    | refl => exact hs
    | tail c d ih => exact change (h.course c) d ih
  induction steps generalizing s with
  | nil => exact start
  | cons step rest ih =>
    have hstep : P (step.take s) := by
      cases hopen : step.reopens with
      | true =>
        cases step with
        | restart settings =>
          rcases Step.restarted h.secluded settings with ha | ⟨s₁, ha, hs₁⟩
          · exact hcourse h ha.course start
          · rw [hs₁]
            exact reopened (h.course ha.course) (permitted settings (.head _)) (hcourse h ha.course start)
        | _ => cases hopen
      | false =>
      cases hcreates : step.creates with
      | false => exact hcourse h (Step.course h hcreates hopen) start
      | true =>
        cases step with
        | create r mode manifest =>
          rcases Step.creation h r mode manifest with ha | hc
          · exact hcourse h ha.course start
          · exact creation h hc start
        | _ => cases hcreates
    exact ih (h.history (Step.history h step)) hstep fun settings hmem =>
      permitted settings (.tail _ hmem)

/-- **What every undertaking keeps, and every reopening with such settings, every run keeps** that reopens
the depot only with such. -/
theorem Site.run_induction_of_undertaking {P : Site → Prop} {Permitted : Settings → Prop}
    (undertaking : ∀ {s s' : Site}, s.Sound → Undertaking s s' → P s → P s')
    (reopened : ∀ {s : Site} {settings : Settings}, s.Sound → Permitted settings → P s →
      P (s.reopen settings))
    (h : s.Sound) (start : P s) (steps : List Step)
    (permitted : ∀ settings, .restart settings ∈ steps → Permitted settings) : P (s.run steps) := by
  have hall : ∀ {s s' : Site}, s.Sound → Undertakings s s' → P s → P s' := by
    intro s s' h c hs
    induction c with
    | refl => exact hs
    | tail c u ih => exact undertaking (Undertakings.sound c h) u ih
  induction steps generalizing s with
  | nil => exact start
  | cons step rest ih =>
    have hstep : P (step.take s) := by
      cases hopen : step.reopens with
      | true =>
        cases step with
        | restart settings =>
          rcases Step.restarted h.secluded settings with ha | ⟨s₁, ha, hs₁⟩
          · exact hall h ha.errands.undertakings start
          · rw [hs₁]
            exact reopened (ha.errands.sound h) (permitted settings (.head _))
              (hall h ha.errands.undertakings start)
        | _ => cases hopen
      | false => exact hall h (Step.undertakings h hopen) start
    exact ih (h.history (Step.history h step)) hstep fun settings hmem =>
      permitted settings (.tail _ hmem)

/-- **What every deed keeps, and every reopening with such settings, every run keeps** that reopens the
depot only with such. -/
theorem Site.run_induction {P : Site → Prop} {Permitted : Settings → Prop}
    (deed : ∀ {s s' : Site}, s.Sound → Deed s s' → P s → P s')
    (reopened : ∀ {s : Site} {settings : Settings}, s.Sound → Permitted settings → P s →
      P (s.reopen settings))
    (h : s.Sound) (start : P s) (steps : List Step)
    (permitted : ∀ settings, .restart settings ∈ steps → Permitted settings) : P (s.run steps) := by
  have hsitting : ∀ {s s' : Site}, s.Sound → Sitting s s' → P s → P s' := by
    intro s s' h c hs
    induction c with
    | refl => exact hs
    | tail c d ih => exact deed (h.history (Sitting.history c)) d ih
  exact run_induction_of_creation (fun h c => deed h (.change c)) (fun h c => hsitting h c.sitting)
    reopened h start steps permitted

/-- The packager meddles with jobs as it did in the beginning. -/
theorem Site.Interferes.deed {status : JobStatus} (d : Deed s s') (h : s'.Interferes status) :
    s.Interferes status := by
  obtain ⟨p, id, hp, hid⟩ := h
  cases d with
  | change c =>
    cases c with
    | file c => exact ⟨p, id, (FileCourse.frame (.single c)).packager ▸ hp, hid⟩
    | transfer c => cases c <;> exact ⟨p, id, hp, hid⟩
    | job c => cases c <;> exact ⟨p, id, hp, hid⟩
    | spoiled failures =>
      obtain ⟨q, hq, rfl⟩ := Option.map_eq_some_iff.1 hp
      exact ⟨q, id, hq, hid⟩
    | warned | told | clocked | duties => exact ⟨p, id, hp, hid⟩
  | founding r c => cases c <;> exact ⟨p, id, hp, hid⟩

theorem Site.Interferes.event {status : JobStatus} (e : Event s s') (h : s'.Interferes status) :
    s.Interferes status := by
  cases e with
  | deed d => exact h.deed d
  | reopened => exact h

theorem Site.Interferes.history {status : JobStatus} (c : History s s') (h : s'.Interferes status) :
    s.Interferes status := by
  induction c with
  | refl => exact h
  | tail _ e ih => exact ih (h.event e)

theorem Site.Discreet.history (h : s.Discreet) (c : History s s') : s'.Discreet :=
  fun status hmeddles => h status (hmeddles.history c)

/-! ### What stays, and what is logged -/

/-- Settings change only when the depot is opened again. -/
theorem Deed.settings (d : Deed s s') : s'.settings = s.settings := by
  cases d with
  | change c =>
    cases c with
    | file c => exact (FileCourse.frame (.single c)).settings
    | transfer c => cases c <;> rfl
    | job c => cases c <;> rfl
    | warned | told | clocked | duties | spoiled => rfl
  | founding r c => cases c <;> rfl

theorem Sitting.settings (c : Sitting s s') : s'.settings = s.settings := by
  induction c with
  | refl => rfl
  | tail _ d ih => exact d.settings.trans ih

/-- A job keeps its manifest in every deed. -/
theorem Deed.keepsManifests (hn : s.inventory.Named) (d : Deed s s') :
    s.inventory.KeepsManifests s'.inventory := by
  cases d with
  | change c => exact c.keepsManifests
  | founding r c => exact (c.frame hn).manifests

/-- **A change that is none of a job** leaves jobs as they are, and nothing is logged of their steps. -/
theorem Change.job_or_quiet (c : Change s s') : JobChange s s' ∨
    s'.inventory.jobs = s.inventory.jobs ∧
      ∃ more, s'.log = s.log ++ more ∧ ∀ h ∈ more, ∀ r, h.status? r = none := by
  have hone : ∀ {h : Happening}, (∀ r, h.status? r = none) → ∀ h' ∈ [h], ∀ r, h'.status? r = none := by
    intro h hquiet h' hh'
    rw [List.mem_singleton.1 hh']
    exact hquiet
  have hnil : ∃ more, s.log = s.log ++ more ∧ ∀ h ∈ more, ∀ r, h.status? r = none :=
    ⟨[], (List.append_nil _).symm, fun h hh => by cases hh⟩
  cases c with
  | job c => exact .inl c
  | file c =>
    refine .inr ⟨(FileCourse.frame (.single c)).jobs, ?_⟩
    cases c with
    | evict e =>
      cases e with
      | aside a => cases a; exact hnil
      | evicted => exact ⟨_, rfl, hone fun _ => rfl⟩
    | queued => exact ⟨_, rfl, hone fun _ => rfl⟩
    | attached | detached | unlocked | strayed | extended => exact hnil
  | transfer c =>
    cases c with
    | moved tasks log same calls =>
      refine .inr ⟨rfl, log, rfl, fun h hh r => ?_⟩
      rcases calls with rfl | ⟨f, -, time, source, rfl⟩
      · cases hh
      · simp only [List.mem_cons, List.not_mem_nil, or_false] at hh
        rcases hh with rfl | rfl <;> rfl
    | arrived | givenUp | setBack | brokenOff => exact .inr ⟨rfl, _, rfl, hone fun _ => rfl⟩
  | told r expiry => exact .inr ⟨rfl, _, rfl, hone fun r' => ite_self none⟩
  | warned | clocked | duties | spoiled => exact .inr ⟨rfl, hnil⟩

/-- A file is evicted, with its record as it was kept. -/
structure Evicts (s s' : Site) (f : FileRecord) : Prop where
  kept : s.inventory.files.get? f.fileId = some f
  unlocked : ∃ u, f.unlockAt = some u ∧ u < s.clock.now
  unpinned : ∀ r ∈ s.inventory.referrers f.fileId, ∀ j, s.inventory.jobs.get? r = some j →
    j.status.isLive = false
  left : s'.inventory = s.inventory.deleteFile f.fileId
  logged : s'.log = s.log ++ [.evicted f s.clock.now (s.inventory.deleteFile f.fileId)]

/-- **A deed that evicts no file** logs no eviction. -/
theorem Deed.evicts_or_quiet (d : Deed s s') : (∃ f, Evicts s s' f) ∨
    ∃ more, s'.log = s.log ++ more ∧ ∀ h ∈ more, h.eviction? = none := by
  have hone : ∀ {h : Happening}, h.eviction? = none → ∀ h' ∈ [h], h'.eviction? = none := by
    intro h hquiet h' hh'
    rw [List.mem_singleton.1 hh']
    exact hquiet
  have hnil : ∃ more, s.log = s.log ++ more ∧ ∀ h ∈ more, h.eviction? = none :=
    ⟨[], (List.append_nil _).symm, fun h hh => by cases hh⟩
  cases d with
  | change c =>
    cases c with
    | file c =>
      cases c with
      | evict e =>
        cases e with
        | aside a => cases a; exact .inr hnil
        | @evicted f disk kept unlocked free unpinned =>
          exact .inl ⟨f, kept, unlocked, unpinned, rfl, rfl⟩
      | queued => exact .inr ⟨_, rfl, hone rfl⟩
      | attached | detached | unlocked | strayed | extended => exact .inr hnil
    | transfer c =>
      cases c with
      | moved tasks log same calls =>
        refine .inr ⟨log, rfl, ?_⟩
        rcases calls with rfl | ⟨f, -, time, source, rfl⟩ <;> simp [Happening.eviction?]
      | arrived | givenUp | setBack | brokenOff => exact .inr ⟨_, rfl, hone rfl⟩
    | job c =>
      cases c with
      | administered | failed | readied | expired | cancelled => exact .inr ⟨_, rfl, hone rfl⟩
    | told => exact .inr ⟨_, rfl, hone rfl⟩
    | warned | clocked | duties | spoiled => exact .inr hnil
  | founding r c =>
    cases c with
    | packaged => exact .inr ⟨_, rfl, hone rfl⟩
    | created | overwritten => exact .inr hnil

/-- Whether an entry of the log tells of the beginning of a call. -/
def Happening.isCall : Happening → Bool
  | .called .. => true
  | _ => false

/-- **What a deed logs**: nothing, one thing that is not a call, or a call for a file on its way, with its
record. -/
theorem Deed.logged (d : Deed s s') :
    s'.log = s.log ∨ (∃ h : Happening, h.isCall = false ∧ s'.log = s.log ++ [h]) ∨
      ∃ f ∈ s.carried, ∃ time source, s'.log = s.log ++
        [.called time f.fileId source, .begun f.fileId (s.inventory.files.get? f.fileId)] := by
  cases d with
  | change c =>
    cases c with
    | file c =>
      cases c with
      | evict e =>
        cases e with
        | aside a => cases a; exact .inl rfl
        | evicted => exact .inr (.inl ⟨_, rfl, rfl⟩)
      | queued => exact .inr (.inl ⟨_, rfl, rfl⟩)
      | attached | detached | unlocked | strayed | extended => exact .inl rfl
    | transfer c =>
      cases c with
      | moved tasks log same calls =>
        rcases calls with rfl | ⟨f, hf, time, source, rfl⟩
        · exact .inl (List.append_nil _)
        · exact .inr (.inr ⟨f, hf, time, source, rfl⟩)
      | arrived | givenUp | setBack | brokenOff => exact .inr (.inl ⟨_, rfl, rfl⟩)
    | job c =>
      cases c with
      | administered | failed | readied | expired | cancelled => exact .inr (.inl ⟨_, rfl, rfl⟩)
    | told => exact .inr (.inl ⟨_, rfl, rfl⟩)
    | warned | clocked | duties | spoiled => exact .inl rfl
  | founding r c =>
    cases c with
    | packaged => exact .inr (.inl ⟨_, rfl, rfl⟩)
    | created | overwritten => exact .inl rfl

/-- Nothing is ever struck from the log. -/
theorem Deed.log_prefix (d : Deed s s') : s.log <+: s'.log := by
  rcases d.logged with h | ⟨_, -, h⟩ | ⟨_, -, _, _, h⟩ <;> rw [h]
  · exact List.prefix_append _ _
  · exact List.prefix_append _ _

theorem History.log_prefix (c : History s s') : s.log <+: s'.log := by
  induction c with
  | refl => exact List.prefix_rfl
  | tail _ e ih =>
    cases e with
    | deed d => exact ih.trans d.log_prefix
    | reopened => exact ih

/-! ### The beginning of a run -/

/-- A depot that has just been opened: nothing is to be done, and what is taken up is what is there. -/
structure Site.Opened (s : Site) : Prop where
  tasks : s.tasks = []
  inFlight : s.inFlight = .empty
  account : s.account = { committed := s.inventory.availableKb }

/-- The books of a depot that has just been opened balance. -/
theorem Site.Opened.balanced (h : s.Opened) (hn : s.inventory.Named) : s.Balanced := by
  have hnone : ∀ f : FileRecord, f ∉ s.carried := by
    intro f hf
    rw [Site.carried, h.tasks] at hf
    cases hf
  refine ⟨hn, by rw [h.account], ?_, fun f hf => absurd hf (hnone f), fun f hf => absurd hf (hnone f),
    fun f hf => absurd hf (hnone f)⟩
  rw [Site.carried, h.tasks, h.account]
  exact .refl _

/-- A depot that has just been opened, where no call is refused, is calm. -/
theorem Site.Opened.calm (ho : s.Opened) (faultless : s.Faultless) : s.Calm := by
  refine ⟨faultless, fun id hid => ?_⟩
  rw [ho.inFlight] at hid
  cases hid

/-- A depot that has just been opened with nothing in it, in surroundings that make no trouble. -/
def Site.blank (settings : Settings) : Site := { settings := settings, clock := { hand := 0 } }

theorem Site.secluded_blank (settings : Settings) : (Site.blank settings).Secluded :=
  ⟨rfl, rfl, rfl, rfl, rfl⟩

theorem Site.opened_blank (settings : Settings) : (Site.blank settings).Opened := ⟨rfl, rfl, rfl⟩

end Depot

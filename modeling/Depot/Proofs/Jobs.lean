import Depot.Proofs.Lifecycle
import Depot.Proofs.Transfers
import Depot.Site.Jobs

/-!
# Single jobs

What the operations on one job lead to. All of them are courses of changes, whether they fail or not, and
none of them evicts a file: files that are there may be kept longer, and jobs are changed (`Pursuit`).

A job is read from the inventory before it is changed, and written after that. Nothing comes between, so
what is written replaces what was read.

## Main statements

* `Jobs.leads_fail` — a job that is being prepared ends in an error, unless a call is refused.
* `Jobs.leads_promote` — a job whose files are all there may be made ready.
* `Course.keepsManifests` — a job keeps its manifest, whatever happens.
-/

namespace Depot

open Act Time

variable {s s' : Site}

/-! ### Manifests -/

/-- A job is kept, with its manifest. -/
def Inventory.KeepsManifests (v v' : Inventory) : Prop :=
  ∀ r j, v.jobs.get? r = some j → ∃ j', v'.jobs.get? r = some j' ∧ j'.manifest = j.manifest

theorem Inventory.keepsManifests_of_eq {v v' : Inventory} (h : v'.jobs = v.jobs) :
    v.KeepsManifests v' := fun r j hj => ⟨j, by rw [h]; exact hj, rfl⟩

theorem Inventory.keepsManifests_saveJob {v : Inventory} {j j' : Job}
    (kept : v.jobs.get? j.requestId = some j) (id : j'.requestId = j.requestId)
    (manifest : j'.manifest = j.manifest) : v.KeepsManifests (v.saveJob j') := by
  intro r k hk
  rw [Inventory.get?_saveJob, id]
  split
  · next hr =>
    rw [hr, kept] at hk
    cases hk
    exact ⟨j', rfl, manifest⟩
  · exact ⟨k, hk, rfl⟩

theorem Change.keepsManifests (c : Change s s') : s.inventory.KeepsManifests s'.inventory := by
  cases c with
  | file c => exact Inventory.keepsManifests_of_eq (FileCourse.frame (.single c)).jobs
  | transfer c => cases c <;> exact Inventory.keepsManifests_of_eq rfl
  | job c =>
    obtain ⟨j, j', h, e⟩ := c.enters
    rw [e.written]
    exact Inventory.keepsManifests_saveJob e.kept e.goesOn.requestId e.goesOn.manifest
  | warned | told | clocked | duties | spoiled =>
    exact Inventory.keepsManifests_of_eq rfl

/-- A job keeps its manifest, whatever happens. -/
theorem Course.keepsManifests (h : Course s s') : s.inventory.KeepsManifests s'.inventory := by
  induction h with
  | refl => exact fun r j hj => ⟨j, hj, rfl⟩
  | tail _ c ih =>
    intro r j hj
    obtain ⟨j₁, hj₁, h₁⟩ := ih r j hj
    obtain ⟨j₂, hj₂, h₂⟩ := c.keepsManifests r j₁ hj₁
    exact ⟨j₂, hj₂, h₂.trans h₁⟩

/-! ### Courses without evictions -/

/-- A course of changes without an eviction. -/
structure Sparing (s s' : Site) : Prop where
  course : Course s s'
  spared : s'.evictions = s.evictions

namespace Sparing

theorem refl (s : Site) : Sparing s s := ⟨.refl, rfl⟩

theorem trans {s'' : Site} (h : Sparing s s') (h' : Sparing s' s'') : Sparing s s'' :=
  ⟨h.course.trans h'.course, h'.spared.trans h.spared⟩

theorem aside (h : Aside s s') : Sparing s s' := ⟨h.course, by cases h; rfl⟩

end Sparing

/-! ### Pursuits -/

/-- What is done for a job once its files have been asked for. -/
inductive Pursuit : Site → Site → Prop
  | aside {s s' : Site} (h : Aside s s') : Pursuit s s'
  | extended {s : Site} {f : FileRecord} (time : Instant)
      (kept : s.inventory.files.get? f.fileId = some f)
      (there : f.IsThere)
      (grounded : s.inFlight.contains f.fileId = false) :
      Pursuit s { s with inventory := s.inventory.saveFile (f.extendUnlock time) }
  | job {s s' : Site} (h : JobChange s s') : Pursuit s s'

/-- A course of pursuits. -/
abbrev Pursuits : Site → Site → Prop := Relation.ReflTransGen Pursuit

theorem Pursuit.change (c : Pursuit s s') : Change s s' := by
  cases c with
  | aside h => exact .file (.evict (.aside h))
  | extended time kept there grounded => exact .file (.extended time kept there grounded)
  | job h => exact .job h

theorem Pursuit.spared (c : Pursuit s s') : s'.evictions = s.evictions := by
  cases c with
  | aside h => cases h; rfl
  | extended => rfl
  | job h => cases h <;> exact Site.evictions_of_log rfl rfl

namespace Pursuits

theorem aside (h : Aside s s') : Pursuits s s' := .single (.aside h)

/-- No file is evicted. -/
theorem sparing (h : Pursuits s s') : Sparing s s' := by
  induction h with
  | refl => exact .refl _
  | tail _ c ih => exact ih.trans ⟨.single c.change, c.spared⟩

theorem course (h : Pursuits s s') : Course s s' := h.sparing.course

theorem secluded (h : Pursuits s s') (hs : s.Secluded) : s'.Secluded := h.course.secluded hs

theorem refused {e : Failure} (h : Pursuits s s') (hr : s'.Refused e) : s.Refused e :=
  h.course.refused hr

end Pursuits

/-! ### Telling -/

/-- Nobody who is told of a job leaves anything changed. -/
theorem Act.leads_tell {n : Notice} {E : Failure → Site → Prop} {Q : Unit → Site → Prop}
    (h : s.Secluded) : Leads (tell n) E Q s ↔ Q () { s with log := s.log ++ [.told n] } := by
  simp only [tell, leads_bind, leads_note, leads_get, h.unheard, Table.get?_empty, Option.getD_none,
    List.forM, leads_pure]

namespace Jobs

/-! ### Finding and moving jobs -/

theorem leads_find (h : s.Secluded) (r : RequestId) :
    Leads (find r) (fun e s' => Aside s s' ∧ (s.Refused e ∨ s.inventory.jobs.get? r = none))
      (fun j s' => s.inventory.jobs.get? r = some j ∧ Aside s s') s := by
  rw [find, leads_bind]
  refine (Records.leads_loadJob h r).mono (fun e s₁ ⟨hr, ha⟩ => ⟨ha, .inl hr⟩)
    fun found s₁ ⟨hfound, ha⟩ => ?_
  cases found with
  | none =>
    rw [leads_throw]
    exact ⟨ha, .inr hfound.symm⟩
  | some j =>
    rw [leads_pure]
    exact ⟨hfound.symm, ha⟩

theorem leads_move {j : Job} {next : JobStatus} {time : Instant} {E : Failure → Site → Prop}
    {Q : Job → Site → Prop} : Leads (move j next time) E Q s ↔
      (j.status.canBecome next = true → Q { j with status := next, modifiedAt := time } s) ∧
      (j.status.canBecome next = false →
        E (.invalidTransition j.requestId.text j.status next) s) := by
  rw [move, Job.move?]
  cases j.status.canBecome next with
  | true =>
    rw [if_pos rfl, leads_ok]
    exact ⟨fun h => ⟨fun _ => h, nofun⟩, fun h => h.1 rfl⟩
  | false =>
    rw [if_neg Bool.false_ne_true, leads_error]
    exact ⟨fun h => ⟨nofun, fun _ => h⟩, fun h => h.2 rfl⟩

/-- A job that is kept after what went on aside was kept before. -/
theorem jobs_aside (h : Aside s s') : s'.inventory = s.inventory := by cases h; rfl

/-- A job is written in place of what was read, and the change is told. -/
theorem leads_saveJob_tell (h : s.Secluded) (j : Job) {n : Notice} {E : Failure → Site → Prop}
    {Q : Unit → Site → Prop}
    (change : ∀ s₁, Aside s s₁ → JobChange s₁
      { s₁ with inventory := s₁.inventory.saveJob j, log := s₁.log ++ [.told n] })
    (refused : ∀ e s', s.Refused e → Aside s s' → E e s')
    (told : ∀ s₁ s', Aside s s₁ → JobChange s₁ s' → s'.inventory = s.inventory.saveJob j →
      s'.clock = s.clock → Q () s') :
    Leads (Records.saveJob j) E (fun _ => Leads (tell n) E Q) s := by
  refine (Records.leads_saveJob h j).mono (fun e s₁ ⟨hr, ha⟩ => refused e s₁ hr ha)
    fun _ s₁ ⟨s₂, ha, hs₁⟩ => ?_
  subst hs₁
  have h₂ := h.aside ha
  have hsaved : ({ s₂ with inventory := s₂.inventory.saveJob j } : Site).Secluded :=
    h₂.of_same rfl rfl rfl
  rw [leads_tell hsaved]
  refine told s₂ _ ha (change s₂ ha) ?_ ?_
  · rw [jobs_aside ha]
  · cases ha
    rfl

/-! ### Steps that an operator asks for -/

theorem leads_administer (h : s.Secluded) (hn : s.inventory.Named) (r : RequestId) {next : JobStatus}
    (either : next = .paused ∨ next = .preparing) :
    Leads (administer r next) (fun _ s' => Pursuits s s') (fun _ s' => Pursuits s s') s := by
  simp only [administer, apply, leads_bind, leads_now, leads_pure]
  refine (leads_find h r).mono (fun e s₁ ⟨ha, _⟩ => .aside ha) fun j s₁ ⟨hj, ha⟩ => ?_
  refine leads_move.2 ⟨fun hallowed => ?_, fun _ => .aside ha⟩
  refine (Records.leads_saveJob (h.aside ha) _).mono (fun e s₂ ⟨_, ha'⟩ => .aside (ha.trans ha'))
    fun _ s₂ ⟨s₃, ha', hs₂⟩ => ?_
  subst hs₂
  have hkept : s₃.inventory.jobs.get? j.requestId = some j := by
    rw [jobs_aside (ha.trans ha'), hn.jobs r j hj]
    exact hj
  have hclock : s.clock = s₃.clock := by cases ha.trans ha'; rfl
  rw [hclock]
  rw [leads_note]
  exact (Pursuits.aside (ha.trans ha')).tail (.job (.administered next hkept hallowed either))

/-! ### Failing -/

/-- A job that was being prepared has ended in an error. -/
def Ends (r : RequestId) (s s' : Site) : Prop :=
  ∀ j, s.inventory.jobs.get? r = some j → j.status = .preparing →
    ∃ j', s'.inventory.jobs.get? r = some j' ∧ j'.status = .error

/-- A job that is being prepared ends in an error, unless a call is refused. -/
theorem leads_fail (h : s.Secluded) (hn : s.inventory.Named) (r : RequestId) (message : String) :
    Leads (fail r message)
      (fun e s' => Pursuits s s' ∧ (s.Refused e ∨ s.inventory.jobs.get? r = none))
      (fun _ s' => Pursuits s s' ∧ Ends r s s') s := by
  simp only [fail, apply, leads_bind, leads_now]
  refine (leads_find h r).mono (fun e s₁ ⟨ha, he⟩ => ⟨.aside ha, he⟩) fun j s₁ ⟨hj, ha⟩ => ?_
  have hid : j.requestId = r := hn.jobs r j hj
  have h₁ := h.aside ha
  have hj₁ : s₁.inventory.jobs.get? r = some j := by rw [jobs_aside ha]; exact hj
  split
  · next hstatus =>
    -- It is prepared no longer: it is only looked up.
    simp only [leads_pure]
    refine (leads_find h₁ r).mono (fun e s₂ ⟨ha', he⟩ => ⟨.aside (ha.trans ha'), ?_⟩)
      fun k s₂ ⟨_, ha'⟩ => ⟨.aside (ha.trans ha'), fun k hk hpreparing => ?_⟩
    · refine he.imp (fun hr => hr.aside ha) fun hnone => ?_
      rw [hj₁] at hnone
      cases hnone
    · rw [hj] at hk
      cases hk
      exact absurd hpreparing hstatus
  · next hstatus =>
    have hpreparing : j.status = .preparing := by simpa using hstatus
    simp only [leads_bind, leads_pure]
    refine leads_move.2 ⟨fun _ => ?_, fun hnot => by rw [hpreparing] at hnot; cases hnot⟩
    refine leads_saveJob_tell h₁ _ (fun s₂ ha' => ?_) (fun e s₂ hr ha' => ?_)
      fun s₂ s₃ ha' hc hinventory _ => ?_
    · have hkept : s₂.inventory.jobs.get? j.requestId = some j := by
        rw [jobs_aside ha', hid]
        exact hj₁
      have hclock : s.clock = s₂.clock := by cases ha.trans ha'; rfl
      rw [hclock]
      exact .failed (j := j) message hkept hpreparing
    · exact ⟨.aside (ha.trans ha'), .inl (hr.aside ha)⟩
    · have hstored := s₁.inventory.get?_saveJob
        { j with status := .error, modifiedAt := s.clock.now, errorMessage := some message } r
      rw [← hinventory, if_pos hid.symm] at hstored
      exact ⟨(Pursuits.aside (ha.trans ha')).tail (.job hc), fun k _ _ => ⟨_, hstored, rfl⟩⟩

/-! ### Promoting -/

/-- The files of entries are there for a request, and none of them is in flight. -/
def AllHeld (r : RequestId) (l : List ManifestEntry) (s : Site) : Prop :=
  ∀ e ∈ l, s.inventory.Holds r e.fileId ∧ s.inFlight.contains e.fileId = false

theorem AllHeld.aside {r : RequestId} {l : List ManifestEntry} (h : AllHeld r l s) (a : Aside s s') :
    AllHeld r l s' := by
  cases a
  exact h

/-- What is kept longer changes in nothing else. -/
structure Lengthened (s s' : Site) : Prop where
  pursuits : Pursuits s s'
  jobs : s'.inventory.jobs = s.inventory.jobs
  inFlight : s'.inFlight = s.inFlight
  clock : s'.clock = s.clock
  settings : s'.settings = s.settings
  holds : ∀ r id, s.inventory.Holds r id → s'.inventory.Holds r id
  holdsUntil : ∀ r id time,
    s.inventory.HoldsUntil r id time → s'.inventory.HoldsUntil r id time

namespace Lengthened

theorem aside (h : Aside s s') : Lengthened s s' := by
  cases h with
  | intro faults disk supply goOn =>
    exact ⟨.aside (.intro faults disk supply goOn), rfl, rfl, rfl, rfl, fun _ _ h => h,
      fun _ _ _ h => h⟩

theorem trans {s'' : Site} (h : Lengthened s s') (h' : Lengthened s' s'') : Lengthened s s'' :=
  ⟨h.pursuits.trans h'.pursuits, h'.jobs.trans h.jobs, h'.inFlight.trans h.inFlight,
    h'.clock.trans h.clock, h'.settings.trans h.settings,
    fun r id hr => h'.holds r id (h.holds r id hr),
    fun r id time hr => h'.holdsUntil r id time (h.holdsUntil r id time hr)⟩

/-- A file that is there is kept longer, and is still there. -/
theorem extendUnlock {f : FileRecord} (time : Instant)
    (kept : s.inventory.files.get? f.fileId = some f) (there : f.IsThere)
    (grounded : s.inFlight.contains f.fileId = false) :
    Lengthened s { s with inventory := s.inventory.saveFile (f.extendUnlock time) } := by
  have hsaved : ∀ id, (s.inventory.saveFile (f.extendUnlock time)).files.get? id =
      if id = f.fileId then some (f.extendUnlock time) else s.inventory.files.get? id :=
    fun id => Inventory.get?_saveFile ..
  have hthere : (f.extendUnlock time).IsThere := ⟨there.available, there.sized, there.sound⟩
  refine ⟨.single (.extended time kept there grounded), rfl, rfl, rfl, rfl, ?_, ?_⟩
  · intro r id ⟨hr, g, hg, hg'⟩
    refine ⟨hr, ?_⟩
    dsimp only
    rw [hsaved]
    split
    · exact ⟨_, rfl, hthere⟩
    · exact ⟨g, hg, hg'⟩
  · intro r id time' ⟨hr, g, u, hg, hg', hu, hle⟩
    refine ⟨hr, ?_⟩
    dsimp only
    rw [hsaved]
    split
    · next hid =>
      rw [hid, kept] at hg
      cases hg
      obtain ⟨u', hu', -, hcurrent⟩ := f.unlockAt_extendUnlock time
      exact ⟨_, u', rfl, hthere, hu', Int.le_trans hle (hcurrent u hu)⟩
    · exact ⟨g, u, hg, hg', hu, hle⟩

/-- What went on aside beforehand makes no difference. -/
theorem extendUnlock_of_aside {f : FileRecord} (time : Instant) (a : Aside s s')
    (kept : s.inventory.files.get? f.fileId = some f) (there : f.IsThere)
    (grounded : s.inFlight.contains f.fileId = false) :
    Lengthened s { s' with inventory := s'.inventory.saveFile (f.extendUnlock time) } := by
  refine (aside a).trans (extendUnlock time ?_ there ?_)
  · rw [jobs_aside a]
    exact kept
  · rw [(aside a).inFlight]
    exact grounded

end Lengthened

/-- Files that are there are kept until a time, and still there. -/
theorem leads_keepUntil (r : RequestId) (time : Instant) : ∀ (l : List ManifestEntry) {s : Site},
    s.Secluded → s.inventory.Named → AllHeld r l s →
      Leads (keepUntil time l) (fun e s' => s.Refused e ∧ Pursuits s s')
        (fun _ s' => Lengthened s s' ∧ ∀ e ∈ l, s'.inventory.HoldsUntil r e.fileId time) s
  | [], s, h, hn, hl => by
    rw [keepUntil, leads_pure]
    exact ⟨.aside (.refl s), fun e he => by cases he⟩
  | e :: rest, s, h, hn, hl => by
    obtain ⟨⟨hrefers, f, hf, hthere⟩, hgrounded⟩ := hl e (.head _)
    have hid : f.fileId = e.fileId := hn.files _ f hf
    simp only [keepUntil, leads_bind]
    refine (Records.leads_loadFile h e.fileId).mono (fun _ s₁ ⟨hr, ha⟩ => ⟨hr, .aside ha⟩)
      fun found s₁ ⟨hfound, ha⟩ => ?_
    rw [hf] at hfound
    subst hfound
    simp only [leads_bind]
    refine (Records.leads_saveFile (h.aside ha) _).mono
      (fun _ s₂ ⟨hr, ha'⟩ => ⟨hr.aside ha, .aside (ha.trans ha')⟩) fun _ s₂ ⟨s₃, ha', hs₂⟩ => ?_
    have hlong : Lengthened s s₂ := by
      subst hs₂
      rw [← hid] at hf hgrounded
      exact .extendUnlock_of_aside time (ha.trans ha') hf hthere hgrounded
    have hkept : s₂.inventory.HoldsUntil r e.fileId time := by
      obtain ⟨u, hu, hle, -⟩ := f.unlockAt_extendUnlock time
      subst hs₂
      rw [← hid, ← jobs_aside (ha.trans ha')] at hrefers
      rw [← hid]
      exact ⟨hrefers, f.extendUnlock time, u, Inventory.get?_saveFile_self ..,
        ⟨hthere.available, hthere.sized, hthere.sound⟩, hu, hle⟩
    have hnamed : s₂.inventory.Named := by
      subst hs₂
      dsimp only
      rw [jobs_aside (ha.trans ha')]
      exact hn.saveFile _
    have hrest : AllHeld r rest s₂ := fun e' he' =>
      ⟨hlong.holds _ _ (hl e' (.tail _ he')).1, by rw [hlong.inFlight]; exact (hl e' (.tail _ he')).2⟩
    refine (leads_keepUntil r time rest (hlong.pursuits.secluded h) hnamed hrest).mono
      (fun _ s₄ ⟨hr, hc⟩ => ⟨hlong.pursuits.refused hr, hlong.pursuits.trans hc⟩)
      fun _ s₄ ⟨hlong', hall⟩ => ⟨hlong.trans hlong', fun e' he' => ?_⟩
    rcases List.mem_cons.1 he' with rfl | he'
    · exact hlong'.holdsUntil _ _ _ hkept
    · exact hall e' he'

/-- A job whose files are all there may be made ready. -/
theorem leads_promote (h : s.Secluded) (hn : s.inventory.Named) (r : RequestId)
    (held : ∀ j, s.inventory.jobs.get? r = some j → AllHeld r j.retrievable s) :
    Leads (promote r) (fun _ s' => Pursuits s s') (fun _ s' => Pursuits s s') s := by
  simp only [promote, leads_bind, leads_now, leads_get]
  refine (leads_find h r).mono (fun _ s₁ ⟨ha, _⟩ => .aside ha) fun j s₁ ⟨hj, ha⟩ => ?_
  have hid : j.requestId = r := hn.jobs r j hj
  have hn₁ : s₁.inventory.Named := by rw [jobs_aside ha]; exact hn
  split
  · exact (leads_fail (h.aside ha) hn₁ r _).mono (fun _ s₂ ⟨hc, _⟩ => (Pursuits.aside ha).trans hc)
      fun _ s₂ ⟨hc, _⟩ => (Pursuits.aside ha).trans hc
  next expiry hexpiry =>
  simp only [apply, leads_bind]
  refine (leads_find (h.aside ha) r).mono (fun _ s₂ ⟨ha', _⟩ => .aside (ha.trans ha'))
    fun j' s₂ ⟨hj', ha'⟩ => ?_
  obtain rfl : j' = j := by rw [jobs_aside ha, hj] at hj'; exact (Option.some.inj hj').symm
  have haside := ha.trans ha'
  have h₂ := h.aside haside
  split
  · simp only [leads_pure]
    exact (leads_find h₂ r).mono (fun _ s₃ ⟨ha'', _⟩ => .aside (haside.trans ha''))
      fun _ s₃ ⟨_, ha''⟩ => .aside (haside.trans ha'')
  next hstatus =>
  have hpreparing : j'.status = .preparing := by simpa using hstatus
  have hn₂ : s₂.inventory.Named := by rw [jobs_aside haside]; exact hn
  simp only [leads_bind, leads_pure]
  refine (leads_keepUntil r expiry j'.retrievable h₂ hn₂ ((held j' hj).aside haside)).mono
    (fun _ s₃ ⟨_, hc⟩ => (Pursuits.aside haside).trans hc) fun _ s₃ ⟨hlong, hkept⟩ => ?_
  have hcourse : Pursuits s s₃ := (Pursuits.aside haside).trans hlong.pursuits
  refine leads_move.2 ⟨fun _ => ?_, fun _ => hcourse⟩
  refine leads_saveJob_tell (hcourse.secluded h) _ (fun s₄ ha'' => ?_)
    (fun _ s₄ _ ha'' => hcourse.tail (.aside ha''))
    fun s₄ s₅ ha'' hc _ _ => (hcourse.tail (.aside ha'')).tail (.job hc)
  have hsame := (Lengthened.aside haside).trans (hlong.trans (.aside ha''))
  rw [← hsame.clock]
  refine .readied (j := j') expiry ?_ hpreparing ?_ ?_ ?_
  · rw [hsame.jobs, hid]
    exact hj
  · rw [hsame.clock, hsame.settings]
    exact hexpiry
  · rw [jobs_aside ha'', hid]
    exact hkept
  · rw [hsame.inFlight]
    exact fun e he => (held j' hj e he).2

end Jobs

end Depot

import Depot.Proofs.Creation
import Depot.Proofs.Passage

/-!
# Undertakings

Whatever an open depot is asked to do is done in undertakings: affairs, and what happens while a job is
created. Between two of them the depot is in order, so an invariant that does not hold between two
changes may still hold between two undertakings.

## Main statements

* `Jobs.undertakings_create` — a job is created in undertakings.
* `Undertakings.sitting` — undertakings are made of single deeds.
-/

namespace Depot

open Act Time

variable {α : Type} {s s' : Site}

/-! ### What stays in every history -/

theorem Site.Secluded.deed (h : s.Secluded) (d : Deed s s') : s'.Secluded := by
  cases d with
  | change c => exact h.change c
  | founding r c => cases c <;> exact h.of_same rfl rfl rfl

theorem Site.Secluded.history (h : s.Secluded) (c : History s s') : s'.Secluded := by
  induction c with
  | refl => exact h
  | tail _ e ih =>
    cases e with
    | deed d => exact ih.deed d
    | reopened => exact ih.of_same rfl rfl rfl

theorem Site.Sound.history (h : s.Sound) (c : History s s') : s'.Sound :=
  ⟨h.secluded.history c, h.balanced.history c⟩

theorem Site.Calm.deed (h : s.Calm) (d : Deed s s') : s'.Calm := by
  cases d with
  | change c => exact h.change c
  | founding r c => cases c <;> exact ⟨h.faultless, h.flights⟩

/-- Where nothing is refused, whatever counts as on its way has a transfer. -/
theorem Site.Calm.history (h : s.Calm) (c : History s s') : s'.Calm := by
  induction c with
  | refl => exact h
  | tail _ e ih =>
    cases e with
    | deed d => exact ih.deed d
    | reopened => exact ⟨ih.faultless, fun id hid => by cases hid⟩

/-! ### Undertakings -/

/-- **An affair, or something that happens while a job is created.** -/
inductive Undertaking : Site → Site → Prop
  | affair {s s' : Site} (h : Affair s s') : Undertaking s s'
  | founding {s s' : Site} (r : RequestId) (h : Founding r s s') : Undertaking s s'

/-- A course of undertakings. -/
abbrev Undertakings : Site → Site → Prop := Relation.ReflTransGen Undertaking

theorem Affairs.undertakings (c : Affairs s s') : Undertakings s s' :=
  Relation.ReflTransGen.mono (fun _ _ a => .affair a) _ _ c

theorem Errands.undertakings (c : Errands s s') : Undertakings s s' := c.affairs.undertakings

theorem Founded.undertakings {r : RequestId} (c : Founded r s s') : Undertakings s s' :=
  Relation.ReflTransGen.mono (fun _ _ f => .founding r f) _ _ c

theorem Undertaking.sitting (u : Undertaking s s') (h : s.Sound) : Sitting s s' := by
  cases u with
  | affair a => exact (a.course h).sitting
  | founding r f => exact .single (.founding r f)

namespace Undertakings

/-- **Undertakings are made of single deeds.** -/
theorem sitting (c : Undertakings s s') (h : s.Sound) : Sitting s s' := by
  induction c with
  | refl => exact .refl
  | tail _ u ih => exact ih.trans (u.sitting (h.history ih.history))

theorem sound (c : Undertakings s s') (h : s.Sound) : s'.Sound := h.history (c.sitting h).history

end Undertakings

/-- An operation that goes on in affairs goes on in undertakings. -/
theorem Act.Within.undertakings {x : Act α} (h : x.Within Affair s) : x.Within Undertaking s :=
  h.mono fun _ c => Affairs.undertakings c

namespace Jobs

/-- A job that is stored, with its catalogues packaged, goes on in errands. -/
theorem errands_goOn (h : s.Sound) {job j : Job}
    (stored : s.inventory.jobs.get? job.requestId = some j) (manifest : j.manifest = job.manifest) :
    Within Errand (do
        match ← assess job false with
        | .ready => promote job.requestId
        | .failed message => fail job.requestId message
        | .waiting => find job.requestId) s := by
  have hretrievable := not_catalogue_of_retrievable job
  have hassessed := leads_assessEntries job.requestId false job.retrievable false h.secluded h.balanced
    hretrievable
  have herrands := errands_assessEntries job.requestId false job.retrievable false h hretrievable
  simp only [Within, assess, leads_bind]
  refine (hassessed.and herrands).mono (fun _ _ hr => hr.2) ?_
  rintro result s₁ ⟨hassessed, c⟩
  have h₁ : s₁.Sound := Errands.sound c h
  cases result with
  | ready =>
    refine Within.after (errands_promote h₁ job.requestId fun k hk => ?_) c
    rw [hassessed.course.frame.jobs, stored] at hk
    cases hk
    rw [Job.retrievable, manifest]
    exact (hassessed.ready rfl).2.2
  | failed message => exact Within.after (errands_fail h₁ job.requestId message) c
  | waiting =>
    exact (leads_find h₁.secluded job.requestId).mono
      (fun _ _ hr => c.trans hr.1.errands) fun _ _ hr => c.trans hr.2.errands

/-- **A job is created** in undertakings. -/
theorem undertakings_create (h : s.Sound) (r : RequestId) (mode : DownloadMode)
    (manifest : List ManifestEntry) : (create r mode manifest).Within Undertaking s := by
  simp only [Within, create, leads_bind, leads_now]
  refine (Records.leads_loadJob h.secluded r).mono (fun _ _ hr => hr.2.errands.undertakings) ?_
  rintro found s₁ ⟨hfound, ha⟩
  refine leads_ite.2 ⟨fun _ => ?_, fun hunknown => ?_⟩
  · rw [leads_bind, leads_throw]
    exact ha.errands.undertakings
  have hunknown : s.inventory.jobs.get? r = none := by
    rw [← hfound]
    simpa using hunknown
  rw [leads_bind]
  refine (Records.leads_saveJob (h.secluded.aside ha) _).mono
    (fun _ _ hr => (ha.trans hr.2).errands.undertakings) ?_
  rintro _ s₂ ⟨s₃, ha', rfl⟩
  have haside := ha.trans ha'
  have hclock : s.clock = s₃.clock := by cases haside; rfl
  have hcreated : Founding r s₃
      { s₃ with inventory := s₃.inventory.saveJob (Job.create r mode manifest s.clock.now) } := by
    rw [hclock]
    exact .created mode manifest (by rw [jobs_aside haside]; exact hunknown)
  have c : Undertakings s _ := haside.errands.undertakings.tail (.founding r hcreated)
  have h₃ := c.sound h
  rw [leads_bind]
  refine (leads_packageAll r _ h₃.secluded).mono (fun _ _ hfalse => hfalse.elim) ?_
  intro lost s₄ hpacked
  have c₄ : Undertakings s s₄ := c.trans hpacked.founded.undertakings
  have h₄ := c₄.sound h
  obtain ⟨j, hstored, hmanifest⟩ := (hpacked.founded.frame h₃.balanced.named).manifests r _
    (Inventory.get?_saveJob_self ..)
  cases lost with
  | some loss =>
    obtain ⟨id, e⟩ := loss
    exact (errands_fail h₄ r _).affairs.undertakings.after c₄
  | none => exact (errands_goOn h₄ hstored hmanifest).affairs.undertakings.after c₄

end Jobs

end Depot

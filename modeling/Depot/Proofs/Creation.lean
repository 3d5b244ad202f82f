import Depot.Proofs.Assessment

/-!
# The creation of a job

A job is stored before its catalogues are packaged, and its other files are asked for after that. The
creation may end early, with a failure or with the job in an error; `Jobs.Creation` says what has happened
then, in the order in which it has.

## Main statements

* `Jobs.leads_create` — the creation of a job goes as `Jobs.Creation` says, or nothing has happened.
-/

namespace Depot

open Act Time

variable {s s' : Site}

/-- Whether the packager can package a catalogue. -/
def Site.packages (s : Site) (id : FileId) : Bool :=
  s.packager.any fun p => (p.failures.get? id).isNone

/-- While it packages a catalogue, the packager gives the job another status. -/
def Site.Meddles (s : Site) (id : FileId) : Prop :=
  ∃ p status, s.packager = some p ∧ p.interference.get? id = some status

/-! ### What happens while a job is created -/

theorem Inventory.references_overwriteStatus (v : Inventory) (r : RequestId) (status : JobStatus) :
    (v.overwriteStatus r status).references = v.references := by
  unfold Inventory.overwriteStatus
  cases v.jobs.get? r <;> rfl

theorem Inventory.keepsManifests_overwriteStatus {v : Inventory} (hn : v.Named) (r : RequestId)
    (status : JobStatus) : v.KeepsManifests (v.overwriteStatus r status) := by
  unfold Inventory.overwriteStatus
  cases hj : v.jobs.get? r with
  | none => exact Inventory.keepsManifests_of_eq rfl
  | some j =>
    refine Inventory.keepsManifests_saveJob (j := j) ?_ rfl rfl
    rw [hn.jobs r j hj]
    exact hj

theorem Inventory.get?_overwriteStatus_of_ne {v : Inventory} (hn : v.Named) {r r' : RequestId}
    (h : r' ≠ r) (status : JobStatus) :
    (v.overwriteStatus r status).jobs.get? r' = v.jobs.get? r' := by
  unfold Inventory.overwriteStatus
  cases hj : v.jobs.get? r with
  | none => rfl
  | some j => exact Inventory.get?_saveJob_of_ne _ (by rw [hn.jobs r j hj]; exact h)

/-- All that happens while a job is created, before its files are asked for. -/
abbrev Founded (r : RequestId) : Site → Site → Prop := Relation.ReflTransGen (Founding r)

/-- What is left alone while a job is created. -/
structure Founded.Frame (r : RequestId) (s s' : Site) : Prop where
  named : s'.inventory.Named
  files : s'.inventory.files = s.inventory.files
  references : s'.inventory.references = s.inventory.references
  others : ∀ r', r' ≠ r → s'.inventory.jobs.get? r' = s.inventory.jobs.get? r'
  manifests : s.inventory.KeepsManifests s'.inventory
  storePath : s'.storePath = s.storePath
  faults : s'.faults = s.faults
  clock : s'.clock = s.clock
  inFlight : s'.inFlight = s.inFlight
  tasks : s'.tasks = s.tasks
  packager : s'.packager = s.packager
  reactions : s'.reactions = s.reactions
  evictions : s'.evictions = s.evictions

theorem Founding.frame {r : RequestId} (hn : s.inventory.Named) (c : Founding r s s') :
    Founded.Frame r s s' := by
  cases c with
  | created mode manifest unknown =>
    refine ⟨hn.saveJob _, rfl, rfl, fun r' hr' => ?_, fun r' j hj => ⟨j, ?_, rfl⟩, rfl, rfl, rfl, rfl,
      rfl, rfl, rfl, rfl⟩
    · exact Inventory.get?_saveJob_of_ne _ hr'
    · refine (Inventory.get?_saveJob_of_ne _ ?_).trans hj
      rintro rfl
      exact absurd (unknown.symm.trans hj) nofun
  | packaged id succeeded =>
    refine ⟨hn, rfl, rfl, fun _ _ => rfl, Inventory.keepsManifests_of_eq rfl, rfl, rfl, rfl, rfl, rfl,
      rfl, rfl, ?_⟩
    rw [Site.evictions, List.filterMap_append]
    exact List.append_nil _
  | overwritten status meddled =>
    exact ⟨hn.overwriteStatus r status, Inventory.files_overwriteStatus ..,
      Inventory.references_overwriteStatus .., fun r' hr' => Inventory.get?_overwriteStatus_of_ne hn hr' _,
      Inventory.keepsManifests_overwriteStatus hn r status, rfl, rfl, rfl, rfl, rfl, rfl, rfl, rfl⟩

theorem Founded.frame {r : RequestId} (hn : s.inventory.Named) (c : Founded r s s') :
    Founded.Frame r s s' := by
  induction c with
  | refl =>
    exact ⟨hn, rfl, rfl, fun _ _ => rfl, Inventory.keepsManifests_of_eq rfl, rfl, rfl, rfl, rfl, rfl, rfl,
      rfl, rfl⟩
  | tail _ c ih =>
    have h := c.frame ih.named
    refine ⟨h.named, h.files.trans ih.files, h.references.trans ih.references,
      fun r' hr' => (h.others r' hr').trans (ih.others r' hr'), fun r' j hj => ?_,
      h.storePath.trans ih.storePath, h.faults.trans ih.faults, h.clock.trans ih.clock,
      h.inFlight.trans ih.inFlight, h.tasks.trans ih.tasks, h.packager.trans ih.packager,
      h.reactions.trans ih.reactions, h.evictions.trans ih.evictions⟩
    obtain ⟨j₁, hj₁, hm₁⟩ := ih.manifests r' j hj
    obtain ⟨j₂, hj₂, hm₂⟩ := h.manifests r' j₁ hj₁
    exact ⟨j₂, hj₂, hm₂.trans hm₁⟩

theorem Founded.Frame.secluded {r : RequestId} (h : Founded.Frame r s s') (hs : s.Secluded) :
    s'.Secluded := hs.of_same h.storePath h.faults h.reactions

theorem Founded.Frame.refused {r : RequestId} {e : Failure} (h : Founded.Frame r s s')
    (hr : s'.Refused e) : s.Refused e :=
  ⟨hr.1, fun hs => hr.2 fun fault => by rw [h.faults]; exact hs fault⟩

theorem Founded.sitting {r : RequestId} (c : Founded r s s') : Sitting s s' :=
  Relation.ReflTransGen.mono (fun _ _ f => .founding r f) _ _ c

namespace Jobs

/-! ### Packaging -/

/-- A catalogue was to be packaged for a request. -/
inductive Package (r : RequestId) (id : FileId) : Bool → Site → Site → Prop
  | nobody {s : Site} (absent : s.packager = none) : Package r id false s s
  | tried {s : Site} {p : Packager} (present : s.packager = some p)
      (quiet : p.interference.get? id = none) :
      Package r id (p.failures.get? id).isNone s
        { s with log := s.log ++ [.packaged r id (p.failures.get? id).isNone] }
  | meddled {s : Site} {p : Packager} {status : JobStatus} (present : s.packager = some p)
      (loud : p.interference.get? id = some status) :
      Package r id (p.failures.get? id).isNone s
        { s with
          inventory := s.inventory.overwriteStatus r status
          log := s.log ++ [.packaged r id (p.failures.get? id).isNone] }

/-- Catalogues were packaged, up to the first that could not be. -/
inductive Packed (r : RequestId) : List ManifestEntry → Option FileId → Site → Site → Prop
  | all {s : Site} : Packed r [] none s s
  | next {e : ManifestEntry} {rest : List ManifestEntry} {lost : Option FileId} {s s₁ s' : Site}
      (first : Package r e.fileId true s s₁) (later : Packed r rest lost s₁ s') :
      Packed r (e :: rest) lost s s'
  | lost {e : ManifestEntry} {rest : List ManifestEntry} {s s' : Site}
      (first : Package r e.fileId false s s') : Packed r (e :: rest) (some e.fileId) s s'

theorem Package.secluded {r : RequestId} {id : FileId} {ok : Bool} (c : Package r id ok s s')
    (h : s.Secluded) : s'.Secluded := by
  cases c <;> exact h.of_same rfl rfl rfl

theorem leads_package (h : s.Secluded) (r : RequestId) (e : ManifestEntry) :
    Leads (package r e) (fun _ s' => Package r e.fileId false s s')
      (fun _ s' => Package r e.fileId true s s') s := by
  simp only [package, leads_bind, leads_get]
  cases hp : s.packager with
  | none =>
    rw [leads_throw]
    exact .nobody hp
  | some p =>
    simp only [leads_bind, leads_note]
    have hnoted : ({ s with
        log := s.log ++ [.packaged r e.fileId (p.failures.get? e.fileId).isNone] } : Site).Secluded :=
      h.of_same rfl rfl rfl
    cases hmeddles : p.interference.get? e.fileId with
    | none =>
      have htried := Package.tried (r := r) hp hmeddles
      dsimp only
      cases hfails : p.failures.get? e.fileId with
      | none =>
        rw [hfails] at htried
        rw [leads_pure]
        exact htried
      | some e' =>
        rw [hfails] at htried
        rw [leads_throw]
        exact htried
    | some status =>
      have hmeddled := Package.meddled (r := r) hp hmeddles
      simp only [leads_bind]
      rw [Records.leads_overwriteStatus hnoted]
      cases hfails : p.failures.get? e.fileId with
      | none =>
        rw [hfails] at hmeddled
        rw [leads_pure]
        exact hmeddled
      | some e' =>
        rw [hfails] at hmeddled
        rw [leads_throw]
        exact hmeddled

theorem leads_packageAll (r : RequestId) : ∀ (l : List ManifestEntry) {s : Site}, s.Secluded →
    Leads (packageAll r l) (fun _ _ => False)
      (fun lost s' => Packed r l (lost.map Prod.fst) s s') s
  | [], s, h => by
    rw [packageAll, leads_pure]
    exact .all
  | e :: rest, s, h => by
    rw [packageAll, leads_bind, leads_attempt]
    refine (leads_package h r e).mono (fun e' s₁ hc => ?_) fun _ s₁ hc => ?_
    · rw [leads_pure]
      exact .lost hc
    · exact (leads_packageAll r rest (hc.secluded h)).mono (fun _ _ hfalse => hfalse)
        fun lost s₂ hlater => .next hc hlater

theorem Package.founded {r : RequestId} {id : FileId} {ok : Bool} (c : Package r id ok s s') :
    Founded r s s' := by
  cases c with
  | nobody => exact .refl
  | tried => exact .single (.packaged id _)
  | @meddled s p status present loud =>
    exact (Relation.ReflTransGen.single (.packaged id (p.failures.get? id).isNone)).tail
      (.overwritten (s := { s with log := s.log ++ [.packaged r id (p.failures.get? id).isNone] })
        status ⟨p, id, present, loud⟩)

theorem Packed.founded {r : RequestId} {l : List ManifestEntry} {lost : Option FileId}
    (c : Packed r l lost s s') : Founded r s s' := by
  induction c with
  | all => exact .refl
  | next first _ ih => exact first.founded.trans ih
  | lost first => exact first.founded

theorem Package.packages_eq {r : RequestId} {id : FileId} {ok : Bool} (c : Package r id ok s s') :
    s.packages id = ok := by
  cases c with
  | nobody absent => rw [Site.packages, absent, Option.any_none]
  | tried present | meddled present => rw [Site.packages, present, Option.any_some]

theorem Package.packager_eq {r : RequestId} {id : FileId} {ok : Bool} (c : Package r id ok s s') :
    s'.packager = s.packager := by
  cases c <;> rfl

/-- A packager that does not meddle leaves the job alone. -/
theorem Package.inventory_eq {r : RequestId} {id : FileId} {ok : Bool} (quiet : ¬s.Meddles id)
    (c : Package r id ok s s') : s'.inventory = s.inventory := by
  cases c with
  | nobody | tried => rfl
  | meddled present loud => exact absurd ⟨_, _, present, loud⟩ quiet

/-- It is written down how it went, unless there is nobody to package. -/
theorem Package.log {r : RequestId} {id : FileId} {ok : Bool} (c : Package r id ok s s') :
    s'.log = s.log ++ [.packaged r id ok] ∨ ok = false ∧ s'.log = s.log := by
  cases c with
  | nobody => exact .inr ⟨rfl, rfl⟩
  | tried | meddled => exact .inl rfl

theorem Packed.inventory_eq {r : RequestId} {l : List ManifestEntry} {lost : Option FileId}
    (c : Packed r l lost s s') (quiet : ∀ e ∈ l, ¬s.Meddles e.fileId) :
    s'.inventory = s.inventory := by
  induction c with
  | all => rfl
  | next first _ ih =>
    refine (ih fun e he => ?_).trans (first.inventory_eq (quiet _ (.head _)))
    rw [Site.Meddles, first.packager_eq]
    exact quiet e (.tail _ he)
  | lost first => exact first.inventory_eq (quiet _ (.head _))

/-- Catalogues are lost only if one cannot be packaged. -/
theorem Packed.lost_eq_none_iff {r : RequestId} {l : List ManifestEntry} {lost : Option FileId}
    (c : Packed r l lost s s') : lost = none ↔ ∀ e ∈ l, s.packages e.fileId = true := by
  induction c with
  | all => exact ⟨fun _ e he => (by cases he), fun _ => rfl⟩
  | next first _ ih =>
    rw [ih, List.forall_mem_cons, first.packages_eq]
    simp only [Site.packages, first.packager_eq, true_and]
  | lost first =>
    refine ⟨nofun, fun hall => ?_⟩
    have hlost := hall _ (.head _)
    rw [first.packages_eq] at hlost
    cases hlost

/-- What is written down while catalogues are packaged is which of them can be, and, if none is lost, of all
of them. -/
theorem Packed.log {r : RequestId} {l : List ManifestEntry} {lost : Option FileId}
    (c : Packed r l lost s s') : ∃ more, s'.log = s.log ++ more ∧
      (∀ h ∈ more, ∃ id, h = .packaged r id (s.packages id)) ∧
      (lost = none → ∀ e ∈ l, .packaged r e.fileId true ∈ more) := by
  induction c with
  | all => exact ⟨[], (List.append_nil _).symm, fun h hh => (by cases hh), fun _ e he => by cases he⟩
  | @next e rest lost s s₁ s' first _ ih =>
    obtain ⟨more, hmore, hsaid, hall⟩ := ih
    have hlog : s₁.log = s.log ++ [.packaged r e.fileId true] :=
      first.log.resolve_right fun h => by cases h.1
    refine ⟨.packaged r e.fileId true :: more, ?_, fun h hh => ?_, fun hnone e' he' => ?_⟩
    · rw [hmore, hlog, List.append_assoc, List.singleton_append]
    · rcases List.mem_cons.1 hh with rfl | hh
      · exact ⟨e.fileId, by rw [first.packages_eq]⟩
      · obtain ⟨id, hid⟩ := hsaid h hh
        exact ⟨id, by rw [hid, Site.packages, Site.packages, first.packager_eq]⟩
    · rcases List.mem_cons.1 he' with rfl | he'
      · exact .head _
      · exact .tail _ (hall hnone e' he')
  | @lost e rest s s' first =>
    rcases first.log with hlog | ⟨-, hlog⟩
    · refine ⟨_, hlog, fun h hh => ⟨e.fileId, ?_⟩, nofun⟩
      rw [List.mem_singleton.1 hh, first.packages_eq]
    · exact ⟨[], by rw [hlog, List.append_nil], fun h hh => (by cases hh), nofun⟩

/-- What is left when a job has been stored and its catalogues have been packaged, up to the one that is
lost, if any. -/
structure Shelved (job : Job) (lost : Option FileId) (packaged : List Happening) (s s' : Site) : Prop where
  log : s'.log = s.log ++ packaged
  said : ∀ h ∈ packaged, ∃ id, h = .packaged job.requestId id (s.packages id)
  others : ∀ r, r ≠ job.requestId → s'.inventory.jobs.get? r = s.inventory.jobs.get? r
  stored : ∃ j, s'.inventory.jobs.get? job.requestId = some j ∧ j.manifest = job.manifest
  untouched : (∀ e ∈ job.catalogues, ¬s.Meddles e.fileId) → s'.inventory = s.inventory.saveJob job
  lost_eq_none_iff : lost = none ↔ ∀ e ∈ job.catalogues, s.packages e.fileId = true
  whole : lost = none → ∀ e ∈ job.catalogues, .packaged job.requestId e.fileId true ∈ packaged

theorem Packed.shelved {job : Job} {lost : Option FileId} {s₁ : Site} (hn : s.inventory.Named)
    (aside : Aside s s₁)
    (packed : Packed job.requestId job.catalogues lost
      { s₁ with inventory := s₁.inventory.saveJob job } s') :
    ∃ packaged, Shelved job lost packaged s s' := by
  obtain ⟨faults, disk, supply, goOn⟩ := aside
  have hframe := packed.founded.frame (hn.saveJob job)
  obtain ⟨packaged, hlog, hsaid, hwhole⟩ := packed.log
  refine ⟨packaged, hlog, hsaid, fun r hr => ?_, ?_, packed.inventory_eq, packed.lost_eq_none_iff, hwhole⟩
  · exact (hframe.others r hr).trans (Inventory.get?_saveJob_of_ne _ hr)
  · exact hframe.manifests _ job (Inventory.get?_saveJob_self ..)

/-! ### Creation -/

/-- A request was answered with the failure of a call that was refused. -/
def Answered (answer : Except Failure Job) (s : Site) : Prop := ∃ e, answer = .error e ∧ s.Refused e

/-- How a new job goes on when its catalogues have been packaged up to the one that is lost, if any: its
files are asked for, unless a catalogue is lost; and then it is ended, promoted or left to wait. No file is
evicted but while files are asked for. -/
structure GoesOn (job : Job) (lost : Option FileId) (answer : Except Failure Job) (s s₁ s' : Site) :
    Prop where
  asked : FileCourse s s₁
  ended : Sparing s₁ s'
  /-- The file that is asked for first is not evicted. -/
  spared : s.Calm → s.inventory.Lives job.requestId → ∀ e ∈ job.retrievable.head?, Spared e.fileId s s₁
  spoilt : lost ≠ none → Ends job.requestId s s' ∨ Answered answer s
  whole : lost = none →
    (s.Calm → s.inventory.Lives job.requestId →
      ∀ e ∈ job.retrievable, s₁.inventory.Pinned job.requestId e.fileId) ∨
    Ends job.requestId s s' ∨ Answered answer s

/-- **How a job is created**: it is stored; its catalogues are packaged, up to the first that cannot be; and
then it goes on. -/
inductive Creation (job : Job) (answer : Except Failure Job) (s s' : Site) : Prop
  | intro {s₁ s₂ s₃ : Site} {lost : Option FileId}
      (unknown : s.inventory.jobs.get? job.requestId = none)
      (aside : Aside s s₁)
      (packed : Packed job.requestId job.catalogues lost
        { s₁ with inventory := s₁.inventory.saveJob job } s₂)
      (goesOn : GoesOn job lost answer s₂ s₃ s')

/-- An answer after the packaging is one of the whole. -/
theorem Answered.of_packed {job : Job} {lost : Option FileId} {answer : Except Failure Job}
    {s₁ s₂ : Site} (hn : s.inventory.Named) (aside : Aside s s₁)
    (packed : Packed job.requestId job.catalogues lost
      { s₁ with inventory := s₁.inventory.saveJob job } s₂) (h : Answered answer s₂) :
    Answered answer s := by
  obtain ⟨e, he, hr⟩ := h
  have hnamed : ({ s₁ with inventory := s₁.inventory.saveJob job } : Site).inventory.Named := by
    dsimp only
    rw [jobs_aside aside]
    exact hn.saveJob job
  have hrefused := (packed.founded.frame hnamed).refused hr
  exact ⟨e, he, hrefused.1, fun hs => hrefused.2 (show s₁.Faultless from hs.aside aside)⟩

/-- The job is failed, as it is stored then. -/
theorem leads_fail_goesOn (h : s.Secluded) (hb : s.Balanced) {job j : Job} {s₁ : Site}
    {lost : Option FileId} (stored : s.inventory.jobs.get? job.requestId = some j) (message : String)
    (asked : FileCourse s s₁)
    (spared : s.Calm → s.inventory.Lives job.requestId →
      ∀ e ∈ job.retrievable.head?, Spared e.fileId s s₁) :
    Leads (fail job.requestId message) (fun e s' => ∃ s₁, GoesOn job lost (.error e) s s₁ s')
      (fun j s' => ∃ s₁, GoesOn job lost (.ok j) s s₁ s') s₁ := by
  refine (leads_fail (asked.secluded h) (asked.balanced hb).named _ message).mono ?_ ?_
  · rintro e s₂ ⟨hpursuits, hr | hnone⟩
    · have hanswered : Answered (.error e) s := ⟨e, rfl, asked.refused hr⟩
      exact ⟨s₁, asked, hpursuits.sparing, spared, fun _ => .inr hanswered, fun _ => .inr (.inr hanswered)⟩
    · rw [asked.frame.jobs, stored] at hnone
      cases hnone
  · rintro k s₂ ⟨hpursuits, hends⟩
    have hends' : Ends job.requestId s s₂ := fun j hj hpreparing =>
      hends j (by rw [asked.frame.jobs]; exact hj) hpreparing
    exact ⟨s₁, asked, hpursuits.sparing, spared, fun _ => .inl hends', fun _ => .inr (.inl hends')⟩

/-- A new job that has lost no catalogue. -/
theorem leads_goOn (h : s.Secluded) (hb : s.Balanced) {job j : Job}
    (stored : s.inventory.jobs.get? job.requestId = some j) (manifest : j.manifest = job.manifest) :
    Leads (do
        match ← assess job false with
        | .ready => promote job.requestId
        | .failed message => fail job.requestId message
        | .waiting => find job.requestId)
      (fun e s' => ∃ s₁, GoesOn job none (.error e) s s₁ s')
      (fun j s' => ∃ s₁, GoesOn job none (.ok j) s s₁ s') s := by
  simp only [assess, leads_bind]
  refine (leads_assessEntries job.requestId false job.retrievable false h hb
    (not_catalogue_of_retrievable job)).mono ?_ ?_
  · rintro e s₁ ⟨hr, hc⟩
    exact ⟨s₁, hc, .refl s₁, fun calm => absurd calm.faultless hr.2, fun hlost => absurd rfl hlost,
      fun _ => .inr (.inr ⟨e, rfl, hr⟩)⟩
  · intro result s₁ hassessed
    have hc := hassessed.course
    have hgoesOn : ∀ {answer s'}, Sparing s₁ s' → (∀ message, result ≠ .failed message) →
        ∃ s₁, GoesOn job none answer s s₁ s' := fun hsparing hnot =>
      ⟨s₁, hc, hsparing, hassessed.spared, fun hlost => absurd rfl hlost,
        fun _ => .inl (hassessed.pinned hnot)⟩
    cases result with
    | ready =>
      refine (leads_promote (hc.secluded h) (hc.balanced hb).named job.requestId ?_).mono
        (fun _ _ hc => hgoesOn (Pursuits.sparing hc) nofun) fun _ _ hc =>
          hgoesOn (Pursuits.sparing hc) nofun
      intro k hk
      rw [hc.frame.jobs, stored] at hk
      cases hk
      have hheld := (hassessed.ready rfl).2.2
      rw [Job.retrievable, manifest]
      exact hheld
    | failed message => exact leads_fail_goesOn h hb stored message hc hassessed.spared
    | waiting =>
      exact (leads_find (hc.secluded h) job.requestId).mono
        (fun _ _ hr => hgoesOn (.aside hr.1) nofun) fun _ _ hr => hgoesOn (.aside hr.2) nofun

theorem leads_create (h : s.Secluded) (hb : s.Balanced) (r : RequestId) (mode : DownloadMode)
    (manifest : List ManifestEntry) :
    Leads (create r mode manifest)
      (fun e s' => Aside s s' ∨ Creation (Job.create r mode manifest s.clock.now) (.error e) s s')
      (fun j s' => Creation (Job.create r mode manifest s.clock.now) (.ok j) s s') s := by
  simp only [create, leads_bind, leads_now]
  refine (Records.leads_loadJob h r).mono (fun _ _ hr => .inl hr.2) ?_
  rintro found s₁ ⟨hfound, ha⟩
  refine leads_ite.2 ⟨fun _ => ?_, fun hunknown => ?_⟩
  · rw [leads_bind, leads_throw]
    exact .inl ha
  have hunknown : s.inventory.jobs.get? r = none := by
    rw [← hfound]
    simpa using hunknown
  generalize hjob : Job.create r mode manifest s.clock.now = job
  have hid : job.requestId = r := by rw [← hjob]; rfl
  subst hid
  rw [leads_bind]
  refine (Records.leads_saveJob (h.aside ha) job).mono (fun _ _ hr => .inl (ha.trans hr.2)) ?_
  rintro _ s₂ ⟨s₃, ha', rfl⟩
  have haside := ha.trans ha'
  have h₃ := h.aside haside
  have hsaved : ({ s₃ with inventory := s₃.inventory.saveJob job } : Site).Secluded :=
    h₃.of_same rfl rfl rfl
  have hb₃ := haside.fileCourse.balanced hb
  have hbalanced : ({ s₃ with inventory := s₃.inventory.saveJob job } : Site).Balanced :=
    hb₃.of_same (hb₃.named.saveJob job) rfl rfl rfl (.refl _)
  rw [leads_bind]
  refine (leads_packageAll job.requestId job.catalogues hsaved).mono (fun _ _ hfalse => hfalse.elim) ?_
  intro lost s₄ hpacked
  have hframe := hpacked.founded.frame hbalanced.named
  have h₄ := hframe.secluded hsaved
  have hb₄ := hbalanced.history hpacked.founded.sitting.history
  obtain ⟨j, hstored, hmanifest⟩ :=
    hframe.manifests job.requestId job (Inventory.get?_saveJob_self ..)
  have hcreated : ∀ {answer s'}, (∃ s₅, GoesOn job (lost.map Prod.fst) answer s₄ s₅ s') →
      Creation job answer s s' := by
    rintro answer s' ⟨s₅, hgoesOn⟩
    exact .intro hunknown haside hpacked hgoesOn
  cases lost with
  | some loss =>
    exact (leads_fail_goesOn h₄ hb₄ hstored _ .refl fun _ _ _ _ => .of_eq rfl).mono
      (fun _ _ hgoesOn => .inr (hcreated hgoesOn)) fun _ _ hgoesOn => hcreated hgoesOn
  | none =>
    exact (leads_goOn h₄ hb₄ hstored hmanifest).mono
      (fun _ _ hgoesOn => .inr (hcreated hgoesOn)) fun _ _ hgoesOn => hcreated hgoesOn

end Jobs

end Depot

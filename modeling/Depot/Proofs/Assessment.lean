import Depot.Proofs.Jobs

/-!
# Asking for the files of a job

A job asks for its files one by one. If it is found to be ready, then nothing has happened but that it
refers to all of them, and each of them is there. If nothing was ever refused and it is found to wait,
then it refers to all of them, and has a record of each.

## Main statements

* `Jobs.leads_assessEntries` — what comes of asking for files.
* `Site.Calm.change` — where nothing is refused, whatever counts as on its way has a transfer.
* `FileCourse.pinned` — a live job loses neither a file that it refers to nor the reference.
-/

namespace Depot

open Act Time

variable {s s' : Site}

/-! ### Pinned files -/

/-- A request refers to a file that has a record. -/
structure Inventory.Pinned (v : Inventory) (r : RequestId) (id : FileId) : Prop where
  refers : v.refers id r = true
  kept : v.files.contains id = true

theorem Inventory.contains_saveFile (v : Inventory) (f : FileRecord) {id : FileId}
    (h : v.files.contains id = true) : (v.saveFile f).files.contains id = true := by
  rw [Table.contains_eq_true] at h ⊢
  obtain ⟨g, hg⟩ := h
  rw [Inventory.get?_saveFile]
  split
  · exact ⟨f, rfl⟩
  · exact ⟨g, hg⟩

/-- A live job loses neither a file that it refers to nor the reference, as long as nothing happens to
jobs. -/
theorem FileChange.pinned (c : FileChange s s') {r : RequestId} {id : FileId}
    (live : s.inventory.Lives r) (h : s.inventory.Pinned r id) : s'.inventory.Pinned r id := by
  obtain ⟨hrefers, hkept⟩ := h
  cases c with
  | evict e =>
    refine ⟨Evictions.refers (.single e) live hrefers, ?_⟩
    cases e with
    | aside a => cases a; exact hkept
    | evicted disk kept unlocked free unpinned =>
      have hne := live.ne_of_unpinned hrefers unpinned
      rw [Table.contains_eq_true] at hkept ⊢
      rwa [Inventory.get?_deleteFile_of_ne _ hne]
  | attached id' r' => exact ⟨(Inventory.refers_addReference ..).2 (.inr hrefers), hkept⟩
  | detached id' r' absent =>
    have hne : id ≠ id' := by
      rintro rfl
      rw [Table.contains_eq_false.2 absent] at hkept
      cases hkept
    refine ⟨(Inventory.refers_removeReference_of_ne _ hne r' r).trans hrefers, ?_⟩
    rw [Inventory.files_removeReference]
    exact hkept
  | queued | unlocked | extended => exact ⟨hrefers, Inventory.contains_saveFile _ _ hkept⟩
  | strayed => exact ⟨hrefers, hkept⟩

theorem FileCourse.lives (c : FileCourse s s') {r : RequestId} (live : s.inventory.Lives r) :
    s'.inventory.Lives r := by
  unfold Inventory.Lives
  rw [c.frame.jobs]
  exact live

theorem FileCourse.pinned (c : FileCourse s s') {r : RequestId} {id : FileId}
    (live : s.inventory.Lives r) (h : s.inventory.Pinned r id) : s'.inventory.Pinned r id := by
  induction c with
  | refl => exact h
  | tail hc c ih => exact c.pinned (FileCourse.lives hc live) ih

/-- A file that a live job refers to, and that has a record, is not evicted. -/
theorem FileChange.spared (c : FileChange s s') {r : RequestId} {id : FileId}
    (live : s.inventory.Lives r) (h : s.inventory.Pinned r id) : Spared id s s' := by
  cases c with
  | evict e => exact Evictions.spared (.single e) live h.refers
  | queued => exact .of_eq (Site.evictions_of_log rfl rfl)
  | attached | detached | unlocked | strayed | extended => exact .of_eq rfl

theorem FileCourse.spared (c : FileCourse s s') {r : RequestId} {id : FileId}
    (live : s.inventory.Lives r) (h : s.inventory.Pinned r id) : Spared id s s' := by
  induction c with
  | refl => exact .of_eq rfl
  | tail hc c ih => exact ih.trans (c.spared (FileCourse.lives hc live) (FileCourse.pinned hc live h))

/-! ### Calm depots -/

/-- Nothing is ever refused, and whatever counts as on its way has a transfer. -/
structure Site.Calm (s : Site) : Prop where
  faultless : s.Faultless
  flights : ∀ id, s.inFlight.contains id = true → ∃ f ∈ s.carried, f.fileId = id

theorem Site.Calm.fileChange (h : s.Calm) (c : FileChange s s') : s'.Calm := by
  refine ⟨h.faultless.change (.file c), ?_⟩
  cases c with
  | evict e =>
    cases e with
    | aside a => cases a; exact h.flights
    | evicted => exact h.flights
  | @queued f time =>
    intro id hid
    have hcarried : recordsOf (s.tasks ++ [Task.transfer ⟨f, .resting time⟩]) = s.carried ++ [f] := by
      simp [recordsOf, Site.carried, Task.transfer?]
    show ∃ g ∈ recordsOf _, _
    rw [hcarried]
    rcases (KeySet.contains_add ..).1 hid with rfl | hid
    · exact ⟨f, by simp, rfl⟩
    · obtain ⟨g, hg, hgid⟩ := h.flights id hid
      exact ⟨g, List.mem_append_left _ hg, hgid⟩
  | strayed stranded faulty => exact absurd h.faultless faulty
  | attached | detached | unlocked | extended => exact h.flights

theorem Site.Calm.change (h : s.Calm) (c : Change s s') : s'.Calm := by
  refine ⟨h.faultless.change c, ?_⟩
  cases c with
  | file c => exact (h.fileChange c).flights
  | transfer c =>
    have hlands : ∀ {f : FileRecord} {l : List FileRecord}, s.carried.Perm (f :: l) →
        ∀ id, (s.inFlight.erase f.fileId).contains id = true → ∃ g ∈ l, g.fileId = id := by
      intro f l rest id hid
      obtain ⟨hne, hflying⟩ := (KeySet.contains_erase ..).1 hid
      obtain ⟨g, hg, rfl⟩ := h.flights id hflying
      rcases List.mem_cons.1 (rest.mem_iff.1 hg) with rfl | hg
      · exact absurd rfl hne
      · exact ⟨g, hg, rfl⟩
    cases c with
    | moved tasks log same =>
      intro id hid
      obtain ⟨f, hf, hfid⟩ := h.flights id hid
      exact ⟨f, same.mem_iff.2 hf, hfid⟩
    | arrived d place tasks rest | givenUp e tasks rest | brokenOff result tasks rest =>
      exact hlands rest
    | @setBack f e tasks others rest back =>
      intro id hid
      obtain ⟨g, hg, hgid⟩ := h.flights id hid
      rcases List.mem_cons.1 (rest.mem_iff.1 hg) with rfl | hg
      · exact ⟨_, back.mem_iff.2 (.head _), hgid⟩
      · exact ⟨g, back.mem_iff.2 (.tail _ hg), hgid⟩
  | duties tasks same =>
    intro id hid
    obtain ⟨f, hf, hfid⟩ := h.flights id hid
    refine ⟨f, ?_, hfid⟩
    show f ∈ (tasks.filterMap Task.transfer?).map Transfer.record
    rw [same]
    exact hf
  | job c => cases c <;> exact h.flights
  | warned | told | clocked | spoiled => exact h.flights

theorem Site.Calm.course (h : s.Calm) (c : Course s s') : s'.Calm := by
  induction c with
  | refl => exact h
  | tail _ c ih => exact ih.change c

theorem FileCourse.calm (c : FileCourse s s') (h : s.Calm) : s'.Calm := h.course c.course

/-- What is in flight at a calm depot has a record. -/
theorem Site.Calm.contains_of_inFlight (h : s.Calm) (hb : s.Balanced) {id : FileId}
    (hid : s.inFlight.contains id = true) : s.inventory.files.contains id = true := by
  obtain ⟨f, hf, rfl⟩ := h.flights id hid
  exact Table.contains_eq_true.2 ⟨f, hb.kept f hf⟩

namespace Jobs

/-! ### Assessments -/

/-- What has come of asking for the files of entries, for a job that waits already or does not. -/
structure Assessed (r : RequestId) (l : List ManifestEntry) (waiting : Bool) (result : Assessment)
    (s s' : Site) : Prop where
  course : FileCourse s s'
  ready : result = .ready → waiting = false ∧ Asking s s' ∧ AllHeld r l s'
  pinned : (∀ message, result ≠ .failed message) → s.Calm → s.inventory.Lives r →
    ∀ e ∈ l, s'.inventory.Pinned r e.fileId
  /-- The file of the first entry is not evicted. -/
  spared : s.Calm → s.inventory.Lives r → ∀ e ∈ l.head?, Spared e.fileId s s'

/-- A live job that has asked for a file that has not failed refers to it. -/
theorem pinned_of_asked {r : RequestId} {id : FileId} {status : FileStatus} (hb : s.Balanced)
    (h : Transfers.Asked r id status s s') (sound : status ≠ .failed) (calm : s.Calm)
    (live : s.inventory.Lives r) : s'.inventory.Pinned r id := by
  cases status with
  | available =>
    obtain ⟨-, ⟨hrefers, f, hf, -⟩, -⟩ := h.available rfl
    exact ⟨hrefers, Table.contains_eq_true.2 ⟨f, hf⟩⟩
  | pending =>
    obtain ⟨hflying, hrefers⟩ := h.pending rfl
    exact ⟨hrefers live, (h.course.calm calm).contains_of_inFlight (h.course.balanced hb) hflying⟩
  | failed => exact absurd rfl sound

/-- An entry whose file has not failed, before others. -/
theorem Assessed.cons {r : RequestId} {e : ManifestEntry} {rest : List ManifestEntry} {waiting : Bool}
    {status : FileStatus} {result : Assessment} {s₁ s₂ : Site} (hb : s.Balanced)
    (hasked : Transfers.Asked r e.fileId status s s₁) (sound : status ≠ .failed)
    (h : Assessed r rest (waiting || status = .pending) result s₁ s₂) :
    Assessed r (e :: rest) waiting result s s₂ := by
  refine ⟨hasked.course.trans h.course, fun hready => ?_, fun hnot calm live e' he' => ?_,
    fun calm live e' he' => ?_⟩
  · obtain ⟨hwaits, hasking, hheld⟩ := h.ready hready
    rw [Bool.or_eq_false_iff, decide_eq_false_iff_not] at hwaits
    have havailable : status = .available := by
      cases status with
      | available => rfl
      | pending => exact absurd rfl hwaits.2
      | failed => exact absurd rfl sound
    obtain ⟨hasking₁, hholds, hgrounded⟩ := hasked.available havailable
    refine ⟨hwaits.1, hasking₁.trans hasking, fun e' he' => ?_⟩
    rcases List.mem_cons.1 he' with rfl | he'
    · exact ⟨hasking.holds hholds, by rw [hasking.frame.inFlight]; exact hgrounded⟩
    · exact hheld e' he'
  · have live₁ := hasked.course.lives live
    rcases List.mem_cons.1 he' with rfl | he'
    · exact h.course.pinned live₁ (pinned_of_asked hb hasked sound calm live)
    · exact h.pinned hnot (hasked.course.calm calm) live₁ e' he'
  · cases he'
    have hpinned := pinned_of_asked hb hasked sound calm live
    exact (hasked.spared live).trans (h.course.spared (hasked.course.lives live) hpinned)

/-- What went on aside beforehand makes no difference. -/
theorem Assessed.after_aside {r : RequestId} {l : List ManifestEntry} {waiting : Bool}
    {result : Assessment} {s₁ : Site} (a : Aside s s₁) (h : Assessed r l waiting result s₁ s') :
    Assessed r l waiting result s s' := by
  refine ⟨a.fileCourse.trans h.course, fun hready => ?_, fun hnot calm live => ?_,
    fun calm live e he => ?_⟩
  · obtain ⟨hwaits, hasking, hheld⟩ := h.ready hready
    exact ⟨hwaits, .head (.aside a) hasking, hheld⟩
  · exact h.pinned hnot (a.fileCourse.calm calm) (a.fileCourse.lives live)
  · have hlater := h.spared (a.fileCourse.calm calm) (a.fileCourse.lives live) e he
    exact Spared.trans (.of_eq (by cases a; rfl)) hlater

/-- A file of the first entry cannot be had. -/
theorem Assessed.lost {r : RequestId} {e : ManifestEntry} {rest : List ManifestEntry} {waiting : Bool}
    {message : String} (h : Transfers.Sought r e.fileId s s') :
    Assessed r (e :: rest) waiting (.failed message) s s' := by
  refine ⟨h.course, nofun, fun hnot => absurd rfl (hnot message), fun _ live e' he' => ?_⟩
  cases he'
  exact h.spared live

/-- Entries that are asked for are not catalogues. -/
theorem not_catalogue_of_retrievable (j : Job) : ∀ e ∈ j.retrievable, e.kind.isCatalogue = false :=
  fun e he => by simpa [ManifestEntry.isRetrievable] using (List.mem_filter.1 he).2

/-- **Asking for the files of entries.** -/
theorem leads_assessEntries (r : RequestId) (expectRecords : Bool) :
    ∀ (l : List ManifestEntry) (waiting : Bool) {s : Site}, s.Secluded → s.Balanced →
      (∀ e ∈ l, e.kind.isCatalogue = false) →
        Leads (assessEntries r expectRecords l waiting) (fun e s' => s.Refused e ∧ FileCourse s s')
          (fun result s' => Assessed r l waiting result s s') s
  | [], waiting, s, h, hb, hl => by
    rw [assessEntries, leads_pure]
    refine ⟨.refl, fun hready => ?_, fun _ _ _ e he => (by cases he), fun _ _ e he => by cases he⟩
    cases waiting with
    | true => cases hready
    | false => exact ⟨rfl, .refl, fun e he => by cases he⟩
  | e :: rest, waiting, s, h, hb, hl => by
    have hrest : ∀ e' ∈ rest, e'.kind.isCatalogue = false := fun e' he' => hl e' (.tail _ he')
    simp only [assessEntries]
    suffices hmain : ∀ {s₁}, Aside s s₁ → Leads _ (fun e s' => s.Refused e ∧ FileCourse s s')
        (fun result s' => Assessed r (e :: rest) waiting result s s') s₁ by
      refine leads_ite.2 ⟨fun _ => ?_, fun _ => hmain (.refl s)⟩
      rw [leads_bind]
      exact (Records.leads_loadFile h e.fileId).mono (fun _ s₁ hr => ⟨hr.1, hr.2.fileCourse⟩)
        fun _ s₁ hfound => hmain hfound.2
    intro s₁ ha
    have h₁ := h.aside ha
    have hb₁ := ha.fileCourse.balanced hb
    rw [leads_bind, leads_attempt]
    refine (Transfers.leads_ensure h₁ hb₁ (hl e (.head _)) r).mono ?_ ?_
    · rintro e' s₂ ⟨hr | ⟨kb, room, rfl⟩, hdenied⟩
      · obtain ⟨detail, rfl⟩ := hr.1
        rw [leads_throw]
        exact ⟨hr.aside ha, ha.fileCourse.trans hdenied.course⟩
      · rw [leads_pure]
        exact (Assessed.lost hdenied.toSought).after_aside ha
    · intro status s₂ hasked
      have hc₂ : FileCourse s s₂ := ha.fileCourse.trans hasked.course
      have next : status ≠ .failed → Leads (assessEntries r expectRecords rest
          (waiting || status = .pending)) (fun e s' => s.Refused e ∧ FileCourse s s')
          (fun result s' => Assessed r (e :: rest) waiting result s s') s₂ := by
        intro sound
        refine (leads_assessEntries r expectRecords rest _ (hasked.course.secluded h₁)
          (hasked.course.balanced hb₁) hrest).mono (fun _ s₃ hr => ?_)
          fun result s₃ hresult => (Assessed.cons hb₁ hasked sound hresult).after_aside ha
        exact ⟨hc₂.refused hr.1, hc₂.trans hr.2⟩
      cases status with
      | available => simpa using next nofun
      | pending => simpa using next nofun
      | failed =>
        simp only [leads_bind, leads_pure]
        exact (Records.leads_loadFile (hasked.course.secluded h₁) e.fileId).mono
          (fun _ s₃ hr => ⟨hc₂.refused hr.1, hc₂.trans hr.2.fileCourse⟩)
          fun found s₃ hfound => (Assessed.lost (hasked.toSought.trans_aside hfound.2)).after_aside ha

end Jobs

end Depot

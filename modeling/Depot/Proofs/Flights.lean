import Depot.Proofs.Run

/-!
# Files in flight

A file counts as in flight from the moment it is asked for until its transfer ends. It is put in flight
before room is made for it and before its record is kept, and must be taken out again wherever one of
that fails. There is one exit where it is not: when no room could be reserved its record is to be unlocked,
and where a call for that is refused as well, the file is stranded. It has no transfer then and no
reservation, but it is in flight until the depot is opened again, and whoever asks for it is told to wait.

So the files in flight are those with a transfer, and those that were stranded since the depot was opened.

## Main statements

* `Deed.flights` — what can become of the files in flight in one go.
* `Site.adrift_iff_stranded` — a file is in flight without a transfer exactly if it was stranded.
* `inFlight_iff_transfer_of_quiet` — there are no such files if file records can always be loaded and saved.
* `in_flight_iff_transfer_or_stranded` — so it is in every run, whichever calls are refused.
* `refused_file_stays_in_flight` — this happens.
-/

namespace Depot

open Act Time

variable {s s' : Site} {id : FileId}

/-! ### What is in flight and what is under way -/

/-- The files with a transfer. -/
def Site.underway (s : Site) : List FileId := s.carried.map FileRecord.fileId

theorem Site.mem_underway : id ∈ s.underway ↔ ∃ t ∈ s.transfers, t.record.fileId = id := by
  simp only [underway, Site.carried_eq, List.mem_map, exists_exists_and_eq_and]

/-- A file that has a transfer is in flight. -/
theorem Site.Balanced.contains_of_underway (h : s.Balanced) (hid : id ∈ s.underway) :
    s.inFlight.contains id = true := by
  obtain ⟨f, hf, rfl⟩ := List.mem_map.1 hid
  exact h.flying f hf

/-- The files with a reservation are those with a transfer. -/
theorem Site.Balanced.isReserved_iff_underway (h : s.Balanced) :
    s.account.isReserved id = true ↔ id ∈ s.underway := by
  rw [h.isReserved_iff, Site.underway, List.mem_map]

/-- What a deed does to the files in flight and to those with a transfer. -/
inductive Site.Flights (s s' : Site) : Prop
  | same (inFlight : s'.inFlight = s.inFlight) (underway : s'.underway.Perm s.underway)
  | entered (id : FileId) (grounded : s.inFlight.contains id = false)
      (inFlight : s'.inFlight = s.inFlight.add id) (underway : s'.underway.Perm (id :: s.underway))
  | left (id : FileId) (inFlight : s'.inFlight = s.inFlight.erase id)
      (underway : s.underway.Perm (id :: s'.underway))
  | stranded (f : FileRecord) (stranded : s.Strands f)
      (eq : s' = { s with inFlight := s.inFlight.add f.fileId })

theorem FileChange.flights (c : FileChange s s') : s.Flights s' := by
  cases c with
  | evict e =>
    cases e with
    | aside a => cases a; exact .same rfl (.refl _)
    | evicted => exact .same rfl (.refl _)
  | @queued f time grounded =>
    refine .entered f.fileId grounded rfl ?_
    show ((recordsOf (s.tasks ++ [.transfer ⟨f, .resting time⟩])).map FileRecord.fileId).Perm _
    rw [recordsOf_append, List.map_append]
    exact List.perm_append_singleton _ _
  | strayed stranded => exact .stranded _ stranded rfl
  | attached | detached | unlocked | extended => exact .same rfl (.refl _)

theorem TransferChange.flights (c : TransferChange s s') : s.Flights s' := by
  cases c with
  | moved tasks log same => exact .same rfl (same.map FileRecord.fileId)
  | @arrived f d place tasks rest => exact .left f.fileId rfl (rest.map FileRecord.fileId)
  | @givenUp f e tasks rest => exact .left f.fileId rfl (rest.map FileRecord.fileId)
  | @setBack f e tasks others rest back =>
    -- The record that goes on is of the same file.
    exact .same rfl ((back.map FileRecord.fileId).trans (rest.map FileRecord.fileId).symm)
  | @brokenOff f result tasks rest => exact .left f.fileId rfl (rest.map FileRecord.fileId)

/-- **What a deed does to the files in flight**: it leaves them as they are, a file enters or leaves its
flight together with its transfer, or it is stranded. -/
theorem Deed.flights (d : Deed s s') : s.Flights s' := by
  cases d with
  | change c =>
    cases c with
    | file c => exact c.flights
    | transfer c => exact c.flights
    | job c => cases c <;> exact .same rfl (.refl _)
    | duties tasks same =>
      refine .same rfl ?_
      show ((tasks.filterMap Task.transfer?).map Transfer.record |>.map FileRecord.fileId).Perm _
      rw [same]
      exact .refl _
    | warned | told | clocked | spoiled => exact .same rfl (.refl _)
  | founding r c => cases c <;> exact .same rfl (.refl _)

/-! ### Files adrift -/

/-- A file is adrift: it counts as in flight although it has no transfer. -/
structure Site.Adrift (s : Site) (id : FileId) : Prop where
  flying : s.inFlight.contains id = true
  idle : id ∉ s.underway

/-- A file that is adrift stays so as long as the depot is open. -/
theorem Site.Adrift.deed (h : s.Adrift id) (d : Deed s s') : s'.Adrift id := by
  cases d.flights with
  | same inFlight underway =>
    exact ⟨by rw [inFlight]; exact h.flying, fun hid => h.idle (underway.mem_iff.1 hid)⟩
  | entered id' grounded inFlight underway =>
    have hne : id ≠ id' := by
      rintro rfl
      exact Bool.false_ne_true (grounded.symm.trans h.flying)
    refine ⟨?_, fun hid => ?_⟩
    · rw [inFlight, KeySet.contains_add]
      exact .inr h.flying
    · exact (List.mem_cons.1 (underway.mem_iff.1 hid)).elim hne h.idle
  | left id' inFlight underway =>
    have hne : id ≠ id' := by
      rintro rfl
      exact h.idle (underway.mem_iff.2 (.head _))
    refine ⟨?_, fun hid => h.idle (underway.mem_iff.2 (.tail _ hid))⟩
    rw [inFlight, KeySet.contains_erase]
    exact ⟨hne, h.flying⟩
  | stranded f _ eq =>
    subst eq
    exact ⟨(KeySet.contains_add ..).2 (.inr h.flying), h.idle⟩

theorem Site.Adrift.sitting (h : s.Adrift id) (c : Sitting s s') : s'.Adrift id := by
  induction c with
  | refl => exact h
  | tail _ d ih => exact ih.deed d

/-- A file is adrift only if it was, or has just been stranded. -/
theorem Deed.adrift (d : Deed s s') (h : s'.Adrift id) :
    s.Adrift id ∨ ∃ f, s.Strands f ∧ f.fileId = id ∧
      s' = { s with inFlight := s.inFlight.add f.fileId } := by
  obtain ⟨hflying, hidle⟩ := h
  cases d.flights with
  | same inFlight underway =>
    rw [inFlight] at hflying
    exact .inl ⟨hflying, fun hid => hidle (underway.mem_iff.2 hid)⟩
  | entered id' grounded inFlight underway =>
    rw [inFlight, KeySet.contains_add] at hflying
    rcases hflying with rfl | hflying
    · exact absurd (underway.mem_iff.2 (.head _)) hidle
    · exact .inl ⟨hflying, fun hid => hidle (underway.mem_iff.2 (.tail _ hid))⟩
  | left id' inFlight underway =>
    rw [inFlight, KeySet.contains_erase] at hflying
    obtain ⟨hne, hflying⟩ := hflying
    refine .inl ⟨hflying, fun hid => ?_⟩
    exact (List.mem_cons.1 (underway.mem_iff.1 hid)).elim hne hidle
  | stranded f stranded eq =>
    subst eq
    rcases (KeySet.contains_add ..).1 hflying with rfl | hflying
    · exact .inr ⟨f, stranded, rfl, rfl⟩
    · exact .inl ⟨hflying, hidle⟩

/-- **A file was stranded** at a moment of what has happened since a start, and the depot was not opened
again after that. -/
def Site.Stranded (start s : Site) (id : FileId) : Prop :=
  ∃ s₁ f, History start s₁ ∧ s₁.Strands f ∧ f.fileId = id ∧
    Sitting { s₁ with inFlight := s₁.inFlight.add f.fileId } s

theorem Site.Stranded.deed {start : Site} (h : start.Stranded s id) (d : Deed s s') :
    start.Stranded s' id := by
  obtain ⟨s₁, f, hhistory, hstrands, hid, hsitting⟩ := h
  exact ⟨s₁, f, hhistory, hstrands, hid, hsitting.tail d⟩

/-- **A file that was grounded is adrift exactly if it was stranded** since then. -/
theorem Site.adrift_iff_stranded {start : Site} (hb : start.Balanced)
    (grounded : start.inFlight.contains id = false) (c : History start s) :
    s.Adrift id ↔ start.Stranded s id := by
  constructor
  · intro h
    induction c with
    | refl => exact absurd (grounded.symm.trans h.flying) Bool.false_ne_true
    | tail hc e ih =>
      cases e with
      | deed d =>
        rcases d.adrift h with h | ⟨f, hstrands, hid, rfl⟩
        · exact (ih h).deed d
        · exact ⟨_, f, hc, hstrands, hid, .refl⟩
      | reopened =>
        have hflying := h.flying
        cases hflying
  · rintro ⟨s₁, f, hhistory, hstrands, rfl, hsitting⟩
    refine Site.Adrift.sitting ⟨(KeySet.contains_add ..).2 (.inl rfl), fun hid => ?_⟩ hsitting
    have hflying := (hb.history hhistory).contains_of_underway hid
    exact absurd (hstrands.grounded.symm.trans hflying) Bool.false_ne_true

/-! ### Depots that strand no file -/

/-- No deed brings about a fault that was not to strike. -/
theorem Deed.faultsGoOn (d : Deed s s') : FaultsGoOn s.faults s'.faults := by
  cases d with
  | change c =>
    cases c with
    | file c =>
      cases c with
      | evict e =>
        cases e with
        | aside a => cases a with | intro _ _ _ goOn => exact goOn
        | evicted => exact .refl _
      | attached | detached | queued | unlocked | strayed | extended => exact .refl _
    | transfer c => cases c <;> exact .refl _
    | job c => cases c <;> exact .refl _
    | warned | told | clocked | duties | spoiled => exact .refl _
  | founding r c => cases c <;> exact .refl _

theorem History.faultsGoOn (c : History s s') : FaultsGoOn s.faults s'.faults := by
  induction c with
  | refl => exact .refl _
  | tail _ e ih =>
    cases e with
    | deed d => exact ih.trans d.faultsGoOn
    | reopened => exact ih

/-- A record is unlocked where it can be loaded and saved. -/
theorem Transfers.leads_unlock_of_quiet (h : s.Secluded) (load : s.faults (.refuse .loadFile) = [])
    (save : s.faults (.refuse .saveFile) = []) (f : FileRecord) :
    Leads (unlock f) (fun _ _ => False) (fun _ _ => True) s := by
  unfold unlock
  split
  · simp only [Records.loadFile, Records.saveFile, leads_bind]
    rw [Records.leads_reach_of_quiet load, Records.leads_strikes_of_quiet h.files,
      if_neg Bool.false_ne_true]
    simp only [leads_bind, leads_get, leads_pure]
    refine leads_ite.2 ⟨fun _ => ?_, fun _ => by rw [leads_pure]; trivial⟩
    simp only [leads_bind, leads_now]
    rw [Records.leads_reach_of_quiet save, Records.leads_change h]
    trivial
  · rw [leads_pure]
    trivial

/-- No file is stranded where file records can be loaded and saved. -/
theorem Site.not_strands_of_quiet (h : s.Secluded) (load : s.faults (.refuse .loadFile) = [])
    (save : s.faults (.refuse .saveFile) = []) (f : FileRecord) : ¬s.Strands f := by
  rintro ⟨-, -, e, he⟩
  have hflying : ({ s with inFlight := s.inFlight.add f.fileId } : Site).Secluded :=
    h.of_same rfl rfl rfl
  exact (Transfers.leads_unlock_of_quiet hflying load save f).of_error he

/-- **Where file records can always be loaded and saved**, whichever other calls are refused, the files in
flight are those with a transfer. -/
theorem inFlight_iff_transfer_of_quiet (h : s.Secluded) (hn : s.inventory.Named) (ho : s.Opened)
    (load : s.faults (.refuse .loadFile) = []) (save : s.faults (.refuse .saveFile) = [])
    (steps : List Step) (id : FileId) :
    (s.run steps).inFlight.contains id = true ↔
      ∃ t ∈ (s.run steps).transfers, t.record.fileId = id := by
  have hb := ho.balanced hn
  have hrun := Site.run_history ⟨h, hb⟩ steps
  rw [← Site.mem_underway]
  refine ⟨fun hflying => ?_, (hb.history hrun).contains_of_underway⟩
  by_contra hidle
  have hgrounded : s.inFlight.contains id = false := by rw [ho.inFlight]; rfl
  obtain ⟨s₁, f, hhistory, hstrands, -⟩ :=
    (Site.adrift_iff_stranded hb hgrounded hrun).1 ⟨hflying, hidle⟩
  have hquiet := hhistory.faultsGoOn
  exact Site.not_strands_of_quiet (h.history hhistory) (hquiet _ load) (hquiet _ save) f hstrands

/-! ### Asking in vain -/

/-- A file that is asked for in vain gets no transfer. -/
theorem Transfers.tasks_of_ensure_error (h : s.Sound) {r : RequestId} {entry : ManifestEntry}
    {e : Failure} (failed : (ensure r entry).answer s = .error e) :
    ((Step.ensure r entry).take s).tasks = s.tasks := by
  rw [Step.take, Step.act, after_discard]
  cases hkind : entry.kind.isCatalogue with
  | true =>
    refine Leads.after (P := fun s' => s'.tasks = s.tasks) ?_
    rw [ensure, hkind, if_pos rfl, leads_bind, leads_throw]
  | false => exact ((leads_ensure h.secluded h.balanced hkind r).of_error failed).2.tasks

/-! ### Runs -/

/-- **What is in flight.** In every run that begins with a depot just opened, whichever calls are refused:

* the files with a reservation are those with a transfer;
* the files in flight are those with a transfer, and those that were stranded since the depot was opened;
* a file that was not in flight before a step, and has no transfer after it, has no reservation either, and
  is in flight exactly if it was stranded in that step;
* a file that was not in flight and is asked for in vain has no transfer afterwards. -/
theorem in_flight_iff_transfer_or_stranded (h : s.Secluded) (hn : s.inventory.Named) (ho : s.Opened)
    (steps : List Step) :
    (∀ id, (s.run steps).account.isReserved id = true ↔
      ∃ t ∈ (s.run steps).transfers, t.record.fileId = id) ∧
    (∀ id, (s.run steps).inFlight.contains id = true ↔
      (∃ t ∈ (s.run steps).transfers, t.record.fileId = id) ∨ s.Stranded (s.run steps) id) ∧
    (∀ (step : Step) (id : FileId), (s.run steps).inFlight.contains id = false →
      (∀ t ∈ (step.take (s.run steps)).transfers, t.record.fileId ≠ id) →
        (step.take (s.run steps)).account.isReserved id = false ∧
        ((step.take (s.run steps)).inFlight.contains id = true ↔
          (s.run steps).Stranded (step.take (s.run steps)) id)) ∧
    ∀ r entry e, (Transfers.ensure r entry).answer (s.run steps) = .error e →
      (s.run steps).inFlight.contains entry.fileId = false →
        ∀ t ∈ ((Step.ensure r entry).take (s.run steps)).transfers, t.record.fileId ≠ entry.fileId := by
  have hb₀ := ho.balanced hn
  have hrun := Site.run_history ⟨h, hb₀⟩ steps
  have hsound : (s.run steps).Sound := Site.Sound.history ⟨h, hb₀⟩ hrun
  have hb := hsound.balanced
  refine ⟨fun id => ?_, fun id => ?_, fun step id hgrounded hidle => ?_,
    fun r entry e hfailed hgrounded t ht hid => ?_⟩
  · rw [hb.isReserved_iff_underway, Site.mem_underway]
  · have hgrounded : s.inFlight.contains id = false := by rw [ho.inFlight]; rfl
    rw [← Site.mem_underway, ← Site.adrift_iff_stranded hb₀ hgrounded hrun]
    constructor
    · intro hflying
      exact or_iff_not_imp_left.2 fun hidle => ⟨hflying, hidle⟩
    · rintro (hid | hadrift)
      · exact hb.contains_of_underway hid
      · exact hadrift.flying
  · have hstep := Step.history hsound step
    have hidle' : id ∉ (step.take (s.run steps)).underway := by
      rw [Site.mem_underway]
      rintro ⟨t, ht, hid⟩
      exact hidle t ht hid
    refine ⟨?_, ?_⟩
    · rw [← Bool.not_eq_true, (hb.history hstep).isReserved_iff_underway]
      exact hidle'
    · rw [← Site.adrift_iff_stranded hb hgrounded hstep]
      exact ⟨fun hflying => ⟨hflying, hidle'⟩, Site.Adrift.flying⟩
  · have hsame : ((Step.ensure r entry).take (s.run steps)).transfers = (s.run steps).transfers := by
      rw [Site.transfers, Transfers.tasks_of_ensure_error hsound hfailed, Site.transfers]
    rw [hsame] at ht
    have hflying := hb.contains_of_underway (Site.mem_underway.2 ⟨t, ht, hid⟩)
    exact absurd (hgrounded.symm.trans hflying) Bool.false_ne_true

/-- A depot with too little room for a file, where the second loading of a file record is refused. -/
def refusingSite : Site :=
  { Site.blank { cacheRoot := "cache", limitKb := 100 } with
    faults := fun fault => if fault = .refuse .loadFile then [⟨1, false⟩, ⟨1, true⟩] else [] }

/-- A file for which there is too little room. -/
def wideEntry : ManifestEntry := ⟨⟨"f"⟩, .spectrum, none, some 200⟩

/-- The file that is refused room there is stranded, although it has no reservation. -/
theorem stranding_of_one_file :
    (refusingSite.run []).Stranded ((Step.ensure ⟨"r"⟩ wideEntry).take (refusingSite.run [])) ⟨"f"⟩ ∧
      ((Step.ensure ⟨"r"⟩ wideEntry).take (refusingSite.run [])).account.isReserved ⟨"f"⟩ = false := by
  have hsecluded : refusingSite.Secluded := ⟨rfl, rfl, rfl, rfl, rfl⟩
  have hopened : refusingSite.Opened := ⟨rfl, rfl, rfl⟩
  have hidle : ((Step.ensure ⟨"r"⟩ wideEntry).take (refusingSite.run [])).transfers = [] :=
    List.length_eq_zero_iff.1 (by decide +kernel)
  obtain ⟨-, -, hstep, -⟩ := in_flight_iff_transfer_or_stranded hsecluded .fresh hopened []
  obtain ⟨hfree, hflying⟩ := hstep (.ensure ⟨"r"⟩ wideEntry) ⟨"f"⟩ rfl fun t ht => by
    rw [hidle] at ht
    cases ht
  exact ⟨hflying.1 (by decide +kernel), hfree⟩

/-- **A file may stay in flight without a transfer**: it was asked for in vain, and is never brought. -/
theorem refused_file_stays_in_flight :
    (∃ e, (Transfers.ensure ⟨"r"⟩ wideEntry).answer refusingSite = .error e) ∧
      refusingSite.inFlight.contains ⟨"f"⟩ = false ∧
      (refusingSite.run [.ensure ⟨"r"⟩ wideEntry]).inFlight.contains ⟨"f"⟩ = true ∧
      (refusingSite.run [.ensure ⟨"r"⟩ wideEntry]).transfers.length = 0 := by
  have hfails : (match (Transfers.ensure ⟨"r"⟩ wideEntry).answer refusingSite with
      | .ok _ => false
      | .error _ => true) = true := by decide +kernel
  refine ⟨?_, rfl, by decide +kernel, by decide +kernel⟩
  cases hanswer : (Transfers.ensure ⟨"r"⟩ wideEntry).answer refusingSite with
  | ok status =>
    rw [hanswer] at hfails
    cases hfails
  | error e => exact ⟨e, rfl⟩

end Depot

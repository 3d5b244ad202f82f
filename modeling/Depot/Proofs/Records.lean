import Depot.Proofs.Act
import Depot.Proofs.Change
import Depot.Proofs.Inventory

/-!
# What calls of the inventory lead to

In a secluded depot a call of the inventory is refused, and then nothing has changed but what is still to
strike, or it does what it says. Each lemma says so of one call: what it answers is read off the
inventory, and what it changes is a change of the inventory.
-/

namespace Depot

open Act

variable {α : Type} {s s' : Site}

/-! ### What goes on aside -/

theorem Aside.refl (s : Site) : Aside s s := .intro s.faults s.disk s.supply (.refl _)

theorem Aside.trans {s'' : Site} (h : Aside s s') (h' : Aside s' s'') : Aside s s'' := by
  obtain ⟨faults, disk, supply, goOn⟩ := h
  obtain ⟨faults', disk', supply', goOn'⟩ := h'
  exact .intro faults' disk' supply' (goOn.trans goOn')

theorem Aside.course (h : Aside s s') : Course s s' := .single (.file (.evict (.aside h)))

theorem Site.Secluded.aside (h : s.Secluded) (a : Aside s s') : s'.Secluded := by
  obtain ⟨faults, disk, supply, goOn⟩ := a
  exact ⟨h.inMemory, goOn _ h.claims, goOn _ h.files, goOn _ h.jobs, h.unheard⟩

theorem Site.Faultless.aside (h : s.Faultless) (a : Aside s s') : s'.Faultless := by
  obtain ⟨faults, disk, supply, goOn⟩ := a
  exact fun fault => goOn fault (h fault)

theorem Site.Refused.aside {e : Failure} (h : s'.Refused e) (a : Aside s s') : s.Refused e :=
  ⟨h.1, fun hs => h.2 (hs.aside a)⟩

/-! ### Faults that have struck -/

/-- A depot whose calls of the inventory are not refused any more. -/
def Site.unhindered (s : Site) : Site := { s with faults := fun _ => [] }

theorem Site.faultless_unhindered (s : Site) : s.unhindered.Faultless := fun _ => rfl

/-- A fault may have struck, and nothing else has happened. -/
structure Site.Stays (s s' : Site) : Prop where
  same : s'.unhindered = s.unhindered
  goOn : FaultsGoOn s.faults s'.faults

namespace Site.Stays

theorem refl (s : Site) : s.Stays s := ⟨rfl, .refl _⟩

theorem trans {s'' : Site} (h : s.Stays s') (h' : s'.Stays s'') : s.Stays s'' :=
  ⟨h'.same.trans h.same, h.goOn.trans h'.goOn⟩

theorem eq (h : s.Stays s') : s' = { s with faults := s'.faults } :=
  show { s'.unhindered with faults := s'.faults } = { s.unhindered with faults := s'.faults } by rw [h.same]

theorem aside (h : s.Stays s') : Aside s s' := by
  rw [h.eq]
  exact .intro s'.faults s.disk s.supply h.goOn

end Site.Stays

/-! ### Secluded depots stay secluded -/

theorem Site.Secluded.change (h : s.Secluded) (c : Change s s') : s'.Secluded := by
  cases c with
  | file c =>
    cases c with
    | evict e =>
      cases e with
      | aside a => exact h.aside a
      | evicted => exact h.of_same rfl rfl rfl
    | attached | detached | queued | unlocked | strayed | extended => exact h.of_same rfl rfl rfl
  | transfer c => cases c <;> exact h.of_same rfl rfl rfl
  | job c => cases c <;> exact h.of_same rfl rfl rfl
  | warned | told | clocked | duties | spoiled => exact h.of_same rfl rfl rfl

theorem Site.Faultless.change (h : s.Faultless) (c : Change s s') : s'.Faultless := by
  cases c with
  | file c =>
    cases c with
    | evict e =>
      cases e with
      | aside a => exact h.aside a
      | evicted => exact h
    | attached | detached | queued | unlocked | strayed | extended => exact h
  | transfer c => cases c <;> exact h
  | job c => cases c <;> exact h
  | warned | told | clocked | duties | spoiled => exact h

namespace Course

theorem secluded (h : Course s s') (hs : s.Secluded) : s'.Secluded := by
  induction h with
  | refl => exact hs
  | tail _ c ih => exact ih.change c

theorem faultless (h : Course s s') (hs : s.Faultless) : s'.Faultless := by
  induction h with
  | refl => exact hs
  | tail _ c ih => exact ih.change c

/-- What is refused later could have been refused before. -/
theorem refused {e : Failure} (h : Course s s') (hr : s'.Refused e) : s.Refused e :=
  ⟨hr.1, fun hs => hr.2 (h.faultless hs)⟩

end Course

/-! ### References -/

/-- To refer to a file once more changes nothing. -/
theorem Inventory.addReference_of_refers {v : Inventory} {id : FileId} {r : RequestId}
    (h : v.refers id r = true) : v.addReference id r = v := by
  unfold Inventory.refers at h
  unfold Inventory.addReference
  cases hs : v.references.get? id with
  | none => rw [hs] at h; cases h
  | some set =>
    rw [hs] at h
    have hadd : set.add r = set := by
      refine Table.ext_get? fun k => ?_
      rw [KeySet.add, Table.get?_insert]
      split
      · next hk =>
        obtain ⟨⟨⟩, hu⟩ := Table.contains_eq_true.1 h
        rw [hk, hu]
      · rfl
    have hinsert : v.references.insert id set = v.references := by
      refine Table.ext_get? fun k => ?_
      rw [Table.get?_insert]
      split
      · next hk => rw [hk, hs]
      · rfl
    simp only [Option.getD_some, hadd, hinsert]

namespace Records

/-! ### Refusals -/

/-- A fault that is not to strike changes nothing. -/
theorem leads_strikes_of_quiet {f : Fault} {E : Failure → Site → Prop} {Q : Bool → Site → Prop}
    (h : s.faults f = []) : Leads (strikes f) E Q s ↔ Q false s := by
  simp only [strikes, leads_bind, leads_get, h, leads_pure]

/-- A call begins that is not to be refused. -/
theorem leads_reach_of_quiet {call : StoreCall} {E : Failure → Site → Prop} {Q : Unit → Site → Prop}
    (h : s.faults (.refuse call) = []) : Leads (reach call) E Q s ↔ Q () s := by
  rw [reach, leads_bind, leads_strikes_of_quiet h, if_neg Bool.false_ne_true, leads_pure]

/-- A fault strikes or does not. -/
theorem leads_strikes (f : Fault) (s : Site) :
    Leads (strikes f) (fun _ _ => False)
      (fun b s' => s.Stays s' ∧ (s.faults f = [] → b = false)) s := by
  simp only [strikes, leads_bind, leads_get]
  cases hp : s.faults f with
  | nil =>
    dsimp only
    rw [leads_pure]
    exact ⟨.refl s, fun _ => rfl⟩
  | cons streak rest =>
    simp only [leads_bind, leads_modify, leads_pure]
    refine ⟨⟨rfl, fun fault hquiet => ?_⟩, nofun⟩
    dsimp only
    split
    · next hf => rw [hf, hp] at hquiet; cases hquiet
    · exact hquiet

/-- A call is refused, or it begins; nothing else has happened. -/
theorem leads_reach_stays (call : StoreCall) (s : Site) :
    Leads (reach call) (fun e s' => s.Refused e ∧ s.Stays s') (fun _ s' => s.Stays s') s := by
  rw [reach, leads_bind]
  refine (leads_strikes (.refuse call) s).mono (fun _ _ => False.elim) fun b s₁ ⟨hstays, hquiet⟩ => ?_
  cases b with
  | false =>
    rw [if_neg Bool.false_ne_true, leads_pure]
    exact hstays
  | true =>
    rw [if_pos rfl, leads_throw]
    exact ⟨⟨⟨_, rfl⟩, fun h => by cases hquiet (h _)⟩, hstays⟩

/-- A call begins, unless it is refused. -/
theorem leads_reach (call : StoreCall) (s : Site) :
    Leads (reach call) (fun e s' => s.Refused e ∧ Aside s s') (fun _ s' => Aside s s') s :=
  (leads_reach_stays call s).mono (fun _ _ ⟨hrefused, hstays⟩ => ⟨hrefused, hstays.aside⟩)
    fun _ _ hstays => hstays.aside

/-- A call that reads the inventory. -/
theorem leads_read_stays (call : StoreCall) (g : Inventory → α) (s : Site) :
    Leads (do reach call; return g (← get).inventory) (fun e s' => s.Refused e ∧ s.Stays s')
      (fun a s' => s.Stays s' ∧ a = g s.inventory) s := by
  rw [leads_bind]
  refine (leads_reach_stays call s).mono (fun _ _ => id) fun _ s₁ hstays => ?_
  simp only [leads_bind, leads_get, leads_pure]
  exact ⟨hstays, by rw [hstays.eq]⟩

/-- A call that looks for one record, which a fault may hide. -/
theorem leads_look_stays (call : StoreCall) (f : Fault) (g : Inventory → Option α) (s : Site) :
    Leads
      (do
        reach call
        if ← strikes f then return none
        return g (← get).inventory)
      (fun e s' => s.Refused e ∧ s.Stays s')
      (fun a s' => s.Stays s' ∧ (a = none ∨ a = g s.inventory) ∧
        (s.faults f = [] → a = g s.inventory)) s := by
  rw [leads_bind]
  refine (leads_reach_stays call s).mono (fun _ _ => id) fun _ s₁ hreached => ?_
  rw [leads_bind]
  refine (leads_strikes f s₁).mono (fun _ _ => False.elim) fun b s₂ ⟨hstays, hquiet⟩ => ?_
  have hstays := hreached.trans hstays
  cases b with
  | false =>
    simp only [Bool.false_eq_true, if_false, leads_bind, leads_get, leads_pure]
    have hread : g s₂.inventory = g s.inventory := by rw [hstays.eq]
    exact ⟨hstays, .inr hread, fun _ => hread⟩
  | true =>
    simp only [if_true, leads_pure]
    exact ⟨hstays, .inl trivial, fun hnone => by cases hquiet (hreached.goOn f hnone)⟩

theorem leads_read (call : StoreCall) (g : Inventory → α) (s : Site) :
    Leads (do reach call; return g (← get).inventory) (fun e s' => s.Refused e ∧ Aside s s')
      (fun a s' => a = g s.inventory ∧ Aside s s') s :=
  (leads_read_stays call g s).mono (fun _ _ ⟨hrefused, hstays⟩ => ⟨hrefused, hstays.aside⟩)
    fun _ _ ⟨hstays, hread⟩ => ⟨hread, hstays.aside⟩

/-- In memory the inventory is changed and nothing else. -/
theorem leads_change {f : Inventory → Inventory} {E : Failure → Site → Prop} {Q : Unit → Site → Prop}
    (h : s.Secluded) : Leads (change f) E Q s ↔ Q () { s with inventory := f s.inventory } := by
  simp only [change, persist, leads_bind, leads_modify, leads_get, h.inMemory, leads_pure]

/-! ### Files -/

theorem leads_loadFile (h : s.Secluded) (id : FileId) :
    Leads (loadFile id) (fun e s' => s.Refused e ∧ Aside s s')
      (fun f s' => f = s.inventory.files.get? id ∧ Aside s s') s :=
  (leads_look_stays .loadFile .missFile (·.files.get? id) s).mono
    (fun _ _ ⟨hrefused, hstays⟩ => ⟨hrefused, hstays.aside⟩)
    fun _ _ ⟨hstays, _, hread⟩ => ⟨hread h.files, hstays.aside⟩

theorem leads_saveFile (h : s.Secluded) (f : FileRecord) :
    Leads (saveFile f) (fun e s' => s.Refused e ∧ Aside s s')
      (fun _ s' => ∃ s₁, Aside s s₁ ∧ s' = { s₁ with inventory := s₁.inventory.saveFile f }) s := by
  simp only [saveFile, leads_bind]
  refine (leads_reach .saveFile s).mono (fun e s₁ h => h) fun _ s₁ ha => ?_
  rw [leads_change (h.aside ha)]
  exact ⟨s₁, ha, rfl⟩

theorem leads_deleteFile (h : s.Secluded) (id : FileId) :
    Leads (deleteFile id) (fun e s' => s.Refused e ∧ Aside s s')
      (fun f s' => f = s.inventory.files.get? id ∧
        ∃ s₁, Aside s s₁ ∧ s' = { s₁ with inventory := s₁.inventory.deleteFile id }) s := by
  simp only [deleteFile, leads_bind]
  refine (leads_reach .deleteFile s).mono (fun e s₁ h => h) fun _ s₁ ha => ?_
  rw [leads_strikes_of_quiet (h.aside ha).claims]
  simp only [Bool.false_eq_true, if_false, leads_bind, leads_get]
  rw [leads_change (h.aside ha), leads_pure]
  refine ⟨?_, s₁, ha, rfl⟩
  cases ha
  rfl

theorem leads_findUnlocked (time : Time.Instant) (s : Site) :
    Leads (findUnlocked time) (fun e s' => s.Refused e ∧ Aside s s')
      (fun l s' => l = s.inventory.unlockedBefore time ∧ Aside s s') s :=
  leads_read .findUnlocked (·.unlockedBefore time) s

theorem leads_findPending (s : Site) :
    Leads findPending (fun e s' => s.Refused e ∧ Aside s s')
      (fun l s' => l = s.inventory.pendingFiles ∧ Aside s s') s :=
  leads_read .findPending (·.pendingFiles) s

theorem leads_sumAvailable (s : Site) :
    Leads sumAvailable (fun e s' => s.Refused e ∧ Aside s s')
      (fun kb s' => kb = s.inventory.availableKb ∧ Aside s s') s :=
  leads_read .sumAvailable (·.availableKb) s

/-! ### References -/

theorem leads_addReference (h : s.Secluded) (id : FileId) (r : RequestId) :
    Leads (addReference id r) (fun e s' => s.Refused e ∧ Aside s s')
      (fun _ s' => ∃ s₁, Aside s s₁ ∧ s' = { s₁ with inventory := s₁.inventory.addReference id r })
      s := by
  simp only [addReference, leads_bind]
  refine (leads_reach .addReference s).mono (fun e s₁ h => h) fun _ s₁ ha => ?_
  simp only [leads_get]
  cases hr : s₁.inventory.refers id r with
  | false =>
    simp only [Bool.not_false, if_true]
    rw [leads_change (h.aside ha)]
    exact ⟨s₁, ha, rfl⟩
  | true =>
    simp only [Bool.not_true, Bool.false_eq_true, if_false, leads_pure]
    exact ⟨s₁, ha, by rw [Inventory.addReference_of_refers hr]⟩

theorem leads_removeReference (h : s.Secluded) (id : FileId) (r : RequestId) :
    Leads (removeReference id r) (fun e s' => s.Refused e ∧ Aside s s')
      (fun _ s' => ∃ s₁, Aside s s₁ ∧
        (s' = s₁ ∨ s' = { s₁ with inventory := s₁.inventory.removeReference id r })) s := by
  simp only [removeReference, leads_bind]
  refine (leads_reach .removeReference s).mono (fun e s₁ h => h) fun _ s₁ ha => ?_
  simp only [leads_get]
  split
  · rw [leads_change (h.aside ha)]
    exact ⟨s₁, ha, .inr rfl⟩
  · rw [leads_pure]
    exact ⟨s₁, ha, .inl rfl⟩

theorem leads_findReferrers (id : FileId) (s : Site) :
    Leads (findReferrers id) (fun e s' => s.Refused e ∧ Aside s s')
      (fun l s' => l = s.inventory.referrers id ∧ Aside s s') s :=
  leads_read .findReferrers (·.referrers id) s

/-! ### Jobs -/

theorem leads_loadJob (h : s.Secluded) (r : RequestId) :
    Leads (loadJob r) (fun e s' => s.Refused e ∧ Aside s s')
      (fun j s' => j = s.inventory.jobs.get? r ∧ Aside s s') s :=
  (leads_look_stays .loadJob .missJob (·.jobs.get? r) s).mono
    (fun _ _ ⟨hrefused, hstays⟩ => ⟨hrefused, hstays.aside⟩)
    fun _ _ ⟨hstays, _, hread⟩ => ⟨hread h.jobs, hstays.aside⟩

theorem leads_saveJob (h : s.Secluded) (j : Job) :
    Leads (saveJob j) (fun e s' => s.Refused e ∧ Aside s s')
      (fun _ s' => ∃ s₁, Aside s s₁ ∧ s' = { s₁ with inventory := s₁.inventory.saveJob j }) s := by
  simp only [saveJob, leads_bind]
  refine (leads_reach .saveJob s).mono (fun e s₁ h => h) fun _ s₁ ha => ?_
  rw [leads_change (h.aside ha)]
  exact ⟨s₁, ha, rfl⟩

theorem leads_findByStatus (status : JobStatus) (s : Site) :
    Leads (findByStatus status) (fun e s' => s.Refused e ∧ Aside s s')
      (fun l s' => l = s.inventory.jobsWithStatus status ∧ Aside s s') s :=
  leads_read .findByStatus (·.jobsWithStatus status) s

theorem leads_findExpiring (after upTo : Time.Instant) (s : Site) :
    Leads (findExpiring after upTo) (fun e s' => s.Refused e ∧ Aside s s')
      (fun l s' => l = s.inventory.expiringBetween after upTo ∧ Aside s s') s :=
  leads_read .findExpiring (·.expiringBetween after upTo) s

theorem leads_findUnexpired (time : Time.Instant) (s : Site) :
    Leads (findUnexpired time) (fun e s' => s.Refused e ∧ Aside s s')
      (fun l s' => l = s.inventory.unexpiredAt time ∧ Aside s s') s :=
  leads_read .findUnexpired (·.unexpiredAt time) s

theorem leads_overwriteStatus {E : Failure → Site → Prop} {Q : Unit → Site → Prop} (h : s.Secluded)
    (r : RequestId) (status : JobStatus) :
    Leads (overwriteStatus r status) E Q s ↔
      Q () { s with inventory := s.inventory.overwriteStatus r status } := by
  simp only [overwriteStatus, leads_bind, leads_get]
  split
  · rw [leads_forgive, leads_change h]
  · next hr =>
    have hnone : s.inventory.jobs.get? r = none := Table.contains_eq_false.1 (by simpa using hr)
    have hsame : s.inventory.overwriteStatus r status = s.inventory := by
      simp only [Inventory.overwriteStatus, hnone]
    rw [leads_pure, hsame]

end Records

end Depot

import Depot.Proofs.Moves
import Depot.Proofs.Sweeps
import Depot.Site.Opening

/-!
# The passage of time

All that an open depot does by itself is a course of affairs: the moves of its transfers, and the rounds
of its duties. Whatever order the moves come in, and however many of them there are, each is an
errand of its own. Only a round of warnings is more than that.

## Main statements

* `Passage.errands_makeMoves`, `Passage.affairs_serve` — moves and rounds, as many as are made.
* `Opening.leads_restart` — a depot that is opened again begins anew over its inventory.
-/

namespace Depot

open Act Time

variable {α β : Type} {s s' : Site}

/-! ### Moves -/

theorem Act.leads_takeOff {place : Nat} {E : Failure → Site → Prop} {Q : Option Task → Site → Prop} :
    Leads (takeOff place) E Q s ↔ Q s.tasks[place]? { s with tasks := s.tasks.eraseIdx place } := by
  simp only [takeOff, leads_bind, leads_get, leads_modify, leads_pure]

theorem Transfers.Moved.errands (h : Moved s s') : Errands s s' := by
  obtain ⟨s₁, s₂, ha, hc, ha'⟩ := h
  exact (ha.errands.tail (.transfer hc)).trans ha'.errands

namespace Passage

/-- A duty leaves the list, and the transfers on it are the same. -/
theorem errand_eraseIdx_duty {d : Duty} {round place : Nat}
    (h : s.tasks[place]? = some (.duty d round)) :
    Errand s { s with tasks := s.tasks.eraseIdx place } := .duties _ (transfers_eraseIdx_duty h)

theorem errands_passTo (moment : Nat) (s : Site) : (passTo moment).Within Errand s :=
  .modify (.single (.clocked _))

/-- The move of the transfer at a place. -/
theorem leads_moveAt (h : s.Sound) {place : Nat} {t : Transfer}
    (ht : s.tasks[place]? = some (.transfer t)) :
    Leads (Transfers.advance t) (fun _ _ => False) (fun _ s' => Transfers.Moved s s')
      { s with tasks := s.tasks.eraseIdx place } :=
  Transfers.leads_advance h.secluded (transfers_eraseIdx ht)

/-- Moves of transfers, as many as are made. -/
theorem errands_makeMoves (target : Option Nat) (awaited : Option FileId) :
    ∀ (fuel : Nat) {s : Site}, s.Sound → (makeMoves target awaited fuel).Within Errand s
  | 0, s, h => .pure _ s
  | fuel + 1, s, h => by
    simp only [makeMoves]
    refine .bind (.get s) fun _ s₁ c₁ => ?_
    split
    · exact .pure _ s₁
    next moment place _ =>
    split
    · exact .pure _ s₁
    refine .bind (errands_passTo moment s₁) fun _ s₂ c₂ => ?_
    have h₂ : s₂.Sound := Errands.sound c₂ (Errands.sound c₁ h)
    rw [Within, leads_bind, leads_takeOff]
    cases ht : s₂.tasks[place]? with
    | none =>
      rw [leads_pure, List.eraseIdx_of_length_le (List.getElem?_eq_none_iff.1 ht)]
    | some task =>
      cases task with
      | duty d round =>
        rw [leads_pure]
        exact .single (errand_eraseIdx_duty ht)
      | transfer t =>
        simp only [leads_bind]
        refine (leads_moveAt h₂ ht).mono (fun _ _ hfalse => hfalse.elim) fun ending s₃ hmoved => ?_
        have c₃ := hmoved.errands
        have hnext := (errands_makeMoves target awaited fuel (c₃.sound h₂)).after c₃
        cases ending with
        | none => exact hnext
        | some ending =>
          dsimp only
          split
          · rw [leads_pure]
            exact c₃
          · exact hnext

theorem errands_doUntil (h : s.Sound) (moment : Nat) : (doUntil moment).Within Errand s := by
  refine .bind (.get s) fun _ s₁ c₁ => ?_
  exact .bind (errands_makeMoves _ _ _ (Errands.sound c₁ h)) fun _ s₂ _ => errands_passTo moment s₂

theorem errands_run (h : s.Sound) (millis : Nat) : (run millis).Within Errand s :=
  .bind (.get s) fun _ _ c₁ => errands_doUntil (Errands.sound c₁ h) _

theorem errands_wait (h : s.Sound) (id : FileId) : (wait id).Within Errand s := by
  have hstored : ∀ {s₁}, Errands s s₁ → (storedStatus id).Within Errand s₁ := fun {s₁} c₁ =>
    .bind ((Records.leads_loadFile (c₁.sound h).secluded id).mono (fun _ _ ⟨_, ha⟩ => ha.errands)
      fun _ _ ⟨_, ha⟩ => ha.errands) fun _ s₂ _ => .pure _ s₂
  have hawait : (awaitEnding id).Within Errand s := by
    refine .bind (.get s) fun t s₁ c₁ => ?_
    split
    · refine .bind (.get s₁) fun _ s₂ c₂ => ?_
      have h₂ : s₂.Sound := Errands.sound (c₁.trans c₂) h
      refine .bind (errands_makeMoves _ _ _ h₂) fun halt s₃ c₃ => ?_
      have hlook : (do catchUp; storedStatus id).Within Errand s₃ :=
        .bind (errands_run (Errands.sound c₃ h₂) 0) fun _ s₄ c₄ =>
          hstored (((c₁.trans c₂).trans c₃).trans c₄)
      split
      · exact .pure _ s₃
      · exact hlook
    · exact hstored c₁
  exact .bind hawait fun _ s₁ c₁ =>
    .bind (errands_run (Errands.sound c₁ h) 0) fun _ s₂ _ => .pure _ s₂

/-! ### Duties -/

theorem affairs_makeRound (h : s.Sound) (d : Duty) : (makeRound d).Within Affair s := by
  cases d with
  | advanceJobs => exact (Act.Within.forgive (Jobs.errands_poll h)).affairs
  | warn => exact .bind (.get s) fun _ _ _ => .forgive (.whole (.notified _))
  | keepRoom =>
    refine .bind (.get s) fun _ s₁ c₁ => Act.Within.affairs (.forgive ?_)
    have h₁ : s₁.Sound := Affairs.sound c₁ h
    exact (Room.leads_evict h₁.secluded h₁.balanced.named _).mono (fun _ _ ⟨_, he⟩ => he.errands)
      fun _ _ ⟨he, _⟩ => he.errands

theorem errands_planRound (d : Duty) (s : Site) : (planRound d).Within Errand s := by
  refine .bind (.get s) fun _ s₁ _ => ?_
  dsimp only
  split
  · rw [Within, leads_join]
    refine .single (.duties _ ?_)
    rw [List.filterMap_append]
    exact List.append_nil _
  · exact .pure _ s₁

theorem errands_takeUp (h : s.Sound) (d : Duty) : (takeUp d).Within Errand s := by
  unfold takeUp
  split
  · exact .bind (.forgive (Transfers.errands_resumePending h)) fun _ s₁ _ => errands_planRound d s₁
  · exact errands_planRound d s

theorem errands_layDown (s : Site) : layDown.Within Errand s :=
  .modify (.single (.duties _ (transfers_filter_isDuty s.tasks)))

theorem affairs_makeRounds (target : Nat) : ∀ (fuel : Nat) {s : Site}, s.Sound →
    (makeRounds target fuel).Within Affair s
  | 0, s, h => .pure _ s
  | fuel + 1, s, h => by
    simp only [makeRounds]
    refine .bind (.get s) fun _ s₁ c₁ => ?_
    refine .bind (errands_makeMoves _ _ _ (Affairs.sound c₁ h)).affairs fun halt s₂ c₂ => ?_
    have h₂ : s₂.Sound := Affairs.sound (c₁.trans c₂) h
    split
    · exact .bind (affairs_makeRound h₂ _) fun _ s₃ c₃ =>
        .bind (errands_planRound _ s₃).affairs fun _ s₄ c₄ =>
          affairs_makeRounds target fuel (Affairs.sound (c₃.trans c₄) h₂)
    · exact .pure _ s₂

/-- Duties taken up, done and laid down. -/
theorem affairs_serve (h : s.Sound) (duties : List Duty) (millis : Nat) :
    (serve duties millis).Within Affair s := by
  have hduties : ∀ (l : List Duty) {s₁ : Site}, s₁.Sound → (l.forM takeUp).Within Errand s₁ := by
    intro l
    induction l with
    | nil => exact fun {s₁} _ => .pure _ s₁
    | cons d rest ih =>
      exact fun {s₁} h₁ => .bind (errands_takeUp h₁ d) fun _ s₂ c₂ => ih (Errands.sound c₂ h₁)
  refine .bind (errands_run h 0).affairs fun _ s₁ c₁ => ?_
  have h₁ : s₁.Sound := Affairs.sound c₁ h
  refine .bind (hduties duties h₁).affairs fun _ s₂ c₂ => ?_
  have h₂ : s₂.Sound := Affairs.sound c₂ h₁
  refine .bind (.get s₂) fun _ s₃ c₃ => ?_
  refine .bind (affairs_makeRounds _ _ (Affairs.sound c₃ h₂)) fun _ s₄ _ => ?_
  exact .bind (errands_passTo _ s₄).affairs fun _ s₅ _ => (errands_layDown s₅).affairs

end Passage

/-! ### Opening -/

namespace Opening

/-- In memory the inventory stays as it is when the depot is opened again. -/
theorem leads_restart (h : s.Secluded) :
    Leads restart (fun _ s' => Aside s s') (fun _ s' => ∃ s₁, Aside s s₁ ∧ s' = s₁.reopen s₁.settings)
      s := by
  simp only [restart, reload, begin, leads_bind, leads_get, h.inMemory, leads_pure, leads_modify]
  refine (Records.leads_sumAvailable s).mono (fun _ _ hr => hr.2) fun kb s₁ ⟨hkb, ha⟩ => ⟨s₁, ha, ?_⟩
  rw [hkb, ← Jobs.jobs_aside ha]
  rfl

end Opening

end Depot

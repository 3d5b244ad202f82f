import Depot.Proofs.Sending
import Depot.Proofs.Turns

/-!
# Punctual runs

In a punctual run no task makes a move before its time, time is not taken back, and the depot stays open; other
than that whatever a depot may be asked to do comes in any order. All that happens to transfers in such a run
happens in strokes: a transfer moves whose time has come, time passes, or something is done that leaves those
under way alone. What a stroke keeps every punctual run keeps, with the moves that are made while time passes,
or while somebody waits, and with the rounds of duties.

Duties are on the list of tasks only while they are done, so between two steps of a run there are none.

## Main statements

* `Stroke.history` — a stroke is made of single events.
* `Shift.running` — what goes on punctually goes on so after a stroke.
* `Step.shifts`, `Site.shifts_run` — steps and punctual runs are made of strokes and of plans for duties, and
  leave no duties.
-/

namespace Depot

open Act Time

variable {α : Type} {s s' : Site}

/-! ### Strokes -/

/-- **What may happen to transfers in one go.** -/
inductive Stroke : Site → Site → Prop
  /-- Something is done that brings no transfer forward. -/
  | worked {s s' : Site} (undertakings : Undertakings s s') (queues : s.Queues s') : Stroke s s'
  /-- A transfer moves whose time has come. -/
  | moved {s : Site} {place moment : Nat} {t : Transfer}
      (found : s.tasks[place]? = some (.transfer t)) (due : t.due? = some moment)
      (come : moment ≤ s.clock.elapsed) :
      Stroke s ((Transfers.advance t).after { s with tasks := s.tasks.eraseIdx place })
  /-- Time passes, or the clock is set. -/
  | clocked {s : Site} (clock : Clock) (forward : s.clock.elapsed ≤ clock.elapsed) :
      Stroke s { s with clock := clock }
  /-- Duties leave the list. -/
  | laidDown {s : Site} (tasks : List Task) (same : tasks.filterMap Task.transfer? = s.transfers)
      (fewer : ∀ t ∈ tasks, t ∈ s.tasks) : Stroke s { s with tasks := tasks }

/-- **A stroke, or the plan for a round of a duty.** -/
inductive Shift : Site → Site → Prop
  | stroke {s s' : Site} (h : Stroke s s') : Shift s s'
  | planned {s : Site} (d : Duty) (round : Nat) :
      Shift s { s with tasks := s.tasks ++ [.duty d round] }

/-- A course of strokes. -/
abbrev Strokes : Site → Site → Prop := Relation.ReflTransGen Stroke

/-- A course of strokes and plans for duties. -/
abbrev Shifts : Site → Site → Prop := Relation.ReflTransGen Shift

theorem Strokes.shifts (c : Strokes s s') : Shifts s s' :=
  Relation.ReflTransGen.mono (fun _ _ c => .stroke c) _ _ c

/-- **A stroke is made of single events.** -/
theorem Stroke.history (c : Stroke s s') (h : s.Sound) : History s s' := by
  cases c with
  | worked undertakings => exact (undertakings.sitting h).history
  | moved found =>
    have hmoved := Leads.after ((Passage.leads_moveAt h found).mono (fun _ _ hfalse => hfalse.elim)
      fun _ _ hm => hm.errands)
    exact (hmoved.course h).history
  | clocked clock => exact .single (.deed (.change (.clocked clock)))
  | laidDown tasks same => exact .single (.deed (.change (.duties tasks same)))

theorem Shift.history (c : Shift s s') (h : s.Sound) : History s s' := by
  cases c with
  | stroke c => exact c.history h
  | planned d round =>
    refine .single (.deed (.change (.duties _ ?_)))
    rw [List.filterMap_append]
    exact List.append_nil _

namespace Shifts

theorem history (c : Shifts s s') (h : s.Sound) : History s s' := by
  induction c with
  | refl => exact .refl
  | tail _ d ih => exact ih.trans (d.history (h.history ih))

theorem sound (c : Shifts s s') (h : s.Sound) : s'.Sound := h.history (c.history h)

end Shifts

theorem Strokes.sound (c : Strokes s s') (h : s.Sound) : s'.Sound := c.shifts.sound h

/-! ### What strokes keep -/

/-- **A depot that goes on punctually**: its books balance, no call is refused, and turns are fair. -/
structure Site.Running (s : Site) : Prop where
  sound : s.Sound
  calm : s.Calm
  fair : s.Fair

namespace Site.Running

theorem orderly (h : s.Running) : s.Orderly :=
  ⟨⟨h.sound.secluded, h.calm.faultless⟩, h.sound.balanced.named⟩

/-- A depot that has just been opened goes on punctually. -/
theorem of_opened (ho : s.Opened) (h : s.Secluded) (hn : s.inventory.Named) (faultless : s.Faultless) :
    s.Running := by
  refine ⟨⟨h, ho.balanced hn⟩, ho.calm faultless, ?_⟩
  rw [Site.Fair, ho.tasks]
  exact .nil _

end Site.Running

theorem Site.Opened.offDuty (ho : s.Opened) : s.OffDuty := by
  intro t ht
  rw [ho.tasks] at ht
  cases ht

/-- A transfer whose time has come makes its move. -/
theorem Stroke.move {moment : Nat} {t : Transfer} (h : s.Orderly) (due : t.due? = some moment)
    (place : Nat) :
    ∃ ending, Transfers.Move { s with tasks := s.tasks.eraseIdx place } t ending
      ((Transfers.advance t).after { s with tasks := s.tasks.eraseIdx place }) := by
  have hquiet : ({ s with tasks := s.tasks.eraseIdx place } : Site).Quiet := h.quiet.of_same rfl rfl rfl
  obtain ⟨ending, -, hmove⟩ :=
    (Transfers.leads_advance_of_quiet hquiet (t := t) (by rw [due]; rfl)).exists_ok
  exact ⟨ending, hmove⟩

/-- Settings stay, and time is not taken back. -/
theorem Shift.frame (c : Shift s s') (h : s.Orderly) :
    s'.settings = s.settings ∧ s.clock.elapsed ≤ s'.clock.elapsed := by
  cases c with
  | planned => exact ⟨rfl, Nat.le_refl _⟩
  | stroke c =>
    cases c with
    | worked _ queues => exact ⟨queues.settings, by rw [queues.clock]⟩
    | @moved place moment t found due =>
      obtain ⟨ending, hmove⟩ := Stroke.move h due place
      exact ⟨hmove.frame.1, by rw [hmove.frame.2]⟩
    | clocked clock forward => exact ⟨rfl, forward⟩
    | laidDown => exact ⟨rfl, Nat.le_refl _⟩

/-- A free turn leaves nobody waiting, whatever is queued behind. -/
theorem Site.Fair.queues (h : s.Fair) (q : s.Queues s') : s'.Fair := by
  obtain ⟨new, hnew⟩ := q.tasks
  rw [Site.Fair, q.settings, hnew]
  clear hnew
  induction new with
  | nil =>
    rw [List.map_nil, List.append_nil]
    exact h
  | cons f rest ih =>
    exact (ih.rests (t := ⟨f, .resting s.clock.elapsed⟩) rfl rfl).of_perm List.perm_middle

/-- **What goes on punctually goes on so after a stroke.** -/
theorem Shift.running (c : Shift s s') (h : s.Running) : s'.Running := by
  refine ⟨h.sound.history (c.history h.sound), h.calm.history (c.history h.sound), ?_⟩
  cases c with
  | planned d round =>
    intro hfree t ht
    have hturns : turnsOf (s.tasks ++ [.duty d round]) = turnsOf s.tasks := turnsOf_append ..
    rcases List.mem_append.1 ht with ht | ht
    · exact h.fair (hturns ▸ hfree) t ht
    · rw [List.mem_singleton.1 ht]
      rfl
  | stroke c =>
    cases c with
    | worked _ queues => exact h.fair.queues queues
    | @moved place moment t found due =>
      obtain ⟨ending, hmove⟩ := Stroke.move h.orderly due place
      exact hmove.fair (FairAmong.of_perm h.fair (perm_eraseIdx found).symm)
    | clocked => exact h.fair
    | laidDown tasks same fewer =>
      intro hfree t ht
      have hturns : turnsOf tasks = turnsOf s.tasks := congrArg (List.countP Transfer.holdsTurn) same
      exact h.fair (hturns ▸ hfree) t (fewer t ht)

theorem Shifts.running (c : Shifts s s') (h : s.Running) : s'.Running := by
  induction c with
  | refl => exact h
  | tail _ d ih => exact d.running ih

theorem Shifts.frame (c : Shifts s s') (h : s.Running) :
    s'.settings = s.settings ∧ s.clock.elapsed ≤ s'.clock.elapsed := by
  induction c with
  | refl => exact ⟨rfl, Nat.le_refl _⟩
  | tail c d ih =>
    obtain ⟨hsettings, helapsed⟩ := d.frame (Shifts.running c h).orderly
    exact ⟨hsettings.trans ih.1, ih.2.trans helapsed⟩

/-- **No stroke takes up a duty.** -/
theorem Stroke.offDuty (c : Stroke s s') (h : s.Orderly) (off : s.OffDuty) : s'.OffDuty := by
  cases c with
  | worked _ queues =>
    obtain ⟨new, hnew⟩ := queues.tasks
    intro t ht
    rw [hnew] at ht
    rcases List.mem_append.1 ht with ht | ht
    · exact off t ht
    · obtain ⟨f, -, rfl⟩ := List.mem_map.1 ht
      rfl
  | @moved place moment t found due =>
    obtain ⟨ending, hmove⟩ := Stroke.move h due place
    exact hmove.offDuty fun t ht => off t (List.mem_of_mem_eraseIdx ht)
  | clocked => exact off
  | laidDown tasks same fewer => exact fun t ht => off t (fewer t ht)

theorem Strokes.offDuty (c : Strokes s s') (h : s.Running) (off : s.OffDuty) : s'.OffDuty := by
  induction c with
  | refl => exact off
  | tail c d ih => exact d.offDuty (Shifts.running (Strokes.shifts c) h).orderly ih

/-! ### Operations in strokes -/

namespace Act.Within

/-- An operation that brings no transfer forward is one stroke. -/
theorem stroke {x : Act α} (undertakings : x.Within Undertaking s) (queues : x.Within Site.Queues s) :
    x.Within Stroke s := .whole (.worked (Leads.after undertakings) (.of_course (Leads.after queues)))

theorem shifts {x : Act α} (h : x.Within Stroke s) : x.Within Shift s := h.mono fun _ c => Strokes.shifts c

/-- An operation that goes on in sendings queues transfers. -/
theorem queues_of_sendings {x : Act α} (h : x.Within Sending s) : x.Within Site.Queues s :=
  h.mono fun _ c => .single (Sendings.queues c)

end Act.Within

namespace Passage

theorem strokes_passTo (moment : Nat) (s : Site) : (passTo moment).Within Stroke s :=
  .modify (.single (.clocked _ (Nat.le_max_left ..)))

/-- A task leaves the list where it is a duty. -/
theorem stroke_eraseIdx {d : Duty} {round place : Nat} (h : s.tasks[place]? = some (.duty d round)) :
    Stroke s { s with tasks := s.tasks.eraseIdx place } :=
  .laidDown _ (transfers_eraseIdx_duty h) fun _ ht => List.mem_of_mem_eraseIdx ht

/-- Moves of transfers, as many as are made, each when its time has come. -/
theorem strokes_makeMoves (target : Option Nat) (awaited : Option FileId) :
    ∀ (fuel : Nat) (s : Site), (makeMoves target awaited fuel).Within Stroke s
  | 0, s => .pure _ s
  | fuel + 1, s => by
    simp only [Within, makeMoves, leads_bind, leads_get]
    cases hnext : nextMove s with
    | none => rw [leads_pure]
    | some next =>
      obtain ⟨moment, place⟩ := next
      obtain ⟨task, htask, hdue⟩ := of_nextMove hnext
      refine leads_ite.2 ⟨fun _ => by rw [leads_pure], fun _ => ?_⟩
      simp only [passTo, leads_bind, leads_modify, leads_takeOff]
      have hpassed := Stroke.clocked (s := s)
        { s.clock with elapsed := max s.clock.elapsed moment } (Nat.le_max_left ..)
      rw [htask]
      cases task with
      | duty d round =>
        dsimp only
        rw [leads_pure]
        exact .tail (.single hpassed) (stroke_eraseIdx htask)
      | transfer t =>
        simp only [leads_bind]
        have hmoved := Stroke.moved
          (s := { s with clock := { s.clock with elapsed := max s.clock.elapsed moment } })
          htask hdue (Nat.le_max_right ..)
        have hgone : Strokes s _ := .tail (.single hpassed) hmoved
        refine (leads_answer (Transfers.advance t) _).mono ?_ ?_
        · rintro e s₁ ⟨-, rfl⟩
          exact hgone
        · rintro ending s₁ ⟨-, rfl⟩
          have hrest := Within.after (strokes_makeMoves target awaited fuel _) hgone
          cases ending with
          | none => exact hrest
          | some ending =>
            dsimp only
            split
            · rw [leads_pure]
              exact hgone
            · exact hrest

theorem strokes_run (millis : Nat) (s : Site) : (run millis).Within Stroke s := by
  refine .bind (.get s) fun _ s₁ _ => .bind (.get s₁) fun _ s₂ _ => ?_
  exact .bind (strokes_makeMoves _ _ _ s₂) fun _ s₃ _ => strokes_passTo _ s₃

theorem strokes_wait (h : s.Sound) (id : FileId) : (wait id).Within Stroke s := by
  have hstored : ∀ {s₁}, s₁.Sound → (storedStatus id).Within Stroke s₁ := by
    intro s₁ h₁
    have hload : (Records.loadFile id).Within Undertaking s₁ :=
      (Records.leads_loadFile h₁.secluded id).mono (fun _ _ ⟨_, ha⟩ => ha.errands.undertakings)
        fun _ _ ⟨_, ha⟩ => ha.errands.undertakings
    exact .bind (.stroke hload (Records.idles_loadFile id s₁).queues) fun _ s₂ _ => .pure _ s₂
  have hawait : (awaitEnding id).Within Stroke s := by
    refine .bind (.get s) fun t s₁ c₁ => ?_
    split
    · refine .bind (.get s₁) fun _ s₂ c₂ => .bind (strokes_makeMoves _ _ _ s₂) fun halt s₃ c₃ => ?_
      have hlook : (do catchUp; storedStatus id).Within Stroke s₃ :=
        .bind (strokes_run 0 s₃) fun _ s₄ c₄ =>
          hstored (Strokes.sound (((c₁.trans c₂).trans c₃).trans c₄) h)
      split
      · exact .pure _ s₃
      · exact hlook
    · exact hstored (Strokes.sound c₁ h)
  exact .bind hawait fun _ s₁ _ => .bind (strokes_run 0 s₁) fun _ s₂ _ => .pure _ s₂

/-! ### Duties in strokes -/

theorem strokes_makeRound (h : s.Sound) (d : Duty) : (makeRound d).Within Stroke s := by
  refine .stroke (affairs_makeRound h d).undertakings ?_
  cases d with
  | advanceJobs => exact (Within.forgive (Jobs.sendings_poll s)).queues_of_sendings
  | warn =>
    exact .bind (.get s) fun _ s₁ _ => (Within.forgive (Warnings.idles_notify _ s₁)).queues
  | keepRoom => exact .bind (.get s) fun _ s₁ _ => (Within.forgive (Room.idles_evict _ s₁)).queues

theorem shifts_planRound (d : Duty) (s : Site) : (planRound d).Within Shift s := by
  refine .bind (.get s) fun _ s₁ _ => ?_
  dsimp only
  split
  · rw [Within, leads_join]
    exact .single (.planned d _)
  · exact .pure _ s₁

theorem shifts_takeUp (h : s.Sound) (d : Duty) : (takeUp d).Within Shift s := by
  unfold takeUp
  split
  · refine .bind (Within.shifts (.stroke ?_ ?_)) fun _ s₁ _ => shifts_planRound d s₁
    · exact (Within.forgive (Transfers.errands_resumePending h)).affairs.undertakings
    · exact (Within.forgive (Transfers.sendings_resumePending s)).queues_of_sendings
  · exact shifts_planRound d s

theorem shifts_makeRounds (target : Nat) : ∀ (fuel : Nat) {s : Site}, s.Sound →
    (makeRounds target fuel).Within Shift s
  | 0, s, h => .pure _ s
  | fuel + 1, s, h => by
    simp only [makeRounds]
    refine .bind (.get s) fun _ s₁ c₁ => ?_
    refine .bind (strokes_makeMoves _ _ _ s₁).shifts fun halt s₂ c₂ => ?_
    have h₂ : s₂.Sound := Shifts.sound (c₁.trans c₂) h
    split
    · exact .bind (strokes_makeRound h₂ _).shifts fun _ s₃ c₃ =>
        .bind (shifts_planRound _ s₃) fun _ s₄ c₄ =>
          shifts_makeRounds target fuel (Shifts.sound (c₃.trans c₄) h₂)
    · exact .pure _ s₂

theorem stroke_layDown (s : Site) : layDown.Within Stroke s :=
  .modify (.single (.laidDown _ (transfers_filter_isDuty s.tasks) fun _ ht => (List.mem_filter.1 ht).1))

/-- Duties taken up, done and laid down. -/
theorem shifts_serve (h : s.Sound) (duties : List Duty) (millis : Nat) :
    (serve duties millis).Within Shift s := by
  have hduties : ∀ (l : List Duty) {s₁ : Site}, s₁.Sound → (l.forM takeUp).Within Shift s₁ := by
    intro l
    induction l with
    | nil => exact fun {s₁} _ => .pure _ s₁
    | cons d rest ih =>
      exact fun {s₁} h₁ => .bind (shifts_takeUp h₁ d) fun _ s₂ c₂ => ih (Shifts.sound c₂ h₁)
  refine .bind (strokes_run 0 s).shifts fun _ s₁ c₁ => ?_
  refine .bind (hduties duties (Shifts.sound c₁ h)) fun _ s₂ c₂ => .bind (.get s₂) fun _ s₃ c₃ => ?_
  have h₃ : s₃.Sound := Shifts.sound ((c₁.trans c₂).trans c₃) h
  refine .bind (shifts_makeRounds _ _ h₃) fun _ s₄ _ => ?_
  exact .bind (strokes_passTo _ s₄).shifts fun _ s₅ _ => (stroke_layDown s₅).shifts

end Passage

/-! ### What never fails -/

/-- An operation never fails. -/
def Act.Sure (x : Act α) : Prop := ∀ s, Leads x (fun _ _ => False) (fun _ _ => True) s

namespace Act.Sure

variable {β : Type} {x : Act α}

theorem pure (a : α) : (Pure.pure a : Act α).Sure := fun s => by rw [leads_pure]; trivial

theorem get : (get : Act Site).Sure := fun s => by rw [leads_get]; trivial

theorem modify (f : Site → Site) : (modify f : Act Unit).Sure := fun s => by rw [leads_modify]; trivial

/-- What comes after an operation that never fails. -/
theorem leads_bind (h : x.Sure) {f : α → Act β} {E : Failure → Site → Prop} {Q : β → Site → Prop}
    (hf : ∀ a s', Leads (f a) E Q s') : Leads (x >>= f) E Q s := by
  rw [Act.leads_bind]
  exact (h s).mono (fun _ _ hfalse => hfalse.elim) fun a s' _ => hf a s'

theorem bind (h : x.Sure) {f : α → Act β} (hf : ∀ a, (f a).Sure) : (x >>= f).Sure :=
  fun _ => h.leads_bind fun a s' => hf a s'

/-- Whatever fails is caught. -/
theorem attempt (x : Act α) : (Act.attempt x).Sure := fun s => by
  rw [leads_attempt]
  exact (leads_answer x s).mono (fun _ _ _ => trivial) fun _ _ _ => trivial

theorem forgive (x : Act α) : (Act.forgive x).Sure := (attempt x).bind fun _ => pure ()

theorem join (t : Task) : (Act.join t).Sure := modify _

theorem note (h : Happening) : (Act.note h).Sure := modify _

end Act.Sure

/-- A transfer makes its move in any case. -/
theorem Transfers.sure_advance (t : Transfer) : (advance t).Sure := by
  have hrejoin : ∀ t : Task, (rejoin t).Sure := fun t s =>
    (leads_rejoin t s).mono (fun _ _ hfalse => hfalse) fun _ _ _ => trivial
  have hbegin : (begin t.record).Sure := fun s =>
    (leads_begin t.record s).mono (fun _ _ hfalse => hfalse) fun _ _ _ => trivial
  have hconclude : ∀ status, (conclude t.record.fileId status).Sure := fun status =>
    .bind (.modify _) fun _ => .pure _
  obtain ⟨f, phase⟩ := t
  cases phase with
  | resting ends =>
    refine .bind .get fun s => ?_
    dsimp only
    split
    · exact .bind hbegin fun _ => .pure _
    · exact .bind (.join _) fun _ => .pure _
  | waiting => exact .bind (.join _) fun _ => .pure _
  | chosen since => exact .bind hbegin fun _ => .pure _
  | calling ends result =>
    refine .bind .get fun s => .bind (.note _) fun _ => .bind (.modify _) fun _ => ?_
    refine .bind (.attempt _) fun settled => ?_
    split
    · exact .pure _
    · exact hconclude _
    · exact .bind (.modify _) fun _ => hconclude _

namespace Passage

theorem sure_makeMoves (target : Option Nat) (awaited : Option FileId) :
    ∀ fuel, (makeMoves target awaited fuel).Sure
  | 0 => .pure _
  | fuel + 1 => by
    have hnext := sure_makeMoves target awaited fuel
    refine .bind .get fun s => ?_
    split
    · exact .pure _
    split
    · exact .pure _
    refine .bind (.modify _) fun _ => .bind (.bind .get fun _ => .bind (.modify _) fun _ => .pure _) ?_
    intro task
    split
    · exact .pure _
    · exact .pure _
    · refine .bind (Transfers.sure_advance _) fun ending => ?_
      split
      · exact hnext
      · split
        · exact .pure _
        · exact hnext

theorem sure_run (millis : Nat) : (run millis).Sure :=
  .bind .get fun _ => .bind .get fun _ => .bind (sure_makeMoves _ _ _) fun _ => .modify _

theorem sure_planRound (d : Duty) : (planRound d).Sure := by
  refine .bind .get fun s => ?_
  dsimp only
  split
  · exact .join _
  · exact .pure _

theorem sure_takeUp (d : Duty) : (takeUp d).Sure := by
  unfold takeUp
  split
  · exact .bind (.forgive _) fun _ => sure_planRound d
  · exact sure_planRound d

theorem sure_makeRound (d : Duty) : (makeRound d).Sure := by
  cases d with
  | advanceJobs => exact .forgive _
  | warn | keepRoom => exact .bind .get fun _ => .forgive _

theorem sure_makeRounds (target : Nat) : ∀ fuel, (makeRounds target fuel).Sure
  | 0 => .pure _
  | fuel + 1 => by
    refine .bind .get fun s => .bind (sure_makeMoves _ _ _) fun halt => ?_
    split
    · exact .bind (sure_makeRound _) fun _ => .bind (sure_planRound _) fun _ => sure_makeRounds target fuel
    · exact .pure _

/-- Duties are laid down in the end. -/
theorem offDuty_serve (duties : List Duty) (millis : Nat) :
    Leads (serve duties millis) (fun _ _ => False) (fun _ s' => s'.OffDuty) s := by
  have hduties : ∀ l : List Duty, (l.forM takeUp).Sure := by
    intro l
    induction l with
    | nil => exact .pure _
    | cons d rest ih => exact .bind (sure_takeUp d) fun _ => ih
  refine (sure_run 0).leads_bind fun _ s₁ => (hduties duties).leads_bind fun _ s₂ => ?_
  refine Act.Sure.get.leads_bind fun t s₃ => (sure_makeRounds _ _).leads_bind fun _ s₄ => ?_
  refine (Act.Sure.modify _).leads_bind fun _ s₅ => ?_
  rw [layDown, leads_modify]
  intro task htask
  simpa using (List.mem_filter.1 htask).2

end Passage

/-! ### Punctual runs -/

/-- **A step is punctual**: a task that moves does so when its time has come, time is not taken back, and the
depot stays open. -/
def Step.IsPunctual (s : Site) : Step → Prop
  | .move place =>
    ∀ t, s.tasks[place]? = some t → ∃ moment, t.due? = some moment ∧ moment ≤ s.clock.elapsed
  | .setClock clock => s.clock.elapsed ≤ clock.elapsed
  | .restart _ => False
  | _ => True

/-- All steps of a run are punctual. -/
def Site.Punctual (s : Site) : List Step → Prop
  | [] => True
  | step :: rest => step.IsPunctual s ∧ (step.take s).Punctual rest

/-- A move of the task at a place, when its time has come. -/
theorem Passage.strokes_moveAt (off : s.OffDuty) {place : Nat}
    (punctual : (Step.move place).IsPunctual s) : (moveAt place).Within Stroke s := by
  rw [Within, moveAt, leads_bind, leads_takeOff]
  cases ht : s.tasks[place]? with
  | none => rw [leads_pure, List.eraseIdx_of_length_le (List.getElem?_eq_none_iff.1 ht)]
  | some task =>
    obtain ⟨moment, hdue, hcome⟩ := punctual task ht
    cases task with
    | duty d round => cases off _ (List.mem_of_getElem? ht)
    | transfer t =>
      simp only [leads_bind, leads_pure]
      have hmoved := Stroke.moved ht hdue hcome
      refine (leads_answer (Transfers.advance t) _).mono ?_ ?_
      · rintro e s₁ ⟨-, rfl⟩
        exact .single hmoved
      · rintro ending s₁ ⟨-, rfl⟩
        exact .single hmoved

/-- A step that is an operation, and brings no transfer forward. -/
theorem Step.queues {step : Step} {x : Act α} (act : step.act = (do let _ ← x : Act Unit))
    (sendings : x.Within Sending s) : s.Queues (step.take s) := by
  rw [Step.take, act, after_discard]
  exact .of_course (Leads.after sendings.queues_of_sendings)

/-- **A punctual step is made of strokes**, unless duties are done in it. -/
theorem Step.strokes (h : s.Running) (off : s.OffDuty) : ∀ {step : Step}, step.IsPunctual s →
    (∀ duties millis, step ≠ .serve duties millis) → Strokes s (step.take s) := by
  have hworked : ∀ {step : Step}, step.reopens = false → s.Queues (step.take s) →
      Strokes s (step.take s) := fun hopen queues =>
    .single (.worked (Step.undertakings h.sound hopen) queues)
  intro step hpunctual hfree
  cases step with
  | create r mode manifest => exact hworked rfl (Step.queues rfl (Jobs.sendings_create r mode manifest s))
  | pause r => exact hworked rfl (Step.queues rfl (Jobs.idles_administer r _ s).sendings)
  | resume r => exact hworked rfl (Step.queues rfl (Jobs.idles_administer r _ s).sendings)
  | poll => exact hworked rfl (Step.queues rfl (Jobs.sendings_poll s))
  | cancelAll => exact hworked rfl (Step.queues rfl (Jobs.idles_cancelAll s).sendings)
  | ensure r entry => exact hworked rfl (Step.queues rfl (Transfers.sendings_ensure r entry s))
  | resumePending => exact hworked rfl (Step.queues rfl (Transfers.sendings_resumePending s))
  | reclaim kb => exact hworked rfl (Step.queues rfl (Room.idles_evict _ s).sendings)
  | purge => exact hworked rfl (Step.queues rfl (Room.idles_evict _ s).sendings)
  | notify windowMs => exact hworked rfl (Step.queues rfl (Warnings.idles_notify windowMs s).sendings)
  | move place => exact Leads.after (Passage.strokes_moveAt off hpunctual)
  | pass millis => exact Leads.after (Passage.strokes_run millis s)
  | wait id => exact Leads.after (Within.discard (Passage.strokes_wait h.sound id))
  | serve duties millis => exact absurd rfl (hfree duties millis)
  | setClock clock => exact .single (.clocked clock hpunctual)
  | restart => exact hpunctual.elim
  | spoil failures =>
    exact hworked rfl (Site.Idles.queues ⟨rfl, rfl, rfl, rfl, rfl, .refl _, .of_same rfl rfl rfl id⟩)

/-- **A punctual step is made of strokes and plans for duties**, and there are no duties after it. -/
theorem Step.shifts (h : s.Running) (off : s.OffDuty) {step : Step} (punctual : step.IsPunctual s) :
    Shifts s (step.take s) ∧ (step.take s).OffDuty := by
  by_cases hserves : ∃ duties millis, step = .serve duties millis
  · obtain ⟨duties, millis, rfl⟩ := hserves
    refine ⟨Leads.after (Passage.shifts_serve h.sound duties millis), ?_⟩
    exact Leads.after ((Passage.offDuty_serve duties millis).mono (fun _ _ hfalse => hfalse.elim)
      fun _ _ hoff => hoff)
  · have c := Step.strokes h off punctual fun duties millis hserve => hserves ⟨duties, millis, hserve⟩
    exact ⟨c.shifts, c.offDuty h off⟩

/-- **A punctual run is made of strokes and plans for duties**, and there are no duties after it. -/
theorem Site.shifts_run (h : s.Running) (off : s.OffDuty) {steps : List Step}
    (punctual : s.Punctual steps) : Shifts s (s.run steps) ∧ (s.run steps).OffDuty := by
  induction steps generalizing s with
  | nil => exact ⟨.refl, off⟩
  | cons step rest ih =>
    obtain ⟨hstep, hrest⟩ := punctual
    obtain ⟨hshifts, hoff⟩ := Step.shifts h off hstep
    obtain ⟨hrun, hoff⟩ := ih (hshifts.running h) hoff hrest
    exact ⟨hshifts.trans hrun, hoff⟩

end Depot

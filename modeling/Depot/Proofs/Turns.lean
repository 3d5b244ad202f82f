import Depot.Proofs.Moves
import Depot.Proofs.Quiet
import Depot.Site.Passage

/-!
# Turns

What a transfer does in one move, said exactly: it waits for a turn, begins its call, or deals with the end of
it, and then its file is there, or has failed, or it pauses. Two things follow for all transfers of a depot.

A turn is free only if nobody waits for one (`Site.Fair`): whoever gives up a turn hands it to one who waits.
So as long as there are transfers one of them has a time at which it moves. And each move takes a transfer
nearer to its end (`Transfer.movesLeft`), so there are no more moves than `Passage.moveBound` says.

## Main statements

* `Transfers.leads_advance_of_quiet` — what comes of a move where no call is refused.
* `Transfers.Move.fair` — a turn is free only if nobody waits.
* `Transfers.Move.movesLeft` — a move leaves fewer moves to make.
-/

namespace Depot

open Act Time

variable {s s' : Site}

namespace Transfers

/-! ### Moves -/

/-- **What comes of a move** of a transfer that was taken off the list, where no call is refused. -/
inductive Move (s : Site) : Transfer → Option Ending → Site → Prop
  /-- It waits for a turn. -/
  | waits {f : FileRecord} {ends : Nat} (taken : hasTurn s = false) :
      Move s ⟨f, .resting ends⟩ none { s with tasks := s.tasks ++ [.transfer ⟨f, .waiting⟩] }
  /-- It begins its call, with a turn that is free or was handed over to it. -/
  | begins {f : FileRecord} {phase : Phase}
      (turn : (∃ ends, phase = .resting ends ∧ hasTurn s = true) ∨ ∃ since, phase = .chosen since)
      {tasks : List Task}
      (rejoined : tasks.Perm
        (.transfer ⟨f, .calling (s.clock.elapsed + waitMs (s.supply.outcome f 0).delayMs)
          (s.supply.outcome f 0).result⟩ :: s.tasks)) :
      Move s ⟨f, phase⟩ none
        { s with
          supply := s.supply.afterCall f
          tasks := tasks
          log := s.log ++ [.called s.clock.elapsed f.fileId f.regenerationSource,
            .begun f.fileId (s.inventory.files.get? f.fileId)] }
  /-- Its file has arrived. -/
  | arrives {f : FileRecord} {ends : Nat} {d : Delivery} {tasks : List Task} (disk : Disk)
      (handed : HandsOver s.clock.elapsed s.tasks tasks) :
      Move s ⟨f, .calling ends (.ok d)⟩ (some ⟨f.fileId, some .available⟩)
        { s with
          inventory := s.inventory.saveFile
            (arrived s f d.sizeKb (placeOf s.settings.cacheRoot f.fileId d))
          disk := disk
          account := s.account.commit f.fileId d.sizeKb
          inFlight := s.inFlight.erase f.fileId
          tasks := tasks
          log := s.log ++ [.returned s.clock.elapsed f (.ok d)] }
  /-- It is given up after a failure. -/
  | givesUp {f : FileRecord} {ends : Nat} {e : Failure} {tasks : List Task}
      (handed : HandsOver s.clock.elapsed s.tasks tasks)
      (hopeless : isHopeless s (setBack f e) e = true) :
      Move s ⟨f, .calling ends (.error e)⟩ (some ⟨f.fileId, some .failed⟩)
        { s with
          inventory := s.inventory.saveFile (givenUp s (setBack f e))
          account := s.account.release f.fileId
          inFlight := s.inFlight.erase f.fileId
          tasks := tasks
          log := s.log ++ [.returned s.clock.elapsed f (.error e)] }
  /-- It pauses after a failure. -/
  | pauses {f : FileRecord} {ends : Nat} {e : Failure} {others tasks : List Task}
      (handed : HandsOver s.clock.elapsed s.tasks others)
      (hopeful : isHopeless s (setBack f e) e = false)
      (rejoined : tasks.Perm
        (.transfer ⟨setBack f e, .resting (s.clock.elapsed +
          waitMs (s.settings.backoffMs (setBack f e).retryCount.toNat))⟩ :: others)) :
      Move s ⟨f, .calling ends (.error e)⟩ none
        { s with
          inventory := s.inventory.saveFile (setBack f e)
          tasks := tasks
          log := s.log ++ [.returned s.clock.elapsed f (.error e)] }

/-- The end of a call, once the turn is handed over. -/
theorem leads_settle_of_quiet {f : FileRecord} {ends : Nat} (result : Except Failure Delivery)
    {tasks : List Task} (h : s.Quiet) (handed : HandsOver s.clock.elapsed s.tasks tasks) :
    Leads (do
        match ← attempt (settle f result) with
        | .ok none => return none
        | .ok (some status) => conclude f.fileId (some status)
        | .error _ =>
          Room.release f.fileId
          conclude f.fileId none)
      (fun _ _ => False) (fun ending s' => Move s ⟨f, .calling ends result⟩ ending s')
      { s with tasks := tasks, log := s.log ++ [.returned s.clock.elapsed f result] } := by
  have hnoted : ({ s with
      tasks := tasks, log := s.log ++ [.returned s.clock.elapsed f result] } : Site).Quiet :=
    h.of_same rfl rfl rfl
  rw [leads_bind, leads_attempt]
  cases result with
  | ok d =>
    simp only [settle, leads_bind]
    refine (leads_deliver f.fileId d _).mono (fun _ _ hfalse => hfalse) ?_
    rintro place s₁ ⟨rfl, disk, rfl⟩
    have hdelivered : ({ s with
        disk := disk
        tasks := tasks
        log := s.log ++ [.returned s.clock.elapsed f (.ok d)] } : Site).Quiet := h.of_same rfl rfl rfl
    have hsize : ∀ s₁ place, (arrived s₁ f d.sizeKb place).sizeKb = some d.sizeKb := fun _ _ => rfl
    simp only [leads_get, Room.commit, hsize, leads_bind]
    rw [Records.leads_saveFile_of_quiet hdelivered]
    simp only [leads_modify, leads_pure, conclude, leaveFlight, leads_bind]
    exact .arrives disk handed
  | error e =>
    simp only [settle, leads_bind, leads_get]
    refine leads_ite.2 ⟨fun hopeless => ?_, fun hopeful => ?_⟩
    · simp only [leads_bind, leads_get]
      rw [Records.leads_saveFile_of_quiet hnoted]
      simp only [Room.release, leads_modify, leads_pure, conclude, leaveFlight, leads_bind]
      exact .givesUp handed hopeless
    · simp only [leads_bind, leads_get]
      rw [Records.leads_saveFile_of_quiet hnoted]
      refine (leads_rejoin _ _).mono (fun _ _ hfalse => hfalse) ?_
      rintro _ s₁ ⟨tasks', hrejoined, rfl⟩
      simp only [leads_pure]
      exact .pauses handed hopeful hrejoined

/-- **A move of a transfer whose time has come.** -/
theorem leads_advance_of_quiet (h : s.Quiet) {t : Transfer} (due : t.due?.isSome = true) :
    Leads (advance t) (fun _ _ => False) (fun ending s' => Move s t ending s') s := by
  obtain ⟨f, phase⟩ := t
  cases phase with
  | resting ends =>
    simp only [advance, leads_bind, leads_get]
    refine leads_ite.2 ⟨fun hfree => ?_, fun htaken => ?_⟩
    · simp only [leads_bind, leads_pure]
      refine (leads_begin f s).mono (fun _ _ hfalse => hfalse) ?_
      rintro _ s₁ ⟨tasks, hrejoined, rfl⟩
      exact .begins (.inl ⟨ends, rfl, hfree⟩) hrejoined
    · simp only [leads_bind, leads_join, leads_pure]
      exact .waits htaken
  | waiting => cases due
  | chosen since =>
    simp only [advance, leads_bind, leads_pure]
    refine (leads_begin f s).mono (fun _ _ hfalse => hfalse) ?_
    rintro _ s₁ ⟨tasks, hrejoined, rfl⟩
    exact .begins (.inr ⟨since, rfl⟩) hrejoined
  | calling ends result =>
    rw [advance]
    dsimp only
    simp only [leads_bind, leads_get, leads_note]
    refine (leads_handOver _).mono (fun _ _ hfalse => hfalse) ?_
    rintro _ s₁ ⟨tasks, hhanded, rfl⟩
    rw [← leads_bind]
    exact leads_settle_of_quiet result h hhanded

/-- A move leaves the settings alone, and no time passes. -/
theorem Move.frame {t : Transfer} {ending : Option Ending} (m : Move s t ending s') :
    s'.settings = s.settings ∧ s'.clock = s.clock := by
  cases m <;> exact ⟨rfl, rfl⟩

end Transfers

/-! ### Fair turns -/

theorem turnsOf_perm {l l' : List Task} (h : l.Perm l') : turnsOf l = turnsOf l' :=
  (h.filterMap Task.transfer?).countP_eq _

theorem turnsOf_transfer (t : Transfer) (l : List Task) :
    turnsOf (.transfer t :: l) = turnsOf l + if t.holdsTurn then 1 else 0 := turnsOf_of_perm (.refl _)

/-- Among tasks a turn is free only if nobody waits for one. -/
def FairAmong (turns : Nat) (l : List Task) : Prop :=
  turnsOf l < turns → ∀ t ∈ l, t.isWaiting = false

/-- **A turn is free only if nobody waits for one.** -/
def Site.Fair (s : Site) : Prop := FairAmong s.settings.maxConcurrent s.tasks

namespace FairAmong

variable {turns time : Nat} {l l' : List Task} {t : Transfer}

theorem nil (turns : Nat) : FairAmong turns [] := fun _ t ht => by cases ht

theorem of_perm (h : FairAmong turns l) (p : l'.Perm l) : FairAmong turns l' := by
  intro hfree t ht
  rw [turnsOf_perm p] at hfree
  exact h hfree t (p.mem_iff.1 ht)

/-- A transfer comes that neither waits nor takes up a turn. -/
theorem rests (h : FairAmong turns l) (idle : t.holdsTurn = false) (still : t.isWaiting = false) :
    FairAmong turns (.transfer t :: l) := by
  intro hfree t' ht'
  rw [turnsOf_transfer, idle] at hfree
  rcases List.mem_cons.1 ht' with rfl | ht'
  · exact still
  · exact h hfree t' ht'

/-- A transfer that holds a turn hands it over. -/
theorem handsOver (h : FairAmong turns (.transfer t :: l)) (holds : t.holdsTurn = true)
    (handed : HandsOver time l l') : FairAmong turns l' := by
  cases handed with
  | nobody idle => exact fun _ t ht => idle t ht
  | chosen f waited chosen =>
    -- Somebody waited, so all turns were taken, and they still are.
    intro hfree
    have hwaited := turnsOf_perm waited
    have hchosen := turnsOf_perm chosen
    rw [turnsOf_transfer] at hwaited hchosen
    simp only [Transfer.holdsTurn, if_true, Bool.false_eq_true, if_false] at hwaited hchosen
    have hbefore : turnsOf (.transfer t :: l) < turns := by
      rw [turnsOf_transfer, holds, if_pos rfl, hwaited]
      exact hchosen ▸ hfree
    have hidle := h hbefore (.transfer ⟨f, .waiting⟩) (.tail _ (waited.mem_iff.2 (.head _)))
    cases hidle

/-- A transfer waits where all turns are taken. -/
theorem waits (taken : ¬turnsOf l < turns) (idle : t.holdsTurn = false) :
    FairAmong turns (.transfer t :: l) := by
  intro hfree
  rw [turnsOf_transfer, idle] at hfree
  exact absurd hfree taken

end FairAmong

/-- **Whoever moves, a turn is free afterwards only if nobody waits.** -/
theorem Transfers.Move.fair {t : Transfer} {ending : Option Ending} (m : Move s t ending s')
    (h : FairAmong s.settings.maxConcurrent (.transfer t :: s.tasks)) : s'.Fair := by
  cases m with
  | @waits f ends taken =>
    refine FairAmong.of_perm (.waits ?_ rfl) (List.perm_append_singleton _ _)
    exact of_decide_eq_false taken
  | @begins f phase turn tasks rejoined =>
    refine FairAmong.of_perm (fun hfree => ?_) rejoined
    have hall : ∀ t ∈ s.tasks, t.isWaiting = false := by
      rcases turn with ⟨ends, rfl, hfree'⟩ | ⟨since, rfl⟩
      · -- The turn was free before.
        refine fun t ht => h ?_ t (.tail _ ht)
        rw [turnsOf_transfer]
        exact of_decide_eq_true hfree'
      · refine fun t ht => h ?_ t (.tail _ ht)
        rw [turnsOf_transfer] at hfree ⊢
        exact hfree
    intro t ht
    rcases List.mem_cons.1 ht with rfl | ht
    · rfl
    · exact hall t ht
  | arrives disk handed => exact h.handsOver rfl handed
  | givesUp handed => exact h.handsOver rfl handed
  | pauses handed hopeful rejoined => exact ((h.handsOver rfl handed).rests rfl rfl).of_perm rejoined

/-! ### Duties -/

/-- There are no duties among the tasks. -/
def Site.OffDuty (s : Site) : Prop := ∀ t ∈ s.tasks, t.isDuty = false

/-- A turn is handed over among transfers only. -/
theorem HandsOver.offDuty {time : Nat} {l l' : List Task} (h : HandsOver time l l')
    (off : ∀ t ∈ l, t.isDuty = false) : ∀ t ∈ l', t.isDuty = false := by
  cases h with
  | nobody => exact off
  | chosen f waited chosen =>
    intro t ht
    rcases List.mem_cons.1 (chosen.mem_iff.1 ht) with rfl | ht
    · rfl
    · exact off t (waited.mem_iff.2 (.tail _ ht))

/-- No duty comes about when a transfer moves. -/
theorem Transfers.Move.offDuty {t : Transfer} {ending : Option Ending} (m : Move s t ending s')
    (off : s.OffDuty) : s'.OffDuty := by
  have hcons : ∀ {t : Transfer} {l l' : List Task}, l'.Perm (.transfer t :: l) →
      (∀ u ∈ l, u.isDuty = false) → ∀ u ∈ l', u.isDuty = false := by
    intro t l l' hp hl u hu
    rcases List.mem_cons.1 (hp.mem_iff.1 hu) with rfl | hu
    · rfl
    · exact hl u hu
  cases m with
  | waits => exact hcons (List.perm_append_singleton _ _) off
  | begins _ rejoined => exact hcons rejoined off
  | arrives disk handed => exact handed.offDuty off
  | givesUp handed => exact handed.offDuty off
  | pauses handed hopeful rejoined => exact hcons rejoined (handed.offDuty off)

/-! ### Moves left to make -/

/-- A bound on the calls that can still be made for a file after so many failures. The count of failures
may overflow once. -/
def callsLeft (max failures : UInt32) : Nat :=
  if failures + 1 = 0 then max.toNat + 2 else max.toNat - failures.toNat + 1

theorem callsLeft_pos (max failures : UInt32) : 0 < callsLeft max failures := by
  unfold callsLeft
  split <;> omega

theorem callsLeft_le (max failures : UInt32) : callsLeft max failures ≤ max.toNat + 2 := by
  unfold callsLeft
  split <;> omega

/-- One call less is left after a failure that leaves hope. -/
theorem callsLeft_succ_lt {max failures : UInt32} (limit : max.toNat + 1 < UInt32.size)
    (left : failures + 1 ≤ max) : callsLeft max (failures + 1) < callsLeft max failures := by
  have hle := UInt32.le_iff_toNat_le.1 left
  have hsmall := failures.toNat_lt
  have hnext : failures + 1 + 1 ≠ 0 := by
    intro hzero
    have hzero := congrArg UInt32.toNat hzero
    rw [UInt32.toNat_add] at hzero
    simp only [UInt32.toNat_one, UInt32.toNat_zero, UInt32.size] at hzero limit
    omega
  unfold callsLeft
  rw [if_neg hnext]
  split
  · omega
  · next hsome =>
    have hcount : (failures + 1).toNat = failures.toNat + 1 := by
      rw [UInt32.toNat_add, UInt32.toNat_one]
      refine Nat.mod_eq_of_lt ?_
      by_contra hge
      refine hsome (UInt32.toNat_inj.1 ?_)
      rw [UInt32.toNat_add, UInt32.toNat_one, UInt32.toNat_zero]
      omega
    omega

/-- A bound on the moves that a transfer can still make. -/
def Transfer.movesLeft (max : UInt32) (t : Transfer) : Nat :=
  match t.phase with
  | .resting _ => 3 * callsLeft max t.record.retryCount
  | .waiting | .chosen _ => 3 * callsLeft max t.record.retryCount - 1
  | .calling .. => 3 * callsLeft max t.record.retryCount - 2

/-- A bound on the moves that the transfers among tasks can still make. -/
def movesLeft (max : UInt32) (l : List Task) : Nat :=
  ((l.filterMap Task.transfer?).map (Transfer.movesLeft max)).sum

theorem movesLeft_perm {max : UInt32} {l l' : List Task} (h : l.Perm l') :
    movesLeft max l = movesLeft max l' := ((h.filterMap Task.transfer?).map _).sum_eq

@[simp] theorem movesLeft_transfer (max : UInt32) (t : Transfer) (l : List Task) :
    movesLeft max (.transfer t :: l) = t.movesLeft max + movesLeft max l := List.sum_cons

/-- Turns are handed over without a move. -/
theorem HandsOver.movesLeft {max : UInt32} {time : Nat} {l l' : List Task} (h : HandsOver time l l') :
    movesLeft max l' = movesLeft max l := by
  cases h with
  | nobody => rfl
  | chosen f waited chosen => rw [movesLeft_perm waited, movesLeft_perm chosen]; rfl

/-- **A move leaves fewer moves to make.** -/
theorem Transfers.Move.movesLeft {t : Transfer} {ending : Option Ending} (m : Move s t ending s')
    (limit : s.settings.maxRetries.toNat + 1 < UInt32.size) :
    movesLeft s.settings.maxRetries s'.tasks <
      t.movesLeft s.settings.maxRetries + Depot.movesLeft s.settings.maxRetries s.tasks := by
  have hleft := fun f : FileRecord => callsLeft_pos s.settings.maxRetries f.retryCount
  cases m with
  | @waits f ends taken =>
    rw [movesLeft_perm (List.perm_append_singleton _ _), movesLeft_transfer]
    simp only [Transfer.movesLeft]
    have := hleft f
    omega
  | @begins f phase turn tasks rejoined =>
    rw [movesLeft_perm rejoined, movesLeft_transfer]
    have := hleft f
    rcases turn with ⟨ends, rfl, -⟩ | ⟨since, rfl⟩ <;> simp only [Transfer.movesLeft] <;> omega
  | @arrives f ends d tasks disk handed =>
    rw [handed.movesLeft]
    simp only [Transfer.movesLeft]
    have := hleft f
    omega
  | @givesUp f ends e tasks handed hopeless =>
    rw [handed.movesLeft]
    simp only [Transfer.movesLeft]
    have := hleft f
    omega
  | @pauses f ends e others tasks handed hopeful rejoined =>
    rw [movesLeft_perm rejoined, movesLeft_transfer, handed.movesLeft]
    rw [isHopeless, Bool.or_eq_false_iff, decide_eq_false_iff_not, UInt32.not_lt] at hopeful
    have hfewer := callsLeft_succ_lt limit hopeful.1
    simp only [Transfer.movesLeft, setBack]
    omega

/-- The bound on the moves of a site is never reached. -/
theorem movesLeft_lt_moveBound (s : Site) :
    movesLeft s.settings.maxRetries s.tasks < Passage.moveBound s := by
  have hone : ∀ t : Transfer, t.movesLeft s.settings.maxRetries ≤
      3 * (s.settings.maxRetries.toNat + 3) := by
    intro t
    have hle := callsLeft_le s.settings.maxRetries t.record.retryCount
    unfold Transfer.movesLeft
    split <;> omega
  have hsum := List.sum_le_card_nsmul (s.transfers.map (Transfer.movesLeft s.settings.maxRetries))
    (3 * (s.settings.maxRetries.toNat + 3)) fun n hn => by
      obtain ⟨t, -, rfl⟩ := List.mem_map.1 hn
      exact hone t
  rw [List.length_map, smul_eq_mul] at hsum
  exact Nat.lt_succ_of_le hsum

/-! ### The next move -/

namespace Passage

/-- The next move is that of a task at its place, at its time. -/
theorem of_nextAmong : ∀ {l : List (Task × Nat)} {moment place : Nat},
    nextAmong l = some (moment, place) → ∃ t, (t, place) ∈ l ∧ t.due? = some moment
  | [], moment, place, h => by cases h
  | (t, p) :: rest, moment, place, h => by
    have hrest : ∀ {moment place}, nextAmong rest = some (moment, place) →
        ∃ t', (t', place) ∈ (t, p) :: rest ∧ t'.due? = some moment := fun hlater => by
      obtain ⟨t', ht', hdue⟩ := of_nextAmong hlater
      exact ⟨t', .tail _ ht', hdue⟩
    rw [nextAmong] at h
    split at h
    · exact hrest h
    · next time hdue _ =>
      cases h
      exact ⟨t, .head _, hdue⟩
    · next time later hdue hlater =>
      unfold earlier at h
      split at h
      · exact hrest (hlater.trans h)
      · cases h
        exact ⟨t, .head _, hdue⟩

/-- There is a next move if a task has a time for one. -/
theorem nextAmong_isSome {t : Task} {place : Nat} (due : t.due?.isSome = true) {l : List (Task × Nat)}
    (h : (t, place) ∈ l) : (nextAmong l).isSome = true := by
  induction l with
  | nil => cases h
  | cons head rest ih =>
    obtain ⟨u, p⟩ := head
    rw [nextAmong]
    cases hdue : u.due? with
    | none =>
      rcases List.mem_cons.1 h with heq | h
      · obtain ⟨rfl, rfl⟩ := Prod.mk.inj heq
        rw [hdue] at due
        cases due
      · exact ih h
    | some time => cases nextAmong rest <;> rfl

/-- The next move of a site is that of the task at a place. -/
theorem of_nextMove {moment place : Nat} (h : nextMove s = some (moment, place)) :
    ∃ t, s.tasks[place]? = some t ∧ t.due? = some moment := by
  obtain ⟨t, ht, hdue⟩ := of_nextAmong h
  exact ⟨t, List.mem_zipIdx_iff_getElem?.1 ht, hdue⟩

/-- **As long as there are transfers one of them moves**, if turns are fair and there are any. -/
theorem nextMove_isSome {t : Transfer} (ht : .transfer t ∈ s.tasks) (fair : s.Fair)
    (turns : 0 < s.settings.maxConcurrent) : (nextMove s).isSome = true := by
  have hsome : ∀ {u : Task}, u ∈ s.tasks → u.due?.isSome = true → (nextMove s).isSome = true := by
    intro u hu hdue
    obtain ⟨place, hplace⟩ := List.mem_iff_getElem?.1 hu
    exact nextAmong_isSome hdue (List.mem_zipIdx_iff_getElem?.2 hplace)
  cases hwaits : t.isWaiting with
  | false =>
    refine hsome ht ?_
    obtain ⟨f, phase⟩ := t
    cases phase with
    | waiting => cases hwaits
    | resting | chosen | calling => rfl
  | true =>
    -- Somebody waits, so all turns are taken, and one who has a turn moves.
    have htaken : ¬turnsOf s.tasks < s.settings.maxConcurrent := fun hfree => by
      have hidle := fair hfree _ ht
      rw [Task.isWaiting, hwaits] at hidle
      cases hidle
    have hpos : 0 < turnsOf s.tasks := turns.trans_le (Nat.not_lt.1 htaken)
    obtain ⟨u, hu, hholds⟩ := List.countP_pos_iff.1 hpos
    refine hsome (mem_filterMap_transfer?.1 hu) ?_
    obtain ⟨f, phase⟩ := u
    cases phase with
    | resting | waiting => cases hholds
    | chosen | calling => rfl

end Passage

end Depot

import Depot.Proofs.Outcomes

/-!
# Moves of transfers

A transfer that has been taken off the list makes one move. Whatever that is, it is one change of
transfers: its record stays on the list or leaves it, and the other transfers keep theirs. A turn is taken
up only where one is free, or by a transfer that gives it on or has just been handed it.

## Main statements

* `Transfers.leads_advance` — a move never fails, and is one change of transfers.
-/

namespace Depot

open Act Time

variable {s s' : Site}

/-! ### Records on a list -/

@[simp] theorem recordsOf_transfer (t : Transfer) (l : List Task) :
    recordsOf (.transfer t :: l) = t.record :: recordsOf l := rfl

@[simp] theorem recordsOf_duty (d : Duty) (round : Nat) (l : List Task) :
    recordsOf (.duty d round :: l) = recordsOf l := rfl

@[simp] theorem recordsOf_append (l l' : List Task) :
    recordsOf (l ++ l') = recordsOf l ++ recordsOf l' := by
  simp only [recordsOf, List.filterMap_append, List.map_append]

theorem mem_filterMap_transfer? {t : Transfer} {l : List Task} :
    t ∈ l.filterMap Task.transfer? ↔ .transfer t ∈ l := by
  refine ⟨fun h => ?_, fun h => List.mem_filterMap.2 ⟨_, h, rfl⟩⟩
  obtain ⟨task, htask, htransfer⟩ := List.mem_filterMap.1 h
  cases task with
  | duty => cases htransfer
  | transfer u =>
    cases htransfer
    exact htask

theorem mem_recordsOf {t : Transfer} {l : List Task} (h : .transfer t ∈ l) : t.record ∈ recordsOf l :=
  List.mem_map_of_mem (mem_filterMap_transfer?.2 h)

/-- A task taken off the list comes beside the others. -/
theorem perm_eraseIdx {l : List Task} {place : Nat} {t : Task} (h : l[place]? = some t) :
    l.Perm (t :: l.eraseIdx place) := by
  obtain ⟨hlt, rfl⟩ := List.getElem?_eq_some_iff.1 h
  exact (List.getElem_cons_eraseIdx_perm hlt).symm

/-- A transfer taken off the list comes beside the others. -/
theorem transfers_eraseIdx {t : Transfer} {l : List Task} {place : Nat}
    (h : l[place]? = some (.transfer t)) :
    (l.filterMap Task.transfer?).Perm (t :: (l.eraseIdx place).filterMap Task.transfer?) :=
  (perm_eraseIdx h).filterMap Task.transfer?

/-- Transfers stay where a duty is taken off the list. -/
theorem transfers_eraseIdx_duty {d : Duty} {round place : Nat} {l : List Task}
    (h : l[place]? = some (.duty d round)) :
    (l.eraseIdx place).filterMap Task.transfer? = l.filterMap Task.transfer? := by
  obtain ⟨hlt, hget⟩ := List.getElem?_eq_some_iff.1 h
  have hsplit : l = l.take place ++ .duty d round :: l.drop (place + 1) := by
    rw [← hget, ← List.drop_eq_getElem_cons hlt, List.take_append_drop]
  rw [List.eraseIdx_eq_take_drop_succ, List.filterMap_append]
  conv_rhs => rw [hsplit, List.filterMap_append]
  rfl

/-- Transfers stay where all duties are taken off the list. -/
theorem transfers_filter_isDuty (l : List Task) :
    (l.filter fun t => !t.isDuty).filterMap Task.transfer? = l.filterMap Task.transfer? := by
  rw [List.filterMap_filter]
  refine List.filterMap_congr fun task _ => ?_
  cases task <;> rfl

/-! ### Turns taken up -/

theorem turnsOf_append (l l' : List Task) : turnsOf (l ++ l') = turnsOf l + turnsOf l' := by
  simp only [turnsOf, List.filterMap_append, List.countP_append]

/-- A transfer beside others takes up a turn, or none. -/
theorem turnsOf_of_perm {t : Transfer} {l l' : List Task}
    (h : (l.filterMap Task.transfer?).Perm (t :: l'.filterMap Task.transfer?)) :
    turnsOf l = turnsOf l' + if t.holdsTurn then 1 else 0 := by
  rw [turnsOf, h.countP_eq, List.countP_cons, turnsOf]

/-! ### Turns handed over -/

/-- **A turn is handed over** at a time in a list of tasks: one who has waited begins its call, or nobody
waits. -/
inductive HandsOver (time : Nat) (l : List Task) : List Task → Prop
  | nobody (idle : ∀ t ∈ l, t.isWaiting = false) : HandsOver time l l
  | chosen (f : FileRecord) {rest l' : List Task} (waited : l.Perm (.transfer ⟨f, .waiting⟩ :: rest))
      (chosen : l'.Perm (.transfer ⟨f, .chosen time⟩ :: rest)) : HandsOver time l l'

/-- The first who waits comes beside the others. -/
theorem perm_eraseP_isWaiting {t : Transfer} : ∀ {l : List Task},
    (l.filterMap Task.transfer?).find? Transfer.isWaiting = some t →
      l.Perm (.transfer t :: l.eraseP Task.isWaiting)
  | .duty d round :: l, h => by
    rw [List.eraseP_cons_of_neg (by exact Bool.false_ne_true)]
    exact ((perm_eraseP_isWaiting (l := l) h).cons _).trans (.swap ..)
  | .transfer u :: l, h => by
    cases hu : u.isWaiting with
    | true =>
      rw [List.eraseP_cons_of_pos (by exact hu)]
      have hut : u = t := by simpa [Task.transfer?, List.find?, hu] using h
      rw [hut]
    | false =>
      rw [List.eraseP_cons_of_neg (by rw [Task.isWaiting, hu]; exact Bool.false_ne_true)]
      refine ((perm_eraseP_isWaiting (l := l) ?_).cons _).trans (.swap ..)
      simpa [Task.transfer?, List.find?, hu] using h

namespace HandsOver

variable {time : Nat} {l l' : List Task}

/-- Where nobody is nobody waits. -/
theorem eq_nil (h : HandsOver time [] l) : l = [] := by
  cases h with
  | nobody => rfl
  | chosen f waited chosen => cases List.nil_perm.1 waited

/-- Every transfer keeps its record. -/
theorem recordsOf (h : HandsOver time l l') : (recordsOf l').Perm (recordsOf l) := by
  cases h with
  | nobody => exact .refl _
  | chosen f waited chosen =>
    exact ((chosen.filterMap Task.transfer?).map Transfer.record).trans
      ((waited.filterMap Task.transfer?).map Transfer.record).symm

/-- At most one turn is handed over at once. -/
theorem turnsOf_le (h : HandsOver time l l') : turnsOf l' ≤ turnsOf l + 1 := by
  cases h with
  | nobody => exact Nat.le_succ _
  | chosen f waited chosen =>
    have hwaited := turnsOf_of_perm (waited.filterMap Task.transfer?)
    have hchosen := turnsOf_of_perm (chosen.filterMap Task.transfer?)
    simp only [Transfer.holdsTurn, if_true, Bool.false_eq_true, if_false] at hwaited hchosen
    omega

end HandsOver

namespace Transfers

/-! ### Parts of a move -/

variable {E : Failure → Site → Prop}

/-- A task is put on the list again, wherever. -/
theorem leads_rejoin (t : Task) (s : Site) :
    Leads (rejoin t) E
      (fun _ s' => ∃ tasks : List Task, tasks.Perm (t :: s.tasks) ∧ s' = { s with tasks := tasks }) s := by
  simp only [rejoin, leads_bind, leads_get]
  split
  · rw [leads_modify]
    exact ⟨_, .refl _, rfl⟩
  · rw [leads_join]
    exact ⟨_, List.perm_append_singleton _ _, rfl⟩

/-- A call is begun, with the next outcome of its file. -/
theorem leads_begin (f : FileRecord) (s : Site) :
    Leads (begin f) E
      (fun _ s' => ∃ tasks : List Task,
        tasks.Perm (.transfer ⟨f, .calling (s.clock.elapsed + waitMs (s.supply.outcome f 0).delayMs)
          (s.supply.outcome f 0).result⟩ :: s.tasks) ∧
        s' = { s with
          supply := s.supply.afterCall f
          tasks := tasks
          log := s.log ++ [.called s.clock.elapsed f.fileId f.regenerationSource,
            .begun f.fileId (s.inventory.files.get? f.fileId)] }) s := by
  rw [begin, leads_bind, leads_callFor, leads_bind, leads_get]
  exact (leads_rejoin _ _).mono (fun _ _ h => h) fun _ _ h => h

/-- A turn is handed over. -/
theorem leads_handOver (s : Site) :
    Leads handOver E
      (fun _ s' => ∃ tasks, HandsOver s.clock.elapsed s.tasks tasks ∧ s' = { s with tasks := tasks }) s := by
  rw [handOver, leads_modify]
  beta_reduce
  split
  · next hnone =>
    refine ⟨s.tasks, .nobody fun task htask => ?_, rfl⟩
    cases task with
    | duty => rfl
    | transfer u =>
      have hu := List.find?_eq_none.1 hnone u (mem_filterMap_transfer?.2 htask)
      exact Bool.eq_false_iff.2 hu
  · next t ht =>
    have hwaits : t = ⟨t.record, .waiting⟩ := by
      obtain ⟨f, phase⟩ := t
      have hphase := List.find?_some ht
      cases phase with
      | waiting => rfl
      | resting | chosen | calling => cases hphase
    have hwaited := perm_eraseP_isWaiting ht
    rw [hwaits] at hwaited
    exact ⟨_, .chosen t.record hwaited (List.perm_append_singleton _ _), rfl⟩

/-- The bytes of a delivery are put where they belong. -/
theorem leads_deliver (id : FileId) (d : Delivery) (s : Site) :
    Leads (deliver id d) E
      (fun place s' => place = placeOf s.settings.cacheRoot id d ∧ ∃ disk, s' = { s with disk := disk })
      s := by
  simp only [deliver, leads_bind, leads_get]
  split
  · simp only [leads_bind, leads_modify, leads_pure]
    exact ⟨trivial, _, rfl⟩
  · rw [leads_pure]
    exact ⟨rfl, s.disk, rfl⟩

/-! ### The end of a call -/

/-- What comes of the end of a call, once it is noted and the turn is handed over: the transfer goes on
the list again, or it ends with a status, or a call was refused. -/
inductive Settled (f : FileRecord) (s : Site) : Except Failure Delivery → Option FileStatus → Site → Prop
  | arrived (d : Delivery) (place : String) {s₁ : Site} (h : Aside s s₁) :
      Settled f s (.ok d) (some .available)
        { s₁ with
          inventory := s₁.inventory.saveFile (arrived s₁ f d.sizeKb place)
          account := s₁.account.commit f.fileId d.sizeKb }
  | givenUp (e : Failure) {s₁ : Site} (h : Aside s s₁) (hopeless : isHopeless s₁ (setBack f e) e = true) :
      Settled f s (.error e) (some .failed)
        { s₁ with
          inventory := s₁.inventory.saveFile (givenUp s₁ (setBack f e))
          account := s₁.account.release f.fileId }
  | setBack (e : Failure) (tasks : List Task) {s₁ : Site} (h : Aside s s₁)
      (hopeful : isHopeless s₁ (setBack f e) e = false)
      (back : (recordsOf tasks).Perm (Transfers.setBack f e :: recordsOf s₁.tasks))
      (turns : turnsOf tasks = turnsOf s₁.tasks) :
      Settled f s (.error e) none
        { s₁ with inventory := s₁.inventory.saveFile (Transfers.setBack f e), tasks := tasks }

theorem leads_settle (h : s.Secluded) (f : FileRecord) (result : Except Failure Delivery) :
    Leads (settle f result) (fun e s' => s.Refused e ∧ Aside s s')
      (fun status s' => Settled f s result status s') s := by
  cases result with
  | ok d =>
    simp only [settle, leads_bind]
    refine (leads_deliver f.fileId d s).mono (fun _ _ h => h) fun place s₁ ⟨_, disk, hs₁⟩ => ?_
    have ha : Aside s s₁ := hs₁ ▸ .intro s.faults disk s.supply (.refl _)
    have hsize : (arrived s₁ f d.sizeKb place).sizeKb = some d.sizeKb := rfl
    simp only [leads_get, Room.commit, hsize, leads_bind]
    refine (Records.leads_saveFile (h.aside ha) _).mono
      (fun e s₂ ⟨hr, ha'⟩ => ⟨hr.aside ha, ha.trans ha'⟩) fun _ s₂ ⟨s₃, ha', hs₂⟩ => ?_
    subst hs₂
    have hsame : arrived s₁ f d.sizeKb place = arrived s₃ f d.sizeKb place := by cases ha'; rfl
    rw [leads_modify, leads_pure, hsame]
    exact .arrived d place (ha.trans ha')
  | error e =>
    simp only [settle, leads_bind, leads_get]
    refine leads_ite.2 ⟨fun hopeless => ?_, fun hopeful => ?_⟩
    · simp only [leads_bind, leads_get]
      refine (Records.leads_saveFile h _).mono (fun e s₁ h => h) fun _ s₁ ⟨s₂, ha, hs₁⟩ => ?_
      subst hs₁
      have hsame : givenUp s (setBack f e) = givenUp s₂ (setBack f e) := by cases ha; rfl
      simp only [Room.release, leads_modify, leads_pure]
      rw [hsame]
      refine .givenUp e ha ?_
      cases ha
      exact hopeless
    · simp only [leads_bind, leads_get]
      refine (Records.leads_saveFile h _).mono (fun e s₁ h => h) fun _ s₁ ⟨s₂, ha, hs₁⟩ => ?_
      subst hs₁
      refine (leads_rejoin _ _).mono (fun _ _ h => h) fun _ s₃ ⟨tasks, hp, hs₃⟩ => ?_
      subst hs₃
      rw [leads_pure]
      have hp := hp.filterMap Task.transfer?
      refine .setBack e tasks ha ?_ (hp.map Transfer.record) (turnsOf_of_perm hp)
      cases ha
      exact hopeful

/-! ### Moves -/

/-- One change of transfers was made, and something went on aside. -/
def Moved (s s' : Site) : Prop := ∃ s₁ s₂, Aside s s₁ ∧ TransferChange s₁ s₂ ∧ Aside s₂ s'

section

variable {f : FileRecord} {tasks : List Task}

/-- A call is begun for a transfer that was taken off the list. -/
theorem moved_begin (rest : s.carried.Perm (f :: recordsOf tasks))
    (turns : turnsOf tasks + 1 ≤ max (turnsOf s.tasks) s.settings.maxConcurrent) :
    Leads (begin f) (fun _ _ => False) (fun _ s' => Moved s s') { s with tasks := tasks } := by
  refine (leads_begin f _).mono (fun _ _ h => h) ?_
  rintro _ s' ⟨tasks', hp, rfl⟩
  have hp := hp.filterMap Task.transfer?
  refine ⟨_, _, .intro s.faults s.disk (s.supply.afterCall f) (.refl _), ?_, .refl _⟩
  exact .moved tasks' _ ((hp.map Transfer.record).trans rest.symm)
    (.inr ⟨f, rest.mem_iff.2 (.head _), _, _, rfl⟩) ((turnsOf_of_perm hp).trans_le turns)

/-- A transfer that was taken off the list waits. -/
theorem moved_join (rest : s.carried.Perm (f :: recordsOf tasks))
    (turns : turnsOf tasks ≤ turnsOf s.tasks) :
    Moved s { s with tasks := tasks ++ [.transfer ⟨f, .waiting⟩] } := by
  have hp : (recordsOf (tasks ++ [.transfer ⟨f, .waiting⟩])).Perm s.carried := by
    rw [recordsOf_append]
    exact (List.perm_append_singleton _ _).trans rest.symm
  have hturns : turnsOf (tasks ++ [.transfer ⟨f, .waiting⟩]) ≤ turnsOf s.tasks := by
    rw [turnsOf_append]
    exact turns
  have hmoved := TransferChange.moved _ [] hp (.inl rfl) (hturns.trans (Nat.le_max_left ..))
  rw [List.append_nil] at hmoved
  exact ⟨s, _, .refl s, hmoved, .refl _⟩

/-- A call of a transfer that was taken off the list ends. -/
theorem moved_end (h : s.Secluded) (rest : s.carried.Perm (f :: recordsOf tasks))
    (turns : turnsOf tasks + 1 ≤ turnsOf s.tasks) (ends : Nat) (result : Except Failure Delivery) :
    Leads (advance ⟨f, .calling ends result⟩) (fun _ _ => False) (fun _ s' => Moved s s')
      { s with tasks := tasks } := by
  simp only [advance, leads_bind, leads_get, leads_note, leads_attempt]
  refine (leads_handOver _).mono (fun _ _ h => h) ?_
  rintro _ s₁ ⟨others, hhanded, rfl⟩
  have hle := hhanded.turnsOf_le
  have hrest : s.carried.Perm (f :: recordsOf others) := rest.trans (hhanded.recordsOf.symm.cons f)
  have hturns : turnsOf others ≤ max (turnsOf s.tasks) s.settings.maxConcurrent :=
    (hle.trans turns).trans (Nat.le_max_left ..)
  have hready : ({ s with
      tasks := others
      log := s.log ++ [.returned s.clock.elapsed f result] } : Site).Secluded :=
    h.of_same rfl rfl rfl
  refine (leads_settle hready f result).mono ?_ ?_
  · rintro e s₂ ⟨hr, faults, disk, supply, goOn⟩
    simp only [Room.release, conclude, leaveFlight, leads_bind, leads_modify, leads_pure]
    exact ⟨s, _, .refl s, .brokenOff result others hrest hr.2 hturns, .intro faults disk supply goOn⟩
  · intro status s₂ hsettled
    cases hsettled with
    | arrived d place ha =>
      obtain ⟨faults, disk, supply, goOn⟩ := ha
      simp only [conclude, leaveFlight, leads_bind, leads_modify, leads_pure]
      exact ⟨_, _, .intro faults disk supply goOn, .arrived d place others hrest hturns, .refl _⟩
    | givenUp e ha hopeless =>
      obtain ⟨faults, disk, supply, goOn⟩ := ha
      simp only [conclude, leaveFlight, leads_bind, leads_modify, leads_pure]
      exact ⟨_, _, .intro faults disk supply goOn, .givenUp e others hrest hopeless hturns, .refl _⟩
    | setBack e tasks' ha hopeful back same =>
      obtain ⟨faults, disk, supply, goOn⟩ := ha
      rw [leads_pure]
      exact ⟨_, _, .intro faults disk supply goOn,
        .setBack e tasks' others hrest back hopeful (same.trans_le hturns), .refl _⟩

end

/-- **A move of a transfer** that was taken off the list never fails, and is one change of transfers. -/
theorem leads_advance (h : s.Secluded) {t : Transfer} {tasks : List Task}
    (rest : s.transfers.Perm (t :: tasks.filterMap Task.transfer?)) :
    Leads (advance t) (fun _ _ => False) (fun _ s' => Moved s s')
      { s with tasks := tasks } := by
  have hrest : s.carried.Perm (t.record :: recordsOf tasks) := rest.map Transfer.record
  have hturns : turnsOf s.tasks = turnsOf tasks + if t.holdsTurn then 1 else 0 := turnsOf_of_perm rest
  obtain ⟨f, phase⟩ := t
  cases phase with
  | resting ends =>
    simp only [advance, leads_bind, leads_get]
    refine leads_ite.2 ⟨fun hfree => ?_, fun _ => ?_⟩
    · simp only [leads_bind, leads_pure]
      exact moved_begin hrest (le_max_of_le_right (of_decide_eq_true hfree))
    · simp only [leads_bind, leads_join, leads_pure]
      exact moved_join hrest hturns.ge
  | waiting =>
    simp only [advance, leads_bind, leads_join, leads_pure]
    exact moved_join hrest hturns.ge
  | chosen since =>
    simp only [advance, leads_bind, leads_pure]
    exact moved_begin hrest (le_max_of_le_left hturns.ge)
  | calling ends result => exact moved_end h hrest hturns.ge ends result

end Transfers

end Depot

import Depot.Proofs.Pacing
import Depot.Proofs.Strokes

/-!
# Trials

A transfer that rests begins a trial: from then on calls for its file are made, one after the other, until one is
the last. How many there will be is settled beforehand by what the archive will answer; whatever else the
depot does meanwhile makes no difference to that, nor to the file's record, only to when the calls are made.

A trial goes on as long as no call was the last (`Site.Trying`). All that happens either leaves it alone, or is
a move of its own transfer; and that move keeps the trial going or is its end (`Site.Tried`). Who waits for
the file passes the time until then, for there is always a move to make and each leaves fewer.

## Main statements

* `Site.Stage.move` — what the moves of its own transfer do to a trial.
* `Site.Trying.shifts`, `Site.Trying.run` — a trial goes on until it is over.
* `Site.Trying.leads_wait` — whoever waits for the file learns how its trial ends.
* `transfer_ends_where_outcomes_say` — that is how it goes in every punctual run.
-/

namespace Depot

open Act Time

variable {o s s' s'' : Site} {f : FileRecord} {i n : Nat}

/-! ### Trials that go on -/

/-- **Where a transfer stands in its trial** after so many calls have ended: its phase, the moments of calls
since the trial began, and how many of these calls have begun. It asks for a turn only when its pause is over. -/
inductive Stands (o : Site) (f : FileRecord) (i now : Nat) : Phase → List Moment → Nat → Prop
  | resting {l : List Moment} {next ends : Nat} (paced : Paced (o.pauseAfter f) l i next)
      (rests : next ≤ ends) : Stands o f i now (.resting ends) l i
  | waiting {l : List Moment} {next : Nat} (paced : Paced (o.pauseAfter f) l i next)
      (rested : next ≤ now) : Stands o f i now .waiting l i
  | chosen {l : List Moment} {next since : Nat} (paced : Paced (o.pauseAfter f) l i next)
      (rested : next ≤ now) : Stands o f i now (.chosen since) l i
  | calling {l : List Moment} {next start ends : Nat} (paced : Paced (o.pauseAfter f) l i next)
      (rested : next ≤ start) (lasts : start ≤ now) :
      Stands o f i now (.calling ends (o.supply.outcome f i).result) (l ++ [.began start]) (i + 1)

/-- Time passes. -/
theorem Stands.mono {now now' begun : Nat} {phase : Phase} {calls : List Moment}
    (h : Stands o f i now phase calls begun) (le : now ≤ now') : Stands o f i now' phase calls begun := by
  cases h with
  | resting paced rests => exact .resting paced rests
  | waiting paced rested => exact .waiting paced (rested.trans le)
  | chosen paced rested => exact .chosen paced (rested.trans le)
  | calling paced rested lasts => exact .calling paced rested (lasts.trans le)

/-- **A stage of a trial**, at a site: so many calls have ended and none of them was the last, the transfer is in
a phase, and its next call will have the next of the outcomes that were there when the trial began. -/
structure Site.Stage (o : Site) (f : FileRecord) (i : Nat) (phase : Phase) (s : Site) : Prop where
  settings : s.settings = o.settings
  pending : f.isPending = true
  countable : o.Countable f
  undecided : o.Undecided f i
  stands : ∃ calls begun, momentsOf f.fileId s.log = momentsOf f.fileId o.log ++ calls ∧
    (∀ j, s.supply.outcome f j = o.supply.outcome f (begun + j)) ∧
    Stands o f i s.clock.elapsed phase calls begun

/-- A trial comes to another stage. -/
theorem Site.Stage.goesOn {phase phase' : Phase} {calls : List Moment} {begun : Nat} (h : o.Stage f i phase s)
    (settings : s'.settings = s.settings) (undecided : o.Undecided f n)
    (moments : momentsOf f.fileId s'.log = momentsOf f.fileId o.log ++ calls)
    (outcomes : ∀ j, s'.supply.outcome f j = o.supply.outcome f (begun + j))
    (stands : Stands o f n s'.clock.elapsed phase' calls begun) : o.Stage f n phase' s' :=
  ⟨settings.trans h.settings, h.pending, h.countable, undecided, calls, begun, moments, outcomes, stands⟩

/-- **The trial of a file goes on**: its transfer has the record that is left by so many calls since. -/
def Site.Trying (o : Site) (f : FileRecord) (i : Nat) (s : Site) : Prop :=
  ∃ phase, .transfer ⟨o.supply.setBacks f i, phase⟩ ∈ s.tasks ∧ o.Stage f i phase s

/-- A trial begins with a transfer that rests. -/
theorem Site.Trying.begins (hb : o.Balanced) (countable : o.Countable f) {time : Nat}
    (h : .transfer ⟨f, .resting time⟩ ∈ o.tasks) : o.Trying f 0 o := by
  have hpending : f.isPending = true := hb.pending f (mem_recordsOf h)
  refine ⟨_, h, rfl, hpending, countable, .zero o f, [], 0, (List.append_nil _).symm, fun j => ?_,
    .resting .nil (Nat.zero_le _)⟩
  rw [Nat.zero_add]

/-- **The trial of a file is over**, after so many calls. The last of them has decided, and the record tells of
it. The file has no transfer any more, no reservation, and is not in flight. -/
structure Site.Tried (o : Site) (f : FileRecord) (n : Nat) (s : Site) : Prop where
  last : IsLeast {j | 1 ≤ j ∧ o.Decides f j} n
  calls : ∃ l next, momentsOf f.fileId s.log = momentsOf f.fileId o.log ++ l ∧
    Paced (o.pauseAfter f) l n next
  kept : s.inventory.files.get? f.fileId = some (o.lastRecord f n s)
  shows : (o.lastRecord f n s).status = o.lastStatus f n
  gone : ∀ t ∈ s.transfers, t.record.fileId ≠ f.fileId
  unreserved : s.account.isReserved f.fileId = false
  landed : s.inFlight.contains f.fileId = false

/-! ### What leaves a trial alone -/

/-- **A file is spared**: its transfer stays as it is, or is handed a turn that it waits for, and no calls for it
begin or end. -/
structure Site.Spares (f : FileRecord) (s s' : Site) : Prop where
  settings : s'.settings = s.settings
  elapsed : s.clock.elapsed ≤ s'.clock.elapsed
  transfer : ∀ t : Transfer, t.record.fileId = f.fileId → .transfer t ∈ s.tasks →
    .transfer t ∈ s'.tasks ∨ t.phase = .waiting ∧ ∃ since, .transfer ⟨t.record, .chosen since⟩ ∈ s'.tasks
  moments : momentsOf f.fileId s'.log = momentsOf f.fileId s.log
  outcomes : ∀ j, s'.supply.outcome f j = s.supply.outcome f j

namespace Site.Spares

theorem trans (h : Site.Spares f s s') (h' : Site.Spares f s' s'') : Site.Spares f s s'' where
  settings := h'.settings.trans h.settings
  elapsed := h.elapsed.trans h'.elapsed
  transfer := by
    intro t hid ht
    rcases h.transfer t hid ht with ht | ⟨hwaits, since, ht⟩
    · exact h'.transfer t hid ht
    · rcases h'.transfer ⟨t.record, .chosen since⟩ hid ht with ht | ⟨hphase, -⟩
      · exact .inr ⟨hwaits, since, ht⟩
      · cases hphase
  moments := h'.moments.trans h.moments
  outcomes j := (h'.outcomes j).trans (h.outcomes j)

/-- Only the list of tasks and the clock change. -/
theorem of_tasks {tasks : List Task} {clock : Clock} (forward : s.clock.elapsed ≤ clock.elapsed)
    (transfer : ∀ t : Transfer, t.record.fileId = f.fileId → .transfer t ∈ s.tasks → .transfer t ∈ tasks) :
    Site.Spares f s { s with tasks := tasks, clock := clock } :=
  ⟨rfl, forward, fun t hid ht => .inl (transfer t hid ht), rfl, fun _ => rfl⟩

end Site.Spares

/-- More transfers are queued. -/
theorem Site.Queues.spares (q : s.Queues s') (f : FileRecord) : Site.Spares f s s' := by
  obtain ⟨new, hnew⟩ := q.tasks
  refine ⟨q.settings, q.clock ▸ Nat.le_refl _, fun t _ ht => .inl ?_, q.log.momentsOf_eq _, fun j => ?_⟩
  · rw [hnew]
    exact List.mem_append_left _ ht
  · rw [q.supply]

/-- A turn is handed over, or nobody waits. -/
theorem HandsOver.transfer {time : Nat} {l l' : List Task} (h : HandsOver time l l') {t : Transfer}
    (ht : .transfer t ∈ l) :
    .transfer t ∈ l' ∨ t.phase = .waiting ∧ ∃ since, .transfer ⟨t.record, .chosen since⟩ ∈ l' := by
  cases h with
  | nobody => exact .inl ht
  | chosen g waited chosen =>
    rcases List.mem_cons.1 (waited.mem_iff.1 ht) with heq | ht
    · cases heq
      exact .inr ⟨rfl, time, chosen.mem_iff.2 (.head _)⟩
    · exact .inl (chosen.mem_iff.2 (.tail _ ht))

/-- **The move of a transfer spares other files.** -/
theorem Transfers.Move.spares {t : Transfer} {ending : Option Ending} (m : Move s t ending s')
    (other : t.record.fileId ≠ f.fileId) : Site.Spares f s s' := by
  have hreturned : ∀ {g : FileRecord} (result : Except Failure Delivery), g.fileId ≠ f.fileId →
      momentsOf f.fileId (s.log ++ [.returned s.clock.elapsed g result]) = momentsOf f.fileId s.log := by
    intro g result hg
    rw [momentsOf_returned, if_neg hg, List.append_nil]
  cases m with
  | waits => exact .of_tasks (Nat.le_refl _) fun u _ hu => List.mem_append_left _ hu
  | begins turn rejoined =>
    refine ⟨rfl, Nat.le_refl _, fun u _ hu => .inl (rejoined.mem_iff.2 (.tail _ hu)), ?_, fun j => ?_⟩
    · rw [momentsOf_called, if_neg other, List.append_nil]
    · exact s.supply.outcome_afterCall_of_ne (Ne.symm other) j
  | arrives disk handed =>
    exact ⟨rfl, Nat.le_refl _, fun u _ hu => handed.transfer hu, hreturned _ other, fun _ => rfl⟩
  | givesUp handed hopeless =>
    exact ⟨rfl, Nat.le_refl _, fun u _ hu => handed.transfer hu, hreturned _ other, fun _ => rfl⟩
  | pauses handed hopeful rejoined =>
    refine ⟨rfl, Nat.le_refl _, fun u _ hu => ?_, hreturned _ other, fun _ => rfl⟩
    rcases handed.transfer hu with hu | ⟨hwaits, since, hu⟩
    · exact .inl (rejoined.mem_iff.2 (.tail _ hu))
    · exact .inr ⟨hwaits, since, rejoined.mem_iff.2 (.tail _ hu)⟩

/-- **A trial goes on where the file is spared.** -/
theorem Site.Trying.spared (h : o.Trying f i s) (spared : Site.Spares f s s') : o.Trying f i s' := by
  obtain ⟨phase, ht, hstage⟩ := h
  obtain ⟨calls, begun, hcalls, houtcomes, hstands⟩ := hstage.stands
  have hcalls := spared.moments.trans hcalls
  have houtcomes : ∀ j, s'.supply.outcome f j = o.supply.outcome f (begun + j) :=
    fun j => (spared.outcomes j).trans (houtcomes j)
  have hgoesOn {phase' : Phase} (hstands : Stands o f i s'.clock.elapsed phase' calls begun) :=
    hstage.goesOn spared.settings hstage.undecided hcalls houtcomes hstands
  rcases spared.transfer _ (o.supply.fileId_setBacks f i) ht with ht | ⟨hphase, since, ht⟩
  · exact ⟨phase, ht, hgoesOn (hstands.mono spared.elapsed)⟩
  · cases hstands with
    | resting | chosen | calling => cases hphase
    | waiting paced rested => exact ⟨_, ht, hgoesOn (.chosen paced (rested.trans spared.elapsed))⟩

/-! ### The moves of the transfer itself -/

/-- A call ends. -/
theorem Stands.call_ends {now ends begun : Nat} {result : Except Failure Delivery} {calls : List Moment}
    (h : Stands o f i now (.calling ends result) calls begun) :
    result = (o.supply.outcome f i).result ∧ begun = i + 1 ∧
      Paced (o.pauseAfter f) (calls ++ [.ended now]) (i + 1) (now + o.pauseAfter f (i + 1)) := by
  cases h with
  | calling paced rested lasts =>
    refine ⟨rfl, rfl, ?_⟩
    rw [List.append_assoc]
    exact .call paced rested lasts

/-- A transfer whose pause is over, or that has waited since, begins its next call. -/
theorem Stands.begins {now begun : Nat} {phase : Phase} {calls : List Moment}
    (h : Stands o f i now phase calls begun)
    (turn : (∃ ends ≤ now, phase = .resting ends) ∨ ∃ since, phase = .chosen since) :
    begun = i ∧ ∀ ends, Stands o f i now (.calling ends (o.supply.outcome f i).result)
      (calls ++ [.began now]) (i + 1) := by
  rcases turn with ⟨ends, hends, rfl⟩ | ⟨since, rfl⟩
  · cases h with
    | resting paced rests => exact ⟨rfl, fun _ => .calling paced (rests.trans hends) (Nat.le_refl _)⟩
  · cases h with
    | chosen paced rested => exact ⟨rfl, fun _ => .calling paced rested (Nat.le_refl _)⟩

/-- **The next call of a trial begins**, and has the next outcome. -/
theorem Site.Stage.begins {phase : Phase} (h : o.Stage f i phase s)
    (turn : (∃ ends ≤ s.clock.elapsed, phase = .resting ends) ∨ ∃ since, phase = .chosen since)
    (tasks : List Task) (ends : Nat) :
    o.Stage f i (.calling ends (s.supply.outcome (o.supply.setBacks f i) 0).result)
      { s with
        supply := s.supply.afterCall (o.supply.setBacks f i)
        tasks := tasks
        log := s.log ++ [.called s.clock.elapsed (o.supply.setBacks f i).fileId
            (o.supply.setBacks f i).regenerationSource,
          .begun (o.supply.setBacks f i).fileId
            (s.inventory.files.get? (o.supply.setBacks f i).fileId)] } := by
  obtain ⟨calls, begun, hcalls, houtcomes, hstands⟩ := h.stands
  obtain ⟨rfl, hcalling⟩ := hstands.begins turn
  have hnext : s.supply.outcome (o.supply.setBacks f begun) 0 = o.supply.outcome f begun := by
    rw [o.supply.outcome_setBacks f, houtcomes, Nat.add_zero]
  rw [hnext]
  refine h.goesOn rfl h.undecided ?_ (fun j => ?_) (hcalling ends)
  · rw [momentsOf_called, if_pos (o.supply.fileId_setBacks f begun), hcalls, List.append_assoc]
  · rw [← o.supply.outcome_setBacks f (s.supply.afterCall _) begun, s.supply.outcome_afterCall,
      o.supply.outcome_setBacks f, houtcomes, Nat.add_assoc, Nat.add_comm 1]

/-- **A trial goes on after a call that is not the last**, with a pause. -/
theorem Site.Stage.pauses {ends : Nat} {e : Failure} (h : o.Stage f i (.calling ends (.error e)) s)
    (hopeful : Transfers.isHopeless s (o.supply.setBacks f (i + 1)) e = false) (inventory : Inventory)
    (tasks : List Task) :
    o.Stage f (i + 1)
      (.resting (s.clock.elapsed +
        waitMs (s.settings.backoffMs (o.supply.setBacks f (i + 1)).retryCount.toNat)))
      { s with
        inventory := inventory
        tasks := tasks
        log := s.log ++ [.returned s.clock.elapsed (o.supply.setBacks f i) (.error e)] } := by
  obtain ⟨calls, begun, hcalls, houtcomes, hstands⟩ := h.stands
  obtain ⟨hresult, rfl, hpaced⟩ := hstands.call_ends
  have hfailed : (o.supply.outcome f i).result = .error e := hresult.symm
  have hundecided : ¬o.Decides f (i + 1) := by
    rw [← isHopeless_setBacks_iff h.undecided h.countable hfailed h.settings, hopeful]
    exact Bool.false_ne_true
  have hpause : s.settings.backoffMs (o.supply.setBacks f (i + 1)).retryCount.toNat =
      o.settings.backoffMs (f.retryCount.toNat + (i + 1)) := by
    rw [h.settings, h.undecided.retryCount_eq hfailed,
      UInt32.toNat_ofNat_of_lt' (h.undecided.count_lt h.countable)]
  refine h.goesOn rfl (h.undecided.succ hundecided) ?_ houtcomes (.resting hpaced ?_)
  · rw [momentsOf_returned, if_pos (o.supply.fileId_setBacks f i), hcalls, List.append_assoc]
  · rw [hpause]
    exact Nat.le_refl _

/-- **A trial ends with its last call**, once that is noted, the record is kept, and the room and the turn of the
transfer are given away. -/
theorem Site.Stage.tried {ends : Nat} {result : Except Failure Delivery}
    (h : o.Stage f i (.calling ends result) s) (decided : o.Decides f (i + 1))
    (others : ∀ g ∈ recordsOf s.tasks, g.fileId ≠ f.fileId)
    (log : s'.log = s.log ++ [.returned s.clock.elapsed (o.supply.setBacks f i) result])
    (inventory : s'.inventory = s.inventory.saveFile (o.lastRecord f (i + 1) s'))
    (reservations : s'.account.reservations = s.account.reservations.erase f.fileId)
    (inFlight : s'.inFlight = s.inFlight.erase f.fileId)
    (handed : HandsOver s.clock.elapsed s.tasks s'.tasks) : o.Tried f (i + 1) s' := by
  obtain ⟨calls, begun, hcalls, -, hstands⟩ := h.stands
  obtain ⟨-, -, hpaced⟩ := hstands.call_ends
  refine ⟨h.undecided.isLeast decided, ⟨calls ++ [.ended s.clock.elapsed], _, ?_, hpaced⟩, ?_,
    o.status_lastRecord h.pending (i + 1) s', ?_, ?_, ?_⟩
  · rw [log, momentsOf_returned, if_pos (o.supply.fileId_setBacks f i), hcalls, List.append_assoc]
  · rw [inventory, Inventory.get?_saveFile, if_pos (o.fileId_lastRecord f (i + 1) s').symm]
  · exact fun t ht => others _ (handed.recordsOf.mem_iff.1 (List.mem_map_of_mem ht))
  · rw [Account.isReserved, reservations, Table.contains_eq_false, Table.get?_erase, if_pos rfl]
  · rw [inFlight, ← Bool.not_eq_true, KeySet.contains_erase]
    exact fun hin => hin.1 rfl

section

variable {phase : Phase} {ending : Option Transfers.Ending}

/-- **What the move of its own transfer does to a trial**: either it goes on, or that was its last call and
the transfer ends as this call says. -/
theorem Site.Stage.move (h : o.Stage f i phase s)
    (others : ∀ g ∈ recordsOf s.tasks, g.fileId ≠ f.fileId)
    (come : ∀ ends, phase = .resting ends → ends ≤ s.clock.elapsed)
    (m : Transfers.Move s ⟨o.supply.setBacks f i, phase⟩ ending s') :
    (ending = none ∧ ∃ j, o.Trying f j s') ∨
      ending = some ⟨f.fileId, some (o.lastStatus f (i + 1))⟩ ∧ o.Tried f (i + 1) s' := by
  obtain ⟨calls, begun, hcalls, houtcomes, hstands⟩ := h.stands
  have hid := o.supply.fileId_setBacks f i
  cases m with
  | @waits _ ends taken =>
    cases hstands with
    | resting paced rests =>
      have hwaiting := Stands.waiting paced (rests.trans (come ends rfl))
      exact .inl ⟨rfl, i, _, List.mem_append_right _ (.head _),
        h.goesOn rfl h.undecided hcalls houtcomes hwaiting⟩
  | begins turn rejoined =>
    have hturn : (∃ ends ≤ s.clock.elapsed, phase = .resting ends) ∨ ∃ since, phase = .chosen since :=
      turn.imp_left fun ⟨ends, hphase, _⟩ => ⟨ends, come ends hphase, hphase⟩
    exact .inl ⟨rfl, i, _, rejoined.mem_iff.2 (.head _), h.begins hturn _ _⟩
  | @arrives _ ends d tasks disk handed =>
    have hdelivered : (o.supply.outcome f i).result = .ok d := hstands.call_ends.1.symm
    have hdecides : o.Decides f (i + 1) := by
      rw [Site.Decides, Nat.add_sub_cancel, hdelivered]
      trivial
    refine .inr ⟨?_, h.tried hdecides others rfl ?_ ?_ ?_ handed⟩
    · rw [hid, Site.lastStatus, Nat.add_sub_cancel, hdelivered]
    · rw [hid, arrived_setBacks h.undecided hdelivered]
      simp only [Site.lastRecord, hdelivered, Nat.add_sub_cancel]
    · rw [hid]
      rfl
    · rw [hid]
  | @givesUp _ ends e tasks handed hopeless =>
    have hfailed : (o.supply.outcome f i).result = .error e := hstands.call_ends.1.symm
    rw [← o.supply.setBacks_succ_of_error f hfailed] at hopeless
    have hdecides := (isHopeless_setBacks_iff h.undecided h.countable hfailed h.settings).1 hopeless
    refine .inr ⟨?_, h.tried hdecides others rfl ?_ ?_ ?_ handed⟩
    · rw [hid, Site.lastStatus, Nat.add_sub_cancel, hfailed]
    · rw [← o.supply.setBacks_succ_of_error f hfailed, givenUp_setBacks h.undecided hfailed]
      simp only [Site.lastRecord, hfailed, Nat.add_sub_cancel]
    · rw [hid]
      rfl
    · rw [hid]
  | @pauses _ ends e others' tasks handed hopeful rejoined =>
    have hfailed : (o.supply.outcome f i).result = .error e := hstands.call_ends.1.symm
    rw [← o.supply.setBacks_succ_of_error f hfailed] at hopeful rejoined
    exact .inl ⟨rfl, i + 1, _, rejoined.mem_iff.2 (.head _), h.pauses hopeful _ _⟩

/-- A transfer that ends is that of its file. -/
theorem Transfers.Move.file_eq {t : Transfer} {e : Ending} (m : Move s t (some e) s') :
    e.file = t.record.fileId := by
  cases m <;> rfl

/-- A transfer that is taken off the list leaves none of its file behind. -/
theorem Site.Balanced.ne_of_perm (h : s.Balanced) {t : Transfer} {rest : List Task}
    (p : s.tasks.Perm (.transfer t :: rest)) : ∀ g ∈ recordsOf rest, g.fileId ≠ t.record.fileId := by
  intro g hg heq
  have hcarried : s.carried.Perm (t.record :: recordsOf rest) :=
    (p.filterMap Task.transfer?).map Transfer.record
  have hnodup := (hcarried.map FileRecord.fileId).nodup_iff.1 h.nodup
  refine (List.nodup_cons.1 hnodup).1 ?_
  rw [← heq]
  exact List.mem_map_of_mem hg

/-- **What any move does to a trial**: it goes on, and no transfer of its file ends, or it is over, and the
transfer of the file ends as the last call says. -/
theorem Site.Trying.move (h : o.Trying f i s) (running : s.Running)
    {place moment : Nat} {t : Transfer} (found : s.tasks[place]? = some (.transfer t))
    (due : t.due? = some moment) (come : moment ≤ s.clock.elapsed)
    (m : Transfers.Move { s with tasks := s.tasks.eraseIdx place } t ending s') :
    ((∀ e, ending = some e → e.file ≠ f.fileId) ∧ ∃ j, o.Trying f j s') ∨
      ∃ n, ending = some ⟨f.fileId, some (o.lastStatus f n)⟩ ∧ o.Tried f n s' := by
  have hperm := perm_eraseIdx found
  by_cases hid : t.record.fileId = f.fileId
  · obtain ⟨phase, ht, hstage⟩ := h
    have hothers := running.sound.balanced.ne_of_perm hperm
    rw [hid] at hothers
    rcases List.mem_cons.1 (hperm.mem_iff.1 ht) with heq | ht
    · cases heq
      have hcome : ∀ ends, phase = .resting ends → ends ≤ s.clock.elapsed := by
        rintro ends rfl
        cases due
        exact come
      have hstage : o.Stage f i phase { s with tasks := s.tasks.eraseIdx place } :=
        ⟨hstage.settings, hstage.pending, hstage.countable, hstage.undecided, hstage.stands⟩
      rcases hstage.move hothers hcome m with ⟨rfl, hgoes⟩ | hends
      · exact .inl ⟨(fun e he => by cases he), hgoes⟩
      · exact .inr ⟨i + 1, hends⟩
    · exact absurd (o.supply.fileId_setBacks f i) (hothers _ (mem_recordsOf ht))
  · have htaken : Site.Spares f s { s with tasks := s.tasks.eraseIdx place } := by
      refine .of_tasks (Nat.le_refl _) fun u hu hmem => ?_
      rcases List.mem_cons.1 (hperm.mem_iff.1 hmem) with heq | hrest
      · cases heq
        exact absurd hu hid
      · exact hrest
    refine .inl ⟨?_, i, h.spared (htaken.trans (m.spares hid))⟩
    rintro e rfl
    rw [m.file_eq]
    exact hid

end

/-! ### Trials in the course of what happens -/

/-- **What a stroke does to a trial**: it goes on or is over. -/
theorem Site.Trying.shift (h : o.Trying f i s) (running : s.Running)
    (c : Shift s s') : (∃ j, o.Trying f j s') ∨ ∃ n, o.Tried f n s' := by
  cases c with
  | planned d round =>
    exact .inl ⟨i, h.spared (.of_tasks (Nat.le_refl _) fun t _ ht => List.mem_append_left _ ht)⟩
  | stroke c =>
    cases c with
    | worked _ queues => exact .inl ⟨i, h.spared (queues.spares f)⟩
    | @moved place moment t found due come =>
      obtain ⟨ending, hmove⟩ := Stroke.move running.orderly due place
      rcases h.move running found due come hmove with ⟨-, hgoes⟩ | ⟨n, -, hover⟩
      · exact .inl hgoes
      · exact .inr ⟨n, hover⟩
    | clocked clock forward => exact .inl ⟨i, h.spared (.of_tasks forward fun t _ ht => ht)⟩
    | laidDown tasks same fewer =>
      refine .inl ⟨i, h.spared (.of_tasks (Nat.le_refl _) fun t _ ht => ?_)⟩
      have hkept : t ∈ tasks.filterMap Task.transfer? := same ▸ mem_filterMap_transfer?.2 ht
      exact mem_filterMap_transfer?.1 hkept

/-- **A trial goes on until it is over.** -/
theorem Site.Trying.shifts (h : o.Trying f i s) (running : s.Running)
    (c : Shifts s s') :
    (∃ j, o.Trying f j s') ∨ ∃ n sₑ, Shifts s sₑ ∧ o.Tried f n sₑ ∧ Shifts sₑ s' := by
  induction c with
  | refl => exact .inl ⟨i, h⟩
  | tail c d ih =>
    rcases ih with ⟨j, hj⟩ | ⟨n, sₑ, hbefore, hover, hafter⟩
    · rcases hj.shift (Shifts.running c running) d with hgoes | ⟨n, hover⟩
      · exact .inl hgoes
      · exact .inr ⟨n, _, c.tail d, hover, .refl⟩
    · exact .inr ⟨n, sₑ, hbefore, hover, hafter.tail d⟩

/-! ### Waiting for the end -/

/-- **A move where a trial goes on**: it is one of fewer that are left, and the trial goes on or is over. -/
theorem Site.Trying.leads_advance (h : o.Trying f i s) (running : s.Running) (off : s.OffDuty)
    {place moment : Nat} {t : Transfer} (found : s.tasks[place]? = some (.transfer t))
    (due : t.due? = some moment) (come : moment ≤ s.clock.elapsed) :
    Leads (Transfers.advance t) (fun _ _ => False)
      (fun ending s' => s'.Running ∧ s'.OffDuty ∧
        movesLeft s'.settings.maxRetries s'.tasks < movesLeft s.settings.maxRetries s.tasks ∧
        (((∀ e, ending = some e → e.file ≠ f.fileId) ∧ ∃ j, o.Trying f j s') ∨
          ∃ n, ending = some ⟨f.fileId, some (o.lastStatus f n)⟩ ∧ o.Tried f n s'))
      { s with tasks := s.tasks.eraseIdx place } := by
  have hquiet : ({ s with tasks := s.tasks.eraseIdx place } : Site).Quiet :=
    running.orderly.quiet.of_same rfl rfl rfl
  have hmove := Transfers.leads_advance_of_quiet hquiet (t := t) (by rw [due]; rfl)
  refine (hmove.and (leads_answer _ _)).mono (fun _ _ hfalse => hfalse.1.elim) ?_
  rintro ending s₁ ⟨hmove, -, hafter⟩
  have hmoved : Shift s s₁ := by
    rw [hafter]
    exact .stroke (.moved found due come)
  obtain ⟨phase, -, hstage⟩ := id h
  refine ⟨hmoved.running running, hmove.offDuty fun u hu => off u (List.mem_of_mem_eraseIdx hu), ?_,
    h.move running found due come hmove⟩
  have hfewer := hmove.movesLeft (by rw [hstage.settings]; exact hstage.countable.limit)
  rw [hmove.frame.1, movesLeft_perm (perm_eraseIdx found), movesLeft_transfer]
  exact hfewer

namespace Passage

/-- **Moves are made until a trial is over**, and then the transfer has ended as its last call says. -/
theorem leads_makeMoves_of_trying (turns : 0 < o.settings.maxConcurrent) :
    ∀ (fuel : Nat) {i : Nat} {s : Site}, o.Trying f i s → s.Running → s.OffDuty →
      movesLeft s.settings.maxRetries s.tasks < fuel →
        Leads (makeMoves none (some f.fileId) fuel) (fun _ _ => False)
          (fun halt s' => ∃ n, halt = .ended ⟨f.fileId, some (o.lastStatus f n)⟩ ∧ o.Tried f n s') s
  | 0, i, s, h, running, off, enough => absurd enough (Nat.not_lt_zero _)
  | fuel + 1, i, s, h, running, off, enough => by
    obtain ⟨phase, ht, hstage⟩ := id h
    have hsome := nextMove_isSome ht running.fair (by rw [hstage.settings]; exact turns)
    obtain ⟨⟨moment, place⟩, hnext⟩ := Option.isSome_iff_exists.1 hsome
    obtain ⟨task, htask, hdue⟩ := of_nextMove hnext
    cases task with
    | duty => cases off _ (List.mem_of_getElem? htask)
    | transfer t =>
      simp only [makeMoves, leads_bind, leads_get, hnext, Option.any_none, Bool.false_eq_true, if_false,
        passTo, leads_modify, leads_takeOff, htask]
      have hpassed : Shift s { s with clock := { s.clock with elapsed := max s.clock.elapsed moment } } :=
        .stroke (.clocked _ (Nat.le_max_left ..))
      have htrying : o.Trying f i
          { s with clock := { s.clock with elapsed := max s.clock.elapsed moment } } :=
        h.spared (.of_tasks (Nat.le_max_left ..) fun _ _ hu => hu)
      refine (htrying.leads_advance (hpassed.running running) off htask hdue
        (Nat.le_max_right ..)).mono (fun _ _ hfalse => hfalse) ?_
      rintro ending s₁ ⟨hrunning, hoff, hfewer, ⟨hothers, j, hj⟩ | ⟨n, rfl, hover⟩⟩
      · have hrest := leads_makeMoves_of_trying turns fuel hj hrunning hoff
          (hfewer.trans_le (Nat.lt_succ_iff.1 enough))
        cases ending with
        | none => exact hrest
        | some e =>
          dsimp only
          rw [if_neg fun heq => hothers e rfl (Option.some.inj heq).symm]
          exact hrest
      · simp only [if_true, leads_pure]
        exact ⟨n, rfl, hover⟩

end Passage

/-- **Whoever waits for a file learns how its trial ends.** -/
theorem Site.Trying.leads_wait (h : o.Trying f i s) (running : s.Running) (off : s.OffDuty)
    (turns : 0 < o.settings.maxConcurrent) :
    Leads (Passage.wait f.fileId) (fun _ _ => False)
      (fun status s' => ∃ n sₑ, status = some (o.lastStatus f n) ∧ Shifts s sₑ ∧ o.Tried f n sₑ ∧
        Shifts sₑ s') s := by
  obtain ⟨phase, ht, hstage⟩ := id h
  have hflying : s.inFlight.contains f.fileId = true := by
    refine running.sound.balanced.contains_of_underway
      (Site.mem_underway.2 ⟨⟨o.supply.setBacks f i, phase⟩, ?_, ?_⟩)
    · exact mem_filterMap_transfer?.2 ht
    · exact o.supply.fileId_setBacks f i
  have hmoves := (Passage.leads_makeMoves_of_trying turns _ h running off
    (movesLeft_lt_moveBound s)).and (Passage.strokes_makeMoves none (some f.fileId) _ s)
  rw [Passage.wait, leads_bind, Passage.awaitEnding, leads_bind, leads_get]
  dsimp only
  rw [if_pos hflying]
  simp only [leads_bind, leads_get]
  refine hmoves.mono (fun _ _ hfalse => hfalse.1.elim) ?_
  rintro halt sₑ ⟨⟨n, rfl, hover⟩, hstrokes⟩
  simp only [leads_pure]
  refine ((Passage.sure_run 0 sₑ).and (Passage.strokes_run 0 sₑ)).mono (fun _ _ hfalse => hfalse.1.elim) ?_
  rintro _ s₁ ⟨-, hrest⟩
  exact ⟨n, sₑ, rfl, Strokes.shifts hstrokes, hover, Strokes.shifts hrest⟩

/-! ### Runs -/

/-- **A trial ends in the course of a run** from a site: in one of the steps there is a moment when it is over. -/
def Site.TrialEnds (o : Site) (f : FileRecord) (n : Nat) (s : Site) (steps : List Step) : Prop :=
  ∃ done step rest sₑ, steps = done ++ step :: rest ∧ Shifts (s.run done) sₑ ∧ o.Tried f n sₑ ∧
    Shifts sₑ (step.take (s.run done))

/-- **A trial goes on through a punctual run, or ends in one of its steps.** -/
theorem Site.Trying.run {steps : List Step} (h : o.Trying f i s) (running : s.Running) (off : s.OffDuty)
    (punctual : s.Punctual steps) :
    (∃ j, o.Trying f j (s.run steps)) ∨ ∃ n, o.TrialEnds f n s steps := by
  induction steps generalizing s i with
  | nil => exact .inl ⟨i, h⟩
  | cons step rest ih =>
    obtain ⟨hstep, hrest⟩ := punctual
    obtain ⟨hshifts, hoff⟩ := Step.shifts running off hstep
    rcases h.shifts running hshifts with ⟨j, hj⟩ | ⟨n, sₑ, hto, hover, hfrom⟩
    · refine (ih hj (hshifts.running running) hoff hrest).imp id ?_
      rintro ⟨n, done, later, rest', sₑ, rfl, hends⟩
      exact ⟨n, step :: done, later, rest', sₑ, rfl, hends⟩
    · exact .inr ⟨n, [], step, rest, sₑ, rfl, hto, hover, hfrom⟩

/-- **A transfer ends where its outcomes say.** Let a transfer rest after some punctual run from a depot just
opened, over any inventory and with turns to take, where no call of the inventory is refused, and let neither the
count of failures nor the limit of retries be so large that the count could overflow. Then there is a last call:
the first that brings the file, that makes no sense to repeat, or whose failure is one too many. In every
punctual run from then on, whatever else is done, fewer calls have ended and none of them was the last; then
whoever waits for the file learns how the last call ends, and sees the end of the trial. Or the trial has ended in
the course of the run: just so many calls had been made, each with the pause before it that the settings ask for,
as far as one can wait that long; the record told of the last of them, and the file had neither a transfer nor a
reservation any more and was not in flight. -/
theorem transfer_ends_where_outcomes_say {s₀ : Site} (h : s₀.Secluded) (hn : s₀.inventory.Named)
    (ho : s₀.Opened) (faultless : s₀.Faultless) (turns : 0 < s₀.settings.maxConcurrent)
    {before : List Step} (punctual : s₀.Punctual before) {f : FileRecord} {time : Nat}
    (rests : .transfer ⟨f, .resting time⟩ ∈ (s₀.run before).tasks)
    (small : f.retryCount.toNat + 1 < UInt32.size)
    (limit : s₀.settings.maxRetries.toNat + 1 < UInt32.size) :
    let o := s₀.run before
    ∃ n, IsLeast {i | 1 ≤ i ∧ o.Decides f i} n ∧ f.retryCount.toNat + n < UInt32.size ∧
      ∀ later, o.Punctual later →
        (∃ i < n, o.Trying f i (o.run later) ∧
          (Passage.wait f.fileId).answer (o.run later) = .ok (some (o.lastStatus f n)) ∧
          o.TrialEnds f n o (later ++ [.wait f.fileId])) ∨
        o.TrialEnds f n o later := by
  intro o
  have hrunning₀ : s₀.Running := .of_opened ho h hn faultless
  obtain ⟨hbefore, hoff⟩ := Site.shifts_run hrunning₀ ho.offDuty punctual
  have hrunning : o.Running := hbefore.running hrunning₀
  have hsettings : o.settings = s₀.settings := (hbefore.frame hrunning₀).1
  rw [← hsettings] at turns limit
  have hcountable : o.Countable f := ⟨small, limit⟩
  have hbegins : o.Trying f 0 o := .begins hrunning.sound.balanced hcountable rests
  obtain ⟨n, hlast, hsmall⟩ := Site.exists_lastCall hcountable
  refine ⟨n, hlast, hsmall, fun later hlater => ?_⟩
  rcases hbegins.run hrunning hoff hlater with
    ⟨i, htrying⟩ | ⟨n', done, step, rest, sₑ, heq, hto, hover, hfrom⟩
  · left
    obtain ⟨hshifts, hoff'⟩ := Site.shifts_run hrunning hoff hlater
    have hundecided : o.Undecided f i := htrying.choose_spec.2.undecided
    obtain ⟨answer, hanswer, n', sₑ, rfl, hto, hover, hfrom⟩ :=
      (htrying.leads_wait (hshifts.running hrunning) hoff' turns).exists_ok
    obtain rfl := hover.last.unique hlast
    rw [← after_discard] at hfrom
    exact ⟨i, hundecided.lt_of_isLeast hlast, htrying, hanswer, later, _, [], sₑ, rfl, hto, hover, hfrom⟩
  · obtain rfl := hover.last.unique hlast
    exact .inr ⟨done, step, rest, sₑ, heq, hto, hover, hfrom⟩

/-- A depot whose archive fails once, before it brings a file; the pause after that is as long as is said. -/
def hesitantSite (backoffMs : Nat) : Site :=
  let script : Script :=
    .ofList [{ result := .error (.retrievalFailed "gone") }] { result := .ok { sizeKb := 40 } }
  { Site.blank { cacheRoot := "cache", retryBackoffMs := backoffMs, maxBackoffMs := backoffMs } with
    supply := { fetches := Table.empty.insert ⟨"f"⟩ script } }

/-- The file is asked for. -/
def hesitantRun : List Step := [.ensure ⟨"r"⟩ ⟨⟨"f"⟩, .spectrum, none, some 60⟩]

/-- Its record is then still to come. -/
def hesitantRecord : FileRecord := .ofEntry ⟨⟨"f"⟩, .spectrum, none, some 60⟩ 0

/-- The second call is the last, and whoever waits sees the end of it. -/
theorem transfer_of_hesitantSite :
    let o := (hesitantSite 30000).run hesitantRun
    (Passage.wait ⟨"f"⟩).answer o = .ok (some .available) ∧
      o.TrialEnds hesitantRecord 2 o [.wait ⟨"f"⟩] := by
  intro o
  have hopened : (hesitantSite 30000).Opened := ⟨rfl, rfl, rfl⟩
  have hpunctual : (hesitantSite 30000).Punctual hesitantRun := ⟨trivial, trivial⟩
  have hrests : .transfer ⟨hesitantRecord, .resting 0⟩ ∈ o.tasks := by
    have htasks : o.tasks = [.transfer ⟨hesitantRecord, .resting 0⟩] := rfl
    rw [htasks]
    exact .head _
  obtain ⟨n, hlast, -, hlater⟩ := transfer_ends_where_outcomes_say ⟨rfl, rfl, rfl, rfl, rfl⟩ .fresh hopened
    (fun _ => rfl) (by decide) hpunctual hrests (by decide) (by decide)
  have hsecond : o.Decides hesitantRecord 2 := trivial
  have hfirst : ¬o.Decides hesitantRecord 1 := by
    rintro (hsenseless | hmany)
    · cases hsenseless
    · exact absurd hmany (by decide +kernel)
  obtain rfl : n = 2 := by
    have hle : n ≤ 2 := hlast.2 ⟨by decide, hsecond⟩
    have hne : n ≠ 1 := by
      rintro rfl
      exact hfirst hlast.1.2
    have hpos : 1 ≤ n := hlast.1.1
    omega
  rcases hlater [] trivial with ⟨i, -, -, hanswer, hends⟩ | ⟨done, step, rest, -, hnil, -⟩
  · exact ⟨hanswer, hends⟩
  · cases done <;> cases hnil

/-- **No pause is longer than one can wait at once**, whatever the settings ask for. -/
theorem pause_is_cut_short :
    let s := (hesitantSite (maxWaitMs + 1)).run (hesitantRun ++ [.pass maxWaitMs])
    momentsOf ⟨"f"⟩ s.log = [.began 0, .ended 0, .began maxWaitMs, .ended maxWaitMs] ∧
      maxWaitMs < 0 + s.settings.backoffMs 1 := by
  decide +kernel

end Depot

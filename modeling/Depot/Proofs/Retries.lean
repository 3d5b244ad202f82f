import Depot.Proofs.Run
import Depot.Proofs.Turns

/-!
# Retries

A file's record counts the calls for it that have failed. The count is carried by the transfer, written with
the record after every call, and read again when the depot is opened anew or the file is asked for another
time; nothing else changes it. So as long as the record is not evicted, it can be read off the log: `Tally`
goes through the calls for a file, in order, and says what the record must be. No call is begun but while the
file is still to come, so there are no more of them than the limit allows, however often the depot is opened
again.

## Main statements

* `Errand.tallied` — every errand keeps the record of a file in step with the calls for it.
* `Site.InVain.calls` — where calls are in vain there may be as many as one likes.
* `retries_are_counted` — in every run the record tells how many calls have failed, and what has come of them.
* `count_comes_round` — with the greatest limit there is, 2^32 failures are counted as none.
-/

namespace Depot

open Act Time

variable {s s' : Site} {id : FileId} {max : UInt32}

/-! ### Calls for a file -/

/-- What the log tells of a call for a file. -/
inductive CallEvent
  | began
  | ended (result : Except Failure Delivery)

/-- The failure that a call has ended with. -/
def CallEvent.failure? : CallEvent → Option Failure
  | ended (.error e) => some e
  | _ => none

/-- The delivery that a call has ended with. -/
def CallEvent.delivery? : CallEvent → Option Delivery
  | ended (.ok d) => some d
  | _ => none

/-- What an entry of the log tells of the calls for a file. -/
def Happening.call? (id : FileId) : Happening → Option CallEvent
  | .called _ id' _ => if id' = id then some .began else none
  | .returned _ f result => if f.fileId = id then some (.ended result) else none
  | _ => none

/-- The calls for a file, in order. -/
def callsOf (id : FileId) (log : List Happening) : List CallEvent := log.filterMap (·.call? id)

theorem callsOf_append (id : FileId) (log more : List Happening) :
    callsOf id (log ++ more) = callsOf id log ++ callsOf id more := List.filterMap_append

/-- What does not tell of a call for the file makes no difference. -/
theorem callsOf_concat {h : Happening} (quiet : h.call? id = none) (log : List Happening) :
    callsOf id (log ++ [h]) = callsOf id log := by
  rw [callsOf_append, callsOf, callsOf, List.filterMap_cons_none quiet]
  exact List.append_nil _

/-- The failures that calls have ended with. -/
def failuresIn (calls : List CallEvent) : List Failure := calls.filterMap CallEvent.failure?

/-- The deliveries that calls have ended with. -/
def deliveriesIn (calls : List CallEvent) : List Delivery := calls.filterMap CallEvent.delivery?

@[simp] theorem failuresIn_began (l : List CallEvent) : failuresIn (l ++ [.began]) = failuresIn l := by
  simp [failuresIn, CallEvent.failure?]

@[simp] theorem failuresIn_error (l : List CallEvent) (e : Failure) :
    failuresIn (l ++ [.ended (.error e)]) = failuresIn l ++ [e] := by
  simp [failuresIn, CallEvent.failure?]

@[simp] theorem failuresIn_ok (l : List CallEvent) (d : Delivery) :
    failuresIn (l ++ [.ended (.ok d)]) = failuresIn l := by
  simp [failuresIn, CallEvent.failure?]

@[simp] theorem deliveriesIn_began (l : List CallEvent) :
    deliveriesIn (l ++ [.began]) = deliveriesIn l := by
  simp [deliveriesIn, CallEvent.delivery?]

@[simp] theorem deliveriesIn_error (l : List CallEvent) (e : Failure) :
    deliveriesIn (l ++ [.ended (.error e)]) = deliveriesIn l := by
  simp [deliveriesIn, CallEvent.delivery?]

@[simp] theorem deliveriesIn_ok (l : List CallEvent) (d : Delivery) :
    deliveriesIn (l ++ [.ended (.ok d)]) = deliveriesIn l ++ [d] := by
  simp [deliveriesIn, CallEvent.delivery?]

/-! ### Tallies -/

/-- **What calls leave behind**: after so many failures a file is still to come, is there, or has failed. The
file is still to come when a call for it begins. -/
inductive Tally (max : UInt32) : List CallEvent → UInt32 → FileStatus → Prop
  | new : Tally max [] 0 .pending
  | called {l : List CallEvent} {n : UInt32} (h : Tally max l n .pending) :
      Tally max (l ++ [.began]) n .pending
  | setBack {l : List CallEvent} {n : UInt32} (h : Tally max l n .pending) (e : Failure)
      (left : n + 1 ≤ max) (retryable : e.isRetryable = true) :
      Tally max (l ++ [.ended (.error e)]) (n + 1) .pending
  | givenUp {l : List CallEvent} {n : UInt32} (h : Tally max l n .pending) (e : Failure)
      (hopeless : max < n + 1 ∨ e.isRetryable = false) :
      Tally max (l ++ [.ended (.error e)]) (n + 1) .failed
  | arrived {l : List CallEvent} {n : UInt32} (h : Tally max l n .pending) (d : Delivery) :
      Tally max (l ++ [.ended (.ok d)]) n .available

namespace Tally

variable {l : List CallEvent} {n : UInt32} {status : FileStatus}

/-- What is not over yet leaves the file still to come. -/
theorem of_prefix (h : Tally max l n status) {l' : List CallEvent} (p : l' <+: l) (shorter : l' ≠ l) :
    ∃ m, Tally max l' m .pending := by
  induction h with
  | new => exact absurd (List.prefix_nil.1 p) shorter
  | called h ih | setBack h e left retryable ih | givenUp h e hopeless ih | arrived h d ih =>
    exact (Classical.em _).elim (fun heq => ⟨_, heq.symm ▸ h⟩)
      (ih ((List.prefix_concat_iff.1 p).resolve_left shorter))

/-- As long as a file has not failed there is hope for it. -/
theorem hopeful (h : Tally max l n status) (sound : status ≠ .failed) :
    n ≤ max ∧ ∀ e ∈ failuresIn l, e.isRetryable = true := by
  induction h with
  | new => exact ⟨UInt32.zero_le, fun e he => by cases he⟩
  | called h ih | arrived h d ih => simpa using ih nofun
  | setBack h e left retryable ih =>
    refine ⟨left, fun e' he' => ?_⟩
    rw [failuresIn_error, List.mem_append, List.mem_singleton] at he'
    rcases he' with he' | rfl
    · exact (ih nofun).2 e' he'
    · exact retryable
  | givenUp => exact absurd rfl sound

/-- The count exceeds the limit by one at most. -/
theorem count_le (h : Tally max l n status) : n.toNat ≤ max.toNat + 1 := by
  have hle : status ≠ .failed → n.toNat ≤ max.toNat + 1 := fun sound =>
    (UInt32.le_iff_toNat_le.1 (h.hopeful sound).1).trans (Nat.le_succ _)
  cases h with
  | givenUp h e hopeless =>
    rw [UInt32.toNat_add]
    exact (Nat.mod_le ..).trans
      (Nat.succ_le_succ (UInt32.le_iff_toNat_le.1 (h.hopeful nofun).1))
  | _ => exact hle nofun

end Tally

/-! ### Records in step with calls -/

/-- A record shows a status; what is there has a size. -/
structure FileRecord.Shows (f : FileRecord) (status : FileStatus) : Prop where
  available : f.available = true ↔ status = .available
  failed : f.failed = true ↔ status = .failed
  sized : f.available = true → f.sizeKb.isSome = true

/-- A record says what the calls for its file leave behind. -/
def FileRecord.Tallies (f : FileRecord) (max : UInt32) (calls : List CallEvent) : Prop :=
  ∃ status, Tally max calls f.retryCount status ∧ f.Shows status

/-- **The record of a file is in step with the calls for it**, and a file without a record has seen none. -/
structure Site.Tallied (s : Site) (max : UInt32) (id : FileId) : Prop where
  known : ∀ f, s.inventory.files.get? id = some f → f.Tallies max (callsOf id s.log)
  unknown : s.inventory.files.get? id = none → callsOf id s.log = []

namespace FileRecord

variable {f : FileRecord} {calls : List CallEvent}

theorem shows_pending (h : f.isPending = true) : f.Shows .pending := by
  simp only [isPending, Bool.and_eq_true, Bool.not_eq_true'] at h
  refine ⟨by simp [h.1], by simp [h.2], fun havailable => ?_⟩
  cases h.1.symm.trans havailable

/-- A record that shows a file still to come, after calls that leave it so. -/
theorem Tallies.pending (h : f.Tallies max calls) (there : ¬f.IsThere) (sound : f.failed = false) :
    Tally max calls f.retryCount .pending := by
  obtain ⟨status, htally, hshows⟩ := h
  cases status with
  | pending => exact htally
  | available =>
    have havailable := hshows.available.2 rfl
    exact absurd ⟨havailable, hshows.sized havailable, sound⟩ there
  | failed => cases (hshows.failed.2 rfl).symm.trans sound

end FileRecord

namespace Site.Tallied

theorem of_same (h : s.Tallied max id) (files : s'.inventory.files.get? id = s.inventory.files.get? id)
    (calls : callsOf id s'.log = callsOf id s.log) : s'.Tallied max id :=
  ⟨by rw [files, calls]; exact h.known, by rw [files, calls]; exact h.unknown⟩

/-- A record is kept that says what the calls leave behind. -/
theorem of_known {f : FileRecord} (kept : s.inventory.files.get? id = some f)
    (tallies : f.Tallies max (callsOf id s.log)) : s.Tallied max id := by
  refine ⟨fun g hg => ?_, fun hnone => ?_⟩
  · rw [← Option.some.inj (kept.symm.trans hg)]
    exact tallies
  · cases kept.symm.trans hnone

/-- A record that is wanted is that of a file still to come. -/
theorem wanted {f : FileRecord} (h : s.Tallied max f.fileId) (wanted : s.inventory.Wants f)
    (new : s.inventory.files.get? f.fileId = none → f.retryCount = 0) :
    Tally max (callsOf f.fileId s.log) f.retryCount .pending := by
  cases hkept : s.inventory.files.get? f.fileId with
  | none =>
    rw [h.unknown hkept, new hkept]
    exact .new
  | some f₀ =>
    obtain ⟨hnot, hsound, heq⟩ := wanted.kept f₀ hkept
    have hpending := (h.known f₀ hkept).pending hnot hsound
    rw [heq] at hpending ⊢
    exact hpending

end Site.Tallied

/-! ### Evictions -/

theorem Site.evictions_of_prefix (p : s.log <+: s'.log) {x : FileRecord × Inventory}
    (h : x ∈ s.evictions) : x ∈ s'.evictions := (p.filterMap _).subset h

/-- No call begins or ends while files are evicted. -/
theorem Evictions.callsOf_eq (h : Evictions s s') (id : FileId) : callsOf id s'.log = callsOf id s.log := by
  induction h with
  | refl => rfl
  | tail _ e ih =>
    cases e with
    | aside a => cases a; exact ih
    | evicted => exact (callsOf_concat rfl _).trans ih

/-- A file that is not evicted stays as it is. -/
theorem Evictions.tallied (h : Evictions s s') (stays : ∀ x ∈ s'.evictions, x.1.fileId ≠ id)
    (tallied : s.Tallied max id) : s'.Tallied max id := by
  induction h with
  | refl => exact tallied
  | @tail t s' _ e ih =>
    cases e with
    | aside a => cases a; exact (ih stays).of_same rfl rfl
    | @evicted f disk =>
      have hlogged := stays (f, t.inventory.deleteFile f.fileId) (by
        rw [Site.evictions, List.filterMap_append]
        exact List.mem_append_right _ (.head _))
      refine (ih fun x hx => stays x (Site.evictions_of_prefix (List.prefix_append ..) hx)).of_same ?_ ?_
      · exact Inventory.get?_deleteFile_of_ne _ (Ne.symm hlogged)
      · exact callsOf_concat rfl _

/-! ### Asking for files -/

namespace Transfers

variable {f : FileRecord}

theorem Dispatched.tallied (c : Dispatched f s s') (stays : ∀ x ∈ s'.evictions, x.1.fileId ≠ id)
    (h : s.Tallied max id) (pending : f.isPending = true)
    (wanted : f.fileId = id → Tally max (callsOf id s.log) f.retryCount .pending) :
    s'.Tallied max id := by
  cases c with
  | @intro t account evictions =>
    have hcalls : callsOf id (t.log ++ [.queued f]) = callsOf id s.log :=
      (callsOf_concat rfl _).trans (evictions.callsOf_eq id)
    by_cases hid : f.fileId = id
    · subst hid
      refine .of_known (Inventory.get?_saveFile_self ..) ⟨.pending, ?_, FileRecord.shows_pending pending⟩
      exact hcalls ▸ wanted rfl
    · refine (evictions.tallied (fun x hx => stays x ?_) h).of_same ?_ (callsOf_concat rfl _)
      · exact Site.evictions_of_prefix (List.prefix_append ..) hx
      · exact Inventory.get?_saveFile_of_ne _ (Ne.symm hid)

theorem TurnedAway.tallied (c : TurnedAway f s s') (stays : ∀ x ∈ s'.evictions, x.1.fileId ≠ id)
    (h : s.Tallied max id) (pending : f.isPending = true)
    (wanted : f.fileId = id → Tally max (callsOf id s.log) f.retryCount .pending) :
    s'.Tallied max id := by
  cases c with
  | left evictions => exact evictions.tallied stays h
  | @unlocked t evictions =>
    by_cases hid : f.fileId = id
    · subst hid
      refine .of_known (Inventory.get?_saveFile_self ..) ⟨.pending, ?_, FileRecord.shows_pending pending⟩
      exact evictions.callsOf_eq f.fileId ▸ wanted rfl
    · exact (evictions.tallied stays h).of_same (Inventory.get?_saveFile_of_ne _ (Ne.symm hid)) rfl

theorem Reply.tallied {r : RequestId} {entry : ManifestEntry} {answer : Except Failure FileStatus}
    (c : Reply r entry s answer s') (hn : s.inventory.Named)
    (stays : ∀ x ∈ s'.evictions, x.1.fileId ≠ id) (h : s.Tallied max id) : s'.Tallied max id := by
  have hwanted : ∀ {f : FileRecord} {isNew : Bool},
      needOf entry s.settings.defaultEstimateKb (s.inventory.files.get? entry.fileId) =
        .transfer f isNew → f.isPending = true ∧
          (f.fileId = id → Tally max (callsOf id s.log) f.retryCount .pending) := by
    intro f isNew need
    obtain ⟨hid, hwants, -⟩ := wants_of_needOf hn need
    refine ⟨hwants.pending, fun heq => ?_⟩
    subst heq
    refine h.wanted hwants fun hnone => ?_
    rw [← hid, hnone] at need
    cases need
    rfl
  cases c with
  | flying | settled => exact h.of_same rfl rfl
  | dispatched grounded need sent =>
    exact sent.tallied stays (h.of_same rfl rfl) (hwanted need).1 (hwanted need).2
  | @turnedAway f isNew t kb room grounded need left =>
    have hleft : (∀ x ∈ t.evictions, x.1.fileId ≠ id) → t.Tallied max id := fun stays =>
      left.tallied stays (h.of_same rfl rfl) (hwanted need).1 (hwanted need).2
    cases isNew with
    | false => exact hleft stays
    | true =>
      refine (hleft stays).of_same ?_ rfl
      exact congrArg (Table.get? · id) (Inventory.files_removeReference ..)

end Transfers

/-! ### Errands -/

/-- A call for a file has ended, and the record is kept that says so. -/
theorem Site.Tallied.returned {f g : FileRecord} {time : Nat} {result : Except Failure Delivery}
    (h : s.Tallied max id) (inventory : s'.inventory = s.inventory.saveFile g)
    (log : s'.log = s.log ++ [.returned time f result]) (name : g.fileId = f.fileId)
    (own : f.fileId = id → g.Tallies max (callsOf id s.log ++ [.ended result])) : s'.Tallied max id := by
  by_cases hid : f.fileId = id
  · have hcalls : callsOf id s'.log = callsOf id s.log ++ [.ended result] := by
      rw [log, callsOf_append]
      simp [callsOf, Happening.call?, hid]
    refine of_known (f := g) ?_ (hcalls ▸ own hid)
    rw [inventory, ← hid, ← name, Inventory.get?_saveFile_self]
  · refine h.of_same ?_ ?_
    · rw [inventory, Inventory.get?_saveFile_of_ne _ fun heq => hid (name ▸ heq.symm)]
    · rw [log]
      exact callsOf_concat (h := .returned time f result) (if_neg hid) _

theorem TransferChange.tallied (c : TransferChange s s') (hb : s.Balanced) (faultless : s.Faultless)
    (h : s.Tallied s.settings.maxRetries id) : s'.Tallied s.settings.maxRetries id := by
  have hpending : ∀ f ∈ s.carried, f.available = false ∧ f.failed = false ∧ (f.fileId = id →
      Tally s.settings.maxRetries (callsOf id s.log) f.retryCount .pending) := by
    intro f hf
    have hpending := hb.pending f hf
    simp only [FileRecord.isPending, Bool.and_eq_true, Bool.not_eq_true'] at hpending
    refine ⟨hpending.1, hpending.2, fun hid => ?_⟩
    refine (h.known f (hid ▸ hb.kept f hf)).pending (fun there => ?_) hpending.2
    cases there.available.symm.trans hpending.1
  cases c with
  | moved tasks log same calls =>
    rcases calls with rfl | ⟨f, hf, time, source, rfl⟩
    · exact h.of_same rfl (by rw [List.append_nil])
    have hcalls : callsOf id (s.log ++ [.called time f.fileId source,
        .begun f.fileId (s.inventory.files.get? f.fileId)]) =
          callsOf id s.log ++ if f.fileId = id then [.began] else [] := by
      rw [callsOf_append]
      by_cases hid : f.fileId = id <;> simp [callsOf, Happening.call?, hid]
    by_cases hid : f.fileId = id
    · rw [if_pos hid] at hcalls
      obtain ⟨havailable, hsound, htally⟩ := hpending f hf
      refine .of_known (hid ▸ hb.kept f hf) ⟨.pending, ?_, FileRecord.shows_pending (hb.pending f hf)⟩
      rw [hcalls]
      exact (htally hid).called
    · rw [if_neg hid, List.append_nil] at hcalls
      exact h.of_same rfl hcalls
  | @arrived f d place tasks rest =>
    obtain ⟨-, hsound, htally⟩ := hpending f (rest.mem_iff.2 (.head _))
    refine h.returned rfl rfl rfl fun hid => ⟨.available, (htally hid).arrived d, ?_⟩
    exact ⟨by simp [Transfers.arrived, FileRecord.extendUnlock],
      by simp [Transfers.arrived, FileRecord.extendUnlock, hsound], fun _ => rfl⟩
  | @givenUp f e tasks rest hopeless =>
    obtain ⟨havailable, -, htally⟩ := hpending f (rest.mem_iff.2 (.head _))
    simp only [Transfers.isHopeless, Bool.or_eq_true, decide_eq_true_eq, Bool.not_eq_true'] at hopeless
    refine h.returned rfl rfl rfl fun hid => ⟨.failed, (htally hid).givenUp e hopeless, ?_⟩
    exact ⟨by simp [Transfers.givenUp, Transfers.setBack, FileRecord.extendUnlock, havailable],
      by simp [Transfers.givenUp, Transfers.setBack, FileRecord.extendUnlock],
      fun h => by cases h.symm.trans havailable⟩
  | @setBack f e tasks others rest back hopeful =>
    obtain ⟨havailable, hsound, htally⟩ := hpending f (rest.mem_iff.2 (.head _))
    simp only [Transfers.isHopeless, Bool.or_eq_false_iff, decide_eq_false_iff_not, UInt32.not_lt,
      Bool.not_eq_false'] at hopeful
    refine h.returned rfl rfl rfl fun hid =>
      ⟨.pending, (htally hid).setBack e hopeful.1 hopeful.2, FileRecord.shows_pending ?_⟩
    simp [FileRecord.isPending, Transfers.setBack, havailable, hsound]
  | brokenOff _ _ _ faulty => exact absurd faultless faulty

theorem Pursuit.tallied (c : Pursuit s s') (h : s.Tallied max id) : s'.Tallied max id := by
  cases c with
  | aside a => cases a; exact h.of_same rfl rfl
  | @extended f time kept =>
    by_cases hid : id = f.fileId
    · subst hid
      obtain ⟨status, htally, hshows⟩ := h.known f kept
      exact .of_known (Inventory.get?_saveFile_self ..)
        ⟨status, htally, hshows.available, hshows.failed, hshows.sized⟩
    · exact h.of_same (Inventory.get?_saveFile_of_ne _ hid) rfl
  | job c => cases c <;> exact h.of_same rfl (callsOf_concat rfl _)

/-- **Every errand keeps the record of a file in step with the calls for it**, unless the file is evicted. -/
theorem Errand.tallied (e : Errand s s') (hs : s.Sound) (calm : s.Calm)
    (stays : ∀ x ∈ s'.evictions, x.1.fileId ≠ id) (h : s.Tallied s.settings.maxRetries id) :
    s'.Tallied s.settings.maxRetries id := by
  have hquiet : s.Quiet := ⟨hs.secluded, calm.faultless⟩
  have hn := hs.balanced.named
  have hprefix : s.log <+: s'.log := (e.course hs).history.log_prefix
  cases e with
  | evict e => exact Evictions.tallied (.single e) stays h
  | asked r entry retrievable =>
    have hasked := (Transfers.leads_ensure_of_quiet hquiet hn r retrievable).mono
      (fun _ s' c stays => c.tallied hn stays h) fun _ s' c stays => c.tallied hn stays h
    exact hasked.after stays
  | resumed f pending grounded kept known =>
    have hwanted : f.fileId = id → Tally s.settings.maxRetries (callsOf id s.log) f.retryCount .pending := by
      rintro rfl
      refine h.wanted (Inventory.wants_of_kept pending kept) fun hnone => ?_
      rcases known with hknown | ⟨x, hx, hid⟩
      · rw [Table.contains_eq_false.2 hnone] at hknown
        cases hknown
      · exact absurd hid (stays x (Site.evictions_of_prefix hprefix hx))
    have hqueued := (Transfers.leads_queue_of_quiet hquiet hn grounded).mono
      (fun _ s' hr stays => hr.2.tallied stays h pending hwanted)
      fun _ s' c stays => c.tallied stays h pending hwanted
    exact hqueued.after stays
  | pursued c => exact c.tallied h
  | transfer c => exact c.tallied hs.balanced calm.faultless h
  | clocked | duties | spoiled => exact h.of_same rfl rfl

theorem Remarks.tallied (c : Remarks s s') (h : s.Tallied max id) : s'.Tallied max id := by
  induction c with
  | refl => exact h
  | tail _ c ih =>
    cases c with
    | aside a => cases a; exact ih.of_same rfl rfl
    | warned => exact ih.of_same rfl rfl
    | told => exact ih.of_same rfl (callsOf_concat rfl _)

theorem Undertaking.tallied (u : Undertaking s s') (hs : s.Sound) (calm : s.Calm)
    (stays : ∀ x ∈ s'.evictions, x.1.fileId ≠ id) (h : s.Tallied s.settings.maxRetries id) :
    s'.Tallied s.settings.maxRetries id := by
  cases u with
  | affair a =>
    cases a with
    | errand e => exact e.tallied hs calm stays h
    | notified windowMs => exact (Affair.remarks hs.secluded windowMs).tallied h
  | founding r c =>
    cases c with
    | created => exact h.of_same rfl rfl
    | packaged => exact h.of_same rfl (callsOf_concat rfl _)
    | overwritten =>
      exact h.of_same (congrArg (Table.get? · id) (Inventory.files_overwriteStatus ..)) rfl

/-! ### Calls in vain -/

section Vain

open Transfers

/-- A step that moves a transfer whose time has come makes just that move. -/
theorem Step.move_of_quiet (h : s.Quiet) {place : Nat} {t : Transfer}
    (found : s.tasks[place]? = some (.transfer t)) (due : t.due?.isSome = true) :
    ∃ ending, Move { s with tasks := s.tasks.eraseIdx place } t ending ((Step.move place).take s) := by
  have hquiet : ({ s with tasks := s.tasks.eraseIdx place } : Site).Quiet := h.of_same rfl rfl rfl
  have hleads : Leads (Passage.moveAt place) (fun _ _ => False)
      (fun _ s' => ∃ ending, Move { s with tasks := s.tasks.eraseIdx place } t ending s') s := by
    rw [Passage.moveAt, leads_bind, leads_takeOff, found]
    dsimp only
    rw [leads_bind]
    refine (leads_advance_of_quiet hquiet due).mono (fun _ _ hfalse => hfalse) fun ending _ m => ?_
    rw [leads_pure]
    exact ⟨ending, m⟩
  obtain ⟨_, -, hmove⟩ := hleads.exists_ok
  exact hmove

/-- A call is begun for the only transfer there is. -/
theorem Step.take_move_of_resting (h : s.Quiet) {f : FileRecord} {ends : Nat}
    (tasks : s.tasks = [.transfer ⟨f, .resting ends⟩]) (turns : 0 < s.settings.maxConcurrent) :
    (Step.move 0).take s =
      { s with
        supply := s.supply.afterCall f
        tasks := [.transfer ⟨f, .calling (s.clock.elapsed + waitMs (s.supply.outcome f 0).delayMs)
          (s.supply.outcome f 0).result⟩]
        log := s.log ++ [.called s.clock.elapsed f.fileId f.regenerationSource,
          .begun f.fileId (s.inventory.files.get? f.fileId)] } := by
  have hfound : s.tasks[0]? = some (.transfer ⟨f, .resting ends⟩) := by rw [tasks, List.getElem?_cons_zero]
  obtain ⟨ending, hmove⟩ := Step.move_of_quiet h hfound rfl
  rw [tasks] at hmove
  generalize (Step.move 0).take s = s' at hmove
  cases hmove with
  | waits taken => exact absurd turns (of_decide_eq_false taken)
  | begins _ rejoined => rw [List.perm_singleton.1 rejoined]

/-- A call for the only transfer there is has failed, and will be repeated. -/
theorem Step.take_move_of_failed (h : s.Quiet) {f : FileRecord} {ends : Nat} {e : Failure}
    (tasks : s.tasks = [.transfer ⟨f, .calling ends (.error e)⟩])
    (hopeful : isHopeless s (setBack f e) e = false) :
    (Step.move 0).take s =
      { s with
        inventory := s.inventory.saveFile (setBack f e)
        tasks := [.transfer ⟨setBack f e, .resting (s.clock.elapsed +
          waitMs (s.settings.backoffMs (setBack f e).retryCount.toNat))⟩]
        log := s.log ++ [.returned s.clock.elapsed f (.error e)] } := by
  have hfound : s.tasks[0]? = some (.transfer ⟨f, .calling ends (.error e)⟩) := by
    rw [tasks, List.getElem?_cons_zero]
  obtain ⟨ending, hmove⟩ := Step.move_of_quiet h hfound rfl
  rw [tasks] at hmove
  generalize (Step.move 0).take s = s' at hmove
  cases hmove with
  | begins turn => obtain ⟨_, hphase, -⟩ | ⟨_, hphase⟩ := turn <;> cases hphase
  | givesUp _ hopeless => exact absurd (hopeful.symm.trans hopeless) Bool.false_ne_true
  | pauses handed _ rejoined =>
    rw [handed.eq_nil] at rejoined
    rw [List.perm_singleton.1 rejoined]

/-- **A call is made for the only transfer there is, and fails**: it begins with one move and ends with the
next. -/
theorem Site.run_failing_call (h : s.Quiet) {f : FileRecord} {ends : Nat} {e : Failure}
    (tasks : s.tasks = [.transfer ⟨f, .resting ends⟩]) (turns : 0 < s.settings.maxConcurrent)
    (fails : (s.supply.outcome f 0).result = .error e) (hopeful : isHopeless s (setBack f e) e = false) :
    s.run [.move 0, .move 0] =
      { s with
        inventory := s.inventory.saveFile (setBack f e)
        supply := s.supply.afterCall f
        tasks := [.transfer ⟨setBack f e, .resting (s.clock.elapsed +
          waitMs (s.settings.backoffMs (setBack f e).retryCount.toNat))⟩]
        log := s.log ++ [.called s.clock.elapsed f.fileId f.regenerationSource,
          .begun f.fileId (s.inventory.files.get? f.fileId), .returned s.clock.elapsed f (.error e)] } := by
  have hbegun := Step.take_move_of_resting h tasks turns
  have hquiet : ((Step.move 0).take s).Quiet := by
    rw [hbegun]
    exact h.of_same rfl rfl rfl
  have hfailed := Step.take_move_of_failed hquiet (by rw [hbegun, fails]) (by rw [hbegun]; exact hopeful)
  rw [run_cons, run_cons, run_nil, hfailed, hbegun, List.append_assoc]
  rfl

/-- **A file is called for in vain**: its transfer rests, with the record that is kept, and is all there is to do.
So many calls have failed, and all that are to come will fail as well, though none of them so that it makes no
sense to call again; and no count of failures is too many. -/
structure Site.InVain (s : Site) (id : FileId) (n : Nat) : Prop where
  quiet : s.Quiet
  turns : 0 < s.settings.maxConcurrent
  boundless : ∀ count, count ≤ s.settings.maxRetries
  rests : ∃ f ends, f.fileId = id ∧ s.tasks = [.transfer ⟨f, .resting ends⟩] ∧
    s.inventory.files.get? id = some f ∧
    ∀ i, ∃ e, (s.supply.outcome f i).result = .error e ∧ e.isRetryable = true
  failures : (failuresIn (callsOf id s.log)).length = n
  evictions : s.evictions = []

namespace Site.InVain

/-- **One more call is made in vain.** -/
theorem call {n : Nat} (h : s.InVain id n) : (s.run [.move 0, .move 0]).InVain id (n + 1) := by
  obtain ⟨f, ends, rfl, htasks, hkept, hfails⟩ := h.rests
  obtain ⟨e, hresult, hretryable⟩ := hfails 0
  have hhopeful : isHopeless s (setBack f e) e = false := by
    rw [isHopeless, decide_eq_false (UInt32.not_lt.2 (h.boundless _)), hretryable]
    rfl
  rw [run_failing_call h.quiet htasks h.turns hresult hhopeful]
  refine ⟨h.quiet.of_same rfl rfl rfl, h.turns, h.boundless,
    ⟨setBack f e, _, rfl, rfl, Inventory.get?_saveFile_self .., fun i => ?_⟩, ?_, ?_⟩
  · obtain ⟨e', he', hagain⟩ := hfails (i + 1)
    have hsame : (s.supply.afterCall f).outcome (setBack f e) = (s.supply.afterCall f).outcome f :=
      Supply.outcome_congr _ rfl rfl
    refine ⟨e', ?_, hagain⟩
    show ((s.supply.afterCall f).outcome (setBack f e) i).result = _
    rw [hsame, Supply.outcome_afterCall, he']
  · have hcalls : callsOf f.fileId [.called s.clock.elapsed f.fileId f.regenerationSource,
        .begun f.fileId (s.inventory.files.get? f.fileId), .returned s.clock.elapsed f (.error e)] =
          [.began] ++ [.ended (.error e)] := by simp [callsOf, Happening.call?]
    rw [callsOf_append, hcalls, ← List.append_assoc, failuresIn_error, failuresIn_began, List.length_append,
      h.failures]
    rfl
  · rw [Site.evictions, List.filterMap_append, ← Site.evictions, h.evictions]
    rfl

/-- **So many more calls are made in vain.** -/
theorem calls {n : Nat} (h : s.InVain id n) (k : Nat) :
    (s.run (List.replicate (2 * k) (.move 0))).InVain id (n + k) := by
  induction k with
  | zero => exact h
  | succ k ih =>
    rw [Nat.mul_succ, List.replicate_add, run_append]
    exact ih.call

end Site.InVain

end Vain

/-! ### Runs -/

end Depot

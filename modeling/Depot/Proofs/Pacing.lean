import Depot.Proofs.Idling
import Depot.Proofs.Outcomes

/-!
# The calls for a file

Which call for a file is the last, is settled by what the archive will answer: it is the first that brings the
file, that fails in a way that makes no sense to repeat, or that is one failure too many. The log tells when
each call began and when it ended, and between two calls there is a pause.

## Main statements

* `Site.exists_lastCall` — there is a last call, and failures up to it can be counted.
* `isHopeless_setBacks_iff` — a transfer gives its file up exactly at the call that decides.
* `Site.status_lastRecord` — what the record shows after the last call.
-/

namespace Depot

open Act Time

variable {o s : Site} {f g : FileRecord} {id : FileId} {i n : Nat}

/-! ### Moments of calls -/

/-- When a call for a file began, or when it ended. -/
inductive Moment
  | began (time : Nat)
  | ended (time : Nat)
  deriving DecidableEq

/-- What an entry of the log tells of when calls for a file began and ended. -/
def Happening.moment? (id : FileId) : Happening → Option Moment
  | .called time id' _ => if id' = id then some (.began time) else none
  | .returned time f _ => if f.fileId = id then some (.ended time) else none
  | _ => none

/-- When the calls for a file began and ended, in order. -/
def momentsOf (id : FileId) (log : List Happening) : List Moment := log.filterMap (·.moment? id)

theorem momentsOf_append (id : FileId) (log more : List Happening) :
    momentsOf id (log ++ more) = momentsOf id log ++ momentsOf id more := List.filterMap_append

/-- What does not tell of calls makes no difference. -/
theorem Calmer.momentsOf_eq {log log' : List Happening} (h : Calmer log log') (id : FileId) :
    momentsOf id log' = momentsOf id log := by
  obtain ⟨more, rfl, hmore⟩ := h
  have hnone : momentsOf id more = [] := by
    refine List.filterMap_eq_nil_iff.2 fun happening hh => ?_
    have hcalm := hmore happening hh
    cases happening with
    | called | returned => cases hcalm
    | told | ordered | queued | begun | packaged | evicted => rfl
  rw [momentsOf_append, hnone, List.append_nil]

/-- A call begins. -/
theorem momentsOf_called (id : FileId) (log : List Happening) (time : Nat) (id' : FileId)
    (source : Option String) (kept : Option FileRecord) :
    momentsOf id (log ++ [.called time id' source, .begun id' kept]) =
      momentsOf id log ++ if id' = id then [.began time] else [] := by
  rw [momentsOf_append]
  by_cases h : id' = id <;> simp [momentsOf, Happening.moment?, h]

/-- A call ends. -/
theorem momentsOf_returned (id : FileId) (log : List Happening) (time : Nat) (g : FileRecord)
    (result : Except Failure Delivery) :
    momentsOf id (log ++ [.returned time g result]) =
      momentsOf id log ++ if g.fileId = id then [.ended time] else [] := by
  rw [momentsOf_append]
  by_cases h : g.fileId = id <;> simp [momentsOf, Happening.moment?, h]

/-- **Calls one after the other**, so many that have ended: none begins before the pause after the one before
it is over, and from when on there may be another. -/
inductive Paced (pause : Nat → Nat) : List Moment → Nat → Nat → Prop
  | nil : Paced pause [] 0 0
  | call {l : List Moment} {i next start stop : Nat} (h : Paced pause l i next) (rested : next ≤ start)
      (lasted : start ≤ stop) :
      Paced pause (l ++ [.began start, .ended stop]) (i + 1) (stop + pause (i + 1))

/-! ### The last call -/

/-- **Whether a call for a file is the last**, if no other was: it brings the file, or it makes no sense to
repeat it, or its failure is one too many. Calls are counted from a site on, and the next is number 1. -/
def Site.Decides (o : Site) (f : FileRecord) (i : Nat) : Prop :=
  match (o.supply.outcome f (i - 1)).result with
  | .ok _ => True
  | .error e => e.isRetryable = false ∨ o.settings.maxRetries.toNat < f.retryCount.toNat + i

/-- The pause after so many calls for a file, counted from a site on, if they fail. -/
def Site.pauseAfter (o : Site) (f : FileRecord) (i : Nat) : Nat :=
  waitMs (o.settings.backoffMs (f.retryCount.toNat + i))

/-- **Failures can be counted**: neither the count of failures nor the limit of retries is so large that the count
could overflow. -/
structure Site.Countable (o : Site) (f : FileRecord) : Prop where
  small : f.retryCount.toNat + 1 < UInt32.size
  limit : o.settings.maxRetries.toNat + 1 < UInt32.size

/-- No call is the last up to some number of them. -/
def Site.Undecided (o : Site) (f : FileRecord) (i : Nat) : Prop := ∀ j, 1 ≤ j → j ≤ i → ¬o.Decides f j

/-- How the transfer of a file ends with its last call. -/
def Site.lastStatus (o : Site) (f : FileRecord) (n : Nat) : FileStatus :=
  match (o.supply.outcome f (n - 1)).result with
  | .ok _ => .available
  | .error _ => .failed

/-- **The record of a file after its last call**, which has ended at a site: the file is there, with the size
and the place that came with it and no failure to tell of, or it has failed, with the failure of that call. The
calls that failed are counted, and the file is kept as long as before, or at least for some time, or until now. -/
def Site.lastRecord (o : Site) (f : FileRecord) (n : Nat) (s : Site) : FileRecord :=
  match (o.supply.outcome f (n - 1)).result with
  | .ok d =>
    { f with
      available := true
      sizeKb := some d.sizeKb
      location := some (Transfers.placeOf s.settings.cacheRoot f.fileId d)
      lastError := none
      retryCount := .ofNat (f.retryCount.toNat + (n - 1)) }.extendUnlock
        (s.clock.now.addMillis s.settings.keepMs)
  | .error e =>
    { f with
      failed := true
      lastError := some e.message
      retryCount := .ofNat (f.retryCount.toNat + n) }.extendUnlock s.clock.now

/-- What the record of a pending file shows after its last call. -/
theorem Site.status_lastRecord (o : Site) {f : FileRecord} (pending : f.isPending = true) (n : Nat) (s : Site) :
    (o.lastRecord f n s).status = o.lastStatus f n := by
  simp only [FileRecord.isPending, Bool.and_eq_true, Bool.not_eq_true'] at pending
  unfold Site.lastRecord Site.lastStatus
  split <;> simp [FileRecord.status, FileRecord.extendUnlock, pending.2]

theorem Site.fileId_lastRecord (o : Site) (f : FileRecord) (n : Nat) (s : Site) :
    (o.lastRecord f n s).fileId = f.fileId := by
  unfold Site.lastRecord
  split <;> rfl

namespace Site.Undecided

theorem zero (o : Site) (f : FileRecord) : o.Undecided f 0 := fun _ hpos hle =>
  absurd (hpos.trans hle) (Nat.not_succ_le_zero 0)

theorem succ (h : o.Undecided f i) (undecided : ¬o.Decides f (i + 1)) : o.Undecided f (i + 1) := by
  intro j hpos hle
  rcases Nat.lt_or_eq_of_le hle with hlt | rfl
  · exact h j hpos (Nat.lt_succ_iff.1 hlt)
  · exact undecided

/-- Where no call was the last, all have failed. -/
theorem failed (h : o.Undecided f i) : ∀ j < i, ∃ e, (o.supply.outcome f j).result = .error e := by
  intro j hj
  have hundecided := h (j + 1) (Nat.succ_pos j) hj
  rw [Site.Decides, Nat.add_sub_cancel] at hundecided
  cases hresult : (o.supply.outcome f j).result with
  | ok d =>
    rw [hresult] at hundecided
    exact absurd trivial hundecided
  | error e => exact ⟨e, rfl⟩

/-- Where no call was the last, there are not too many failures. -/
theorem count_le (h : o.Undecided f (i + 1)) : f.retryCount.toNat + (i + 1) ≤ o.settings.maxRetries.toNat := by
  obtain ⟨e, he⟩ := h.failed i (Nat.lt_succ_self i)
  have hundecided := h (i + 1) (Nat.succ_pos i) (Nat.le_refl _)
  rw [Site.Decides, Nat.add_sub_cancel, he] at hundecided
  exact Nat.le_of_not_lt fun hmany => hundecided (.inr hmany)

/-- So another failure can be counted. -/
theorem count_lt (h : o.Undecided f i) (countable : o.Countable f) :
    f.retryCount.toNat + (i + 1) < UInt32.size := by
  cases i with
  | zero => exact countable.small
  | succ i =>
    have hle := h.count_le
    have hlimit := countable.limit
    omega

/-- The next call is the last. -/
theorem isLeast (h : o.Undecided f i) (decided : o.Decides f (i + 1)) :
    IsLeast {j | 1 ≤ j ∧ o.Decides f j} (i + 1) := by
  refine ⟨⟨Nat.succ_pos i, decided⟩, fun j ⟨hpos, hj⟩ => ?_⟩
  by_contra hlt
  exact h j hpos (Nat.lt_succ_iff.1 (Nat.lt_of_not_le hlt)) hj

/-- There are fewer calls before the last than there are up to it. -/
theorem lt_of_isLeast (h : o.Undecided f i) (least : IsLeast {j | 1 ≤ j ∧ o.Decides f j} n) : i < n := by
  by_contra hge
  exact h n least.1.1 (Nat.le_of_not_lt hge) least.1.2

end Site.Undecided

/-- **There is a last call**, and failures can be counted up to it. -/
theorem Site.exists_lastCall (countable : o.Countable f) :
    ∃ n, IsLeast {j | 1 ≤ j ∧ o.Decides f j} n ∧ f.retryCount.toNat + n < UInt32.size := by
  have hsome : ∃ n, 1 ≤ n ∧ o.Decides f n := by
    refine ⟨o.settings.maxRetries.toNat + 1, Nat.succ_pos _, ?_⟩
    unfold Site.Decides
    split
    · trivial
    · exact .inr (by omega)
  classical
  have hleast : IsLeast {j | 1 ≤ j ∧ o.Decides f j} (Nat.find hsome) :=
    ⟨Nat.find_spec hsome, fun j hj => Nat.find_min' hsome hj⟩
  refine ⟨Nat.find hsome, hleast, ?_⟩
  obtain ⟨i, hi⟩ := Nat.exists_eq_succ_of_ne_zero (Nat.ne_of_gt hleast.1.1)
  have hundecided : o.Undecided f i := fun j hpos hle hj =>
    absurd (hleast.2 ⟨hpos, hj⟩) (by omega)
  rw [hi]
  exact hundecided.count_lt countable

/-! ### Records up to the last call -/

/-- Failures are counted up to one that may be the last. -/
theorem Site.Undecided.retryCount_eq {e : Failure} (h : o.Undecided f i)
    (failed : (o.supply.outcome f i).result = .error e) :
    (o.supply.setBacks f (i + 1)).retryCount = UInt32.ofNat (f.retryCount.toNat + (i + 1)) := by
  refine o.supply.retryCount_setBacks f fun j hj => ?_
  rcases Nat.lt_or_eq_of_le (Nat.lt_succ_iff.1 hj) with hj | rfl
  · exact h.failed j hj
  · exact ⟨e, failed⟩

/-- **A file is given up exactly at the call that decides.** -/
theorem isHopeless_setBacks_iff {e : Failure} (h : o.Undecided f i) (countable : o.Countable f)
    (failed : (o.supply.outcome f i).result = .error e) (settings : s.settings = o.settings) :
    Transfers.isHopeless s (o.supply.setBacks f (i + 1)) e = true ↔ o.Decides f (i + 1) := by
  have hsmall := h.count_lt countable
  rw [Transfers.isHopeless, Bool.or_eq_true, decide_eq_true_iff, settings, h.retryCount_eq failed,
    UInt32.lt_iff_toNat_lt, UInt32.toNat_ofNat_of_lt' hsmall, Site.Decides, Nat.add_sub_cancel, failed,
    Bool.not_eq_true', or_comm]

/-- The record of a file that arrives with its last call. -/
theorem arrived_setBacks {d : Delivery} (h : o.Undecided f i)
    (delivered : (o.supply.outcome f i).result = .ok d) (s : Site) :
    Transfers.arrived s (o.supply.setBacks f i) d.sizeKb
      (Transfers.placeOf s.settings.cacheRoot f.fileId d) = o.lastRecord f (i + 1) s := by
  have hcount := o.supply.retryCount_setBacks f h.failed
  rw [Site.lastRecord, Nat.add_sub_cancel, delivered, Transfers.arrived, o.supply.setBacks_eq f i, hcount]

/-- The record of a file that is given up after its last call. -/
theorem givenUp_setBacks {e : Failure} (h : o.Undecided f i)
    (failed : (o.supply.outcome f i).result = .error e) (s : Site) :
    Transfers.givenUp s (o.supply.setBacks f (i + 1)) = o.lastRecord f (i + 1) s := by
  have herror : (o.supply.setBacks f (i + 1)).lastError = some e.message := by
    rw [o.supply.setBacks_succ_of_error f failed]
    rfl
  rw [Site.lastRecord, Nat.add_sub_cancel, failed, Transfers.givenUp, o.supply.setBacks_eq f (i + 1),
    h.retryCount_eq failed, herror]

end Depot

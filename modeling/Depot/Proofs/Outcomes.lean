import Depot.Proofs.Records
import Depot.Site.Transfers

/-!
# What the archive will answer

How the archive will answer the calls for a file is settled beforehand, however many there will be, and the
calls for other files make no difference to it. So the calls for a file can be counted from any moment on: the
record after so many failures is known then (`Supply.setBacks`), and after which call there will be no other.

## Main statements

* `Transfers.leads_callFor` — a call takes the next outcome.
* `Supply.outcome_afterCall`, `Supply.outcome_afterCall_of_ne` — what a call leaves of the outcomes.
* `Supply.retryCount_setBacks` — failures are counted.
-/

namespace Depot

open Act

/-! ### Outcomes of a script -/

/-- The outcome that a script has for a file, so many calls from now; the next call is number 0. -/
def outcomeIn (scripts : Table FileId Script) (standard : Outcome) (id : FileId) (i : Nat) : Outcome :=
  match scripts.get? id with
  | some script => script.outcome (script.used + i)
  | none => standard

namespace Transfers

variable (scripts : Table FileId Script) (standard : Outcome) {id id' : FileId}

theorem fst_takeOutcome : (takeOutcome scripts standard id).1 = outcomeIn scripts standard id 0 := by
  unfold takeOutcome outcomeIn
  cases scripts.get? id <;> rfl

theorem outcomeIn_takeOutcome (i : Nat) :
    outcomeIn (takeOutcome scripts standard id).2 standard id i =
      outcomeIn scripts standard id (i + 1) := by
  unfold takeOutcome outcomeIn
  cases h : scripts.get? id with
  | none => simp only [h]
  | some script =>
    simp only [Table.get?_insert, if_pos, Script.rest]
    rw [Nat.add_assoc, Nat.add_comm 1]

theorem outcomeIn_takeOutcome_of_ne (h : id' ≠ id) (i : Nat) :
    outcomeIn (takeOutcome scripts standard id).2 standard id' i = outcomeIn scripts standard id' i := by
  unfold takeOutcome outcomeIn
  cases scripts.get? id with
  | none => rfl
  | some script => simp only [Table.get?_insert, if_neg h]

end Transfers

/-! ### Calls for a file -/

namespace Supply

/-- The outcome of a call for a file, so many calls from now; the next call is number 0. -/
def outcome (p : Supply) (f : FileRecord) (i : Nat) : Outcome :=
  match f.regenerationSource with
  | some source =>
    if p.regenerates then outcomeIn p.regenerations p.standard f.fileId i
    else { result := .error (.retrievalFailed ("no regenerator configured for " ++ f.fileId.text ++
      " (source " ++ source ++ ")")) }
  | none => outcomeIn p.fetches p.standard f.fileId i

/-- What is left of the outcomes after a call for a file. -/
def afterCall (p : Supply) (f : FileRecord) : Supply :=
  match f.regenerationSource with
  | some _ =>
    if p.regenerates then
      { p with regenerations := (Transfers.takeOutcome p.regenerations p.standard f.fileId).2 }
    else p
  | none => { p with fetches := (Transfers.takeOutcome p.fetches p.standard f.fileId).2 }

variable (p : Supply) {f g : FileRecord}

/-- Outcomes depend on the name of a file and on its source. -/
theorem outcome_congr (id : g.fileId = f.fileId) (source : g.regenerationSource = f.regenerationSource) :
    p.outcome g = p.outcome f := by
  funext i
  unfold outcome
  rw [id, source]

/-- **A call for a file takes one outcome of it.** -/
theorem outcome_afterCall (f : FileRecord) (i : Nat) :
    (p.afterCall f).outcome f i = p.outcome f (i + 1) := by
  unfold afterCall outcome
  cases f.regenerationSource with
  | none => exact Transfers.outcomeIn_takeOutcome ..
  | some source =>
    by_cases hregenerates : p.regenerates = true
    · simp only [if_pos hregenerates]
      exact Transfers.outcomeIn_takeOutcome ..
    · simp only [if_neg hregenerates]

/-- A call for a file takes no outcome of another. -/
theorem outcome_afterCall_of_ne (h : g.fileId ≠ f.fileId) (i : Nat) :
    (p.afterCall f).outcome g i = p.outcome g i := by
  unfold afterCall outcome
  cases f.regenerationSource with
  | none =>
    cases g.regenerationSource with
    | none => exact Transfers.outcomeIn_takeOutcome_of_ne _ _ h i
    | some source => rfl
  | some source =>
    by_cases hregenerates : p.regenerates = true
    · cases g.regenerationSource with
      | none => simp only [if_pos hregenerates]
      | some source' =>
        simp only [if_pos hregenerates]
        exact Transfers.outcomeIn_takeOutcome_of_ne _ _ h i
    · simp only [if_neg hregenerates]

end Supply

/-- **A call takes the next outcome of its file**, and is logged. -/
theorem Transfers.leads_callFor (f : FileRecord) (s : Site) {E : Failure → Site → Prop}
    {Q : Outcome → Site → Prop} :
    Leads (callFor f) E Q s ↔ Q (s.supply.outcome f 0)
      { s with
        supply := s.supply.afterCall f
        log := s.log ++ [.called s.clock.elapsed f.fileId f.regenerationSource,
          .begun f.fileId (s.inventory.files.get? f.fileId)] } := by
  simp only [callFor, Supply.outcome, Supply.afterCall, leads_bind, leads_get, leads_note,
    List.append_assoc, List.singleton_append]
  cases f.regenerationSource with
  | none => simp only [leads_bind, leads_modify, leads_pure, fst_takeOutcome]
  | some source =>
    by_cases hregenerates : s.supply.regenerates = true
    · simp only [if_pos hregenerates, leads_bind, leads_modify, leads_pure, fst_takeOutcome]
    · simp only [if_neg hregenerates, leads_pure]

/-! ### Records after failures -/

/-- The record of a file after so many calls for it, from now on, as far as they fail. -/
def Supply.setBacks (p : Supply) (f : FileRecord) : Nat → FileRecord
  | 0 => f
  | i + 1 =>
    match (p.outcome f i).result with
    | .ok _ => p.setBacks f i
    | .error e => Transfers.setBack (p.setBacks f i) e

namespace Supply

variable (p : Supply) (f : FileRecord)

theorem setBacks_succ_of_error {i : Nat} {e : Failure} (h : (p.outcome f i).result = .error e) :
    p.setBacks f (i + 1) = Transfers.setBack (p.setBacks f i) e := by
  simp only [setBacks, h]

/-- A record that is set back changes in two places only. -/
theorem setBacks_eq (i : Nat) :
    p.setBacks f i = { f with
      retryCount := (p.setBacks f i).retryCount
      lastError := (p.setBacks f i).lastError } := by
  induction i with
  | zero => rfl
  | succ i ih =>
    simp only [setBacks]
    split
    · exact ih
    · rw [ih]
      rfl

theorem fileId_setBacks (i : Nat) : (p.setBacks f i).fileId = f.fileId := by
  rw [setBacks_eq]

theorem outcome_setBacks (q : Supply) (i : Nat) : q.outcome (p.setBacks f i) = q.outcome f := by
  refine q.outcome_congr (p.fileId_setBacks f i) ?_
  rw [setBacks_eq]
  rfl

/-- **Failures are counted.** -/
theorem retryCount_setBacks {i : Nat} (failed : ∀ j < i, ∃ e, (p.outcome f j).result = .error e) :
    (p.setBacks f i).retryCount = UInt32.ofNat (f.retryCount.toNat + i) := by
  induction i with
  | zero => exact (UInt32.ofNat_toNat).symm
  | succ i ih =>
    obtain ⟨e, he⟩ := failed i (Nat.lt_succ_self i)
    rw [p.setBacks_succ_of_error f he, Transfers.setBack]
    dsimp only
    rw [ih fun j hj => failed j (hj.trans (Nat.lt_succ_self i)), ← Nat.add_assoc, UInt32.ofNat_add _ 1]
    rfl

end Supply

end Depot

import Depot.Inventory
import Depot.Proofs.Table

/-!
# What changes do to an inventory

For every change of an inventory, what is found in it afterwards. A file record, the references to a file
and a job are each found by a lookup, so these equations are all that is ever used of a change.

## Main statements

* `availableKb_saveFile`, `availableKb_deleteFile` — what a file is charged is replaced, or is given back.
* `chargedKbUnder_cons` — what is given back when files are dropped one after the other.
-/

namespace Depot

/-- A file that is still to come is charged nothing. -/
theorem FileRecord.chargedKb_of_isPending {f : FileRecord} (h : f.isPending = true) :
    f.chargedKb = 0 := by
  simp only [isPending, Bool.and_eq_true, Bool.not_eq_true'] at h
  simp only [chargedKb, h.1, Bool.false_eq_true, if_false]

namespace Inventory

variable (v : Inventory)

/-! ### Files -/

theorem get?_saveFile (f : FileRecord) (id : FileId) :
    (v.saveFile f).files.get? id = if id = f.fileId then some f else v.files.get? id :=
  Table.get?_insert v.files f.fileId id f

@[simp] theorem get?_saveFile_self (f : FileRecord) : (v.saveFile f).files.get? f.fileId = some f := by
  simp [get?_saveFile]

theorem get?_saveFile_of_ne {f : FileRecord} {id : FileId} (h : id ≠ f.fileId) :
    (v.saveFile f).files.get? id = v.files.get? id := by
  simp [get?_saveFile, h]

theorem get?_deleteFile (id id' : FileId) :
    (v.deleteFile id).files.get? id' = if id' = id then none else v.files.get? id' :=
  Table.get?_erase v.files id id'

theorem get?_deleteFile_of_ne {id id' : FileId} (h : id' ≠ id) :
    (v.deleteFile id).files.get? id' = v.files.get? id' := by
  simp [get?_deleteFile, h]

@[simp] theorem files_removeReference (id : FileId) (r : RequestId) :
    (v.removeReference id r).files = v.files := by
  unfold removeReference
  cases v.references.get? id with
  | none => rfl
  | some s => dsimp only; split <;> rfl

@[simp] theorem files_overwriteStatus (r : RequestId) (status : JobStatus) :
    (v.overwriteStatus r status).files = v.files := by
  unfold overwriteStatus
  cases v.jobs.get? r <;> rfl

/-! ### References -/

theorem mem_referrers {id : FileId} {r : RequestId} : r ∈ v.referrers id ↔ v.refers id r = true := by
  unfold referrers refers
  cases v.references.get? id with
  | none => simp
  | some s => simp [Table.mem_keys]

theorem refers_addReference (id id' : FileId) (r r' : RequestId) :
    (v.addReference id r).refers id' r' = true ↔
      (id' = id ∧ r' = r) ∨ v.refers id' r' = true := by
  unfold addReference refers
  dsimp only
  rw [Table.get?_insert]
  by_cases h : id' = id
  · subst h
    simp only [if_pos, Option.map_some, Option.getD_some, KeySet.contains_add, true_and]
    cases v.references.get? id' <;> simp [Table.contains]
  · rw [if_neg h]
    simp only [h, false_and, false_or]

theorem refers_removeReference_of_ne {id id' : FileId} (h : id' ≠ id) (r r' : RequestId) :
    (v.removeReference id r).refers id' r' = v.refers id' r' := by
  unfold removeReference
  cases v.references.get? id with
  | none => rfl
  | some s =>
    dsimp only
    split
    · simp only [refers, Table.get?_erase, if_neg h]
    · simp only [refers, Table.get?_insert, if_neg h]

theorem refers_deleteFile_of_ne {id id' : FileId} (h : id' ≠ id) (r : RequestId) :
    (v.deleteFile id).refers id' r = v.refers id' r := by
  simp only [refers, deleteFile, Table.get?_erase, if_neg h]

/-! ### Jobs -/

theorem get?_saveJob (j : Job) (r : RequestId) :
    (v.saveJob j).jobs.get? r = if r = j.requestId then some j else v.jobs.get? r :=
  Table.get?_insert v.jobs j.requestId r j

@[simp] theorem get?_saveJob_self (j : Job) : (v.saveJob j).jobs.get? j.requestId = some j := by
  simp [get?_saveJob]

theorem get?_saveJob_of_ne {j : Job} {r : RequestId} (h : r ≠ j.requestId) :
    (v.saveJob j).jobs.get? r = v.jobs.get? r := by
  simp [get?_saveJob, h]

@[simp] theorem jobs_removeReference (id : FileId) (r : RequestId) :
    (v.removeReference id r).jobs = v.jobs := by
  unfold removeReference
  cases v.references.get? id with
  | none => rfl
  | some s => dsimp only; split <;> rfl

/-- A job that is changed is no longer among those with a status that it had and has not. -/
theorem jobsWithStatus_saveJob {j j' : Job} {status : JobStatus}
    (kept : v.jobs.get? j'.requestId = some j) (left : j'.status ≠ status) :
    (v.jobsWithStatus status).Perm
      ([j].filter (fun j => j.status = status) ++ (v.saveJob j').jobsWithStatus status) := by
  have hothers : ((v.saveJob j').jobsWithStatus status).Perm
      ((v.jobs.erase j'.requestId).values.filter fun j => j.status = status) := by
    refine (sortBy_perm _).trans (((Table.values_insert_perm ..).filter _).trans ?_)
    rw [List.filter_cons_of_neg (by simpa using left)]
  refine (sortBy_perm _).trans (((Table.values_perm_of_get? kept).filter _).trans ?_)
  rw [← List.singleton_append, List.filter_append]
  exact hothers.symm.append_left _

/-! ### Room -/

/-- The kilobytes that a file is charged with, none if it is unknown. -/
def chargedKb (id : FileId) : Nat := ((v.files.get? id).map FileRecord.chargedKb).getD 0

theorem chargedKb_of_kept {f : FileRecord} (kept : v.files.get? f.fileId = some f) :
    v.chargedKb f.fileId = f.chargedKb := by
  rw [chargedKb, kept, Option.map_some, Option.getD_some]

theorem chargedKb_deleteFile (id id' : FileId) :
    (v.deleteFile id).chargedKb id' = if id' = id then 0 else v.chargedKb id' := by
  rw [chargedKb, get?_deleteFile]
  split <;> rfl

/-- A record that is kept is charged in place of the one before it. -/
theorem availableKb_saveFile (f : FileRecord) :
    (v.saveFile f).availableKb + v.chargedKb f.fileId = v.availableKb + f.chargedKb :=
  Table.total_insert FileRecord.chargedKb v.files f.fileId f

/-- A record that is dropped is charged no longer. -/
theorem availableKb_deleteFile (id : FileId) :
    (v.deleteFile id).availableKb + v.chargedKb id = v.availableKb :=
  Table.total_erase FileRecord.chargedKb v.files id

/-- The kilobytes charged for what is kept under the names of a list, for each name once. -/
def chargedKbUnder (ids : List FileId) : Nat := ∑ id ∈ ids.toFinset, v.chargedKb id

/-- Of names that are dropped one after the other, the first gives back what it was charged. -/
theorem chargedKbUnder_cons (id : FileId) (ids : List FileId) :
    v.chargedKbUnder (id :: ids) = v.chargedKb id + (v.deleteFile id).chargedKbUnder ids := by
  have hdropped : (v.deleteFile id).chargedKb id = 0 := by rw [chargedKb_deleteFile, if_pos rfl]
  have hothers : ∑ x ∈ ids.toFinset.erase id, v.chargedKb x =
      ∑ x ∈ ids.toFinset.erase id, (v.deleteFile id).chargedKb x := by
    refine Finset.sum_congr rfl fun x hx => ?_
    rw [chargedKb_deleteFile, if_neg (Finset.ne_of_mem_erase hx)]
  rw [chargedKbUnder, chargedKbUnder, List.toFinset_cons,
    ← Finset.add_sum_erase _ _ (Finset.mem_insert_self ..), Finset.erase_insert_eq_erase, hothers,
    Finset.sum_erase _ hdropped]

theorem chargedKbUnder_mono {ids ids' : List FileId} (h : ids ⊆ ids') :
    v.chargedKbUnder ids ≤ v.chargedKbUnder ids' :=
  Finset.sum_le_sum_of_subset fun _ hx => List.mem_toFinset.2 (h (List.mem_toFinset.1 hx))

/-- Of records that are kept under their own names each is charged itself. -/
theorem chargedKbUnder_of_kept {l : List FileRecord} (nodup : (l.map FileRecord.fileId).Nodup)
    (kept : ∀ f ∈ l, v.files.get? f.fileId = some f) :
    v.chargedKbUnder (l.map FileRecord.fileId) = (l.map FileRecord.chargedKb).sum := by
  rw [chargedKbUnder, List.sum_toFinset _ nodup, List.map_map]
  exact congrArg List.sum (List.map_congr_left fun f hf => v.chargedKb_of_kept (kept f hf))

end Inventory

end Depot

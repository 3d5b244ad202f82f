/-!
# Sorting

Lists sorted by a comparison. Members that compare equal keep their order.

## Main statements

* `mem_sortBy`, `pairwise_sortBy` — sorting keeps the members and puts them in order.
* `pairwise_lt_of_nodup` — members with different names come at different places.
-/

namespace Depot

universe u v

/-- A list in the order of a comparison. -/
def sortBy {α : Type u} (cmp : α → α → Ordering) (l : List α) : List α :=
  l.mergeSort fun a b => (cmp a b).isLE

variable {α : Type u} {cmp : α → α → Ordering}

theorem sortBy_perm (l : List α) : (sortBy cmp l).Perm l := List.mergeSort_perm l _

@[simp] theorem mem_sortBy {l : List α} {a : α} : a ∈ sortBy cmp l ↔ a ∈ l :=
  (sortBy_perm l).mem_iff

@[simp] theorem length_sortBy (l : List α) : (sortBy cmp l).length = l.length :=
  (sortBy_perm l).length_eq

/-- A sorted list is in the order of the comparison. -/
theorem pairwise_sortBy [Std.TransCmp cmp] (l : List α) :
    (sortBy cmp l).Pairwise fun a b => (cmp a b).isLE := by
  refine List.pairwise_mergeSort (fun a b c h₁ h₂ => ?_) (fun a b => ?_) l
  · exact Std.TransCmp.isLE_trans h₁ h₂
  · have h : cmp b a = (cmp a b).swap := Std.OrientedCmp.eq_swap
    rw [h]
    cases cmp a b <;> rfl

/-- **Members with different names come at different places**, where only those of the same name compare equal. -/
theorem pairwise_lt_of_nodup {β : Type v} {name : α → β} {l : List α}
    (ordered : l.Pairwise fun a b => (cmp a b).isLE) (nodup : (l.map name).Nodup)
    (same : ∀ a b, cmp a b = .eq → name a = name b) : l.Pairwise fun a b => cmp a b = .lt := by
  have hdistinct : l.Pairwise fun a b => name a ≠ name b := List.pairwise_map.1 nodup
  refine ordered.imp₂ (fun a b hle hne => ?_) hdistinct
  cases hab : cmp a b with
  | lt => rfl
  | gt => rw [hab] at hle; cases hle
  | eq => exact absurd (same a b hab) hne

end Depot

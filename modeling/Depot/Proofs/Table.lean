import Depot.Table
import Mathlib

/-!
# Tables as collections of entries

What changes of a table do to its entries as a whole, and so to sums over its values.

## Main statements

* `entries_insert_perm`, `entries_perm_of_get?` — an inserted entry takes the place of the one that had
  its key; a key that is found can be taken out.
* `total_insert`, `total_erase` — the same for sums over values.
* `ofList_entries`, `ofKeys_keys` — a table is the table of its entries, and a set that of its members.
-/

namespace Depot

universe u v

namespace Table

variable {κ : Type u} {α : Type v} [Ord κ]

@[simp] theorem get?_empty (k : κ) : (empty : Table κ α).get? k = none := rfl

theorem contains_eq_true {t : Table κ α} {k : κ} : t.contains k = true ↔ ∃ a, t.get? k = some a := by
  simp only [contains, Option.isSome_iff_exists]

theorem contains_eq_false {t : Table κ α} {k : κ} : t.contains k = false ↔ t.get? k = none := by
  simp only [contains, Option.isSome_eq_false_iff, Option.isNone_iff_eq_none]

variable [Std.TransOrd κ] [Std.LawfulEqOrd κ] [DecidableEq κ]

omit [Std.TransOrd κ] [DecidableEq κ] in
theorem mem_values {t : Table κ α} {a : α} : a ∈ t.values ↔ ∃ k, t.get? k = some a := by
  simp only [values, List.mem_map, Prod.exists, get?_eq_some_iff]
  constructor
  · rintro ⟨k, b, h, rfl⟩
    exact ⟨k, h⟩
  · rintro ⟨k, h⟩
    exact ⟨k, a, h, rfl⟩

omit [Std.TransOrd κ] [DecidableEq κ] in
theorem mem_keys {t : Table κ α} {k : κ} : k ∈ t.keys ↔ t.contains k = true := by
  simp only [keys, List.mem_map, Prod.exists, contains_eq_true, get?_eq_some_iff]
  constructor
  · rintro ⟨k, b, h, rfl⟩
    exact ⟨b, h⟩
  · rintro ⟨b, h⟩
    exact ⟨k, b, h, rfl⟩

/-- A key without a value can be taken out without a change. -/
theorem erase_of_get?_eq_none {t : Table κ α} {k : κ} (h : t.get? k = none) : t.erase k = t := by
  refine ext_get? fun k' => ?_
  rw [get?_erase]
  split
  · next hk => rw [hk, h]
  · rfl

/-- A new key can be put in and taken out again without a change. -/
theorem erase_insert_of_get?_eq_none {t : Table κ α} {k : κ} {a : α} (h : t.get? k = none) :
    (t.insert k a).erase k = t := by
  refine ext_get? fun k' => ?_
  rw [get?_erase, get?_insert]
  split
  · next hk => rw [hk, h]
  · rfl

omit [Std.TransOrd κ] [DecidableEq κ] in
/-- An entry that is found comes beside all that is left when its key is taken out. -/
theorem entries_perm_of_get? {t : Table κ α} {k : κ} {a : α} (h : t.get? k = some a) :
    t.entries.Perm ((k, a) :: (t.erase k).entries) := by
  have hmem : (k, a) ∈ t.entries := (get?_eq_some_iff t k a).1 h
  obtain ⟨l₁, l₂, he⟩ := List.append_of_mem hmem
  have hs := t.sorted
  rw [he, List.pairwise_append, List.pairwise_cons] at hs
  obtain ⟨-, ⟨hafter, -⟩, hbefore⟩ := hs
  have keep : ∀ e ∈ l₁ ++ l₂, decide (compare k e.1 ≠ .eq) = true := by
    intro e hm
    rw [decide_eq_true_eq]
    intro heq
    obtain rfl := Std.LawfulEqCmp.eq_of_compare heq
    rcases List.mem_append.1 hm with hm | hm
    · have := hbefore e hm (e.1, a) (.head _)
      simp at this
    · have := hafter e hm
      simp at this
  have herase : (t.erase k).entries = l₁ ++ l₂ := by
    simp only [erase, he]
    rw [List.filter_append, List.filter_cons_of_neg (by simp), ← List.filter_append]
    exact List.filter_eq_self.2 keep
  rw [herase, he]
  exact List.perm_middle

/-- An inserted entry comes beside all that is left when its key is taken out. -/
theorem entries_insert_perm (t : Table κ α) (k : κ) (a : α) :
    (t.insert k a).entries.Perm ((k, a) :: (t.erase k).entries) := by
  have hk : (t.insert k a).get? k = some a := by rw [get?_insert, if_pos rfl]
  have herase : (t.insert k a).erase k = t.erase k := by
    refine ext_get? fun k' => ?_
    simp only [get?_erase, get?_insert]
    split <;> rfl
  rw [← herase]
  exact entries_perm_of_get? hk

omit [Std.TransOrd κ] [DecidableEq κ] in
/-- A value that is found comes beside all that are left when its key is taken out. -/
theorem values_perm_of_get? {t : Table κ α} {k : κ} {a : α} (h : t.get? k = some a) :
    t.values.Perm (a :: (t.erase k).values) := (entries_perm_of_get? h).map _

/-- An inserted value comes beside all that are left when its key is taken out. -/
theorem values_insert_perm (t : Table κ α) (k : κ) (a : α) :
    (t.insert k a).values.Perm (a :: (t.erase k).values) := (entries_insert_perm t k a).map _

/-! ### Tables of their entries -/

/-- Entries in order that are put into a table are found there, and what was there elsewhere. -/
theorem get?_foldl_insert {l : List (κ × α)} (h : l.Pairwise fun a b => compare a.1 b.1 = .lt)
    (t : Table κ α) (k : κ) :
    (l.foldl (fun t e => t.insert e.1 e.2) t).get? k = (findEntry k l).or (t.get? k) := by
  induction l generalizing t with
  | nil => rfl
  | cons e l ih =>
    obtain ⟨hhead, htail⟩ := List.pairwise_cons.1 h
    rw [List.foldl_cons, ih htail, get?_insert]
    by_cases hk : k = e.1
    · subst hk
      have hnone : findEntry e.1 l = none := by
        cases hfound : findEntry e.1 l with
        | none => rfl
        | some a =>
          have hlt := hhead _ ((findEntry_eq_some_iff htail e.1 a).1 hfound)
          simp at hlt
      simp [findEntry, hnone]
    · have hne : compare k e.1 ≠ .eq := fun heq => hk (Std.LawfulEqCmp.eq_of_compare heq)
      rw [findEntry, if_neg hne, if_neg hk]

/-- A table is the table of its entries. -/
theorem ofList_entries (t : Table κ α) : ofList t.entries = t := by
  refine ext_get? fun k => ?_
  rw [ofList, get?_foldl_insert t.sorted, get?_empty, Option.or_none]
  rfl

/-! ### Sums -/

variable (g : α → Nat)

omit [Std.TransOrd κ] [Std.LawfulEqOrd κ] [DecidableEq κ] in
theorem total_eq_sum (t : Table κ α) : t.total g = (t.entries.map fun e => g e.2).sum := by
  rw [total, values, List.map_map]
  rfl

omit [Std.TransOrd κ] [DecidableEq κ] in
/-- A sum over the values loses what belonged to a key that is taken out. -/
theorem total_erase (t : Table κ α) (k : κ) :
    (t.erase k).total g + ((t.get? k).map g).getD 0 = t.total g := by
  simp only [total_eq_sum]
  cases h : t.get? k with
  | none =>
    have hk : t.entries.filter (fun e => compare k e.1 ≠ .eq) = t.entries := by
      refine List.filter_eq_self.2 fun e he => ?_
      rw [decide_eq_true_eq]
      intro heq
      obtain rfl := Std.LawfulEqCmp.eq_of_compare heq
      rw [(get?_eq_some_iff t e.1 e.2).2 he] at h
      cases h
    simp only [erase, hk, Option.map_none, Option.getD_none, Nat.add_zero]
  | some a =>
    have hp := (entries_perm_of_get? h).map fun e => g e.2
    rw [hp.sum_nat, List.map_cons, List.sum_cons, Option.map_some, Option.getD_some, Nat.add_comm]

/-- A sum over the values gains what is inserted and loses what was there before. -/
theorem total_insert (t : Table κ α) (k : κ) (a : α) :
    (t.insert k a).total g + ((t.get? k).map g).getD 0 = t.total g + g a := by
  have hp := (entries_insert_perm t k a).map fun e => g e.2
  have hsum : (t.insert k a).total g = g a + (t.erase k).total g := by
    simp only [total_eq_sum]
    rw [hp.sum_nat, List.map_cons, List.sum_cons]
  have herase := total_erase g t k
  omega

end Table

namespace KeySet

variable {κ : Type u} [Ord κ] [Std.TransOrd κ] [Std.LawfulEqOrd κ] [DecidableEq κ]

theorem contains_add (s : KeySet κ) (k k' : κ) :
    (s.add k).contains k' = true ↔ k' = k ∨ s.contains k' = true := by
  simp only [Table.contains, add, Table.get?_insert]
  split <;> simp [*]

omit [Std.TransOrd κ] in
theorem contains_erase (s : KeySet κ) (k k' : κ) :
    (s.erase k).contains k' = true ↔ k' ≠ k ∧ s.contains k' = true := by
  simp only [Table.contains, Table.get?_erase]
  split <;> simp [*]

/-- A set is the set of its members. -/
theorem ofKeys_keys (s : KeySet κ) : ofKeys s.keys = s := by
  have hentries : s.keys.map (fun k => (k, ())) = s.entries := by
    rw [Table.keys, List.map_map]
    exact List.map_id _
  rw [ofKeys, hentries, Table.ofList_entries]

/-- A new member can be put in and taken out again without a change. -/
theorem erase_add {s : KeySet κ} {k : κ} (h : s.contains k = false) : (s.add k).erase k = s :=
  Table.erase_insert_of_get?_eq_none (Table.contains_eq_false.1 h)

end KeySet

end Depot

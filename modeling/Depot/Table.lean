/-!
# Tables sorted by key

A `Table` is a finite map kept as a list of entries in strictly increasing order of their keys.
The order is part of the type, so two tables with the same answers are the same table
(`Table.ext_get?`), and listing a table needs no sorting.

## Main statements

* `Table.get?_insert`, `Table.get?_erase` — what a lookup finds after a change.
* `Table.ext_get?` — a table is determined by its lookups.
-/

namespace Depot

universe u v

/-- A finite map as a list of entries with strictly increasing keys. -/
structure Table (κ : Type u) (α : Type v) [Ord κ] where
  /-- The entries, by increasing key. -/
  entries : List (κ × α)
  /-- No key is repeated or out of order. -/
  sorted : entries.Pairwise fun a b => compare a.1 b.1 = .lt

deriving instance DecidableEq for Table

namespace Table

variable {κ : Type u} {α : Type v} [Ord κ]

/-! ### Entries in order -/

/-- Put an entry where its key belongs, in place of the entry that has the key. -/
def insertEntry (k : κ) (a : α) : List (κ × α) → List (κ × α)
  | [] => [(k, a)]
  | (k', a') :: rest =>
    match compare k k' with
    | .lt => (k, a) :: (k', a') :: rest
    | .eq => (k, a) :: rest
    | .gt => (k', a') :: insertEntry k a rest

/-- The value at a key, found by walking the entries. -/
def findEntry (k : κ) : List (κ × α) → Option α
  | [] => none
  | (k', a') :: rest => if compare k k' = .eq then some a' else findEntry k rest

theorem mem_insertEntry {k : κ} {a : α} {e : κ × α} :
    ∀ {l : List (κ × α)}, e ∈ insertEntry k a l → e = (k, a) ∨ e ∈ l
  | [], h => by simpa [insertEntry] using h
  | (k', a') :: rest, h => by
    unfold insertEntry at h
    split at h
    · simpa using h
    · rcases List.mem_cons.1 h with rfl | h
      · exact .inl rfl
      · exact .inr (.tail _ h)
    · rcases List.mem_cons.1 h with rfl | h
      · exact .inr (.head _)
      · exact (mem_insertEntry h).imp id (.tail _)

theorem pairwise_insertEntry [Std.TransOrd κ] {k : κ} {a : α} :
    ∀ {l : List (κ × α)}, l.Pairwise (fun a b => compare a.1 b.1 = .lt) →
      (insertEntry k a l).Pairwise fun a b => compare a.1 b.1 = .lt
  | [], _ => by simp [insertEntry]
  | (k', a') :: rest, h => by
    have hrest := (List.pairwise_cons.1 h).1
    unfold insertEntry
    split <;> rename_i hk
    · refine List.pairwise_cons.2 ⟨fun e he => ?_, h⟩
      rcases List.mem_cons.1 he with rfl | he
      · exact hk
      · exact Std.TransCmp.lt_trans hk (hrest e he)
    · refine List.pairwise_cons.2 ⟨fun e he => ?_, (List.pairwise_cons.1 h).2⟩
      exact Std.TransCmp.lt_of_eq_of_lt hk (hrest e he)
    · refine List.pairwise_cons.2 ⟨fun e he => ?_, pairwise_insertEntry (List.pairwise_cons.1 h).2⟩
      rcases mem_insertEntry he with rfl | he
      · exact Std.OrientedCmp.lt_of_gt hk
      · exact hrest e he

/-! ### Operations -/

/-- The table without entries. -/
def empty : Table κ α := ⟨[], .nil⟩

instance : Inhabited (Table κ α) := ⟨empty⟩
instance : EmptyCollection (Table κ α) := ⟨empty⟩

/-- The value at a key. -/
def get? (t : Table κ α) (k : κ) : Option α := findEntry k t.entries

/-- Whether a key has a value. -/
def contains (t : Table κ α) (k : κ) : Bool := (t.get? k).isSome

/-- Give a key a value, in place of any that it had. -/
def insert [Std.TransOrd κ] (t : Table κ α) (k : κ) (a : α) : Table κ α :=
  ⟨insertEntry k a t.entries, pairwise_insertEntry t.sorted⟩

/-- Take a key out of the table. -/
def erase (t : Table κ α) (k : κ) : Table κ α :=
  ⟨t.entries.filter fun e => compare k e.1 ≠ .eq, t.sorted.filter _⟩

/-- The keys, in increasing order. -/
def keys (t : Table κ α) : List κ := t.entries.map (·.1)

/-- The values, by increasing key. -/
def values (t : Table κ α) : List α := t.entries.map (·.2)

/-- The sum of what is counted for the values. -/
def total (t : Table κ α) (count : α → Nat) : Nat := (t.values.map count).foldr (· + ·) 0

/-- The number of entries. -/
def size (t : Table κ α) : Nat := t.entries.length

/-- The table of a list of entries, in which the last value given to a key counts. -/
def ofList [Std.TransOrd κ] (l : List (κ × α)) : Table κ α :=
  l.foldl (fun t e => t.insert e.1 e.2) empty

/-! ### Lookups -/

section Lookup

variable [Std.TransOrd κ] [Std.LawfulEqOrd κ] [DecidableEq κ]

omit [Std.TransOrd κ] in
theorem findEntry_insertEntry (k k' : κ) (a : α) :
    ∀ l : List (κ × α), findEntry k' (insertEntry k a l) = if k' = k then some a else findEntry k' l
  | [] => by
    by_cases h : k' = k <;> simp [insertEntry, findEntry, h]
  | (k₁, a₁) :: rest => by
    have ih := findEntry_insertEntry k k' a rest
    unfold insertEntry
    split <;> rename_i hk
    · by_cases h : k' = k <;> simp [findEntry, h]
    · have hkk : k = k₁ := Std.LawfulEqCmp.eq_of_compare hk
      subst hkk
      by_cases h : k' = k <;> simp [findEntry, h]
    · by_cases h : k' = k
      · subst h; simp [findEntry, ih, hk]
      · simp [findEntry, ih, h]

/-- A lookup after an insertion finds the new value at its key and the old ones elsewhere. -/
theorem get?_insert (t : Table κ α) (k k' : κ) (a : α) :
    (t.insert k a).get? k' = if k' = k then some a else t.get? k' :=
  findEntry_insertEntry k k' a t.entries

omit [Std.TransOrd κ] in
theorem findEntry_filter (k k' : κ) (l : List (κ × α)) :
    findEntry k' (l.filter fun e => compare k e.1 ≠ .eq) =
      if k' = k then none else findEntry k' l := by
  induction l with
  | nil => simp [findEntry]
  | cons e l ih =>
    by_cases hk : k = e.1
    · subst hk
      by_cases h : k' = e.1 <;> simp_all [findEntry]
    · by_cases h : k' = k
      · subst h; simp_all [findEntry]
      · simp_all [findEntry]

omit [Std.TransOrd κ] in
/-- A lookup after an erasure finds nothing at the erased key and the old values elsewhere. -/
theorem get?_erase (t : Table κ α) (k k' : κ) :
    (t.erase k).get? k' = if k' = k then none else t.get? k' :=
  findEntry_filter k k' t.entries

omit [Std.TransOrd κ] [DecidableEq κ] in
theorem findEntry_eq_some_iff {l : List (κ × α)}
    (h : l.Pairwise fun a b => compare a.1 b.1 = .lt) (k : κ) (a : α) :
    findEntry k l = some a ↔ (k, a) ∈ l := by
  induction l with
  | nil => simp [findEntry]
  | cons e l ih =>
    have hhead := (List.pairwise_cons.1 h).1
    have ih := ih (List.pairwise_cons.1 h).2
    by_cases hk : k = e.1
    · subst hk
      have hnot : (e.1, a) ∉ l := fun hm => by
        have := hhead _ hm
        simp at this
      simp [findEntry, Prod.ext_iff, hnot, eq_comm]
    · have hne : ¬(k, a) = e := fun he => hk (by rw [← he])
      simp [findEntry, hk, ih, hne]

omit [Std.TransOrd κ] [DecidableEq κ] in
/-- A lookup finds exactly the entries. -/
theorem get?_eq_some_iff (t : Table κ α) (k : κ) (a : α) :
    t.get? k = some a ↔ (k, a) ∈ t.entries :=
  findEntry_eq_some_iff t.sorted k a

omit [DecidableEq κ] in
theorem entries_ext : ∀ {l l' : List (κ × α)},
    l.Pairwise (fun a b => compare a.1 b.1 = .lt) →
    l'.Pairwise (fun a b => compare a.1 b.1 = .lt) → (∀ e, e ∈ l ↔ e ∈ l') → l = l'
  | [], [], _, _, _ => rfl
  | [], e :: _, _, _, h => absurd ((h e).2 (.head _)) (by simp)
  | e :: _, [], _, _, h => absurd ((h e).1 (.head _)) (by simp)
  | e :: l, e' :: l', hl, hl', h => by
    have hl₁ := List.pairwise_cons.1 hl
    have hl₁' := List.pairwise_cons.1 hl'
    have irrefl : ∀ k : κ, compare k k ≠ .lt := fun k => by simp
    have heq : e = e' := by
      rcases List.mem_cons.1 ((h e).1 (.head _)) with he | he
      · exact he
      · rcases List.mem_cons.1 ((h e').2 (.head _)) with he' | he'
        · exact he'.symm
        · exact absurd (Std.TransCmp.lt_trans (hl₁.1 _ he') (hl₁'.1 _ he)) (irrefl _)
    subst heq
    refine congrArg (e :: ·) (entries_ext hl₁.2 hl₁'.2 fun x => ⟨fun hx => ?_, fun hx => ?_⟩)
    · rcases List.mem_cons.1 ((h x).1 (.tail _ hx)) with rfl | hx'
      · exact absurd (hl₁.1 _ hx) (irrefl _)
      · exact hx'
    · rcases List.mem_cons.1 ((h x).2 (.tail _ hx)) with rfl | hx'
      · exact absurd (hl₁'.1 _ hx) (irrefl _)
      · exact hx'

omit [DecidableEq κ] in
/-- A table is determined by its lookups. -/
theorem ext_get? {t t' : Table κ α} (h : ∀ k, t.get? k = t'.get? k) : t = t' := by
  have hentries : t.entries = t'.entries := by
    refine entries_ext t.sorted t'.sorted fun e => ?_
    rw [← get?_eq_some_iff t e.1 e.2, ← get?_eq_some_iff t' e.1 e.2, h]
  cases t; cases t'; cases hentries; rfl

end Lookup

end Table

/-- A finite set of keys, listed in increasing order. -/
abbrev KeySet (κ : Type u) [Ord κ] := Table κ Unit

namespace KeySet

variable {κ : Type u} [Ord κ]

/-- Put a key into the set. -/
def add [Std.TransOrd κ] (s : KeySet κ) (k : κ) : KeySet κ := s.insert k ()

/-- The set of the members of a list. -/
def ofKeys [Std.TransOrd κ] (l : List κ) : KeySet κ := Table.ofList (l.map fun k => (k, ()))

end KeySet

end Depot

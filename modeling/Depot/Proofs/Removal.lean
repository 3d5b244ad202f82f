import Depot.Proofs.Paths
import Depot.Site.Room

/-!
# What removing bytes takes away

With a path that never leads upward goes what is at its place and below it, and nothing else
(`Disk.Removes`). The bytes of an evicted file are removed if its location begins with the components of the
cache root and never leads upward. Beside all that is strictly below the cache root that lets through the
cache root itself, and, where the cache root is the empty text, every absolute path; and it lets nothing
through where the cache root leads upward itself.

## Main statements

* `Disk.removes_remove` — what is taken away with a path.
* `Path.isRemovable_iff` — the locations whose bytes are removed.
* `Path.isRemovable_join` — the files in the cache root whose bytes are removed.
-/

namespace Depot

namespace Trail

variable {t u v : Trail}

theorem isWithin_iff : t.isWithin u = true ↔ t.origin = u.origin ∧ u.names <+: t.names := by
  rw [isWithin, Bool.and_eq_true, decide_eq_true_iff, List.isPrefixOf_iff_prefix]

theorem isWithin_refl (t : Trail) : t.isWithin t = true := isWithin_iff.2 ⟨rfl, List.prefix_refl _⟩

theorem isWithin_antisymm (h : t.isWithin u = true) (h' : u.isWithin t = true) : t = u := by
  obtain ⟨horigin, hnames⟩ := isWithin_iff.1 h
  have heq := hnames.eq_of_length_le (isWithin_iff.1 h').2.length_le
  cases t
  cases u
  simp_all

end Trail

namespace Disk

variable {d d' : Disk} {t u : Trail} {s : String}

/-! ### Looking once something is gone -/

/-- What is kept by its trail is found as before, and nothing else is. -/
theorem lookup_filter (keep : Trail → Bool) (l : List (Trail × DiskEntry)) (u : Trail) :
    (l.filter fun x => keep x.1).lookup u = if keep u then l.lookup u else none := by
  induction l with
  | nil => simp
  | cons x l ih =>
    obtain ⟨v, e⟩ := x
    by_cases huv : u = v
    · subst huv
      cases hkeep : keep u <;> simp [hkeep, ih]
    · have hbeq : (u == v) = false := beq_eq_false_iff_ne.2 huv
      cases hkeep : keep v <;> simp [hkeep, hbeq, List.lookup_cons, ih]

theorem at?_erase (h : t.names ≠ []) : (d.erase t).at? u = if u = t then none else d.at? u := by
  unfold at? erase
  rw [lookup_filter fun v => decide (v ≠ t)]
  split
  · next hu =>
    have hne : u ≠ t := fun hut => h (hut ▸ hu)
    rw [if_neg hne]
  · by_cases hu : u = t <;> simp [hu]

theorem at?_eraseBelow :
    (d.eraseBelow t).at? u = if u ≠ t ∧ u.isWithin t = true then none else d.at? u := by
  unfold at? eraseBelow
  rw [lookup_filter fun v => decide (v = t ∨ !v.isWithin t)]
  by_cases hu : u = t
  · simp [hu]
  · cases hwithin : u.isWithin t with
    | false => simp [hu]
    | true =>
      have hnames : u.names ≠ [] := fun hnil => by
        obtain ⟨horigin, hbegins⟩ := Trail.isWithin_iff.1 hwithin
        refine hu (Trail.isWithin_antisymm hwithin (Trail.isWithin_iff.2 ⟨horigin.symm, ?_⟩))
        rw [hnil]
        exact List.nil_prefix
      simp [hu, hnames]

/-! ### Following once something is gone -/

/-- Steps that only stay or go down pass through directories above their end only. -/
theorem follow?_of_same_above {p : Path} (hroot : .root ∉ p) (hup : .up ∉ p)
    (same : ∀ v, u.isWithin v = true → d'.at? v = d.at? v) (h : d.follow? t p = some u) :
    d'.follow? t p = some u := by
  have habove : u.isWithin t = true := by
    rw [follow?_eq_names hroot hup h]
    exact Trail.isWithin_iff.2 ⟨rfl, List.prefix_append _ _⟩
  induction p generalizing t with
  | nil => exact h
  | cons step rest ih =>
    rw [List.mem_cons, not_or] at hroot hup
    unfold follow? at h ⊢
    rw [same t habove]
    split at h
    · next hdir =>
      rw [if_pos hdir]
      cases step with
      | root => exact absurd rfl hroot.1
      | up => exact absurd rfl hup.1
      | here => exact ih hroot.2 hup.2 h habove
      | name s =>
        dsimp only at h ⊢
        split at h
        · next hs =>
          have hnext : u.isWithin (t.child s) = true := by
            rw [follow?_eq_names hroot.2 hup.2 h]
            exact Trail.isWithin_iff.2 ⟨rfl, List.prefix_append _ _⟩
          rw [if_pos hs]
          exact ih hroot.2 hup.2 h hnext
        · cases h
    · cases h

/-- A text that never leads upward leads where it led, if the directories above are the same. -/
theorem trailOf?_of_same_above (level : .up ∉ Path.ofString s)
    (same : ∀ v, t.isWithin v = true → d'.at? v = d.at? v) (h : d.trailOf? s = some t) :
    d'.trailOf? s = some t := by
  have hup : .up ∉ Path.parts s.toList := mt Path.up_mem_ofString.2 level
  have hroot : .root ∉ Path.parts s.toList := Path.root_not_mem_parts _
  unfold trailOf? at h ⊢
  split at h
  · next hpath =>
    rw [if_pos hpath]
    unfold Path.steps at h ⊢
    by_cases habs : s.toList.head? = some '/'
    · rw [if_pos habs, List.singleton_append, follow?, if_pos (at?_home _)] at h ⊢
      exact follow?_of_same_above hroot hup same h
    · rw [if_neg habs, List.nil_append] at h ⊢
      exact follow?_of_same_above hroot hup same h
  · cases h

theorem find?_eq_some {e : DiskEntry} (h : d.find? s = some (t, e)) :
    d.trailOf? s = some t ∧ d.at? t = some e := by
  unfold find? at h
  obtain ⟨v, hv, h⟩ := Option.bind_eq_some_iff.1 h
  obtain ⟨f, hf, h⟩ := Option.bind_eq_some_iff.1 h
  cases f with
  | directory =>
    cases h
    exact ⟨hv, hf⟩
  | file text =>
    dsimp only at h
    split at h
    · cases h
    · cases h
      exact ⟨hv, hf⟩

/-! ### Removing -/

/-- What a disk has lost of which a location has been removed. -/
structure Removes (d : Disk) (location : String) (d' : Disk) : Prop where
  /-- Only what is at the place of the location or below it can be gone. -/
  only : ∀ u, d'.at? u = d.at? u ∨
    u.isWithin (Path.ofString location).trail = true ∧ d'.at? u = none
  /-- Nothing is gone where the location leads to nothing. -/
  nothing : d.find? location = none → d' = d
  /-- A directory is emptied. -/
  below : ∀ t, d.find? location = some (t, .directory) →
    ∀ u, u ≠ t → u.isWithin t = true → d'.at? u = none
  /-- What the location leads to is gone, but for a directory that is always there or that is named by a
  last `.`. -/
  itself : ∀ t e, d.find? location = some (t, e) →
    (e = .directory → t.names ≠ [] ∧ Path.endsHere location = false) → d'.at? t = none

/-- A removed directory is emptied first; then the path still leads to it. -/
theorem at?_remove_directory (level : .up ∉ Path.ofString s)
    (h : d.find? s = some (t, .directory)) (u : Trail) :
    (d.remove s).1.at? u =
      if u.isWithin t = true ∧ (u = t → t.names ≠ [] ∧ Path.endsHere s = false) then none
      else d.at? u := by
  have hsame : ∀ v, t.isWithin v = true → (d.eraseBelow t).at? v = d.at? v := fun v hv => by
    rw [at?_eraseBelow]
    exact if_neg fun ⟨hne, hwithin⟩ => hne (Trail.isWithin_antisymm hwithin hv)
  have htrail : (d.eraseBelow t).trailOf? s = some t :=
    trailOf?_of_same_above level hsame (find?_eq_some h).1
  simp only [remove, h, htrail, Option.isNone_some, Bool.false_eq_true, if_false]
  by_cases hstays : t.names = [] ∨ Path.endsHere s = true
  · rw [if_pos hstays]
    dsimp only
    rw [at?_eraseBelow]
    have hnot : ¬(t.names ≠ [] ∧ Path.endsHere s = false) := by
      rw [← Bool.not_eq_true, ← not_or]
      exact not_not_intro hstays
    by_cases hu : u = t <;> simp [hu, hnot]
  · rw [if_neg hstays]
    rw [not_or, Bool.not_eq_true] at hstays
    rw [at?_erase hstays.1, at?_eraseBelow]
    by_cases hu : u = t
    · rw [if_pos hu, if_pos ⟨by rw [hu]; exact t.isWithin_refl, fun _ => hstays⟩]
    · simp [hu]

theorem removes_of_directory (level : .up ∉ Path.ofString s)
    (h : d.find? s = some (t, .directory)) : d.Removes s (d.remove s).1 := by
  have hplace := trailOf?_eq_trail level (find?_eq_some h).1
  have hat := at?_remove_directory level h
  refine ⟨fun u => ?_, fun hnone => ?_, fun v hv u hne hwithin => ?_, fun v e hv hmay => ?_⟩
  · rw [hat, ← hplace]
    split
    · next hgone => exact .inr ⟨hgone.1, rfl⟩
    · exact .inl rfl
  · rw [h] at hnone
    cases hnone
  · rw [h] at hv
    cases hv
    rw [hat]
    exact if_pos ⟨hwithin, fun heq => absurd heq hne⟩
  · rw [h] at hv
    cases hv
    rw [hat]
    exact if_pos ⟨t.isWithin_refl, fun _ => hmay rfl⟩

theorem removes_of_file {text : Option String} (level : .up ∉ Path.ofString s)
    (h : d.find? s = some (t, .file text)) : d.Removes s (d.remove s).1 := by
  obtain ⟨htrail, hfile⟩ := find?_eq_some h
  have hplace := trailOf?_eq_trail level htrail
  have hnames : t.names ≠ [] := names_ne_nil_of_at? (by rw [hfile]; nofun)
  have hat : ∀ u, (d.remove s).1.at? u = if u = t then none else d.at? u := fun u => by
    rw [remove, h]
    exact at?_erase hnames
  refine ⟨fun u => ?_, fun hnone => ?_, fun v hv => ?_, fun v e hv _ => ?_⟩
  · rw [hat]
    split
    · next hu => exact .inr ⟨by rw [hu, ← hplace]; exact t.isWithin_refl, rfl⟩
    · exact .inl rfl
  · rw [h] at hnone
    cases hnone
  · rw [h] at hv
    cases hv
  · rw [h] at hv
    cases hv
    rw [hat, if_pos rfl]

/-- **What is taken away with a path** that never leads upward. -/
theorem removes_remove (level : .up ∉ Path.ofString s) : d.Removes s (d.remove s).1 := by
  cases hfind : d.find? s with
  | none =>
    rw [remove, hfind]
    exact ⟨fun _ => .inl rfl, fun _ => rfl, fun t h => by simp [hfind] at h,
      fun t e h => by simp [hfind] at h⟩
  | some x =>
    obtain ⟨t, _ | text⟩ := x
    · exact removes_of_directory level hfind
    · exact removes_of_file level hfind

end Disk

/-! ### Locations whose bytes are removed -/

namespace Path

variable {cacheRoot location : String}

theorem isRemovable_eq_true : isRemovable cacheRoot location = true ↔
    (∃ rest, ofString location = ofString cacheRoot ++ rest) ∧ .up ∉ ofString location := by
  simp [isRemovable, isWithin_iff, climbs]

/-- The beginning of an absolute path stands first. -/
theorem root_mem_of_append {rest : Path} (h : ofString location = ofString cacheRoot ++ rest)
    (habs : .root ∈ ofString location) (nonempty : cacheRoot ≠ "") : .root ∈ ofString cacheRoot := by
  obtain ⟨first, others, hroot⟩ := List.exists_cons_of_ne_nil (mt ofString_eq_nil.1 nonempty)
  obtain ⟨part, parts, hloc⟩ := List.exists_cons_of_ne_nil (List.ne_nil_of_mem habs)
  rw [hroot, hloc, List.cons_append] at h
  obtain ⟨rfl, -⟩ := List.cons.inj h
  rw [hloc] at habs
  obtain rfl | hmem := List.mem_cons.1 habs
  · rw [hroot]
    exact .head _
  · exact absurd rfl (mem_tail_ofString (s := location) (by rw [hloc]; exact hmem)).1

/-- **The locations whose bytes are removed**: those below the cache root, the cache root itself, and, if
the cache root is the empty text, absolute ones. None leads upward. -/
theorem isRemovable_iff : isRemovable cacheRoot location = true ↔
    IsBelow (ofString location) (ofString cacheRoot) ∨
      (ofString location = ofString cacheRoot ∧ .up ∉ ofString cacheRoot) ∨
      (cacheRoot = "" ∧ location.toList.head? = some '/' ∧ .up ∉ ofString location) := by
  rw [isRemovable_eq_true]
  constructor
  · rintro ⟨⟨rest, hrest⟩, hup⟩
    by_cases hnil : rest = []
    · rw [hnil, List.append_nil] at hrest
      exact .inr (.inl ⟨hrest, hrest ▸ hup⟩)
    · by_cases hanchored : .root ∈ ofString location → .root ∈ ofString cacheRoot
      · exact .inl ⟨⟨rest, hnil, hrest⟩, hup, hanchored⟩
      · rw [Classical.not_imp] at hanchored
        obtain ⟨habs, hrel⟩ := hanchored
        have hempty : cacheRoot = "" :=
          Classical.not_not.1 fun hne => hrel (root_mem_of_append hrest habs hne)
        exact .inr (.inr ⟨hempty, root_mem_ofString.1 habs, hup⟩)
  · rintro (⟨⟨rest, -, hrest⟩, hup, -⟩ | ⟨hsame, hup⟩ | ⟨rfl, -, hup⟩)
    · exact ⟨⟨rest, hrest⟩, hup⟩
    · exact ⟨⟨[], by rw [hsame, List.append_nil]⟩, hsame ▸ hup⟩
    · exact ⟨⟨ofString location, rfl⟩, hup⟩

/-- Where the cache root leads upward no bytes are removed at all. -/
theorem isRemovable_of_up (h : .up ∈ ofString cacheRoot) (location : String) :
    isRemovable cacheRoot location = false := by
  rw [← Bool.not_eq_true, isRemovable_eq_true]
  rintro ⟨⟨rest, hrest⟩, hup⟩
  exact hup (by rw [hrest]; exact List.mem_append_left _ h)

/-- **The bytes of a file in the cache root** are removed exactly if the cache root never leads upward. -/
theorem isRemovable_join {name : String} (h : FileId.Valid name.toList) :
    isRemovable cacheRoot (join cacheRoot name) = true ↔ .up ∉ ofString cacheRoot := by
  rw [isRemovable_eq_true, ofString_join cacheRoot h, and_iff_right ⟨_, rfl⟩]
  simp

end Path

end Depot

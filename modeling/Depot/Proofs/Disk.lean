import Depot.Disk

/-!
# What writing does to a disk

Only the directories decide where a path leads (`Disk.trailOf?_congr`), and to put a file somewhere makes
or takes away none: so a file is found under the path it was written to. When it cannot be written,
some of the directories above it may have been made, and everything that was there still is
(`Disk.Grows`); what a path led to, it leads to still.

## Main statements

* `Disk.replace_spec` — what replacing a file comes to, done or failed.
-/

namespace Depot

namespace Disk

variable {d d' : Disk} {t u : Trail} {e : DiskEntry}

/-! ### Single entries -/

/-- What is taken away at one trail is still there at every other. -/
theorem lookup_erase (h : u ≠ t) : (d.erase t).entries.lookup u = d.entries.lookup u := by
  unfold erase
  induction d.entries with
  | nil => rfl
  | cons x l ih =>
    obtain ⟨v, e⟩ := x
    rw [List.filter_cons]
    split
    · rw [List.lookup_cons, List.lookup_cons, ih]
    · next hv =>
      have hne : u ≠ v := fun huv => h (huv.trans (by simpa using hv))
      rw [ih, List.lookup_cons, beq_eq_false_iff_ne.2 hne]

/-- What is at a trail once something has been put somewhere. -/
theorem at?_place (h : t.names ≠ []) : (d.place t e).at? u = if u = t then some e else d.at? u := by
  unfold at? place
  rw [List.lookup_cons]
  split
  · next hu =>
    have hne : u ≠ t := fun hut => h (by rw [← hut, hu])
    rw [if_neg hne]
  · by_cases hu : u = t
    · rw [if_pos hu, beq_iff_eq.2 hu]
    · rw [if_neg hu, beq_eq_false_iff_ne.2 hu]
      exact lookup_erase hu

/-- The directories that are always there have no names below their origin. -/
theorem names_ne_nil_of_at? (h : d.at? t ≠ some .directory) : t.names ≠ [] :=
  fun hnames => h (if_pos hnames)

/-! ### Following -/

/-- With more directories a path still leads where it led. -/
theorem follow?_mono (h : ∀ v, d.at? v = some .directory → d'.at? v = some .directory) (p : Path) :
    d.follow? t p = some u → d'.follow? t p = some u := by
  induction p generalizing t with
  | nil => exact id
  | cons step rest ih =>
    unfold follow?
    intro hf
    split at hf
    · next ht =>
      rw [if_pos (h t ht)]
      cases step with
      | root | here | up => exact ih hf
      | name s =>
        dsimp only at hf ⊢
        split at hf
        · next hs => exact (if_pos hs).trans (ih hf)
        · cases hf
    · cases hf

theorem trailOf?_mono (h : ∀ v, d.at? v = some .directory → d'.at? v = some .directory) (s : String) :
    d.trailOf? s = some u → d'.trailOf? s = some u := by
  unfold trailOf?
  intro hs
  split at hs
  · next hpath => exact (if_pos hpath).trans (follow?_mono h _ hs)
  · cases hs

/-- Only the directories decide where a text leads. -/
theorem trailOf?_congr (h : ∀ v, d.at? v = some .directory ↔ d'.at? v = some .directory) (s : String) :
    d.trailOf? s = d'.trailOf? s :=
  Option.ext fun _ => ⟨trailOf?_mono (fun v => (h v).1) s, trailOf?_mono (fun v => (h v).2) s⟩

/-! ### What stays -/

/-- Nothing is gone from a disk, and nothing but directories has been added. -/
structure Grows (d d' : Disk) : Prop where
  kept : ∀ t e, d.at? t = some e → d'.at? t = some e
  added : ∀ t, d.at? t = none → d'.at? t = none ∨ d'.at? t = some .directory

namespace Grows

theorem refl (d : Disk) : Grows d d := ⟨fun _ _ => id, fun _ => .inl⟩

theorem trans {d'' : Disk} (h : Grows d d') (h' : Grows d' d'') : Grows d d'' := by
  refine ⟨fun t e ht => h'.kept t e (h.kept t e ht), fun t ht => ?_⟩
  obtain hnone | hdir := h.added t ht
  · exact h'.added t hnone
  · exact .inr (h'.kept t _ hdir)

/-- A directory is made where nothing was. -/
theorem place (h : d.at? t = none) : Grows d (d.place t .directory) := by
  have hnames : t.names ≠ [] := names_ne_nil_of_at? fun hdir => by
    rw [h] at hdir
    cases hdir
  refine ⟨fun u e hu => ?_, fun u hu => ?_⟩
  · rw [at?_place hnames, if_neg fun hut => ?_, hu]
    rw [hut, h] at hu
    cases hu
  · rw [at?_place hnames]
    split
    · exact .inr rfl
    · exact .inl hu

/-- The regular files are the same. -/
theorem file_iff (h : Grows d d') {text : Option String} :
    d'.at? t = some (.file text) ↔ d.at? t = some (.file text) := by
  refine ⟨fun ht => ?_, h.kept t _⟩
  cases hd : d.at? t with
  | none =>
    obtain hnone | hdir := h.added t hd
    · rw [ht] at hnone
      cases hnone
    · rw [ht] at hdir
      cases hdir
  | some e => rw [← h.kept t e hd, ht]

/-- What a text led to, it leads to still. -/
theorem find? (h : Grows d d') {s : String} (hs : d.holds s = true) : d'.find? s = d.find? s := by
  obtain ⟨x, hx⟩ := Option.isSome_iff_exists.1 hs
  rw [hx]
  unfold Disk.find? at hx ⊢
  cases ht : d.trailOf? s with
  | none =>
    rw [ht] at hx
    cases hx
  | some t =>
    rw [ht, Option.bind_eq_bind, Option.bind_some] at hx
    rw [trailOf?_mono (fun v => h.kept v _) s ht, Option.bind_eq_bind, Option.bind_some]
    cases he : d.at? t with
    | none =>
      rw [he] at hx
      cases hx
    | some e =>
      rw [he] at hx
      rw [h.kept t e he, hx]

end Grows

/-- Nothing that was on a disk is gone, although a file may have another text. -/
def Keeps (d d' : Disk) : Prop := ∀ t, d.at? t ≠ none → d'.at? t ≠ none

theorem Keeps.refl (d : Disk) : Keeps d d := fun _ h => h

theorem Keeps.trans {d'' : Disk} (h : Keeps d d') (h' : Keeps d' d'') : Keeps d d'' :=
  fun t ht => h' t (h t ht)

theorem Grows.keeps (h : Grows d d') : Keeps d d' := fun t ht => by
  obtain ⟨e, he⟩ := Option.ne_none_iff_exists'.1 ht
  rw [h.kept t e he]
  nofun

/-! ### Writing -/

theorem makeDirectories_grows (d : Disk) (t : Trail) (p : Path) : Grows d (d.makeDirectories t p).1 := by
  induction p generalizing d t with
  | nil => exact .refl d
  | cons part rest ih =>
    unfold makeDirectories
    cases part with
    | root | here | up => exact ih _ _
    | name s =>
      dsimp only
      split
      · exact ih _ _
      · exact .refl d
      · next hnone =>
        split
        · exact (Grows.place hnone).trans (ih _ _)
        · exact .refl d

theorem makeAbove_grows (d : Disk) (s : String) : Grows d (d.makeAbove s).1 := by
  unfold makeAbove
  split
  · exact makeDirectories_grows _ _ _
  · exact .refl d

/-- A file is put where its path leads, or nothing happens. -/
theorem put_cases (d : Disk) (s : String) (text : Option String) :
    d.put s text = (d, false) ∨
      ∃ t, d.trailOf? s = some t ∧ d.at? t ≠ some .directory ∧ Path.endsInSlash s = false ∧
        d.put s text = (d.place t (.file text), true) := by
  unfold put
  cases ht : d.trailOf? s with
  | none => exact .inl rfl
  | some t =>
    dsimp only
    split
    · exact .inl rfl
    · next h =>
      rw [not_or, Bool.not_eq_true] at h
      exact .inr ⟨t, rfl, h.1, h.2, rfl⟩

/-- A file is found where it was put. -/
theorem find?_place {s : String} {text : Option String} (ht : d.trailOf? s = some t)
    (hfile : d.at? t ≠ some .directory) (hs : Path.endsInSlash s = false) :
    (d.place t (.file text)).find? s = some (t, .file text) := by
  have hat : ∀ v, (d.place t (.file text)).at? v = if v = t then some (.file text) else d.at? v :=
    fun v => at?_place (names_ne_nil_of_at? hfile)
  have hdirs : ∀ v, (d.place t (.file text)).at? v = some .directory ↔ d.at? v = some .directory := by
    intro v
    rw [hat]
    split
    · next hv =>
      rw [hv]
      exact ⟨nofun, fun h => absurd h hfile⟩
    · rfl
  have hself : (d.place t (.file text)).at? t = some (.file text) := by rw [hat, if_pos rfl]
  simp only [find?, trailOf?_congr hdirs, ht, Option.bind_eq_bind, Option.bind_some, hself, hs,
    Bool.false_eq_true, if_false]

/-- A file is replaced once the directories above it are there, or only they have come about. -/
theorem replace_cases (d : Disk) (s : String) (text : Option String) :
    ∃ d', Grows d d' ∧ (d.replace s text = (d', false) ∨ d.replace s text = d'.put s text) := by
  have hgrows := makeAbove_grows d s
  unfold replace
  split
  · next heq =>
    rw [heq] at hgrows
    exact ⟨_, hgrows, .inl rfl⟩
  · next heq =>
    rw [heq] at hgrows
    refine ⟨_, hgrows, ?_⟩
    split
    · exact .inr rfl
    · exact .inl rfl

/-- **What replacing a file comes to**: the file is found under its path then, with its text; or it could
not be written, and nothing but directories has come about. -/
theorem replace_spec (d : Disk) (s : String) (text : Option String) :
    ((d.replace s text).2 = true ∧ ∃ t, (d.replace s text).1.find? s = some (t, .file text)) ∨
      ((d.replace s text).2 = false ∧ Grows d (d.replace s text).1) := by
  obtain ⟨d', hgrows, h | h⟩ := replace_cases d s text
  · rw [h]
    exact .inr ⟨rfl, hgrows⟩
  · rw [h]
    obtain hput | ⟨t, ht, hfile, hs, hput⟩ := put_cases d' s text
    · rw [hput]
      exact .inr ⟨rfl, hgrows⟩
    · rw [hput]
      exact .inl ⟨rfl, t, find?_place ht hfile hs⟩

theorem put_keeps (d : Disk) (s : String) (text : Option String) : Keeps d (d.put s text).1 := by
  obtain hput | ⟨t, -, hfile, -, hput⟩ := put_cases d s text
  · rw [hput]
    exact .refl d
  · rw [hput]
    intro u hu
    rw [at?_place (names_ne_nil_of_at? hfile)]
    split
    · nofun
    · exact hu

/-- Replacing a file takes nothing away. -/
theorem replace_keeps (d : Disk) (s : String) (text : Option String) : Keeps d (d.replace s text).1 := by
  obtain ⟨d', hgrows, heq | heq⟩ := replace_cases d s text
  · rw [heq]
    exact hgrows.keeps
  · rw [heq]
    exact hgrows.keeps.trans (put_keeps d' s text)

end Disk

end Depot

import Depot.Proofs.Clearance

/-!
# Default locations

Where the archive says nothing else a file is put into the cache root, under its own name. A name that is accepted
is one component of a path, and it is its own written form. So two files with different names are put to places
side by side: neither is the place of the other, or above it.

Hence what is removed with one file is not what has been put for another (`Disk.Removes.find?_of_beside`): a place
beside another is neither at it nor below it, and nothing above it is touched.

## Main statements

* `Path.isWithin_join_iff` — one name leads into another only if they are the same.
* `Disk.Removes.find?_of_beside` — what is beside something removed is found as before.
* `accepted_names_stand_side_by_side` — accepted names are components of paths without collisions.
-/

namespace Depot

open Act

/-! ### Names in a directory -/

namespace Path

variable {root a b : String}

/-- **One name leads into another** in the same directory only if they are the same. -/
theorem isWithin_join_iff (ha : FileId.Valid a.toList) (hb : FileId.Valid b.toList) :
    isWithin (ofString (join root a)) (ofString (join root b)) = true ↔ a = b := by
  rw [ofString_join root ha, ofString_join root hb, isWithin, List.isPrefixOf_iff_prefix,
    List.prefix_append_right_inj]
  constructor
  · intro hbegins
    exact (PathPart.name.inj (List.cons.inj (hbegins.eq_of_length rfl)).1).symm
  · rintro rfl
    exact List.prefix_refl _

/-- The place of a name in a directory has the name below the place of the directory. -/
theorem trail_join (h : FileId.Valid a.toList) :
    (ofString (join root a)).trail = (ofString root).trail.child a := by
  simp [ofString_join root h, trail, Trail.child, name?]

/-- A name never leads upward in a directory that does not. -/
theorem level_join (h : FileId.Valid a.toList) (level : .up ∉ ofString root) :
    .up ∉ ofString (join root a) := by
  rw [ofString_join root h]
  simpa using level

end Path

/-! ### Places side by side -/

namespace Trail

variable {t u v : Trail} {a b : String}

theorem isWithin_trans (h : t.isWithin u = true) (h' : u.isWithin v = true) : t.isWithin v = true := by
  rw [isWithin_iff] at h h' ⊢
  exact ⟨h.1.trans h'.1, h'.2.trans h.2⟩

/-- Nothing is below two names in a directory. -/
theorem eq_of_isWithin_child (ha : u.isWithin (t.child a) = true) (hb : u.isWithin (t.child b) = true) :
    a = b := by
  obtain ⟨-, hbegins⟩ := isWithin_iff.1 ha
  obtain ⟨-, hbegins'⟩ := isWithin_iff.1 hb
  have hlength : (t.child a).names.length = (t.child b).names.length := by simp [child]
  have hsame : t.names ++ [a] = t.names ++ [b] :=
    (List.prefix_of_prefix_length_le hbegins hbegins' hlength.le).eq_of_length hlength
  exact List.cons.inj (List.append_cancel_left hsame) |>.1

end Trail

namespace Disk

variable {d d' : Disk} {t : Trail} {e : DiskEntry} {location s : String}

/-- What a text leads to is found as before if it and all above it are the same. -/
theorem find?_of_same_above (level : .up ∉ Path.ofString s)
    (same : ∀ v, t.isWithin v = true → d'.at? v = d.at? v) (h : d.find? s = some (t, e)) :
    d'.find? s = some (t, e) := by
  obtain ⟨htrail, hat⟩ := find?_eq_some h
  have htrail' := trailOf?_of_same_above level same htrail
  have hat' : d'.at? t = some e := (same t t.isWithin_refl).trans hat
  simp only [find?, htrail, hat, Option.bind_eq_bind, Option.bind_some] at h
  simp only [find?, htrail', hat', Option.bind_eq_bind, Option.bind_some]
  exact h

/-- **What is beside something removed is found as before**, with all that is below it. -/
theorem Removes.find?_of_beside (removes : d.Removes location d') (level : .up ∉ Path.ofString s)
    (beside : ∀ u : Trail, u.isWithin (Path.ofString s).trail = true →
      u.isWithin (Path.ofString location).trail = false) (h : d.find? s = some (t, e)) :
    d'.find? s = some (t, e) ∧ ∀ u : Trail, u.isWithin t = true → d'.at? u = d.at? u := by
  have hplace := trailOf?_eq_trail level (find?_eq_some h).1
  rw [← hplace] at beside
  refine ⟨find?_of_same_above level (fun v hv => ?_) h, fun u hu => ?_⟩
  · refine (removes.only v).resolve_right fun hgone => ?_
    have hwithin := Trail.isWithin_trans hv hgone.1
    rw [beside t t.isWithin_refl] at hwithin
    cases hwithin
  · refine (removes.only u).resolve_right fun hgone => ?_
    rw [beside u hu] at hgone
    cases hgone.1

end Disk

/-! ### Default locations -/

variable {s : Site} {a b : FileId}

/-- A file that is evicted at its default location takes nothing away that is at the default location of another. -/
theorem Room.find?_evictFile (ha : FileId.Valid a.text.toList) (hb : FileId.Valid b.text.toList) (ne : a ≠ b)
    (placed : ∀ f location, (Records.deleteFile a).answer s = .ok (some f) → f.location = some location →
      location = Path.join s.settings.cacheRoot a.text) {t : Trail} {e : DiskEntry}
    (found : ((Records.deleteFile a).after s).disk.find? (Path.join s.settings.cacheRoot b.text) =
      some (t, e)) :
    ((evictFile a).after s).disk.find? (Path.join s.settings.cacheRoot b.text) = some (t, e) ∧
      ∀ u, u.isWithin t = true →
        ((evictFile a).after s).disk.at? u = ((Records.deleteFile a).after s).disk.at? u := by
  by_cases hgoes : ∃ f location, (Records.deleteFile a).answer s = .ok (some f) ∧ f.location = some location ∧
      Path.isRemovable s.settings.cacheRoot location = true
  · obtain ⟨f, location, hdropped, hlocation, hremovable⟩ := hgoes
    obtain rfl := placed f location hdropped hlocation
    have hlevel : .up ∉ Path.ofString s.settings.cacheRoot := (Path.isRemovable_join ha).1 hremovable
    refine (removes_evictFile hdropped hlocation hremovable).find?_of_beside (Path.level_join hb hlevel)
      (fun u hu => ?_) found
    rw [Path.trail_join hb] at hu
    rw [Path.trail_join ha, ← Bool.not_eq_true]
    intro hu'
    exact ne (congrArg FileId.mk (Trail.eq_of_isWithin_child hu' hu))
  · have hsame : ((evictFile a).after s).disk = ((Records.deleteFile a).after s).disk :=
      disk_evictFile_of_not_removable fun f location hdropped hlocation =>
        Bool.eq_false_iff.2 fun hremovable => hgoes ⟨f, location, hdropped, hlocation, hremovable⟩
    rw [hsame]
    exact ⟨found, fun _ _ => rfl⟩

/-- **Accepted names stand side by side.** For every cache root and every two texts that are accepted as names of
files, the written form of either name is accepted as the same name, and the cache root joined with it has one
component more than the cache root, with all the components of that before it. If the names differ, neither of the
two joined paths is the other, or within it. So, in every depot with that cache root, and whatever calls are
refused: where one of the files is evicted that has its default location, or none, nothing is gone that the
default location of the other leads to, and nothing below it. That a record is dropped takes nothing away in the
first place. -/
theorem accepted_names_stand_side_by_side (root : String) {v₁ v₂ : String} {a b : FileId}
    (ha : FileId.parse v₁ = .ok a) (hb : FileId.parse v₂ = .ok b) :
    (∀ id ∈ [a, b], FileId.parse id.text = .ok id ∧
      (Path.ofString (Path.join root id.text)).length = (Path.ofString root).length + 1 ∧
      Path.isWithin (Path.ofString (Path.join root id.text)) (Path.ofString root) = true) ∧
    (a ≠ b →
      Path.join root a.text ≠ Path.join root b.text ∧
      Path.ofString (Path.join root a.text) ≠ Path.ofString (Path.join root b.text) ∧
      Path.isWithin (Path.ofString (Path.join root a.text)) (Path.ofString (Path.join root b.text)) = false ∧
      Path.isWithin (Path.ofString (Path.join root b.text)) (Path.ofString (Path.join root a.text)) = false ∧
      ∀ (s : Site) (d d' : Disk), s.settings.cacheRoot = root →
        ((Records.deleteFile a).after s).disk = d → ((Room.evictFile a).after s).disk = d' →
        (∀ f location, (Records.deleteFile a).answer s = .ok (some f) → f.location = some location →
          location = Path.join root a.text) →
        s.disk.Keeps d ∧
        ∀ t e, d.find? (Path.join root b.text) = some (t, e) →
          d'.find? (Path.join root b.text) = some (t, e) ∧ ∀ u, u.isWithin t = true → d'.at? u = d.at? u) := by
  have hva := FileId.valid_of_parse ha
  have hvb := FileId.valid_of_parse hb
  have hcomponents : ∀ {id : FileId}, FileId.Valid id.text.toList →
      (Path.ofString (Path.join root id.text)).length = (Path.ofString root).length + 1 ∧
      Path.isWithin (Path.ofString (Path.join root id.text)) (Path.ofString root) = true := by
    intro id hid
    rw [Path.ofString_join root hid, Path.isWithin_iff]
    exact ⟨List.length_append, _, rfl⟩
  refine ⟨fun id hid => ?_, fun ne => ?_⟩
  · simp only [List.mem_cons, List.not_mem_nil, or_false] at hid
    rcases hid with rfl | rfl
    · exact ⟨FileId.parse_text ha, hcomponents hva⟩
    · exact ⟨FileId.parse_text hb, hcomponents hvb⟩
  have hne : a.text ≠ b.text := fun htext => ne (congrArg FileId.mk htext)
  have hapart : Path.ofString (Path.join root a.text) ≠ Path.ofString (Path.join root b.text) := by
    intro hsame
    have hwithin : Path.isWithin (Path.ofString (Path.join root a.text))
        (Path.ofString (Path.join root b.text)) = true :=
      Path.isWithin_iff.2 ⟨[], by rw [hsame, List.append_nil]⟩
    exact hne ((Path.isWithin_join_iff hva hvb).1 hwithin)
  refine ⟨fun hsame => hapart (congrArg Path.ofString hsame), hapart,
    Bool.eq_false_iff.2 (mt (Path.isWithin_join_iff hva hvb).1 hne),
    Bool.eq_false_iff.2 (mt (Path.isWithin_join_iff hvb hva).1 hne.symm), ?_⟩
  rintro s _ _ rfl rfl rfl placed
  exact ⟨(Records.drops_deleteFile a s).disk, fun t e => Room.find?_evictFile hva hvb ne placed⟩

/-- The names `f` and `g`, the first with blanks around it. Where the file `f` in the directory `cache` is evicted, the
file `g` is still found there. -/
theorem side_by_side_in_cache :
    FileId.parse " f " = .ok ⟨"f"⟩ ∧
    Path.isWithin (Path.ofString (Path.join "cache" "f")) (Path.ofString (Path.join "cache" "g")) = false ∧
    ((Room.evictFile ⟨"f"⟩).after (twoPlaceSite "cache" "cache/f")).disk.find? "cache/f" = none ∧
    ((Room.evictFile ⟨"f"⟩).after (twoPlaceSite "cache" "cache/f")).disk.find? "cache/g" =
      some (⟨.above 0, ["cache", "g"]⟩, .file none) := by
  have hf : FileId.parse " f " = .ok ⟨"f"⟩ := by rfl
  have hg : FileId.parse "g" = .ok ⟨"g"⟩ := by rfl
  have hjoined : Path.join "cache" "f" = "cache/f" := by decide +kernel
  have hjoined' : Path.join "cache" "g" = "cache/g" := by decide +kernel
  obtain ⟨-, -, hapart, -, hevicted⟩ := (accepted_names_stand_side_by_side "cache" hf hg).2 (by decide)
  obtain ⟨-, hstays⟩ := hevicted (twoPlaceSite "cache" "cache/f") _ _ rfl rfl rfl (by
    rintro f location ⟨⟩ ⟨⟩
    exact hjoined.symm)
  rw [hjoined'] at hstays
  exact ⟨hf, hapart, by decide +kernel, (hstays _ _ (by decide +kernel)).1⟩

end Depot

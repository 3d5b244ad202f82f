import Depot.Ident
import Depot.Proofs.Disk
import Mathlib

/-!
# Where paths lead

A path that never leads upward leads to one place only, whatever is on the disk: to the names among its
components, below the directory that it begins in (`Path.trail`). A path that begins with all components
of another leads below it, unless it is absolute and the other has no components.

The name of a file is one component, so a directory joined with it has one component more
(`Path.ofString_join`).

## Main statements

* `Path.ofString_join` — the components of a directory joined with the name of a file.
* `Disk.trailOf?_eq_trail` — where a text leads that never leads upward.
* `Path.IsBelow.not_isWithin` — a directory does not lie within what is below it.
-/

namespace Depot

namespace Path

variable {cs xs ys : List Char} {s : String}

/-! ### Cutting -/

theorem cut_ne_nil : ∀ cs : List Char, cut cs ≠ []
  | [] => nofun
  | c :: cs => by
    rw [cut]
    split
    · nofun
    · split <;> nofun

/-- A text is cut at a slash into what stands before it and what stands after it. -/
theorem cut_append_slash (xs ys : List Char) : cut (xs ++ '/' :: ys) = cut xs ++ cut ys := by
  induction xs with
  | nil =>
    rw [List.nil_append, cut, cut]
    cases hys : cut ys with
    | nil => exact absurd hys (cut_ne_nil ys)
    | cons first rest => rfl
  | cons x xs ih =>
    rw [List.cons_append, cut, cut, ih]
    cases hxs : cut xs with
    | nil => exact absurd hxs (cut_ne_nil xs)
    | cons first rest =>
      simp only [List.cons_append]
      split <;> rfl

/-- A text without slashes is not cut. -/
theorem cut_of_no_slash (h : '/' ∉ cs) : cut cs = [cs] := by
  induction cs with
  | nil => rfl
  | cons c cs ih =>
    rw [List.mem_cons, not_or] at h
    rw [cut, ih h.2]
    exact if_neg (Ne.symm h.1)

/-- Nothing stands before the first slash only if there is nothing, or the slash comes first. -/
theorem head?_of_cut_eq_nil_cons {rest : List (List Char)} (h : cut cs = [] :: rest) :
    cs = [] ∨ cs.head? = some '/' := by
  cases cs with
  | nil => exact .inl rfl
  | cons c cs =>
    rw [cut] at h
    split at h
    · cases h
    · split at h
      · next hc => exact .inr (congrArg some hc)
      · cases h

theorem parts_append_slash (xs ys : List Char) : parts (xs ++ '/' :: ys) = parts xs ++ parts ys := by
  rw [parts, cut_append_slash, List.filterMap_append, parts, parts]

/-- The name of a file is one part. -/
theorem parts_of_valid (h : FileId.Valid cs) : parts cs = [.name (String.ofList cs)] := by
  obtain ⟨hne, hchars, hhere, hup⟩ := h
  have hslash : '/' ∉ cs := fun hmem => (hchars _ hmem).2 rfl
  simp [parts, cut_of_no_slash hslash, partOf?, hne, hhere, hup]

/-- Between two slashes there is no slash. -/
theorem root_not_mem_parts (cs : List Char) : .root ∉ parts cs := by
  unfold parts
  rw [List.mem_filterMap]
  rintro ⟨part, -, hpart⟩
  unfold partOf? at hpart
  split_ifs at hpart <;> cases hpart

/-! ### How a path begins -/

/-- What follows a slash makes no difference to how a path begins. -/
theorem opening_append_slash (h : xs ≠ []) (ys : List Char) : opening (xs ++ '/' :: ys) = opening xs := by
  match xs with
  | [] => exact absurd rfl h
  | [x] =>
    by_cases hslash : x = '/'
    · subst hslash
      rfl
    · by_cases hdot : x = '.'
      · subst hdot
        rfl
      · simp [opening, hslash, hdot]
  | x :: y :: zs =>
    by_cases hslash : x = '/'
    · subst hslash
      rfl
    · by_cases hdot : x = '.'
      · subst hdot
        by_cases hy : y = '/'
        · subst hy
          rfl
        · simp [opening, hy]
      · simp [opening, hslash, hdot]

theorem root_mem_opening : .root ∈ opening cs ↔ cs.head? = some '/' := by
  unfold opening
  split
  · simp
  · simp
  · simp
  · next hroot _ _ =>
    cases cs with
    | nil => simp
    | cons c cs =>
      have hc : c ≠ '/' := fun hc => hroot cs (by rw [hc])
      simp [hc]

theorem opening_of_valid (h : FileId.Valid cs) : opening cs = [] := by
  obtain ⟨-, hchars, hhere, -⟩ := h
  unfold opening
  split
  · exact absurd rfl (hchars '/' (by simp)).2
  · exact absurd rfl hhere
  · exact absurd rfl (hchars '/' (by simp)).2
  · rfl

theorem up_not_mem_opening : .up ∉ opening cs := by
  unfold opening
  split <;> simp

/-! ### Components -/

/-- A text that begins with a slash, and no other, has the component of an absolute path. -/
theorem root_mem_ofString : .root ∈ ofString s ↔ s.toList.head? = some '/' := by
  have hparts : .root ∉ (parts s.toList).filter (· ≠ .here) :=
    fun hmem => root_not_mem_parts _ (List.mem_of_mem_filter hmem)
  rw [ofString, ofChars, List.mem_append, root_mem_opening, or_iff_left hparts]

/-- A path never leads upward if its steps do not. -/
theorem up_mem_ofString : .up ∈ ofString s ↔ .up ∈ parts s.toList := by
  rw [ofString, ofChars, List.mem_append, or_iff_right up_not_mem_opening, List.mem_filter,
    and_iff_left (by decide)]

/-- Only a path's first component can be the beginning of an absolute path, or a `.`. -/
theorem mem_tail_ofString {part : PathPart} (h : part ∈ (ofString s).tail) :
    part ≠ .root ∧ part ≠ .here := by
  have hparts : part ∈ (parts s.toList).filter (· ≠ .here) := by
    unfold ofString ofChars opening at h
    split at h
    · exact h
    · exact h
    · exact h
    · exact List.mem_of_mem_tail h
  obtain ⟨hmem, hhere⟩ := List.mem_filter.1 hparts
  exact ⟨fun hroot => root_not_mem_parts _ (hroot ▸ hmem), by simpa using hhere⟩

/-- Only the empty text has no components. -/
theorem ofString_eq_nil : ofString s = [] ↔ s = "" := by
  refine ⟨fun h => ?_, fun h => by subst h; rfl⟩
  obtain ⟨hopening, hparts⟩ := List.append_eq_nil_iff.1 h
  rw [← String.toList_eq_nil_iff]
  cases hs : s.toList with
  | nil => rfl
  | cons c cs =>
    exfalso
    rw [hs] at hopening hparts
    have hc : c ≠ '/' := by
      rintro rfl
      cases hopening
    obtain ⟨first, rest, hcut⟩ := List.exists_cons_of_ne_nil (cut_ne_nil cs)
    have hdot : c :: first ≠ ['.'] := by
      rintro ⟨⟩
      obtain rfl | hslash := head?_of_cut_eq_nil_cons hcut
      · cases hopening
      · obtain ⟨cs', rfl⟩ := List.head?_eq_some_iff.1 hslash
        cases hopening
    have hpart : ∃ part, partOf? (c :: first) = some part ∧ part ≠ .here := by
      unfold partOf?
      rw [if_neg (List.cons_ne_nil _ _), if_neg hdot]
      split
      · exact ⟨_, rfl, nofun⟩
      · exact ⟨_, rfl, nofun⟩
    obtain ⟨part, hpart, hhere⟩ := hpart
    have hcons : parts (c :: cs) = part :: (rest.filterMap partOf?) := by
      rw [parts, cut, hcut]
      dsimp only
      rw [if_neg hc, List.filterMap_cons_some hpart]
    rw [hcons, List.filter_cons_of_pos (by simpa using hhere)] at hparts
    cases hparts

/-! ### Joining -/

/-- What follows a slash adds its parts. -/
theorem ofChars_append_slash (xs ys : List Char) :
    ofChars (xs ++ '/' :: ys) = ofChars (xs ++ ['/']) ++ (parts ys).filter (· ≠ .here) := by
  have hopening : opening (xs ++ '/' :: ys) = opening (xs ++ ['/']) := by
    by_cases hxs : xs = []
    · subst hxs
      rfl
    · rw [opening_append_slash hxs, opening_append_slash hxs]
  have hnil : parts [] = [] := rfl
  rw [ofChars, ofChars, hopening, parts_append_slash, parts_append_slash, hnil, List.append_nil,
    List.filter_append, List.append_assoc]

/-- A slash at the end does not count. -/
theorem ofChars_append_end (h : xs ≠ []) : ofChars (xs ++ ['/']) = ofChars xs := by
  have hnil : parts [] = [] := rfl
  rw [ofChars, opening_append_slash h, parts_append_slash, hnil, List.append_nil, ofChars]

theorem join_empty (name : String) : join "" name = name := if_pos (.inr rfl)

/-- A directory and the name of a file are joined by one slash. -/
theorem join_eq_append {root name : String} (nonempty : root ≠ "") (h : FileId.Valid name.toList) :
    ∃ xs, (join root name).toList = xs ++ '/' :: name.toList ∧
      ofString root = ofChars (xs ++ ['/']) := by
  have hslash : ¬name.startsWith "/" = true := by
    rw [String.startsWith_string_iff]
    exact fun hbegins => (h.2.1 '/' (hbegins.subset (.head _))).2 rfl
  unfold join
  rw [if_neg (not_or.2 ⟨hslash, nonempty⟩)]
  split
  · next hends =>
    rw [String.endsWith_eq_endsWith_toSlice, String.Slice.endsWith_string_iff, String.copy_toSlice] at hends
    obtain ⟨xs, hxs⟩ := hends
    refine ⟨xs, ?_, by rw [ofString, ← hxs]; rfl⟩
    rw [String.toList_append, ← hxs, List.append_assoc]
    rfl
  · have hne : root.toList ≠ [] := fun hnil => nonempty (String.toList_eq_nil_iff.1 hnil)
    refine ⟨root.toList, ?_, (ofChars_append_end hne).symm⟩
    rw [String.toList_append, String.toList_append, List.append_assoc]
    rfl

/-- **The name of a file adds one component to a directory.** -/
theorem ofString_join (root : String) {name : String} (h : FileId.Valid name.toList) :
    ofString (join root name) = ofString root ++ [.name name] := by
  have hname : (parts name.toList).filter (· ≠ .here) = [.name name] := by
    rw [parts_of_valid h, String.ofList_toList]
    rfl
  by_cases hroot : root = ""
  · subst hroot
    rw [join_empty, ofString, ofChars, opening_of_valid h, hname]
    rfl
  · obtain ⟨xs, hjoined, hxs⟩ := join_eq_append hroot h
    rw [hxs, ofString, hjoined, ofChars_append_slash, hname]

/-- A directory joined with the name of a file does not end in a `.`. -/
theorem endsHere_join (root : String) {name : String} (h : FileId.Valid name.toList) :
    endsHere (join root name) = false := by
  have hlast : ∃ before, parts (join root name).toList = before ++ [.name name] := by
    have hname : parts name.toList = [.name name] := by rw [parts_of_valid h, String.ofList_toList]
    by_cases hroot : root = ""
    · subst hroot
      exact ⟨[], by rw [join_empty, hname, List.nil_append]⟩
    · obtain ⟨xs, hjoined, -⟩ := join_eq_append hroot h
      exact ⟨parts xs, by rw [hjoined, parts_append_slash, hname]⟩
  obtain ⟨before, hbefore⟩ := hlast
  rw [endsHere, steps, hbefore, ← List.append_assoc, List.getLast?_concat]
  rfl

/-! ### Places -/

/-- The name that a component is. -/
def name? : PathPart → Option String
  | .name s => some s
  | _ => none

/-- The place of a path that never leads upward. -/
def trail (p : Path) : Trail :=
  ⟨if .root ∈ p then .root else .above 0, p.filterMap name?⟩

/-- Components that stay where they are make no difference to a place. -/
theorem filterMap_name?_ofString (s : String) :
    (ofString s).filterMap name? = (parts s.toList).filterMap name? := by
  have hopening : (opening s.toList).filterMap name? = [] := by
    unfold opening
    split <;> rfl
  have hhere : ∀ part, Option.guard (· ≠ .here) part >>= name? = name? part := by
    intro part
    cases part <;> rfl
  rw [ofString, ofChars, List.filterMap_append, hopening, List.nil_append, ← List.filterMap_eq_filter,
    List.filterMap_filterMap]
  exact List.filterMap_congr fun part _ => hhere part

/-- A path is *below* another if it begins with it, goes on and never leads upward; nothing absolute is
below what is not. -/
structure IsBelow (p root : Path) : Prop where
  longer : ∃ rest, rest ≠ [] ∧ p = root ++ rest
  level : .up ∉ p
  anchored : .root ∈ p → .root ∈ root

/-- A directory does not lie within what is below it, which has a name more. -/
theorem IsBelow.not_isWithin {loc root : String} (h : IsBelow (ofString loc) (ofString root))
    (nonempty : root ≠ "") : (ofString root).trail.isWithin (ofString loc).trail = false := by
  obtain ⟨⟨rest, hrest, hloc⟩, hlevel, -⟩ := h
  obtain ⟨part, rest, rfl⟩ := List.exists_cons_of_ne_nil hrest
  obtain ⟨first, others, hroot⟩ := List.exists_cons_of_ne_nil (mt ofString_eq_nil.1 nonempty)
  have hpart : ∃ name, part = .name name := by
    have hmem : part ∈ (ofString loc).tail := by simp [hloc, hroot]
    obtain ⟨hnoroot, hnohere⟩ := mem_tail_ofString hmem
    have hnoup : part ≠ .up := fun hup => hlevel (by simp [hloc, hup])
    cases part with
    | root => exact absurd rfl hnoroot
    | here => exact absurd rfl hnohere
    | up => exact absurd rfl hnoup
    | name name => exact ⟨name, rfl⟩
  obtain ⟨name, rfl⟩ := hpart
  have hlength : ¬(ofString loc).trail.names <+: (ofString root).trail.names := fun hbegins => by
    have hle := hbegins.length_le
    simp only [trail, hloc, List.filterMap_append, List.filterMap_cons_some (rfl : name? (.name name) = _),
      List.length_append, List.length_cons] at hle
    omega
  rw [Trail.isWithin, Bool.and_eq_false_iff, ← Bool.not_eq_true (List.isPrefixOf _ _),
    List.isPrefixOf_iff_prefix]
  exact .inr hlength

end Path

namespace Disk

variable {d : Disk} {t u : Trail}

/-- The working directory is always there. -/
theorem at?_home (d : Disk) : d.at? {} = some .directory := if_pos rfl

/-- Steps that only stay or go down lead down by their names. -/
theorem follow?_eq_names {p : Path} (hroot : .root ∉ p) (hup : .up ∉ p) (h : d.follow? t p = some u) :
    u = ⟨t.origin, t.names ++ p.filterMap Path.name?⟩ := by
  induction p generalizing t with
  | nil =>
    obtain rfl := Option.some.inj h
    simp
  | cons step rest ih =>
    rw [List.mem_cons, not_or] at hroot hup
    unfold follow? at h
    split at h
    · cases step with
      | root => exact absurd rfl hroot.1
      | up => exact absurd rfl hup.1
      | here => exact ih hroot.2 hup.2 h
      | name s =>
        dsimp only at h
        split at h
        · rw [ih hroot.2 hup.2 h]
          simp [Trail.child, Path.name?]
        · cases h
    · cases h

/-- **A text that never leads upward leads to one place**, if it leads anywhere. -/
theorem trailOf?_eq_trail {s : String} (level : .up ∉ Path.ofString s) (h : d.trailOf? s = some t) :
    t = (Path.ofString s).trail := by
  have hup : .up ∉ Path.parts s.toList := mt Path.up_mem_ofString.2 level
  have hroot : .root ∉ Path.parts s.toList := Path.root_not_mem_parts _
  unfold trailOf? at h
  split at h
  · unfold Path.steps at h
    rw [Path.trail, Path.filterMap_name?_ofString]
    by_cases habs : s.toList.head? = some '/'
    · rw [if_pos habs, List.singleton_append, follow?, if_pos d.at?_home] at h
      rw [if_pos (Path.root_mem_ofString.2 habs), follow?_eq_names hroot hup h, List.nil_append]
    · rw [if_neg habs, List.nil_append] at h
      rw [if_neg (mt Path.root_mem_ofString.1 habs), follow?_eq_names hroot hup h, List.nil_append]
  · cases h

end Disk

end Depot

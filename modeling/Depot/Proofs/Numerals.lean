import Depot.Text.Decimal
import Mathlib

/-!
# Numerals in a text

A numeral is read from the front of a text as it was written there: all of its digits, and none of what
comes after it. That takes either that the text does not go on with a digit, or that the reader takes no
more digits than were written.

## Main statements

* `number?_append` — a run of digits at the front of a text is read.
-/

namespace Depot.Text

/-! ### Runs of digits -/

/-- A run of one digit or more. -/
structure Numeral (ds : List Char) : Prop where
  isDigit : ∀ c ∈ ds, c.isDigit = true
  ne_nil : ds ≠ []

theorem Numeral.digits (n : Nat) : Numeral (digits n) :=
  ⟨fun _ hc => Nat.isDigit_of_mem_toDigits (by decide) (by decide) hc, Nat.toDigits_ne_nil⟩

theorem Numeral.padded (width n : Nat) : Numeral (padded width n) := by
  refine ⟨fun c hc => ?_, List.append_ne_nil_of_right_ne_nil _ (Numeral.digits n).ne_nil⟩
  rcases List.mem_append.1 hc with hc | hc
  · rw [List.eq_of_mem_replicate hc]
    rfl
  · exact (Numeral.digits n).isDigit c hc

/-- A numeral begins with a digit. -/
theorem Numeral.exists_cons {ds : List Char} (h : Numeral ds) :
    ∃ d rest, ds = d :: rest ∧ d.isDigit = true := by
  cases ds with
  | nil => exact absurd rfl h.ne_nil
  | cons d rest => exact ⟨d, rest, rfl, h.isDigit d (.head _)⟩

/-- A number that fits is as long as it is to be. -/
theorem length_padded {width n : Nat} (pos : 0 < width) (fits : n < 10 ^ width) :
    (padded width n).length = width := by
  have hle : (digits n).length ≤ width := (Nat.length_toDigits_le_iff (by decide) pos).2 fits
  rw [padded, List.length_leftpad]
  exact Nat.max_eq_left hle

/-- Only zero is written with a zero in front. -/
theorem digits_eq_zero_cons {n : Nat} {rest : List Char} (h : digits n = '0' :: rest) :
    n = 0 ∧ rest = [] := by
  induction n using Nat.strongRecOn generalizing rest with
  | ind n ih =>
    by_cases hlt : n < 10
    · have hdigit : ∀ d < 10, Nat.digitChar d = '0' → d = 0 := by decide
      rw [digits_of_lt hlt] at h
      obtain ⟨hd, hrest⟩ := List.cons_eq_cons.1 h
      exact ⟨hdigit n hlt hd, hrest.symm⟩
    · rw [digits_of_le (by omega)] at h
      obtain ⟨d, more, hmore, -⟩ := (Numeral.digits (n / 10)).exists_cons
      rw [hmore, List.cons_append] at h
      obtain ⟨rfl, -⟩ := List.cons_eq_cons.1 h
      have hzero := (ih (n / 10) (by omega) hmore).1
      omega

/-! ### What comes after a numeral -/

/-- A text that does not go on with a digit. -/
def EndsNumeral (cs : List Char) : Prop := ∀ c ∈ cs.head?, c.isDigit = false

theorem EndsNumeral.nil : EndsNumeral [] := fun _ hc => by cases hc

theorem EndsNumeral.cons {c : Char} {cs : List Char} (h : c.isDigit = false) : EndsNumeral (c :: cs) := by
  intro c' hc
  obtain rfl : c = c' := Option.some.inj hc
  exact h

theorem EndsNumeral.takeWhile {cs : List Char} (h : EndsNumeral cs) : cs.takeWhile Char.isDigit = [] := by
  cases cs with
  | nil => rfl
  | cons c cs => exact List.takeWhile_cons_of_neg (by simp [h c rfl])

theorem EndsNumeral.dropWhile {cs : List Char} (h : EndsNumeral cs) : cs.dropWhile Char.isDigit = cs := by
  cases cs with
  | nil => rfl
  | cons c cs => exact List.dropWhile_cons_of_neg (by simp [h c rfl])

theorem Numeral.takeWhile_append {ds cs : List Char} (h : Numeral ds) (ends : EndsNumeral cs) :
    (ds ++ cs).takeWhile Char.isDigit = ds := by
  rw [List.takeWhile_append_of_pos h.isDigit, ends.takeWhile, List.append_nil]

/-! ### Reading -/

/-- The digits that a reader finds in front are those that were written. -/
theorem leadingDigits_append {limit : Nat} {ds cs : List Char} (h : Numeral ds)
    (fits : ds.length ≤ limit) (stops : ds.length = limit ∨ EndsNumeral cs) :
    leadingDigits limit (ds ++ cs) = ds := by
  have hends : EndsNumeral (cs.take (limit - ds.length)) := by
    rcases stops with hlength | hends
    · rw [hlength, Nat.sub_self, List.take_zero]
      exact .nil
    · intro c hc
      refine hends c ?_
      rw [List.head?_take] at hc
      split at hc
      · cases hc
      · exact hc
  rw [leadingDigits, List.take_append, List.take_of_length_le fits]
  exact h.takeWhile_append hends

/-- **A numeral is read as it was written**, and what comes after it is left. -/
theorem number?_append {limit : Nat} {ds cs : List Char} (h : Numeral ds) (fits : ds.length ≤ limit)
    (stops : ds.length = limit ∨ EndsNumeral cs) : number? limit (ds ++ cs) = some (value ds, cs) := by
  obtain ⟨d, more, rfl, -⟩ := h.exists_cons
  rw [number?, leadingDigits_append h fits stops]
  dsimp only
  rw [List.drop_left]

/-- A number of fixed width is read whatever comes after it. -/
theorem number?_padded {width n : Nat} (pos : 0 < width) (fits : n < 10 ^ width) (cs : List Char) :
    number? width (padded width n ++ cs) = some (n, cs) := by
  have hlength := length_padded pos fits
  rw [number?_append (.padded width n) hlength.le (.inl hlength), value_padded]

end Depot.Text

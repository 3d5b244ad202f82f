/-!
# Decimal numerals

Natural numbers in decimal, and the longest run of digits at the front of a text.

## Main statements

* `value_digits` — a numeral stands for the number it was written from.
* `value_padded` — so does one padded with zeros.
-/

namespace Depot.Text

/-- The number that a digit stands for. -/
def digitValue (c : Char) : Nat := c.toNat - '0'.toNat

/-- The number that a run of digits stands for. -/
def value (cs : List Char) : Nat := cs.foldl (fun n c => n * 10 + digitValue c) 0

/-- A number without superfluous zeros. -/
def digits (n : Nat) : List Char := Nat.toDigits 10 n

/-- A number with zeros in front of it up to a width. -/
def padded (width n : Nat) : List Char := (digits n).leftpad width '0'

/-- The digits at the front of a text, at most as many as the limit. -/
def leadingDigits (limit : Nat) (cs : List Char) : List Char :=
  (cs.take limit).takeWhile Char.isDigit

/-- Read a number of at least one digit and at most as many as the limit; the rest of the text
follows it. -/
def number? (limit : Nat) (cs : List Char) : Option (Nat × List Char) :=
  match leadingDigits limit cs with
  | [] => none
  | ds => some (value ds, cs.drop ds.length)

/-! ### Numerals and numbers -/

theorem value_append_digit (cs : List Char) (c : Char) :
    value (cs ++ [c]) = value cs * 10 + digitValue c := by
  simp [value]

theorem digitValue_digitChar {d : Nat} (h : d < 10) : digitValue d.digitChar = d := by
  have : ∀ d < 10, digitValue (Nat.digitChar d) = d := by decide
  exact this d h

theorem digits_of_lt {n : Nat} (h : n < 10) : digits n = [n.digitChar] :=
  Nat.toDigits_of_lt_base h

theorem digits_of_le {n : Nat} (h : 10 ≤ n) :
    digits n = digits (n / 10) ++ [(n % 10).digitChar] :=
  Nat.toDigits_of_base_le (by decide) h

/-- A numeral stands for the number it was written from. -/
theorem value_digits (n : Nat) : value (digits n) = n := by
  induction n using Nat.strongRecOn with
  | ind n ih =>
    by_cases h : n < 10
    · simp [digits_of_lt h, value, digitValue_digitChar h]
    · have hlt : n % 10 < 10 := Nat.mod_lt _ (by decide)
      rw [digits_of_le (by omega), value_append_digit, ih _ (by omega), digitValue_digitChar hlt]
      omega

theorem value_zeros_append (n : Nat) (cs : List Char) :
    value (List.replicate n '0' ++ cs) = value cs := by
  induction n with
  | zero => rfl
  | succ n ih =>
    rw [List.replicate_succ, List.cons_append]
    exact ih

/-- A padded numeral stands for the number it was written from. -/
theorem value_padded (width n : Nat) : value (padded width n) = n := by
  rw [padded, List.leftpad, value_zeros_append, value_digits]

end Depot.Text

/-!
# Blank characters

The characters that separate words: the Unicode property `White_Space`. Trimming takes them off
both ends of a text; names may not hold one inside.
-/

namespace Depot.Text

/-- The ranges of code points, both ends included, that make up `White_Space`. -/
def blankRanges : List (Nat × Nat) :=
  [(0x9, 0xD), (0x20, 0x20), (0x85, 0x85), (0xA0, 0xA0), (0x1680, 0x1680), (0x2000, 0x200A),
    (0x2028, 0x2029), (0x202F, 0x202F), (0x205F, 0x205F), (0x3000, 0x3000)]

/-- Whether a character separates words. -/
def isBlank (c : Char) : Bool :=
  blankRanges.any fun (low, high) => low ≤ c.toNat && c.toNat ≤ high

/-- A text without the blanks it begins with. -/
def trimStart (cs : List Char) : List Char :=
  cs.dropWhile isBlank

/-- A text without the blanks it ends with. -/
def trimEnd (cs : List Char) : List Char :=
  (cs.reverse.dropWhile isBlank).reverse

/-- A text without the blanks at either end. -/
def trim (cs : List Char) : List Char :=
  trimEnd (trimStart cs)

/-- The property has twenty-five members. -/
example : (blankRanges.map fun (low, high) => high + 1 - low).sum = 25 := rfl

/-- Nothing is taken off a text that does not begin with a blank. -/
theorem trimStart_eq_self {cs : List Char} (h : ∀ c ∈ cs.head?, isBlank c = false) :
    trimStart cs = cs := by
  cases cs with
  | nil => rfl
  | cons c cs => simp [trimStart, h c (by simp)]

/-- A text without blanks is its own trimmed form. -/
theorem trim_eq_self {cs : List Char} (h : ∀ c ∈ cs, isBlank c = false) : trim cs = cs := by
  have hstart : trimStart cs = cs :=
    trimStart_eq_self fun c hc => h c (List.mem_of_mem_head? hc)
  have hend : trimStart cs.reverse = cs.reverse :=
    trimStart_eq_self fun c hc => h c (List.mem_reverse.1 (List.mem_of_mem_head? hc))
  unfold trim trimEnd
  rw [hstart]
  exact (congrArg List.reverse hend).trans cs.reverse_reverse

end Depot.Text

import Depot.Proofs.Calendar
import Depot.Proofs.Numerals

/-!
# Written instants are read back

A written instant names the instant that was written, to the nanosecond, a leap second included. Reading
goes through the parts of a written instant in their order, and each part is read as it was written,
whatever comes after it: so there is one lemma for each of them.

## Main statements

* `Instant.ofText?_text` — every instant can be read back.
-/

namespace Depot.Time

open Text

/-! ### Parts -/

/-- A digit is no blank. -/
theorem isBlank_of_isDigit {c : Char} (h : c.isDigit = true) : isBlank c = false := by
  have hrange : 48 ≤ c.toNat ∧ c.toNat ≤ 57 := by
    simpa [Char.isDigit, UInt32.le_iff_toNat_le] using h
  simp [isBlank, blankRanges]
  omega

/-- No blanks stand before a numeral. -/
theorem trimStart_append {ds : List Char} (h : Numeral ds) (cs : List Char) :
    trimStart (ds ++ cs) = ds ++ cs := by
  obtain ⟨d, more, rfl, hd⟩ := h.exists_cons
  refine trimStart_eq_self fun c hc => ?_
  obtain rfl : d = c := Option.some.inj hc
  exact isBlank_of_isDigit hd

namespace Instant

theorem readPart?_padded {n : Nat} (fits : n < 100) (cs : List Char) :
    readPart? (padded 2 n ++ cs) = some (n, cs) := by
  rw [readPart?, trimStart_append (.padded 2 n)]
  exact number?_padded (by decide) fits cs

theorem expect?_cons {c : Char} (visible : isBlank c = false) (cs : List Char) :
    expect? c (trimStart (c :: cs)) = some cs := by
  have htrim : trimStart (c :: cs) = c :: cs := by
    refine trimStart_eq_self fun c' hc => ?_
    obtain rfl : c = c' := Option.some.inj hc
    exact visible
  rw [htrim, expect?, if_pos rfl]

/-! ### Dates -/

theorem readYear?_plus (cs : List Char) :
    readYear? ('+' :: cs) = (number? cs.length cs).map fun x => ((x.1 : Int), x.2) := by
  rw [Option.map_eq_bind]
  rfl

theorem readYear?_minus (cs : List Char) :
    readYear? ('-' :: cs) = (number? cs.length cs).map fun x => (-(x.1 : Int), x.2) := by
  rw [Option.map_eq_bind]
  rfl

theorem readYear?_numeral {ds : List Char} (h : Numeral ds) (cs : List Char) :
    readYear? (ds ++ cs) = (number? 4 (ds ++ cs)).map fun x => ((x.1 : Int), x.2) := by
  have htrim := trimStart_append h cs
  obtain ⟨d, more, rfl, hdigit⟩ := h.exists_cons
  have hsigns : d ≠ '-' ∧ d ≠ '+' := by
    constructor <;> rintro rfl <;> cases hdigit
  rw [readYear?, htrim, List.cons_append]
  split
  · next heq => exact absurd (List.cons_eq_cons.1 heq).1 hsigns.1
  · next heq => exact absurd (List.cons_eq_cons.1 heq).1 hsigns.2
  · rw [Option.map_eq_bind]
    rfl

theorem readYear?_yearText (year : Int) {cs : List Char} (ends : EndsNumeral cs) :
    readYear? (yearText year ++ cs) = some (year, cs) := by
  -- A year with its sign may have any number of digits.
  have hsigned : ∀ n : Nat, number? (padded 4 n ++ cs).length (padded 4 n ++ cs) = some (n, cs) := by
    intro n
    rw [number?_append (.padded 4 n) (by simp) (.inr ends), value_padded]
  unfold yearText
  split
  · next hplain =>
    rw [readYear?_numeral (.padded 4 _), number?_padded (by decide) (by omega), Option.map_some,
      Int.toNat_of_nonneg hplain.1]
  split
  · next hpositive =>
    rw [List.cons_append, readYear?_plus, hsigned, Option.map_some, Int.toNat_of_nonneg hpositive]
  · next hnegative =>
    rw [List.cons_append, readYear?_minus, hsigned, Option.map_some, Int.toNat_of_nonneg (by omega),
      Int.neg_neg]

/-- A date that the calendar has is read. -/
theorem readDate?_append {date : Date} (valid : date.isValid = true) (cs : List Char) :
    readDate? (yearText date.year ++ '-' :: padded 2 date.month ++ '-' :: padded 2 date.day ++ cs) =
      some (date, cs) := by
  have hdash : isBlank '-' = false := rfl
  have hsmall := Date.le_of_isValid valid
  simp only [List.append_assoc, List.cons_append]
  rw [readDate?, readYear?_yearText date.year (.cons rfl)]
  simp only [Option.bind_eq_bind, Option.bind_some, expect?_cons hdash,
    readPart?_padded (show date.month < 100 by omega), readPart?_padded (show date.day < 100 by omega),
    valid, if_true]

/-! ### Times of day -/

/-- The digits of a fraction count from the point. -/
theorem readFraction?_padded {width n : Nat} (pos : 0 < width) (short : width ≤ 9)
    (fits : n < 10 ^ width) {cs : List Char} (ends : EndsNumeral cs) :
    readFraction? ('.' :: padded width n ++ cs) = some (n * 10 ^ (9 - width), cs) := by
  have hnumeral := Numeral.padded width n
  have hlength := length_padded pos fits
  have hle : (padded width n).length ≤ 9 := hlength.le.trans short
  rw [List.cons_append, readFraction?, number?_append hnumeral hle (.inr ends)]
  simp only [Option.bind_eq_bind, Option.bind_some, leadingDigits_append hnumeral hle (.inr ends),
    hlength, value_padded, ends.dropWhile]
  rfl

/-- A fraction of a second is read to the nanosecond. -/
theorem readFraction?_fractionText {nanos : Nat} (small : nanos < secondNanos) {cs : List Char}
    (ends : EndsNumeral cs) (point : cs.head? ≠ some '.') :
    readFraction? (fractionText nanos ++ cs) = some (nanos, cs) := by
  unfold secondNanos at small
  unfold fractionText
  split
  · next hzero =>
    rw [List.nil_append, hzero]
    exact readFraction?.eq_2 cs fun rest heq => point (by rw [heq]; rfl)
  split
  on_goal 2 => split
  -- Three, six or nine digits.
  all_goals
    rw [readFraction?_padded (by decide) (by decide) (by omega) ends]
    exact congrArg (fun n => some (n, cs)) (by omega)

/-- The time of day is read to the nanosecond, a leap second included. -/
theorem readTime?_timeText (i : Instant) {cs : List Char} (ends : EndsNumeral cs)
    (point : cs.head? ≠ some '.') :
    readTime? (i.timeText ++ cs) = some ((i.secondOfDay.toNat, i.nanos), cs) := by
  have hcolon : isBlank ':' = false := rfl
  have hsecond : i.secondOfDay.toNat < 86400 := by
    unfold secondOfDay
    omega
  have hnanos : i.nanos < 2 * secondNanos := by
    have h := i.nanos_lt
    unfold secondNanos
    omega
  -- A leap second comes after the last second of a minute.
  have hleap : i.nanos / secondNanos = 1 → i.secondOfDay.toNat % 60 = 59 := by
    have h := i.fits
    unfold secondOfDay
    unfold secondNanos at *
    omega
  unfold timeText
  dsimp only
  generalize i.secondOfDay.toNat = second at *
  have hnumbers : second / 3600 < 100 ∧ second / 60 % 60 < 100 ∧
      second % 60 + i.nanos / secondNanos < 100 := by
    unfold secondNanos at *
    omega
  simp only [List.append_assoc, List.cons_append]
  rw [readTime?, readPart?_padded hnumbers.1]
  simp only [Option.bind_eq_bind, Option.bind_some, expect?_cons hcolon, readPart?_padded hnumbers.2.1,
    readPart?_padded hnumbers.2.2, readFraction?_fractionText (Nat.mod_lt _ (by decide)) ends point]
  rw [if_pos (by unfold secondNanos at *; omega)]
  unfold secondNanos at *
  simp only [Option.some.injEq, Prod.mk.injEq, and_true]
  omega

/-! ### Instants -/

/-- **Every instant can be read back.** -/
theorem ofText?_text (i : Instant) : ofText? i.text = some i := by
  have hvalid : i.date.isValid = true := Date.isValid_ofDayNumber _
  have htime : readTime? (i.timeText ++ ['Z']) = some ((i.secondOfDay.toNat, i.nanos), ['Z']) :=
    readTime?_timeText i (.cons rfl) (by decide)
  have hzone : readZone? (trimStart ['Z']) = some (0, []) := rfl
  have hseconds : i.date.dayNumber * 86400 + (i.secondOfDay.toNat : Int) - 0 * 60 = i.seconds := by
    rw [date, Date.dayNumber_ofDayNumber]
    unfold secondOfDay
    omega
  rw [ofText?, text, String.toList_ofList, ofChars?, chars, List.append_assoc _ ('T' :: i.timeText),
    readDate?_append hvalid]
  simp only [Option.bind_eq_bind, Option.bind_some, List.cons_append, readJoint?, htime]
  rw [hzone, Option.bind_some, if_pos ⟨rfl, i.year_bounds⟩]
  dsimp only
  rw [hseconds, ofParts?, dif_pos ⟨i.inRange, i.fits⟩]

end Instant

end Depot.Time

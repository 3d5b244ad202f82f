import Depot.Time.Date

/-!
# Instants

A moment in universal time, to the nanosecond, between the years -262143 and 262142. A leap second
has no number of its own: it is written as the last second of its minute with a billion nanoseconds
or more. Instants are ordered by their `rank`, a single integer.

## Main statements

* `Instant.ext_rank` — instants of the same rank are the same.
-/

namespace Depot.Time

/-- Nanoseconds in a second. -/
def secondNanos : Nat := 1000000000

/-- The first second of the year -262143. -/
def earliestSecond : Int := -8334601228800

/-- The last second of the year 262142. -/
def latestSecond : Int := 8210266876799

example : earliestSecond = Date.dayNumber ⟨-262143, 1, 1⟩ * 86400 := by decide
example : latestSecond = Date.dayNumber ⟨262143, 1, 1⟩ * 86400 - 1 := by decide

/-- A moment in universal time. -/
structure Instant where
  /-- Whole seconds since the beginning of 1970, leap seconds not counted. -/
  seconds : Int
  /-- Nanoseconds into the second, a billion more in a leap second. -/
  nanos : Nat
  inRange : earliestSecond ≤ seconds ∧ seconds ≤ latestSecond
  /-- Only the last second of a minute is followed by a leap second. -/
  fits : nanos < secondNanos ∨ seconds % 60 = 59 ∧ nanos < 2 * secondNanos
  deriving DecidableEq

namespace Instant

/-- The instant with given parts, if there is one. -/
def ofParts? (seconds : Int) (nanos : Nat) : Option Instant :=
  if h : (earliestSecond ≤ seconds ∧ seconds ≤ latestSecond) ∧
      (nanos < secondNanos ∨ seconds % 60 = 59 ∧ nanos < 2 * secondNanos) then
    some ⟨seconds, nanos, h.1, h.2⟩
  else none

/-- The beginning of 1970. -/
def epoch : Instant := ⟨0, 0, by decide, by decide⟩

/-- The last nanosecond of the year 262142. -/
def latest : Instant := ⟨latestSecond, 999999999, by decide, by decide⟩

instance : Inhabited Instant := ⟨epoch⟩

/-! ### Order -/

/-- Instants are ordered by their seconds, and within a second by their nanoseconds. -/
def rank (i : Instant) : Int := i.seconds * 2000000000 + i.nanos

instance : LT Instant := ⟨fun a b => a.rank < b.rank⟩
instance : LE Instant := ⟨fun a b => a.rank ≤ b.rank⟩
instance (a b : Instant) : Decidable (a < b) := inferInstanceAs (Decidable (a.rank < b.rank))
instance (a b : Instant) : Decidable (a ≤ b) := inferInstanceAs (Decidable (a.rank ≤ b.rank))

theorem lt_def {a b : Instant} : a < b ↔ a.rank < b.rank := .rfl
theorem le_def {a b : Instant} : a ≤ b ↔ a.rank ≤ b.rank := .rfl

instance : Ord Instant := ⟨compareOn rank⟩
instance : Std.TransOrd Instant := inferInstanceAs (Std.TransCmp (compareOn rank))

theorem nanos_lt (i : Instant) : i.nanos < 2000000000 := by
  have h := i.fits
  simp only [secondNanos] at h
  omega

/-- Instants of the same rank are the same. -/
theorem ext_rank {a b : Instant} (h : a.rank = b.rank) : a = b := by
  have ha := a.nanos_lt
  have hb := b.nanos_lt
  simp only [rank] at h
  have hs : a.seconds = b.seconds := by omega
  have hn : a.nanos = b.nanos := by omega
  cases a; cases b; cases hs; cases hn; rfl

/-! ### Milliseconds -/

/-- The instant that is a number of milliseconds from the beginning of 1970. -/
def ofMillis? (millis : Int) : Option Instant :=
  ofParts? (millis / 1000) ((millis % 1000).toNat * 1000000)

/-- Milliseconds since the beginning of 1970, rounded down. -/
def millis (i : Instant) : Int := i.seconds * 1000 + i.nanos / 1000000

/-- The instant a number of milliseconds later, unless the calendar ends before it. -/
def addMillis? (i : Instant) (millis : Int) : Option Instant :=
  ofParts? (i.seconds + (i.nanos + millis * 1000000) / secondNanos)
    ((i.nanos + millis * 1000000) % secondNanos).toNat

/-- The same, ending with the calendar. -/
def addMillis (i : Instant) (millis : Int) : Instant := (i.addMillis? millis).getD latest

/-! ### Differences -/

/-- The second of the day. -/
def secondOfDay (i : Instant) : Int := i.seconds % 86400

/-- Leap seconds passed between two instants: one of them is in a leap second, and the other has the
later time of day. -/
def leapsBetween (later earlier : Instant) : Int :=
  if earlier.secondOfDay < later.secondOfDay ∧ secondNanos ≤ earlier.nanos then 1
  else if later.secondOfDay < earlier.secondOfDay ∧ secondNanos ≤ later.nanos then -1
  else 0

/-- Nanoseconds from one instant to another. -/
def nanosSince (later earlier : Instant) : Int :=
  (later.seconds - earlier.seconds + leapsBetween later earlier) * secondNanos +
    (later.nanos - earlier.nanos)

end Instant

end Depot.Time

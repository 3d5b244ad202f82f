import Depot.Text.Blank
import Depot.Text.Decimal
import Depot.Time.Instant

/-!
# Written instants

An instant is written as `2024-05-01T09:00:00.250Z`: a year outside 0000 to 9999 with its sign, a
fraction of as few of 0, 3, 6 or 9 digits as tell it exactly, a leap second as second 60.

Reading is more liberal. Blanks may stand around the parts, the date and the time may be joined by a
space, the month, day, hour, minute and second may have one digit, the fraction any number of them
(those past the ninth are dropped), and the zone is `Z`, `UTC` or a distance from universal time in
hours and minutes.
-/

namespace Depot.Time

open Text

namespace Instant

/-! ### Writing -/

/-- The day on which an instant falls. -/
def date (i : Instant) : Date := Date.ofDayNumber (i.seconds / 86400)

/-- A year, in four digits or with its sign. -/
def yearText (year : Int) : List Char :=
  if 0 ≤ year ∧ year ≤ 9999 then padded 4 year.toNat
  else if 0 ≤ year then '+' :: padded 4 year.toNat
  else '-' :: padded 4 (-year).toNat

/-- A fraction of a second, given in nanoseconds, in as few groups of three digits as tell it. -/
def fractionText (nanos : Nat) : List Char :=
  if nanos = 0 then []
  else if nanos % 1000000 = 0 then '.' :: padded 3 (nanos / 1000000)
  else if nanos % 1000 = 0 then '.' :: padded 6 (nanos / 1000)
  else '.' :: padded 9 nanos

/-- The hour, minute and second, leap second included. -/
def timeText (i : Instant) : List Char :=
  let second := i.secondOfDay.toNat
  let leap := i.nanos / secondNanos
  padded 2 (second / 3600) ++ ':' :: padded 2 (second / 60 % 60) ++ ':' ::
    padded 2 (second % 60 + leap) ++ fractionText (i.nanos % secondNanos)

/-- An instant in writing. -/
def chars (i : Instant) : List Char :=
  yearText i.date.year ++ '-' :: padded 2 i.date.month ++ '-' :: padded 2 i.date.day ++ 'T' ::
    i.timeText ++ ['Z']

/-- An instant in writing. -/
def text (i : Instant) : String := String.ofList i.chars

/-! ### Reading -/

/-- Pass one character that must be there. -/
def expect? (c : Char) : List Char → Option (List Char)
  | [] => none
  | c' :: cs => if c' = c then some cs else none

/-- A year: at most four digits, or any number of them after a sign. -/
def readYear? (cs : List Char) : Option (Int × List Char) :=
  match trimStart cs with
  | '-' :: cs => do
    let (n, cs) ← number? cs.length cs
    some (-n, cs)
  | '+' :: cs => do
    let (n, cs) ← number? cs.length cs
    some (n, cs)
  | cs => do
    let (n, cs) ← number? 4 cs
    some (n, cs)

/-- A part of a date or time: one or two digits, blanks before them. -/
def readPart? (cs : List Char) : Option (Nat × List Char) := number? 2 (trimStart cs)

/-- A date: year, month and day. -/
def readDate? (cs : List Char) : Option (Date × List Char) := do
  let (year, cs) ← readYear? cs
  let cs ← expect? '-' (trimStart cs)
  let (month, cs) ← readPart? cs
  let cs ← expect? '-' (trimStart cs)
  let (day, cs) ← readPart? cs
  let date : Date := ⟨year, month, day⟩
  if date.isValid then some (date, cs) else none

/-- What joins a date to a time. -/
def readJoint? : List Char → Option (List Char)
  | 'T' :: cs | 't' :: cs | ' ' :: cs => some cs
  | _ => none

/-- A fraction of a second in nanoseconds; none is written where there is no point. -/
def readFraction? : List Char → Option (Nat × List Char)
  | '.' :: cs => do
    let (n, rest) ← number? 9 cs
    let places := (leadingDigits 9 cs).length
    some (n * Nat.pow 10 (9 - places), rest.dropWhile Char.isDigit)
  | cs => some (0, cs)

/-- A time of day: its second, and the nanoseconds into it. -/
def readTime? (cs : List Char) : Option ((Nat × Nat) × List Char) := do
  let (hour, cs) ← readPart? cs
  let cs ← expect? ':' (trimStart cs)
  let (minute, cs) ← readPart? cs
  let cs ← expect? ':' (trimStart cs)
  let (second, cs) ← readPart? cs
  let (nanos, cs) ← readFraction? cs
  if hour ≤ 23 ∧ minute ≤ 59 ∧ second ≤ 60 then
    let leap := second / 60
    some ((hour * 3600 + minute * 60 + (second - leap), nanos + leap * secondNanos), cs)
  else none

/-- Two digits, as they stand in a zone. -/
def readPair? : List Char → Option (Nat × List Char)
  | a :: b :: cs => if a.isDigit ∧ b.isDigit then some (value [a, b], cs) else none
  | _ => none

/-- Whether a character may stand between the hours and the minutes of a zone. -/
def isZoneJoint (c : Char) : Bool := c = ':' || isBlank c

/-- The minutes by which a zone written after its sign is ahead of universal time. -/
def readDistance? (cs : List Char) : Option (Nat × List Char) := do
  let (hours, cs) ← readPair? cs
  let (minutes, cs) ← readPair? (cs.dropWhile isZoneJoint)
  if hours ≤ 23 ∧ minutes ≤ 59 then some (hours * 60 + minutes, cs) else none

/-- The minutes by which a zone is ahead of universal time. -/
def readZone? : List Char → Option (Int × List Char)
  | 'Z' :: cs | 'z' :: cs => some (0, cs)
  | '+' :: cs => do
    let (n, cs) ← readDistance? cs
    some (n, cs)
  | '-' :: cs | '\u2212' :: cs => do
    let (n, cs) ← readDistance? cs
    some (-n, cs)
  | u :: t :: c :: cs =>
    if [u, t, c].map Char.toUpper = ['U', 'T', 'C'] then some (0, cs) else none
  | _ => none

/-- The instant that a text names. -/
def ofChars? (cs : List Char) : Option Instant := do
  let (date, cs) ← readDate? cs
  let cs ← readJoint? cs
  let ((second, nanos), cs) ← readTime? cs
  let (zone, cs) ← readZone? (trimStart cs)
  if trimStart cs = [] ∧ -262143 ≤ date.year ∧ date.year ≤ 262142 then
    ofParts? (date.dayNumber * 86400 + second - zone * 60) nanos
  else none

/-- The instant that a text names. -/
def ofText? (s : String) : Option Instant := ofChars? s.toList

end Instant

end Depot.Time

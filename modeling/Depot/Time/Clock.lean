import Depot.Time.Instant

/-!
# The depot's clock

A clock that is set and moved by hand. It holds milliseconds since 1970 in a signed 64-bit word, which
wraps; a reading outside the calendar shows the beginning of 1970. Beside it runs the time that has
passed while the depot worked, which a *ticking* clock adds to its reading.

One cannot wait for more than thirty years at once: whoever means to wait longer goes on after that time.
-/

namespace Depot.Time

/-! ### Waiting -/

/-- The longest time that one can wait at once, in milliseconds: thirty years of 365 days. -/
def maxWaitMs : Nat := 30 * 365 * 86400000

/-- How long one waits who means to wait a number of milliseconds. -/
def waitMs (millis : Nat) : Nat := min millis maxWaitMs

/-- A wait that is not too long takes its time. -/
theorem waitMs_of_le {millis : Nat} (h : millis ≤ maxWaitMs) : waitMs millis = millis :=
  Nat.min_eq_left h

/-! ### The clock -/

/-- A clock moved by hand, and the time that passes by itself. -/
structure Clock where
  /-- The hand setting, in milliseconds since 1970. -/
  hand : Int64
  /-- Milliseconds passed since the depot was opened. -/
  elapsed : Nat := 0
  /-- Whether the reading includes the time passed. -/
  ticking : Bool := false

namespace Clock

/-- A clock set to an instant. -/
def startingAt (i : Instant) : Clock := { hand := Int64.ofInt i.millis }

/-- What the hand setting shows. -/
def handReading (c : Clock) : Instant := (Instant.ofMillis? c.hand.toInt).getD .epoch

/-- What the clock shows. -/
def now (c : Clock) : Instant :=
  if c.ticking then c.handReading.addMillis c.elapsed else c.handReading

/-- Set the clock to an instant. -/
def set (c : Clock) (i : Instant) : Clock := { c with hand := Int64.ofInt i.millis }

/-- Move the clock by a number of milliseconds, backward if it is negative. -/
def advance (c : Clock) (millis : Int64) : Clock := { c with hand := c.hand + millis }

end Clock

end Depot.Time

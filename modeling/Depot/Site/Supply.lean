import Depot.Failure
import Depot.Ident
import Depot.Table

/-!
# The archive

The archive that a depot calls for its files. How it will answer is given in advance: each call takes the
next outcome from a script, and a script has an outcome for every call, however many there will be.
-/

namespace Depot

/-- A file that the archive hands over. -/
structure Delivery where
  sizeKb : UInt64
  /-- Where the bytes are put; in the cache root under the file's name, unless it is said. -/
  location : Option String := none
  /-- Whether there are bytes at all. -/
  writes : Bool := true

/-- How a call to the archive ends, and the milliseconds that it takes. -/
structure Outcome where
  delayMs : Nat := 0
  result : Except Failure Delivery

/-- The outcomes of endlessly many calls, and how many of them have been used. -/
structure Script where
  outcome : Nat → Outcome
  used : Nat := 0

namespace Script

/-- The outcomes of a list, and one and the same ever after. -/
def ofList (outcomes : List Outcome) (standard : Outcome) : Script :=
  { outcome := fun n => outcomes.getD n standard }

/-- The outcome of the next call. -/
def next (s : Script) : Outcome := s.outcome s.used

/-- The script after the next call. -/
def rest (s : Script) : Script := { s with used := s.used + 1 }

end Script

/-- How the archive will answer. -/
structure Supply where
  /-- The outcomes of fetching a file. -/
  fetches : Table FileId Script := .empty
  /-- The outcomes of making a file again from its source. -/
  regenerations : Table FileId Script := .empty
  /-- The outcome of every other call. -/
  standard : Outcome := { result := .ok { sizeKb := 40 } }
  /-- Whether files can be made again at all; if not, a call for that ends at once. -/
  regenerates : Bool := true

end Depot

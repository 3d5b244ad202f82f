import Depot.Ident
import Depot.Table

/-!
# The room taken

How much of the depot is taken up: the files that are there, and the reservations of those on their
way. *Free room* is reckoned in signed words of 64 bits: a limit or an estimate of 2^63 or more is
negative, and a difference beyond the words comes round.

## Main statements

* `signed64_of_lt` — below 2^63 a count is its own signed reading.
* `freeRoom_of_lt` — and the free room is what the limit leaves.
-/

namespace Depot

/-- The signed reading of a number in 64 bits. -/
def signed64 (n : Int) : Int := Int.bmod n UInt64.size

/-- Below 2^63 a count is its own signed reading. -/
theorem signed64_of_lt {n : Nat} (h : 2 * n < UInt64.size) : signed64 n = n := by
  unfold signed64
  apply Int.bmod_eq_of_le <;> omega

/-- The free room under a limit: a difference of signed words, and one itself. -/
def freeRoom (limit used : Nat) : Int := signed64 (signed64 limit - signed64 used)

/-- Only the difference counts, not where it is read as a word. -/
theorem freeRoom_eq (limit used : Nat) : freeRoom limit used = signed64 (limit - used) := by
  simp only [freeRoom, signed64, Int.bmod_sub_bmod, Int.sub_bmod_bmod]

/-- Below 2^63 the free room is what the limit leaves. -/
theorem freeRoom_of_lt {limit used : Nat} (hl : 2 * limit < UInt64.size)
    (hu : 2 * used < UInt64.size) : freeRoom limit used = limit - used := by
  rw [freeRoom_eq, signed64]
  apply Int.bmod_eq_of_le <;> omega

example : freeRoom (2 ^ 63) 1 = 2 ^ 63 - 1 ∧ freeRoom (2 ^ 63 - 1) (2 ^ 63) = -1 := by decide

/-- The room taken by files that are there and by those on their way. A reservation is a word of 64
bits without a sign; the sums are counts without a bound, which stand for words as long as they are
below 2^64. Nothing but the free room is reckoned in signed words. -/
structure Account where
  /-- Kilobytes of the files that are there. -/
  committed : Nat
  /-- Kilobytes reserved, by file. -/
  reservations : Table FileId UInt64 := .empty

namespace Account

/-- The kilobytes reserved in all. -/
def reserved (a : Account) : Nat := a.reservations.total UInt64.toNat

/-- The kilobytes taken in all. -/
def used (a : Account) : Nat := a.committed + a.reserved

/-- Whether a file has a reservation. -/
def isReserved (a : Account) (id : FileId) : Bool := a.reservations.contains id

/-- Reserve room for a file. -/
def reserve (a : Account) (id : FileId) (kb : UInt64) : Account :=
  { a with reservations := a.reservations.insert id kb }

/-- Give back the reservation of a file. -/
def release (a : Account) (id : FileId) : Account :=
  { a with reservations := a.reservations.erase id }

/-- Charge the size of a file that has arrived in place of its reservation. -/
def commit (a : Account) (id : FileId) (kb : UInt64) : Account :=
  { a.release id with committed := a.committed + kb.toNat }

/-- Discharge a file that has been evicted. -/
def discharge (a : Account) (kb : Nat) : Account :=
  { a with committed := a.committed - kb }

end Account

end Depot

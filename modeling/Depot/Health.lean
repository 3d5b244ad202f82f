import Depot.Account

/-!
# Health

How full the depot is: it warns when the room taken reaches the limit less a margin.
-/

namespace Depot

/-- How full the depot is. -/
structure Health where
  /-- Whether the room taken has come within the margin of the limit. -/
  warns : Bool
  limitKb : Nat
  usedKb : Nat
  freeKb : Int
  /-- The room taken in percent of the limit; all of it when there is none. -/
  usedPercent : Float

namespace Health

/-- The health of a depot with a limit, room taken and a margin. -/
def evaluate (limitKb usedKb marginKb : Nat) : Health where
  warns := decide (limitKb - marginKb ≤ usedKb)
  limitKb := limitKb
  usedKb := usedKb
  freeKb := freeRoom limitKb usedKb
  usedPercent :=
    if limitKb = 0 then 100.0
    else (UInt64.ofNat usedKb).toFloat * 100.0 / (UInt64.ofNat limitKb).toFloat

/-- The written name of the state of health. -/
def statusName (h : Health) : String := if h.warns then "WARN" else "UP"

end Health

end Depot

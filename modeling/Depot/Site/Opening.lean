import Depot.Site.Passage

/-!
# Opening a depot

A depot is opened over an inventory: one read from its file, if there is a file, or a new one. All that
the inventory does not hold begins anew: tasks, reservations, warnings and the time passed.
-/

namespace Depot.Opening

open Act

/-- The inventory kept in a file; a new one if there is no file. -/
def readInventory (disk : Disk) (path : String) : Except Failure Inventory :=
  if disk.holds path then
    match disk.read? path with
    | none => .error (.filesystem none)
    | some text =>
      match Inventory.ofText? text with
      | none => .error (.store ("corrupt snapshot " ++ path))
      | some inventory => .ok inventory
  else .ok .fresh

/-- Read the inventory from its file, if it has one; the calls of an inventory just read are not
refused. -/
def reload : Act Unit := do
  let s ← get
  if let some path := s.storePath then
    let inventory ← ExceptT.mk (pure (readInventory s.disk path))
    set { s with inventory := inventory, faults := fun _ => [] }

/-- Begin anew over the inventory. -/
def begin : Act Unit := do
  let committed ← Records.sumAvailable
  modify fun s =>
    { s with
      account := { committed := committed }
      inFlight := .empty
      tasks := []
      warned := .empty
      clock := { s.clock with elapsed := 0 } }

/-- Close the depot and open it again. -/
def restart : Act Unit := do
  reload
  begin

end Depot.Opening

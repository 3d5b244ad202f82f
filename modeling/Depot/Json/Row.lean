import Depot.Json.Value

/-!
# Records in JSON

A record is an object that has a member for each of its fields, or an array of its fields in order.
Members that are no fields are passed over, however often they occur; a field given twice makes the
record unreadable. In an array only fields that have a default may be missing, at its end.

A `Row` holds the fields that were given. What the value of a field may be is then up to the field:
`required`, `optional` (may be absent or `null`) or `defaulted` (may be absent).
-/

namespace Depot.Json

/-- A field of a record, and whether an array may end before it. -/
structure Field where
  name : String
  omissible : Bool := false

/-- The fields that a record gives, by name. -/
abbrev Row := List (String × Json)

/-- The value of a field among members: absent, present once, or not readable. -/
def member? (members : List (Option String × Json)) (name : String) : Option (Option Json) :=
  match members.filter fun m => m.1 = some name with
  | [] => some none
  | [(_, j)] => some (some j)
  | _ => none

/-- The fields given by the members of an object. -/
def rowOfMembers? (members : List (Option String × Json)) : List Field → Option Row
  | [] => some []
  | field :: fields => do
    let given ← member? members field.name
    let row ← rowOfMembers? members fields
    some (match given with
      | some j => (field.name, j) :: row
      | none => row)

/-- The fields given by the items of an array. -/
def rowOfItems? : List Json → List Field → Option Row
  | [], fields => if fields.all Field.omissible then some [] else none
  | _ :: _, [] => none
  | j :: items, field :: fields => do
    let row ← rowOfItems? items fields
    some ((field.name, j) :: row)

/-- The fields that a value gives to a record. -/
def row? (fields : List Field) : Json → Option Row
  | object members =>
    if members.all fun m => m.1.isSome then rowOfMembers? members fields else none
  | array items => rowOfItems? items fields
  | _ => none

namespace Row

/-- The value of a field, if it is given. -/
def find? (row : Row) (name : String) : Option Json := row.lookup name

/-- A field that must be given. -/
def required {α : Type} (row : Row) (name : String) (decode : Json → Option α) : Option α := do
  decode (← row.find? name)

/-- A field that may be absent or `null`. -/
def optional {α : Type} (row : Row) (name : String) (decode : Json → Option α) :
    Option (Option α) :=
  match row.find? name with
  | none | some .null => some none
  | some j => (decode j).map some

/-- A field that may be absent, and then has a default. -/
def defaulted {α : Type} (row : Row) (name : String) (decode : Json → Option α) (default : α) :
    Option α :=
  match row.find? name with
  | none => some default
  | some j => decode j

end Row

/-! ### Values of fields -/

/-- A string. -/
def asString? : Json → Option String
  | string s => some s
  | _ => none

/-- A truth value. -/
def asBool? : Json → Option Bool
  | bool b => some b
  | _ => none

/-- An integer. -/
def asInt? : Json → Option Int
  | integer n => some n
  | _ => none

/-- A natural number below a bound, written as an integer. -/
def asNat? (bound : Nat) (j : Json) : Option Nat := do
  let n ← asInt? j
  if 0 ≤ n ∧ n < bound then some n.toNat else none

/-- A number of 64 bits. -/
def asUInt64? (j : Json) : Option UInt64 := (asNat? UInt64.size j).map UInt64.ofNat

/-- A number of 32 bits. -/
def asUInt32? (j : Json) : Option UInt32 := (asNat? UInt32.size j).map UInt32.ofNat

/-- The items of an array, each decoded. -/
def asList? {α : Type} (decode : Json → Option α) : Json → Option (List α)
  | array items => items.mapM decode
  | _ => none

/-- A member of an object, its name and value decoded. -/
def asMember? {κ α : Type} (key : String → κ) (decode : Json → Option α) :
    Option String × Json → Option (κ × α)
  | (some name, j) => (decode j).map fun a => (key name, a)
  | (none, _) => none

/-- The members of an object, in order, their names and values decoded. -/
def asEntries? {κ α : Type} (key : String → κ) (decode : Json → Option α) :
    Json → Option (List (κ × α))
  | object members => members.mapM (asMember? key decode)
  | _ => none

/-- One of finitely many names: a string, or an object whose only member has the name and no
value. -/
def asName? : Json → Option String
  | string s => some s
  | object [(some s, null)] => some s
  | _ => none

end Depot.Json

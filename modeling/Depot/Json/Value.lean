/-!
# JSON values

A JSON text as a tree. Nothing that a reader of records has to notice is lost: the members of an
object keep their order and may repeat a name, a number that is not written as a plain integer keeps
its spelling, and a string that escapes one half of a surrogate pair is kept apart, because it stands
for no text.
-/

namespace Depot

/-- A JSON value. -/
inductive Json
  | null
  | bool (b : Bool)
  /-- A number written as digits, with or without a minus sign. -/
  | integer (n : Int)
  /-- Any other number, as it is spelled. -/
  | numeral (spelling : List Char)
  | string (text : String)
  /-- A string with an escape for one half of a surrogate pair only. -/
  | brokenString
  | array (items : List Json)
  /-- Members in the order written; a name may be broken as a string may. -/
  | object (members : List (Option String × Json))

namespace Json

instance : Inhabited Json := ⟨null⟩

/-- An object with given members. -/
def record (members : List (String × Json)) : Json :=
  object (members.map fun (name, value) => (some name, value))

/-- A value that may be absent; its absence is written as `null`. -/
def ofOption {α : Type} (encode : α → Json) : Option α → Json
  | none => null
  | some a => encode a

/-- A natural number. -/
def nat (n : Nat) : Json := integer n

/-- A list of values. -/
def list {α : Type} (encode : α → Json) (l : List α) : Json := array (l.map encode)

end Json

end Depot

/-!
# Paths

A path as a text, and as the list of its components. Repeated slashes, a slash at the end and the
component `.` inside a path do not count; a `.` at the beginning of a relative path does. One path is
*within* another when the components of the other begin its own.

Whoever follows a path on a disk takes it step by step, and then every `.` counts: it is a step that
stays where it is, which only a directory allows. The path *above* another lacks its last component.

## Main statements

* `Path.isWithin_iff` — the components of a path within another are those of the other and more.
-/

namespace Depot

/-- A component of a path. -/
inductive PathPart
  /-- The slash that an absolute path begins with. -/
  | root
  /-- The `.` that stays where it is. -/
  | here
  /-- The `..` that leads to the directory above. -/
  | up
  | name (s : String)
  deriving DecidableEq, Repr

/-- The components of a path. -/
abbrev Path := List PathPart

namespace Path

/-- Cut a text at its slashes. -/
def cut : List Char → List (List Char)
  | [] => [[]]
  | c :: cs =>
    match cut cs with
    | [] => [[c]]
    | first :: rest => if c = '/' then [] :: first :: rest else (c :: first) :: rest

/-- What stands between two slashes; nothing is no part. -/
def partOf? (cs : List Char) : Option PathPart :=
  if cs = [] then none
  else if cs = ['.'] then some .here
  else if cs = ['.', '.'] then some .up
  else some (.name (String.ofList cs))

/-- What stands between the slashes of a text. -/
def parts (cs : List Char) : List PathPart := (cut cs).filterMap partOf?

/-- The component that a path has because of how it begins. -/
def opening (cs : List Char) : Path :=
  match cs with
  | '/' :: _ => [.root]
  | ['.'] | '.' :: '/' :: _ => [.here]
  | _ => []

/-- The components of a text. -/
def ofChars (cs : List Char) : Path := opening cs ++ (parts cs).filter (· ≠ .here)

/-- The components of a text. -/
def ofString (s : String) : Path := ofChars s.toList

/-- A path that begins with all components of another. -/
def isWithin (p root : Path) : Bool := root.isPrefixOf p

/-- A path that leads upward somewhere. -/
def climbs (p : Path) : Bool := p.contains .up

/-- A path that begins in the working directory and does not leave it. -/
def isLocal (p : Path) : Bool := !p.contains .root && !p.climbs

/-! ### Following a path -/

/-- The steps by which one follows a text. -/
def steps (cs : List Char) : Path :=
  (if cs.head? = some '/' then [.root] else []) ++ parts cs

/-- Whether a text ends in a slash; then it cannot name a regular file. -/
def endsInSlash (s : String) : Bool := s.toList.getLast? == some '/'

/-- Whether the last step of a text is a `.`. -/
def endsHere (s : String) : Bool := (steps s.toList).getLast? == some .here

/-- A text, back to front, without the slashes and the components `.` at its end. -/
def dropEnding : List Char → List Char
  | '/' :: cs => dropEnding cs
  | '.' :: '/' :: cs => dropEnding cs
  | cs => cs

/-- The text of a path without its last component; empty if there is no other. -/
def above (s : String) : String :=
  String.ofList (dropEnding ((dropEnding s.toList.reverse).dropWhile (· ≠ '/'))).reverse

/-! ### Joining -/

/-- The text of a path one component longer. A component that begins with a slash stands alone. -/
def join (root name : String) : String :=
  if name.startsWith "/" ∨ root = "" then name
  else if root.endsWith "/" then root ++ name
  else root ++ "/" ++ name

/-- The components of a path within another are those of the other and more. -/
theorem isWithin_iff {p root : Path} : isWithin p root = true ↔ ∃ rest, p = root ++ rest := by
  unfold isWithin
  rw [List.isPrefixOf_iff_prefix]
  exact ⟨fun ⟨rest, h⟩ => ⟨rest, h.symm⟩, fun ⟨rest, h⟩ => ⟨rest, h.symm⟩⟩

end Path

end Depot

import Depot.Disk.Path

/-!
# The working directory

The files and directories below the depot's working directory. A path is followed step by step, and
every step begins in a directory that is there: `x/../a` leads to `a` only if `x` is a directory, and
`a/.` nowhere if `a` is a regular file. Names and paths have a length that cannot be exceeded.

A path may lead out of the working directory. The directories above it are there, and so is the one that
absolute paths begin in; nothing is known to be in them but what has been put there, and no path leads
back from them. What is outside the working directory is not listed.

A file is written together with the directories above it. Writing fails where one of them is a regular
file, or where the path leads to a directory; the directories made until then stay.
-/

namespace Depot

/-- What a path may lead to. -/
inductive DiskEntry
  | directory
  /-- A regular file; its text is unknown when its bytes are no text. -/
  | file (text : Option String)
  deriving DecidableEq

/-- A directory that is always there. -/
inductive Origin
  /-- The directory so many levels above the working directory; on level zero, the working directory. -/
  | above (levels : Nat)
  /-- The directory that absolute paths begin in; nothing is above it. -/
  | root
  deriving DecidableEq

/-- The names from a directory that is always there down to a file or directory. -/
structure Trail where
  origin : Origin := .above 0
  names : List String := []
  deriving DecidableEq

namespace Trail

/-- The trail of what has a name in a directory. -/
def child (t : Trail) (name : String) : Trail := { t with names := t.names ++ [name] }

/-- The trail of the directory above. -/
def parent (t : Trail) : Trail :=
  match t.origin, t.names with
  | .above levels, [] => ⟨.above (levels + 1), []⟩
  | origin, names => ⟨origin, names.dropLast⟩

/-- Whether a trail begins with all of another. -/
def isWithin (t outer : Trail) : Bool :=
  t.origin = outer.origin && outer.names.isPrefixOf t.names

/-- The trail as a text. -/
def text (t : Trail) : String := "/".intercalate t.names

end Trail

/-- The contents of the working directory, and what has been put outside, by trail. -/
structure Disk where
  entries : List (Trail × DiskEntry) := []

namespace Disk

/-- The bytes that the name of a file or directory may have. -/
def maxNameBytes : Nat := 255

/-- The bytes that a path may have. -/
def maxPathBytes : Nat := 4095

/-- The bytes of the name under which a file is written that is to replace another. -/
def draftNameBytes : Nat := 20

/-- Whether a file or directory can have such a name. -/
def isName (s : String) : Bool := s.utf8ByteSize ≤ maxNameBytes

/-- Whether a path can have such a text. -/
def isPath (s : String) : Bool := s.utf8ByteSize ≤ maxPathBytes && !s.toList.contains '\x00'

/-! ### Looking -/

/-- What is at a trail. -/
def at? (d : Disk) (t : Trail) : Option DiskEntry :=
  if t.names = [] then some .directory else d.entries.lookup t

/-- Where steps lead. Each is taken in a directory, also one that stays there or leads upward; what the
last one names need not be there. -/
def follow? (d : Disk) (t : Trail) : Path → Option Trail
  | [] => some t
  | step :: rest =>
    if d.at? t = some .directory then
      match step with
      | .root => follow? d ⟨.root, []⟩ rest
      | .here => follow? d t rest
      | .up => follow? d t.parent rest
      | .name s => if isName s then follow? d (t.child s) rest else none
    else none

/-- The trail that a text leads to; the empty text leads nowhere. -/
def trailOf? (d : Disk) (s : String) : Option Trail :=
  if s ≠ "" ∧ isPath s then d.follow? {} (Path.steps s.toList) else none

/-- What a text leads to, with its trail. -/
def find? (d : Disk) (s : String) : Option (Trail × DiskEntry) := do
  let t ← d.trailOf? s
  match ← d.at? t with
  | .directory => some (t, .directory)
  | .file text => if Path.endsInSlash s then none else some (t, .file text)

/-- Whether a text leads to anything. -/
def holds (d : Disk) (s : String) : Bool := (d.find? s).isSome

/-- The text of a file. -/
def read? (d : Disk) (s : String) : Option String :=
  match d.find? s with
  | some (_, .file text) => text
  | _ => none

/-! ### Changing -/

/-- Take away what is at a trail, but nothing below it. -/
def erase (d : Disk) (t : Trail) : Disk :=
  ⟨d.entries.filter fun x => x.1 ≠ t⟩

/-- Take away all that is below a trail, but not what is at it. -/
def eraseBelow (d : Disk) (t : Trail) : Disk :=
  ⟨d.entries.filter fun x => x.1 = t ∨ !x.1.isWithin t⟩

/-- Replace what is at a trail. -/
def place (d : Disk) (t : Trail) (e : DiskEntry) : Disk :=
  ⟨(t, e) :: (d.erase t).entries⟩

/-- Make the directories that a path leads through from a trail; whether it leads to its end then. What
was made before a component that cannot be followed stays. -/
def makeDirectories (d : Disk) (t : Trail) : Path → Disk × Bool
  | [] => (d, true)
  | .root :: rest => makeDirectories d ⟨.root, []⟩ rest
  | .here :: rest => makeDirectories d t rest
  | .up :: rest => makeDirectories d t.parent rest
  | .name s :: rest =>
    match d.at? (t.child s) with
    | some .directory => makeDirectories d (t.child s) rest
    | some (.file _) => (d, false)
    | none =>
      if isName s then makeDirectories (d.place (t.child s) .directory) (t.child s) rest
      else (d, false)

/-- Make the directories above a file; whether they are there then. -/
def makeAbove (d : Disk) (s : String) : Disk × Bool :=
  if isPath (Path.above s) then d.makeDirectories {} (Path.ofString (Path.above s)) else (d, false)

/-- Put a file into a directory; whether that could be done. -/
def put (d : Disk) (s : String) (text : Option String) : Disk × Bool :=
  match d.trailOf? s with
  | none => (d, false)
  | some t =>
    if d.at? t = some .directory ∨ Path.endsInSlash s then (d, false)
    else (d.place t (.file text), true)

/-- Write a file, making the directories above it; whether that could be done. -/
def write (d : Disk) (s : String) (text : Option String) : Disk × Bool :=
  match d.makeAbove s with
  | (d, false) => (d, false)
  | (d, true) => d.put s text

/-- Write a file as a whole: beside it at first, under a name of its own, then in its place; whether
that could be done. -/
def replace (d : Disk) (s : String) (text : Option String) : Disk × Bool :=
  match d.makeAbove s with
  | (d, false) => (d, false)
  | (d, true) =>
    if (Path.above s).utf8ByteSize + 1 + draftNameBytes ≤ maxPathBytes then d.put s text
    else (d, false)

/-- Remove a file, or a directory with all that it holds; whether it is gone. A directory is emptied before
it is removed. If the path led through what it held, as `x/..` does, it leads nowhere then: the directory
stays and counts as gone. A directory that a path leads to by a last step `.`, and one that is always
there, stay too. -/
def remove (d : Disk) (s : String) : Disk × Bool :=
  match d.find? s with
  | none => (d, false)
  | some (t, .file _) => (d.erase t, true)
  | some (t, .directory) =>
    let emptied := d.eraseBelow t
    if (emptied.trailOf? s).isNone then (emptied, true)
    else if t.names = [] ∨ Path.endsHere s then (emptied, false)
    else (emptied.erase t, true)

/-! ### Listing -/

/-- The path of a regular file in the working directory. -/
def filePath? : Trail × DiskEntry → Option String
  | (t, .file _) => if t.origin = .above 0 then some t.text else none
  | (_, .directory) => none

/-- The regular files in the working directory, sorted by their paths. -/
def filePaths (d : Disk) : List String :=
  (d.entries.filterMap filePath?).mergeSort fun a b => decide (a ≤ b)

end Disk

end Depot

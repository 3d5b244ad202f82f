import Depot.Json.Value
import Depot.Text.Decimal

/-!
# Writing JSON

A value is written in one of two layouts: `compact`, without any space, or `pretty`, with every item
and member on a line of its own, two spaces deeper than what holds it. A string is written with the
short escapes where JSON has them, and with `\u00` and two hexadecimal digits for the other control
characters; all else stands for itself.
-/

namespace Depot.Json

open Text

/-! ### Strings and numbers -/

/-- The hexadecimal digit for a number below sixteen. -/
def hexDigit (n : Nat) : Char := Nat.digitChar n

/-- A character as it stands in a string. -/
def escapeChar (c : Char) : List Char :=
  if c = '"' then ['\\', '"']
  else if c = '\\' then ['\\', '\\']
  else if c = '\x08' then ['\\', 'b']
  else if c = '\x0c' then ['\\', 'f']
  else if c = '\n' then ['\\', 'n']
  else if c = '\r' then ['\\', 'r']
  else if c = '\t' then ['\\', 't']
  else if c.toNat < 32 then
    ['\\', 'u', '0', '0', hexDigit (c.toNat / 16), hexDigit (c.toNat % 16)]
  else [c]

/-- A string with its quotes. -/
def quote (s : String) : List Char :=
  '"' :: s.toList.flatMap escapeChar ++ ['"']

/-- An integer in decimal. -/
def integerText : Int → List Char
  | .ofNat n => digits n
  | .negSucc n => '-' :: digits (n + 1)

/-! ### Layouts -/

/-- What stands between the parts of a value. -/
structure Layout where
  /-- What begins a line at a depth. -/
  lineStart : Nat → List Char
  /-- What follows the colon after a name. -/
  afterColon : List Char

/-- No spaces at all. -/
def Layout.compact : Layout := ⟨fun _ => [], []⟩

/-- Each part on a line of its own, indented by two spaces for each level. -/
def Layout.pretty : Layout := ⟨fun depth => '\n' :: List.replicate (2 * depth) ' ', [' ']⟩

mutual

/-- A value in a layout, at a depth. -/
def write (layout : Layout) (depth : Nat) : Json → List Char
  | null => "null".toList
  | bool true => "true".toList
  | bool false => "false".toList
  | integer n => integerText n
  | numeral spelling => spelling
  | string text => quote text
  | brokenString => quote "\ufffd"
  | array [] => ['[', ']']
  | array (item :: items) =>
    '[' :: layout.lineStart (depth + 1) ++ write layout (depth + 1) item ++
      writeItems layout depth items
  | object [] => ['{', '}']
  | object ((name, value) :: members) =>
    '{' :: layout.lineStart (depth + 1) ++ quote (name.getD "\ufffd") ++ ':' :: layout.afterColon ++
      write layout (depth + 1) value ++ writeMembers layout depth members

/-- The items of an array after the first, and its end. -/
def writeItems (layout : Layout) (depth : Nat) : List Json → List Char
  | [] => layout.lineStart depth ++ [']']
  | item :: items =>
    ',' :: layout.lineStart (depth + 1) ++ write layout (depth + 1) item ++
      writeItems layout depth items

/-- The members of an object after the first, and its end. -/
def writeMembers (layout : Layout) (depth : Nat) : List (Option String × Json) → List Char
  | [] => layout.lineStart depth ++ ['}']
  | (name, value) :: members =>
    ',' :: layout.lineStart (depth + 1) ++ quote (name.getD "\ufffd") ++ ':' :: layout.afterColon ++
      write layout (depth + 1) value ++ writeMembers layout depth members

end

/-- A value on one line. -/
def compact (j : Json) : String := String.ofList (write .compact 0 j)

/-- A value on many lines. -/
def pretty (j : Json) : String := String.ofList (write .pretty 0 j)

end Depot.Json

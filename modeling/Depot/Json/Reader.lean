import Depot.Json.Value
import Depot.Text.Decimal

/-!
# Reading JSON

`Json.parse?` reads exactly the texts of the JSON grammar. Each function below takes what it reads
off the front of a text and gives the rest. A value is read within a given fuel, which bounds the
nesting and the number of parts; twice the length of the text is always enough.
-/

namespace Depot.Json

open Text

/-- The spaces that may stand between the parts of a value. -/
def isSpace (c : Char) : Bool := c = ' ' || c = '\n' || c = '\r' || c = '\t'

/-- A text without the spaces it begins with. -/
def skipSpace (cs : List Char) : List Char := cs.dropWhile isSpace

/-! ### Strings -/

/-- What a string is made of: characters, and the code units given by number. -/
inductive Piece
  | char (c : Char)
  | codeUnit (n : Nat)

/-- The number that a hexadecimal digit stands for. -/
def hexValue? (c : Char) : Option Nat :=
  if c.isDigit then some (c.toNat - '0'.toNat)
  else if 'a' ≤ c ∧ c ≤ 'f' then some (c.toNat - 'a'.toNat + 10)
  else if 'A' ≤ c ∧ c ≤ 'F' then some (c.toNat - 'A'.toNat + 10)
  else none

/-- The character of a short escape. -/
def shortEscape? : Char → Option Char
  | '"' => some '"'
  | '\\' => some '\\'
  | '/' => some '/'
  | 'b' => some '\x08'
  | 'f' => some '\x0c'
  | 'n' => some '\n'
  | 'r' => some '\r'
  | 't' => some '\t'
  | _ => none

/-- The pieces of a string up to its closing quote. -/
def readPieces : List Char → Option (List Piece × List Char)
  | '"' :: cs => some ([], cs)
  | '\\' :: 'u' :: a :: b :: c :: d :: cs => do
    let a ← hexValue? a
    let b ← hexValue? b
    let c ← hexValue? c
    let d ← hexValue? d
    let (pieces, cs) ← readPieces cs
    some (.codeUnit (((a * 16 + b) * 16 + c) * 16 + d) :: pieces, cs)
  | '\\' :: e :: cs => do
    let c ← shortEscape? e
    let (pieces, cs) ← readPieces cs
    some (.char c :: pieces, cs)
  | c :: cs =>
    if c.toNat < 32 ∨ c = '\\' then none
    else do
      let (pieces, cs) ← readPieces cs
      some (.char c :: pieces, cs)
  | [] => none

/-- Whether a code unit is the first half of a surrogate pair. -/
def isHighHalf (n : Nat) : Bool := 0xD800 ≤ n && n < 0xDC00

/-- Whether a code unit is the second half of a surrogate pair. -/
def isLowHalf (n : Nat) : Bool := 0xDC00 ≤ n && n < 0xE000

/-- The text that pieces make up; none if half a surrogate pair stands alone. -/
def assemble : List Piece → Option (List Char)
  | [] => some []
  | .char c :: pieces => (assemble pieces).map (c :: ·)
  | .codeUnit high :: .codeUnit low :: pieces =>
    if isHighHalf high && isLowHalf low then
      (assemble pieces).map
        (Char.ofNat (0x10000 + (high - 0xD800) * 0x400 + (low - 0xDC00)) :: ·)
    else if isHighHalf high || isLowHalf high then none
    else (assemble (.codeUnit low :: pieces)).map (Char.ofNat high :: ·)
  | .codeUnit n :: pieces =>
    if isHighHalf n || isLowHalf n then none
    else (assemble pieces).map (Char.ofNat n :: ·)

/-- A string after its opening quote: its text, if it stands for one. -/
def readString (cs : List Char) : Option (Option String × List Char) := do
  let (pieces, cs) ← readPieces cs
  some ((assemble pieces).map String.ofList, cs)

/-! ### Numbers -/

/-- One digit or more. -/
def readDigits (cs : List Char) : Option (List Char × List Char) :=
  match cs.takeWhile Char.isDigit with
  | [] => none
  | ds => some (ds, cs.drop ds.length)

/-- The digits before the point: a zero stands alone. -/
def readWhole : List Char → Option (List Char × List Char)
  | '0' :: cs => some (['0'], cs)
  | cs => readDigits cs

/-- The point and the digits after it, if there is a point. -/
def readPlaces : List Char → Option (List Char × List Char)
  | '.' :: cs => do
    let (ds, cs) ← readDigits cs
    some ('.' :: ds, cs)
  | cs => some ([], cs)

/-- The sign of an exponent, if it has one. -/
def readSign : List Char → List Char × List Char
  | '+' :: cs => (['+'], cs)
  | '-' :: cs => (['-'], cs)
  | cs => ([], cs)

/-- The exponent, if there is one. -/
def readExponent (cs : List Char) : Option (List Char × List Char) :=
  match cs with
  | [] => some ([], [])
  | e :: rest =>
    if e = 'e' ∨ e = 'E' then do
      let (sign, rest) := readSign rest
      let (ds, rest) ← readDigits rest
      some (e :: sign ++ ds, rest)
    else some ([], cs)

/-- A number after its sign: an integer if it is written as one and is not a negative zero. -/
def readUnsigned (negative : Bool) (cs : List Char) : Option (Json × List Char) := do
  let (whole, cs) ← readWhole cs
  let (places, cs) ← readPlaces cs
  let (exponent, cs) ← readExponent cs
  if places = [] ∧ exponent = [] ∧ ¬(negative ∧ value whole = 0) then
    some (.integer (if negative then -(value whole : Int) else value whole), cs)
  else some (.numeral ((if negative then ['-'] else []) ++ whole ++ places ++ exponent), cs)

/-- A number. -/
def readNumber : List Char → Option (Json × List Char)
  | '-' :: cs => readUnsigned true cs
  | cs => readUnsigned false cs

/-! ### Values -/

mutual

/-- A value, after any spaces. -/
def readValue : Nat → List Char → Option (Json × List Char)
  | 0, _ => none
  | fuel + 1, cs =>
    match skipSpace cs with
    | 'n' :: 'u' :: 'l' :: 'l' :: cs => some (.null, cs)
    | 't' :: 'r' :: 'u' :: 'e' :: cs => some (.bool true, cs)
    | 'f' :: 'a' :: 'l' :: 's' :: 'e' :: cs => some (.bool false, cs)
    | '"' :: cs => do
      let (text, cs) ← readString cs
      some (match text with
        | some s => .string s
        | none => .brokenString, cs)
    | '[' :: cs =>
      match skipSpace cs with
      | ']' :: cs => some (.array [], cs)
      | cs => do
        let (items, cs) ← readItems fuel cs
        some (.array items, cs)
    | '{' :: cs =>
      match skipSpace cs with
      | '}' :: cs => some (.object [], cs)
      | cs => do
        let (members, cs) ← readMembers fuel cs
        some (.object members, cs)
    | cs => readNumber cs

/-- Items separated by commas, and the end of the array. -/
def readItems : Nat → List Char → Option (List Json × List Char)
  | 0, _ => none
  | fuel + 1, cs => do
    let (item, cs) ← readValue fuel cs
    match skipSpace cs with
    | ',' :: cs => do
      let (items, cs) ← readItems fuel cs
      some (item :: items, cs)
    | ']' :: cs => some ([item], cs)
    | _ => none

/-- Members separated by commas, and the end of the object. -/
def readMembers : Nat → List Char → Option (List (Option String × Json) × List Char)
  | 0, _ => none
  | fuel + 1, cs =>
    match skipSpace cs with
    | '"' :: cs => do
      let (name, cs) ← readString cs
      match skipSpace cs with
      | ':' :: cs => do
        let (member, cs) ← readValue fuel cs
        match skipSpace cs with
        | ',' :: cs => do
          let (members, cs) ← readMembers fuel cs
          some ((name, member) :: members, cs)
        | '}' :: cs => some ([(name, member)], cs)
        | _ => none
      | _ => none
    | _ => none

end

/-- The value that a text is; spaces may stand around it, and nothing else. -/
def parse? (s : String) : Option Json :=
  match readValue (2 * s.length + 2) s.toList with
  | some (j, cs) => if skipSpace cs = [] then some j else none
  | none => none

end Depot.Json

import Depot.Json.Reader
import Depot.Json.Writer
import Depot.Proofs.Numerals

/-!
# Written JSON is read back

A value in writing is read as the value that was written, in either layout and to any depth, and what comes
after it is left. This holds of the values that stand for something: a number that is kept as it is spelled,
or a string that stands for no text, is not written by anyone but who has read it.

## Main statements

* `readValue_write` — a written value is read, given as much fuel as it has characters.
* `parse?_pretty` — a text that a value was written to is that value.
-/

namespace Depot.Json

open Text

/-! ### Strings -/

/-- The characters that are written with a short escape. -/
def shortlyEscaped : List Char := ['"', '\\', '\x08', '\x0c', '\n', '\r', '\t']

/-- The piece that a reader makes of a character in a written string. -/
def Piece.of (c : Char) : Piece :=
  if c ∈ shortlyEscaped ∨ 32 ≤ c.toNat then .char c else .codeUnit c.toNat

theorem readPieces_short {e c : Char} (h : shortEscape? e = some c) (cs : List Char) :
    readPieces ('\\' :: e :: cs) = (readPieces cs).map fun x => (.char c :: x.1, x.2) := by
  have hu : e ≠ 'u' := by
    rintro rfl
    cases h
  rw [readPieces.eq_3 e cs fun _ _ _ _ _ heq => absurd heq hu, h, Option.map_eq_bind]
  rfl

theorem hexValue?_hexDigit {n : Nat} (h : n < 16) : hexValue? (hexDigit n) = some n := by
  have hall : ∀ n < 16, hexValue? (hexDigit n) = some n := by decide
  exact hall n h

theorem readPieces_numbered {n : Nat} (h : n < 32) (cs : List Char) :
    readPieces ('\\' :: 'u' :: '0' :: '0' :: hexDigit (n / 16) :: hexDigit (n % 16) :: cs) =
      (readPieces cs).map fun x => (.codeUnit n :: x.1, x.2) := by
  have hzero : hexValue? '0' = some 0 := rfl
  have hn : ((0 * 16 + 0) * 16 + n / 16) * 16 + n % 16 = n := by omega
  rw [readPieces, hzero, hexValue?_hexDigit (by omega), hexValue?_hexDigit (by omega)]
  simp only [Option.bind_eq_bind, Option.bind_some, hn, Option.map_eq_bind]
  rfl

theorem readPieces_plain {c : Char} (visible : 32 ≤ c.toNat) (quote : c ≠ '"') (backslash : c ≠ '\\')
    (cs : List Char) : readPieces (c :: cs) = (readPieces cs).map fun x => (.char c :: x.1, x.2) := by
  have hread : ¬(c.toNat < 32 ∨ c = '\\') := fun h => h.elim (Nat.not_lt_of_le visible) backslash
  rw [readPieces.eq_4 c cs quote (fun _ _ _ _ _ heq => absurd heq backslash)
    fun _ _ heq => absurd heq backslash, if_neg hread, Option.map_eq_bind]
  rfl

/-- **A character is read as it was written.** -/
theorem readPieces_escapeChar (c : Char) (cs : List Char) :
    readPieces (escapeChar c ++ cs) = (readPieces cs).map fun x => (Piece.of c :: x.1, x.2) := by
  by_cases hshort : c ∈ shortlyEscaped
  · rw [Piece.of, if_pos (.inl hshort)]
    simp only [shortlyEscaped, List.mem_cons, List.not_mem_nil, or_false] at hshort
    rcases hshort with rfl | rfl | rfl | rfl | rfl | rfl | rfl <;> exact readPieces_short rfl cs
  · have hlong : escapeChar c = if c.toNat < 32 then
        ['\\', 'u', '0', '0', hexDigit (c.toNat / 16), hexDigit (c.toNat % 16)] else [c] := by
      simp only [shortlyEscaped, List.mem_cons, List.not_mem_nil, or_false, not_or] at hshort
      simp only [escapeChar, hshort, if_false]
    rw [hlong, Piece.of]
    by_cases hsmall : c.toNat < 32
    · rw [if_pos hsmall, if_neg (by simp [hshort, hsmall])]
      exact readPieces_numbered hsmall cs
    · rw [if_neg hsmall, if_pos (.inr (Nat.le_of_not_lt hsmall))]
      refine readPieces_plain (Nat.le_of_not_lt hsmall) ?_ ?_ cs <;>
        (rintro rfl; exact hshort (by decide))

/-- Pieces make up the characters that they were made of. -/
theorem assemble_of (c : Char) (pieces : List Piece) :
    assemble (Piece.of c :: pieces) = (assemble pieces).map (c :: ·) := by
  unfold Piece.of
  split
  · rfl
  · next h =>
    have hhalf : isHighHalf c.toNat = false ∧ isLowHalf c.toNat = false := by
      simp [isHighHalf, isLowHalf]
      omega
    have hc : Char.ofNat c.toNat = c := Char.ofNat_toNat c
    cases pieces with
    | nil => simp [assemble, hhalf, hc]
    | cons p pieces => cases p <;> simp [assemble, hhalf, hc]

/-- **A string is read as it was written.** -/
theorem readString_quote (s : String) (cs : List Char) :
    readString (s.toList.flatMap escapeChar ++ '"' :: cs) = some (some s, cs) := by
  have hpieces : ∀ l : List Char, readPieces (l.flatMap escapeChar ++ '"' :: cs) = some (l.map Piece.of, cs) := by
    intro l
    induction l with
    | nil => rfl
    | cons c l ih =>
      rw [List.flatMap_cons, List.append_assoc, readPieces_escapeChar, ih]
      rfl
  have hassemble : ∀ l : List Char, assemble (l.map Piece.of) = some l := by
    intro l
    induction l with
    | nil => rfl
    | cons c l ih =>
      rw [List.map_cons, assemble_of, ih]
      rfl
  rw [readString, hpieces]
  simp only [Option.bind_eq_bind, Option.bind_some, hassemble, Option.map_some, String.ofList_toList]

/-! ### Numbers -/

/-- A text that does not go on as a number may. -/
def EndsNumber (cs : List Char) : Prop :=
  ∀ c ∈ cs.head?, c.isDigit = false ∧ c ≠ '.' ∧ c ≠ 'e' ∧ c ≠ 'E'

theorem EndsNumber.nil : EndsNumber [] := fun _ hc => by cases hc

theorem EndsNumber.cons {c : Char} {cs : List Char}
    (h : c.isDigit = false ∧ c ≠ '.' ∧ c ≠ 'e' ∧ c ≠ 'E') : EndsNumber (c :: cs) := by
  intro c' hc
  obtain rfl : c = c' := Option.some.inj hc
  exact h

theorem readWhole_digits (n : Nat) {cs : List Char} (ends : EndsNumeral cs) :
    readWhole (digits n ++ cs) = some (digits n, cs) := by
  have hnumeral := Numeral.digits n
  obtain ⟨d, more, hd, -⟩ := hnumeral.exists_cons
  by_cases hzero : d = '0'
  · subst hzero
    obtain ⟨rfl, rfl⟩ := digits_eq_zero_cons hd
    rw [hd]
    rfl
  · have hfirst : ∀ rest, digits n ++ cs = '0' :: rest → False := by
      intro rest heq
      rw [hd, List.cons_append] at heq
      exact hzero (List.cons_eq_cons.1 heq).1
    rw [readWhole.eq_2 _ hfirst, readDigits, hnumeral.takeWhile_append ends, hd]
    dsimp only
    rw [← hd, List.drop_left]

/-- No point and no exponent follow where a number ends. -/
theorem EndsNumber.readPlaces {cs : List Char} (ends : EndsNumber cs) : readPlaces cs = some ([], cs) :=
  readPlaces.eq_2 cs fun rest heq => (ends '.' (by rw [heq]; rfl)).2.1 rfl

theorem EndsNumber.readExponent {cs : List Char} (ends : EndsNumber cs) :
    readExponent cs = some ([], cs) := by
  cases cs with
  | nil => rfl
  | cons c cs =>
    obtain ⟨-, -, hsmall, hcapital⟩ := ends c rfl
    rw [Json.readExponent, if_neg (by simp [hsmall, hcapital])]

theorem readUnsigned_digits {negative : Bool} {n : Nat} (nonzero : negative = true → n ≠ 0)
    {cs : List Char} (ends : EndsNumber cs) :
    readUnsigned negative (digits n ++ cs) = some (.integer (if negative then -(n : Int) else n), cs) := by
  rw [readUnsigned, readWhole_digits n fun c hc => (ends c hc).1]
  simp only [Option.bind_eq_bind, Option.bind_some, ends.readPlaces, ends.readExponent, value_digits]
  rw [if_pos ⟨trivial, trivial, fun h => nonzero h.1 h.2⟩]

/-- **An integer is read as it was written.** -/
theorem readNumber_integerText (n : Int) {cs : List Char} (ends : EndsNumber cs) :
    readNumber (integerText n ++ cs) = some (.integer n, cs) := by
  cases n with
  | ofNat n =>
    obtain ⟨d, more, hd, hdigit⟩ := (Numeral.digits n).exists_cons
    have hfirst : ∀ rest, digits n ++ cs = '-' :: rest → False := by
      intro rest heq
      rw [hd, List.cons_append] at heq
      rw [(List.cons_eq_cons.1 heq).1] at hdigit
      cases hdigit
    rw [integerText, readNumber.eq_2 _ hfirst, readUnsigned_digits (fun h => by cases h) ends]
    rfl
  | negSucc n =>
    rw [integerText, List.cons_append, readNumber, readUnsigned_digits (fun _ => n.succ_ne_zero) ends]
    rfl

/-! ### Layouts -/

/-- A layout that puts nothing but spaces between the parts of a value. -/
structure Layout.Blank (layout : Layout) : Prop where
  lineStart : ∀ depth, ∀ c ∈ layout.lineStart depth, isSpace c = true
  afterColon : ∀ c ∈ layout.afterColon, isSpace c = true

theorem Layout.blank_pretty : pretty.Blank := by
  refine ⟨fun depth c hc => ?_, fun c hc => ?_⟩
  · rcases List.mem_cons.1 hc with rfl | hc
    · rfl
    · rw [List.eq_of_mem_replicate hc]
      rfl
  · rw [List.mem_singleton.1 hc]
    rfl

theorem skipSpace_append {spaces : List Char} (h : ∀ c ∈ spaces, isSpace c = true) (cs : List Char) :
    skipSpace (spaces ++ cs) = skipSpace cs := List.dropWhile_append_of_pos h

theorem skipSpace_cons {c : Char} (visible : isSpace c = false) (cs : List Char) :
    skipSpace (c :: cs) = c :: cs := List.dropWhile_cons_of_neg (by simp [visible])

/-- A reader of a value passes over spaces. -/
theorem readValue_append {spaces : List Char} (h : ∀ c ∈ spaces, isSpace c = true) (fuel : Nat)
    (cs : List Char) : readValue fuel (spaces ++ cs) = readValue fuel cs := by
  cases fuel with
  | zero => rfl
  | succ fuel => rw [readValue.eq_2, skipSpace_append h, ← readValue.eq_2]

theorem readItems_append {spaces : List Char} (h : ∀ c ∈ spaces, isSpace c = true) (fuel : Nat)
    (cs : List Char) : readItems fuel (spaces ++ cs) = readItems fuel cs := by
  cases fuel with
  | zero => rfl
  | succ fuel => rw [readItems, readItems, readValue_append h]

theorem readMembers_append {spaces : List Char} (h : ∀ c ∈ spaces, isSpace c = true) (fuel : Nat)
    (cs : List Char) : readMembers fuel (spaces ++ cs) = readMembers fuel cs := by
  cases fuel with
  | zero => rfl
  | succ fuel => rw [readMembers, readMembers, skipSpace_append h]

/-! ### Values -/

/-- A value that stands for something: its numbers are integers, and its strings are texts. -/
inductive Plain : Json → Prop
  | null : Plain null
  | bool (b : Bool) : Plain (bool b)
  | integer (n : Int) : Plain (integer n)
  | string (s : String) : Plain (string s)
  | array {items : List Json} (plain : ∀ j ∈ items, Plain j) : Plain (array items)
  | object {members : List (Option String × Json)} (named : ∀ m ∈ members, m.1.isSome = true)
      (plain : ∀ m ∈ members, Plain m.2) : Plain (object members)

/-- A number begins with a digit or with its sign. -/
theorem integerText_head (n : Int) : ∃ c cs, integerText n = c :: cs ∧ (c.isDigit = true ∨ c = '-') := by
  cases n with
  | ofNat n =>
    obtain ⟨d, more, hd, hdigit⟩ := (Numeral.digits n).exists_cons
    exact ⟨d, more, hd, .inl hdigit⟩
  | negSucc n => exact ⟨'-', _, rfl, .inr rfl⟩

theorem isSpace_eq_false {c : Char} (h : c.isDigit = true ∨ c = '-') : isSpace c = false := by
  rcases h with h | rfl
  · simp only [isSpace, Bool.or_eq_false_iff, decide_eq_false_iff_not]
    refine ⟨⟨⟨?_, ?_⟩, ?_⟩, ?_⟩ <;> rintro rfl <;> cases h
  · rfl

/-- A written value begins with a character that is no space and ends no array. -/
theorem Plain.head {layout : Layout} {depth : Nat} {j : Json} (h : j.Plain) :
    ∃ c cs, write layout depth j = c :: cs ∧ isSpace c = false ∧ c ≠ ']' := by
  cases h with
  | null => exact ⟨'n', _, rfl, rfl, by decide⟩
  | bool b => cases b <;> exact ⟨_, _, rfl, rfl, by decide⟩
  | integer n =>
    obtain ⟨c, cs, heq, hc⟩ := integerText_head n
    refine ⟨c, cs, by rw [write, heq], isSpace_eq_false hc, ?_⟩
    rintro rfl
    rcases hc with hc | hc <;> cases hc
  | string s => exact ⟨'"', _, rfl, rfl, by decide⟩
  | @array items => cases items <;> exact ⟨'[', _, rfl, rfl, by decide⟩
  | @object members =>
    cases members with
    | nil => exact ⟨'{', _, rfl, rfl, by decide⟩
    | cons m members => exact ⟨'{', _, rfl, rfl, by decide⟩

/-- What begins as a number is read as a number. -/
theorem readValue_integerText (fuel : Nat) (n : Int) {cs : List Char} (ends : EndsNumber cs) :
    readValue (fuel + 1) (integerText n ++ cs) = some (.integer n, cs) := by
  have hnumber := readNumber_integerText n ends
  obtain ⟨c, more, heq, hc⟩ := integerText_head n
  rw [heq, List.cons_append] at hnumber ⊢
  rw [readValue.eq_2, skipSpace_cons (isSpace_eq_false hc)]
  split
  case h_7 => exact hnumber
  all_goals
    next heq' =>
    rw [(List.cons_eq_cons.1 heq').1] at hc
    rcases hc with hc | hc <;> cases hc

/-- Spaces end a number, and so does what comes after them. -/
theorem EndsNumber.append {spaces : List Char} (h : ∀ c ∈ spaces, isSpace c = true) {cs : List Char}
    (ends : EndsNumber cs) : EndsNumber (spaces ++ cs) := by
  cases spaces with
  | nil => exact ends
  | cons c spaces =>
    have hspace := h c (.head _)
    simp only [isSpace, Bool.or_eq_true, decide_eq_true_eq] at hspace
    rcases hspace with ((rfl | rfl) | rfl) | rfl <;> exact .cons (by decide)

/-! ### Parts of values -/

theorem readValue_quote (fuel : Nat) (cs : List Char) :
    readValue (fuel + 1) ('"' :: cs) = (readString cs).bind fun x =>
      some (match x.1 with
        | some s => .string s
        | none => .brokenString, x.2) := rfl

theorem readValue_string {s : String} {cs rest : List Char} (fuel : Nat)
    (read : readString cs = some (some s, rest)) :
    readValue (fuel + 1) ('"' :: cs) = some (.string s, rest) := by
  rw [readValue_quote, read]
  rfl

theorem readValue_bracket (fuel : Nat) (cs : List Char) :
    readValue (fuel + 1) ('[' :: cs) =
      match skipSpace cs with
      | ']' :: cs => some (.array [], cs)
      | cs => (readItems fuel cs).bind fun x => some (.array x.1, x.2) := rfl

/-- An array that does not end at once has items. -/
theorem readValue_array {c : Char} {cs more : List Char} (fuel : Nat) (first : skipSpace cs = c :: more)
    (goesOn : c ≠ ']') :
    readValue (fuel + 1) ('[' :: cs) = (readItems fuel (c :: more)).map fun x => (.array x.1, x.2) := by
  rw [readValue_bracket, first, Option.map_eq_bind]
  split
  · next heq => exact absurd (List.cons_eq_cons.1 heq).1 goesOn
  · rfl

theorem readValue_brace (fuel : Nat) (cs : List Char) :
    readValue (fuel + 1) ('{' :: cs) =
      match skipSpace cs with
      | '}' :: cs => some (.object [], cs)
      | cs => (readMembers fuel cs).bind fun x => some (.object x.1, x.2) := rfl

/-- An object that does not end at once has members. -/
theorem readValue_object {c : Char} {cs more : List Char} (fuel : Nat) (first : skipSpace cs = c :: more)
    (goesOn : c ≠ '}') :
    readValue (fuel + 1) ('{' :: cs) = (readMembers fuel (c :: more)).map fun x => (.object x.1, x.2) := by
  rw [readValue_brace, first, Option.map_eq_bind]
  split
  · next heq => exact absurd (List.cons_eq_cons.1 heq).1 goesOn
  · rfl

theorem readItems_last {fuel : Nat} {j : Json} {cs more rest : List Char}
    (read : readValue fuel cs = some (j, more)) (ends : skipSpace more = ']' :: rest) :
    readItems (fuel + 1) cs = some ([j], rest) := by
  rw [readItems, read, Option.bind_eq_bind, Option.bind_some]
  dsimp only
  rw [ends]
  rfl

theorem readItems_cons {fuel : Nat} {j : Json} {cs more rest : List Char}
    (read : readValue fuel cs = some (j, more)) (goesOn : skipSpace more = ',' :: rest) :
    readItems (fuel + 1) cs = (readItems fuel rest).map fun x => (j :: x.1, x.2) := by
  rw [readItems, read, Option.bind_eq_bind, Option.bind_some, Option.map_eq_bind]
  dsimp only
  rw [goesOn]
  rfl

theorem readMembers_name (fuel : Nat) (cs : List Char) :
    readMembers (fuel + 1) ('"' :: cs) = (readString cs).bind fun x =>
      match skipSpace x.2 with
      | ':' :: cs => (readValue fuel cs).bind fun y =>
        match skipSpace y.2 with
        | ',' :: cs => (readMembers fuel cs).bind fun z => some ((x.1, y.1) :: z.1, z.2)
        | '}' :: cs => some ([(x.1, y.1)], cs)
        | _ => none
      | _ => none := rfl

/-- A member is read up to what follows it. -/
theorem readMembers_quote {fuel : Nat} {j : Json} {cs more : List Char} (name : String)
    (read : readValue fuel cs = some (j, more)) :
    readMembers (fuel + 1) (quote name ++ ':' :: cs) =
      match skipSpace more with
      | ',' :: rest => (readMembers fuel rest).map fun x => ((some name, j) :: x.1, x.2)
      | '}' :: rest => some ([(some name, j)], rest)
      | _ => none := by
  rw [quote, List.append_assoc, List.cons_append, readMembers_name]
  rw [List.singleton_append, readString_quote, Option.bind_some, skipSpace_cons rfl]
  change (readValue fuel cs).bind _ = _
  simp only [read, Option.bind_some, Option.map_eq_bind]
  rfl

section ReadsBack

variable {layout : Layout} {fuel : Nat}

/-- **With some fuel, all is read back** that has no more characters than that: values, and what comes in
an array or an object, its end included. -/
structure ReadsBack (layout : Layout) (fuel : Nat) : Prop where
  value : ∀ {j : Json} {depth : Nat} {cs : List Char}, j.Plain → EndsNumber cs →
    (write layout depth j).length ≤ fuel → readValue fuel (write layout depth j ++ cs) = some (j, cs)
  items : ∀ {j : Json} {items : List Json} {depth : Nat} {cs : List Char}, (∀ i ∈ j :: items, i.Plain) →
    (write layout (depth + 1) j ++ writeItems layout depth items).length ≤ fuel →
    readItems fuel (write layout (depth + 1) j ++ (writeItems layout depth items ++ cs)) =
      some (j :: items, cs)
  members : ∀ {name : String} {j : Json} {members : List (Option String × Json)} {depth : Nat}
    {cs : List Char}, j.Plain → (∀ m ∈ members, m.1.isSome = true) → (∀ m ∈ members, m.2.Plain) →
    (write layout (depth + 1) j ++ writeMembers layout depth members).length ≤ fuel →
    readMembers fuel (quote name ++ ':' :: (layout.afterColon ++ (write layout (depth + 1) j ++
      (writeMembers layout depth members ++ cs)))) = some ((some name, j) :: members, cs)

/-- What follows an item ends a number. -/
theorem endsNumber_writeItems (hl : layout.Blank) (depth : Nat) (items : List Json) (cs : List Char) :
    EndsNumber (writeItems layout depth items ++ cs) := by
  cases items with
  | nil =>
    rw [writeItems, List.append_assoc]
    exact .append (hl.lineStart depth) (.cons (by decide))
  | cons j items => exact .cons (by decide)

theorem endsNumber_writeMembers (hl : layout.Blank) (depth : Nat)
    (members : List (Option String × Json)) (cs : List Char) :
    EndsNumber (writeMembers layout depth members ++ cs) := by
  cases members with
  | nil =>
    rw [writeMembers, List.append_assoc]
    exact .append (hl.lineStart depth) (.cons (by decide))
  | cons m members => exact .cons (by decide)

theorem ReadsBack.value_succ (hl : layout.Blank) (h : ReadsBack layout fuel) {j : Json} {depth : Nat}
    {cs : List Char} (plain : j.Plain) (ends : EndsNumber cs)
    (fits : (write layout depth j).length ≤ fuel + 1) :
    readValue (fuel + 1) (write layout depth j ++ cs) = some (j, cs) := by
  cases plain with
  | null => rfl
  | bool b => cases b <;> rfl
  | integer n => exact readValue_integerText fuel n ends
  | string s =>
    rw [write, quote, List.append_assoc]
    exact readValue_string fuel (readString_quote s cs)
  | @array items plain =>
    cases items with
    | nil => rfl
    | cons j items =>
      obtain ⟨c, more, hfirst, hvisible, hopen⟩ := @Plain.head layout (depth + 1) j (plain j (.head _))
      have hitems : readItems fuel (write layout (depth + 1) j ++ (writeItems layout depth items ++ cs)) =
          some (j :: items, cs) := by
        refine h.items plain ?_
        simp only [write, List.length_append, List.length_cons] at fits ⊢
        omega
      have hskip : skipSpace (layout.lineStart (depth + 1) ++ (write layout (depth + 1) j ++
          (writeItems layout depth items ++ cs))) =
          c :: (more ++ (writeItems layout depth items ++ cs)) := by
        rw [skipSpace_append (hl.lineStart _), hfirst, List.cons_append, skipSpace_cons hvisible]
      simp only [write, List.cons_append, List.append_assoc]
      rw [readValue_array fuel hskip hopen, ← List.cons_append, ← hfirst, hitems]
      rfl
  | @object members named plain =>
    cases members with
    | nil => rfl
    | cons m members =>
      obtain ⟨name, j⟩ := m
      obtain ⟨name, rfl⟩ := Option.isSome_iff_exists.1 (named _ (.head _))
      have hmembers : readMembers fuel (quote name ++ ':' :: (layout.afterColon ++
          (write layout (depth + 1) j ++ (writeMembers layout depth members ++ cs)))) =
          some ((some name, j) :: members, cs) := by
        refine h.members (plain _ (.head _)) (fun m hm => named m (.tail _ hm))
          (fun m hm => plain m (.tail _ hm)) ?_
        simp only [write, List.length_append, List.length_cons] at fits ⊢
        omega
      have hskip : skipSpace (layout.lineStart (depth + 1) ++ (quote name ++ ':' :: (layout.afterColon ++
          (write layout (depth + 1) j ++ (writeMembers layout depth members ++ cs))))) =
          quote name ++ ':' :: (layout.afterColon ++ (write layout (depth + 1) j ++
            (writeMembers layout depth members ++ cs))) := by
        rw [skipSpace_append (hl.lineStart _)]
        exact skipSpace_cons rfl _
      simp only [write, Option.getD_some, List.cons_append, List.append_assoc]
      rw [readValue_object fuel hskip (by decide)]
      exact (congrArg (Option.map _) hmembers).trans rfl

theorem ReadsBack.items_succ (hl : layout.Blank) (h : ReadsBack layout fuel) {j : Json}
    {items : List Json} {depth : Nat} {cs : List Char} (plain : ∀ i ∈ j :: items, i.Plain)
    (fits : (write layout (depth + 1) j ++ writeItems layout depth items).length ≤ fuel + 1) :
    readItems (fuel + 1) (write layout (depth + 1) j ++ (writeItems layout depth items ++ cs)) =
      some (j :: items, cs) := by
  have hpos : 0 < (writeItems layout depth items).length := by cases items <;> simp [writeItems]
  have hvalue : readValue fuel (write layout (depth + 1) j ++ (writeItems layout depth items ++ cs)) =
      some (j, writeItems layout depth items ++ cs) := by
    refine h.value (plain j (.head _)) (endsNumber_writeItems hl depth items cs) ?_
    rw [List.length_append] at fits
    omega
  cases items with
  | nil =>
    refine readItems_last hvalue ?_
    rw [writeItems, List.append_assoc, skipSpace_append (hl.lineStart _)]
    rfl
  | cons i items =>
    obtain ⟨c, more, hfirst, -⟩ := @Plain.head layout (depth + 1) j (plain j (.head _))
    have hitems : readItems fuel (write layout (depth + 1) i ++ (writeItems layout depth items ++ cs)) =
        some (i :: items, cs) := by
      refine h.items (fun k hk => plain k (.tail _ hk)) ?_
      rw [hfirst] at fits
      simp only [writeItems, List.length_append, List.length_cons] at fits ⊢
      omega
    have hskip : skipSpace (writeItems layout depth (i :: items) ++ cs) = ',' ::
        (layout.lineStart (depth + 1) ++ (write layout (depth + 1) i ++
          (writeItems layout depth items ++ cs))) := by
      simp only [writeItems, List.cons_append, List.append_assoc]
      exact skipSpace_cons rfl _
    rw [readItems_cons hvalue hskip, readItems_append (hl.lineStart _), hitems]
    rfl

theorem ReadsBack.members_succ (hl : layout.Blank) (h : ReadsBack layout fuel) {name : String} {j : Json}
    {members : List (Option String × Json)} {depth : Nat} {cs : List Char} (plain : j.Plain)
    (named : ∀ m ∈ members, m.1.isSome = true) (others : ∀ m ∈ members, m.2.Plain)
    (fits : (write layout (depth + 1) j ++ writeMembers layout depth members).length ≤ fuel + 1) :
    readMembers (fuel + 1) (quote name ++ ':' :: (layout.afterColon ++ (write layout (depth + 1) j ++
      (writeMembers layout depth members ++ cs)))) = some ((some name, j) :: members, cs) := by
  have hpos : 0 < (writeMembers layout depth members).length := by
    rcases members with - | ⟨⟨name, j⟩, members⟩ <;> simp [writeMembers]
  have hvalue : readValue fuel (layout.afterColon ++ (write layout (depth + 1) j ++
      (writeMembers layout depth members ++ cs))) =
      some (j, writeMembers layout depth members ++ cs) := by
    rw [readValue_append hl.afterColon]
    refine h.value plain (endsNumber_writeMembers hl depth members cs) ?_
    rw [List.length_append] at fits
    omega
  rw [readMembers_quote name hvalue]
  cases members with
  | nil =>
    rw [writeMembers, List.append_assoc, skipSpace_append (hl.lineStart _)]
    rfl
  | cons m members =>
    obtain ⟨name', j'⟩ := m
    obtain ⟨name', rfl⟩ := Option.isSome_iff_exists.1 (named _ (.head _))
    obtain ⟨c, more, hfirst, -⟩ := @Plain.head layout (depth + 1) j plain
    have hmembers : readMembers fuel (quote name' ++ ':' :: (layout.afterColon ++
        (write layout (depth + 1) j' ++ (writeMembers layout depth members ++ cs)))) =
        some ((some name', j') :: members, cs) := by
      refine h.members (others _ (.head _)) (fun m hm => named m (.tail _ hm))
        (fun m hm => others m (.tail _ hm)) ?_
      rw [hfirst] at fits
      simp only [writeMembers, List.length_append, List.length_cons] at fits ⊢
      omega
    have hskip : skipSpace (writeMembers layout depth ((some name', j') :: members) ++ cs) = ',' ::
        (layout.lineStart (depth + 1) ++ (quote name' ++ ':' :: (layout.afterColon ++
          (write layout (depth + 1) j' ++ (writeMembers layout depth members ++ cs))))) := by
      simp only [writeMembers, Option.getD_some, List.cons_append, List.append_assoc]
      exact skipSpace_cons rfl _
    rw [hskip]
    change (readMembers fuel _).map _ = _
    rw [readMembers_append (hl.lineStart _), hmembers]
    rfl

/-- With any fuel, all is read back that has no more characters than that. -/
theorem readsBack (hl : layout.Blank) (fuel : Nat) : ReadsBack layout fuel := by
  induction fuel with
  | zero =>
    refine ⟨fun {j depth cs} plain ends fits => ?_, fun {j items depth cs} plain fits => ?_,
      fun {name j members depth cs} plain named others fits => ?_⟩
    · obtain ⟨c, more, hfirst, -⟩ := @Plain.head layout depth j plain
      rw [hfirst] at fits
      cases fits
    · obtain ⟨c, more, hfirst, -⟩ := @Plain.head layout (depth + 1) j (plain j (.head _))
      rw [hfirst] at fits
      cases fits
    · obtain ⟨c, more, hfirst, -⟩ := @Plain.head layout (depth + 1) j plain
      rw [hfirst] at fits
      cases fits
  | succ fuel ih => exact ⟨ih.value_succ hl, ih.items_succ hl, ih.members_succ hl⟩

/-- **A written value is read back**, given as much fuel as it has characters. -/
theorem readValue_write (hl : layout.Blank) {j : Json} (plain : j.Plain) {depth : Nat} {cs : List Char}
    (ends : EndsNumber cs) (fits : (write layout depth j).length ≤ fuel) :
    readValue fuel (write layout depth j ++ cs) = some (j, cs) :=
  (readsBack hl fuel).value plain ends fits

end ReadsBack

/-- **A text that a value was written to is that value.** -/
theorem parse?_pretty {j : Json} (plain : j.Plain) : parse? j.pretty = some j := by
  have hread : readValue (2 * j.pretty.length + 2) (write .pretty 0 j ++ []) = some (j, []) := by
    refine readValue_write Layout.blank_pretty plain .nil ?_
    rw [pretty, String.length_ofList]
    omega
  rw [List.append_nil] at hread
  rw [parse?]
  rw [pretty, String.toList_ofList, ← pretty, hread]
  rfl

end Depot.Json

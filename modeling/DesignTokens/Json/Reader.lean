import DesignTokens.Json.Basic

/-!
# Reading JSON

A reader over lists of characters. Beyond the grammar of JSON it knows the three names `NaN`,
`Infinity` and `-Infinity`. A key that is repeated keeps its first place and its last value. Whole
numbers with too many digits are refused.

A JSON text may spell half of a pair of numbers that stand for one character together, without the
other half. A text with such a half is broken: there are no characters for it. It is read all the
same, as a foreign value that is marked as broken, so that everything beside it can be used.
-/

namespace DesignTokens.Json

/-! ### Readings -/

/-- Why a text cannot be read. -/
inductive ReadProblem where
  /-- The text does not follow the grammar. -/
  | malformed
  /-- A whole number has too many digits. -/
  | tooManyDigits
deriving DecidableEq, Repr

/-- A value that has been read. Where it is broken there stands a foreign value. -/
structure Found where
  value : Json
  isIntact : Bool := true

namespace Found

/-- A text, broken if there are no characters. -/
def ofText : Option (List Char) → Found
  | some cs => { value := .text (String.ofList cs) }
  | none => { value := foreign, isIntact := false }

/-- A list, broken if one of its items is. -/
def ofItems (items : List Found) : Found where
  value := .list (items.map Found.value)
  isIntact := items.all Found.isIntact

end Found

/-- The fields of an object that has been read, with their keys as far as these are not broken. -/
structure Fields where
  entries : OrderedMap Found := []
  hasBrokenKey : Bool := false

namespace Fields

/-- Fields of which nothing is broken. -/
def ofIntact (fields : List (String × Json)) : Fields where
  entries := fields.map fun (key, value) => (key, { value })

/-- The fields that have been read one after the other. -/
def ofEntries (entries : List (Option String × Found)) : Fields where
  entries := OrderedMap.ofList (entries.filterMap fun (key, found) => key.map (·, found))
  hasBrokenKey := entries.any (·.1.isNone)

/-- Neither a key nor a value is broken. -/
def isIntact (fields : Fields) : Bool :=
  !fields.hasBrokenKey && fields.entries.all (·.2.isIntact)

/-- The values by their keys. -/
def values (fields : Fields) : List (String × Json) :=
  fields.entries.map fun (key, found) => (key, found.value)

/-- The fields when nothing of them is broken. -/
def intact? (fields : Fields) : Option (List (String × Json)) :=
  if fields.isIntact then some fields.values else none

/-- Stands for the broken keys of an object. -/
def brokenKey : String := "\uFFFD"

/-- The object of the fields. Its broken keys have a foreign value together. -/
def found (fields : Fields) : Found where
  value := .object <|
    if fields.hasBrokenKey then OrderedMap.set brokenKey foreign fields.values else fields.values
  isIntact := fields.isIntact

end Fields

/-- What has been read: the fields of an object, or another value. -/
inductive Reading where
  | object (fields : Fields)
  | other (found : Found)

namespace Reading

/-- The value that has been read. -/
def found : Reading → Found
  | object fields => fields.found
  | other found => found

/-- The value that has been read, unless it is broken. -/
def intact? (r : Reading) : Option Json :=
  if r.found.isIntact then some r.found.value else none

end Reading

/-- Something that the grammar asks for. -/
def expected {α : Type} : Option α → Except ReadProblem α
  | some a => .ok a
  | none => .error .malformed

/-! ### Texts -/

/-- The four blanks of JSON. -/
def isBlank (c : Char) : Bool :=
  c == ' ' || c == '\t' || c == '\n' || c == '\r'

/-- The number that four hexadecimal digits spell, and the rest. -/
def readHex4 : List Char → Option (Nat × List Char)
  | a :: b :: c :: d :: rest => do
    let a ← Text.hexValue? a
    let b ← Text.hexValue? b
    let c ← Text.hexValue? c
    let d ← Text.hexValue? d
    return (((a * 16 + b) * 16 + c) * 16 + d, rest)
  | _ => none

/-- The low half of a pair of numbers that spell one character together. -/
def readLowHalf (cs : List Char) : Option (Nat × List Char) :=
  match cs with
  | '\\' :: 'u' :: rest =>
    match readHex4 rest with
    | some (n, rest) => if 0xDC00 ≤ n ∧ n < 0xE000 then some (n, rest) else none
    | none => none
  | _ => none

/-- The character that an escape stands for, none for half of a pair, and the rest. -/
def readEscape : List Char → Option (Option Char × List Char)
  | '"' :: rest => some (some '"', rest)
  | '\\' :: rest => some (some '\\', rest)
  | '/' :: rest => some (some '/', rest)
  | 'b' :: rest => some (some '\x08', rest)
  | 'f' :: rest => some (some '\x0c', rest)
  | 'n' :: rest => some (some '\n', rest)
  | 'r' :: rest => some (some '\r', rest)
  | 't' :: rest => some (some '\t', rest)
  | 'u' :: rest =>
    match readHex4 rest with
    | none => none
    | some (high, rest) =>
      if 0xD800 ≤ high ∧ high < 0xDC00 then
        match readLowHalf rest with
        | some (low, rest) =>
          some (some (Char.ofNat (0x10000 + (high - 0xD800) * 0x400 + (low - 0xDC00))), rest)
        | none => some (none, rest)
      else if 0xDC00 ≤ high ∧ high < 0xE000 then some (none, rest)
      else some (some (Char.ofNat high), rest)
  | _ => none

/-- A character in front of others; there are none if one of the two is broken. -/
def consChar : Option Char → Option (List Char) → Option (List Char)
  | some c, some cs => some (c :: cs)
  | _, _ => none

/-- The characters up to the closing quote, none of a broken text, and the rest after it. -/
def readString : Nat → List Char → Option (Option (List Char) × List Char)
  | 0, _ => none
  | _, [] => none
  | fuel + 1, c :: rest =>
    if c = '"' then some (some [], rest)
    else if c = '\\' then do
      let (d, rest) ← readEscape rest
      let (cs, rest) ← readString fuel rest
      return (consChar d cs, rest)
    else if c.toNat < 0x20 then none
    else do
      let (cs, rest) ← readString fuel rest
      return (consChar (some c) cs, rest)

/-! ### Numbers -/

/-- The digits at the front, and the rest; there has to be one. -/
def readDigits (cs : List Char) : Option (List Char × List Char) :=
  let digits := cs.takeWhile Char.isDigit
  if digits.isEmpty then none else some (digits, cs.dropWhile Char.isDigit)

/-- A decimal point with the digits after it; without digits nothing is taken. -/
def readFraction (cs : List Char) : Option (List Char) × List Char :=
  match cs with
  | '.' :: rest =>
    match readDigits rest with
    | some (digits, rest) => (some digits, rest)
    | none => (none, cs)
  | _ => (none, cs)

/-- An exponent with its sign; without digits nothing is taken. -/
def readExponent (cs : List Char) : Option Int × List Char :=
  match cs with
  | mark :: rest =>
    if mark = 'e' ∨ mark = 'E' then
      let (negative, digits) := match rest with
        | '-' :: r => (true, r)
        | '+' :: r => (false, r)
        | r => (false, r)
      match readDigits digits with
      | some (digits, rest) =>
        let n : Int := Decimal.natOfDigits digits
        (some (if negative then -n else n), rest)
      | none => (none, cs)
    else (none, cs)
  | [] => (none, cs)

/-- The whole part of a number: a zero alone or digits without a leading zero. -/
def readWhole (cs : List Char) : Option (List Char × List Char) :=
  match cs with
  | '0' :: rest => some (['0'], rest)
  | _ => readDigits cs

/-- The number that a whole part goes on to, with a fraction and an exponent. Without either it is
a whole number, which must not have too many digits. -/
def readBehind (negative : Bool) (whole rest : List Char) :
    Except ReadProblem (Json × List Char) :=
  let (fraction, rest) := readFraction rest
  let (exponent, rest) := readExponent rest
  match fraction, exponent with
  | none, none =>
    if Decimal.maxDigits < whole.length then .error .tooManyDigits
    else
      let n : Int := Decimal.natOfDigits whole
      .ok (.int (if negative then -n else n), rest)
  | _, _ =>
    let x := Decimal.Numeral.toFloat ⟨whole, fraction.getD [], exponent.getD 0⟩
    .ok (.float (if negative then -x else x), rest)

/-- An unsigned number. -/
def readMagnitude (negative : Bool) (cs : List Char) : Except ReadProblem (Json × List Char) := do
  let (whole, rest) ← expected (readWhole cs)
  readBehind negative whole rest

/-! ### Values -/

/-- The rest after a word at the front. -/
def afterWord? (word : String) (cs : List Char) : Option (List Char) :=
  word.toList.isPrefixOf? cs

/-- A constant or a number. -/
def readScalar (cs : List Char) : Except ReadProblem (Json × List Char) :=
  match cs with
  | 'n' :: _ => (expected (afterWord? "null" cs)).map (null, ·)
  | 't' :: _ => (expected (afterWord? "true" cs)).map (bool true, ·)
  | 'f' :: _ => (expected (afterWord? "false" cs)).map (bool false, ·)
  | 'N' :: _ => (expected (afterWord? "NaN" cs)).map (float (0.0 / 0.0), ·)
  | 'I' :: _ => (expected (afterWord? "Infinity" cs)).map (float (1.0 / 0.0), ·)
  | '-' :: rest =>
    match afterWord? "Infinity" rest with
    | some rest => .ok (float (-(1.0 / 0.0)), rest)
    | none => readMagnitude true rest
  | _ => readMagnitude false cs

/-- The text without the blanks at its front. -/
def skipBlanks (cs : List Char) : List Char :=
  cs.dropWhile isBlank

mutual

/-- Reads one value at the front. The fuel bounds the number of steps; the length of the text is
always enough. -/
def readValue : Nat → List Char → Except ReadProblem (Reading × List Char)
  | 0, _ => .error .malformed
  | fuel + 1, cs =>
    match cs with
    | '"' :: rest => (expected (readString fuel rest)).map fun (s, rest) =>
        (.other (.ofText s), rest)
    | '[' :: rest =>
      match skipBlanks rest with
      | ']' :: rest => .ok (.other (.ofItems []), rest)
      | rest => (readItems fuel rest).map fun (items, rest) => (.other (.ofItems items), rest)
    | '\x7b' :: rest =>
      match skipBlanks rest with
      | '\x7d' :: rest => .ok (.object {}, rest)
      | rest => (readFields fuel rest).map fun (entries, rest) =>
          (.object (.ofEntries entries), rest)
    | _ => (readScalar cs).map fun (value, rest) => (.other { value }, rest)

/-- Reads the items of a list up to its closing bracket. -/
def readItems : Nat → List Char → Except ReadProblem (List Found × List Char)
  | 0, _ => .error .malformed
  | fuel + 1, cs => do
    let (item, rest) ← readValue fuel cs
    match skipBlanks rest with
    | ']' :: rest => return ([item.found], rest)
    | ',' :: rest =>
      let (items, rest) ← readItems fuel (skipBlanks rest)
      return (item.found :: items, rest)
    | _ => .error .malformed

/-- Reads the fields of an object up to its closing brace. -/
def readFields : Nat → List Char →
    Except ReadProblem (List (Option String × Found) × List Char)
  | 0, _ => .error .malformed
  | fuel + 1, cs => do
    let (key, rest) ← expected <| match cs with
      | '"' :: rest => readString fuel rest
      | _ => none
    let rest ← expected <| match skipBlanks rest with
      | ':' :: rest => some (skipBlanks rest)
      | _ => none
    let (value, rest) ← readValue fuel rest
    let entry := (key.map String.ofList, value.found)
    match skipBlanks rest with
    | '\x7d' :: rest => return ([entry], rest)
    | ',' :: rest =>
      let (fields, rest) ← readFields fuel (skipBlanks rest)
      return (entry :: fields, rest)
    | _ => .error .malformed

end

/-- Reads a text that is one value with blanks around it. -/
def read (s : String) : Except ReadProblem Reading := do
  let cs := s.toList
  let (reading, rest) ← readValue (2 * cs.length + 2) (skipBlanks cs)
  if (skipBlanks rest).isEmpty then return reading else .error .malformed

end DesignTokens.Json

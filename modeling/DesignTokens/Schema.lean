import DesignTokens.Decimal.Exact
import DesignTokens.Fault
import DesignTokens.Json.Basic

/-!
# Reading typed values from plain data

Records come as plain data, written by people and by other programs. Reading is lenient where no
meaning is lost: a number may be written as a text, a truth value as a word or as 0 and 1. A record
field may be known under several keys, the first of which wins; fields that are not known are passed
over. Whatever does not fit makes the whole record invalid.
-/

namespace DesignTokens.Schema

/-- Reads a value of some type from plain data. -/
abbrev Reader (α : Type) := Json → Except Fault α

/-- The fault of data that does not fit. -/
def invalid {α : Type} : Except Fault α := .error .invalidRecord

/-- A value that may be missing. -/
def require {α : Type} : Option α → Except Fault α
  | some value => .ok value
  | none => invalid

/-! ### Numbers and truth values written as text -/

/-- White space around a number; the separator controls are not among it. -/
def isPadding (c : Char) : Bool :=
  Text.isSpace c && !(0x1C ≤ c.toNat && c.toNat ≤ 0x1F)

/-- A text without white space around it. -/
def trim (cs : List Char) : List Char :=
  ((cs.dropWhile isPadding).reverse.dropWhile isPadding).reverse

/-- Characters without the underscores that divide groups of digits; an underscore stands between
two other characters. -/
def withoutUnderscores? (cs : List Char) : Option (List Char) :=
  let groups := cs.splitOn '_'
  if groups.any List.isEmpty then none else some groups.flatten

/-- A sign at the front, and the rest. -/
def readSign : List Char → Bool × List Char
  | '-' :: rest => (true, rest)
  | '+' :: rest => (false, rest)
  | cs => (false, cs)

/-- The unsigned floating-point number of a text: a numeral or one of the names of infinity and
NaN. -/
def magnitude? (cs : List Char) : Option Float :=
  let name := String.ofList (cs.map Char.toLower)
  if name = "inf" ∨ name = "infinity" then some (1.0 / 0.0)
  else if name = "nan" then some (0.0 / 0.0)
  else if cs.all Text.isAscii then
    (Decimal.Numeral.ofChars? cs).map Decimal.Numeral.toFloat
  else none

/-- The floating-point number of a text without white space around it. -/
def floatOfChars? (cs : List Char) : Option Float :=
  let (negative, rest) := readSign cs
  (magnitude? rest).map fun x => if negative then -x else x

/-- The floating-point number of a text. -/
def floatOfText? (s : String) : Option Float :=
  let cs := trim s.toList
  match floatOfChars? cs with
  | some x => some x
  | none => if cs.contains '_' then (withoutUnderscores? cs).bind floatOfChars? else none

/-- The whole number of a text: digits, perhaps with a point and zeros after them. -/
def intOfText? (s : String) : Option Int := do
  let (negative, rest) := readSign (trim s.toList)
  let whole := rest.takeWhile (· != '.')
  let digits ← withoutUnderscores? whole
  if digits.all Char.isDigit && digits.length ≤ Decimal.maxDigits &&
      (rest.drop (whole.length + 1)).all (· == '0') then
    let n : Int := Decimal.natOfDigits digits
    return if negative then -n else n
  else none

/-- The words for true. -/
def trueWords : List String := ["1", "on", "t", "true", "y", "yes"]

/-- The words for false. -/
def falseWords : List String := ["0", "off", "f", "false", "n", "no"]

/-- The truth value of a word. -/
def boolOfText? (s : String) : Option Bool :=
  let word := String.ofList (s.toList.map Char.toLower)
  if trueWords.contains word then some true
  else if falseWords.contains word then some false
  else none

/-! ### Scalars -/

/-- A text. -/
def text : Reader String
  | .text s => .ok s
  | _ => invalid

/-- A floating-point number. -/
def float : Reader Float
  | .float x => .ok x
  | .int n =>
    let x := Float.ofInt n
    if x.isInf then invalid else .ok x
  | .bool b => .ok (if b then 1.0 else 0.0)
  | .text s => require (floatOfText? s)
  | _ => invalid

/-- A whole number; a floating-point number must be whole and fit into 64 bits. -/
def int : Reader Int
  | .int n => .ok n
  | .float x => match (Exact.ofFloat x).toInt? with
    | some n => if n.natAbs < twoTo 63 then .ok n else invalid
    | none => invalid
  | .bool b => .ok (if b then 1 else 0)
  | .text s => require (intOfText? s)
  | _ => invalid

/-- A truth value. -/
def bool : Reader Bool
  | .bool b => .ok b
  | .int n => if n = 0 then .ok false else if n = 1 then .ok true else invalid
  | .float x => if x == 0.0 then .ok false else if x == 1.0 then .ok true else invalid
  | .text s => require (boolOfText? s)
  | _ => invalid

/-- One of the values that have a name. -/
def choice {α : Type} (ofName? : String → Option α) : Reader α
  | .text s => require (ofName? s)
  | _ => invalid

/-- A floating-point number above zero. -/
def positive (j : Json) : Except Fault Float := do
  let x ← float j
  if 0.0 < x then return x else invalid

/-! ### Compound values -/

/-- A value that may be null. -/
def optional {α : Type} (r : Reader α) : Reader (Option α)
  | .null => .ok none
  | j => (r j).map some

/-- A list of values. -/
def list {α : Type} (r : Reader α) : Reader (List α)
  | .list items => items.mapM r
  | _ => invalid

/-- A map of values. -/
def map {α : Type} (r : Reader α) : Reader (OrderedMap α)
  | .object fields => fields.mapM fun (key, value) => do return (key, ← r value)
  | _ => invalid

/-- The fields of a record. -/
def fields : Reader (List (String × Json))
  | .object fields => .ok fields
  | _ => invalid

/-- What is stored under the first of several keys that is present. -/
def find? (keys : List String) (fields : List (String × Json)) : Option Json :=
  keys.findSome? fun key => OrderedMap.find? key fields

/-- A field that must be present. -/
def required {α : Type} (fields : List (String × Json)) (keys : List String) (r : Reader α) :
    Except Fault α :=
  match find? keys fields with
  | some j => r j
  | none => invalid

/-- A field that has a value when it is missing. -/
def withDefault {α : Type} (fields : List (String × Json)) (keys : List String) (default : α)
    (r : Reader α) : Except Fault α :=
  match find? keys fields with
  | some j => r j
  | none => .ok default

end DesignTokens.Schema

import DesignTokens.Json.Basic
import DesignTokens.Decimal.Text
import DesignTokens.Text.Class

/-!
# Plain scalars of YAML

A scalar without quotes is a number, a truth value, null, a date or a text, by its form alone. The
forms are those of YAML 1.1: truth values may be spelled `yes` and `off`, whole numbers may be
written in bases 2, 8, 16 and 60, and a floating-point number has a decimal point.
-/

namespace DesignTokens.Yaml

/-- What a plain scalar stands for. -/
inductive Plain where
  | null
  | bool (value : Bool)
  | int (value : Int)
  | float (value : Float)
  | text
  /-- A date, for which there is no plain data. -/
  | date
  /-- The key that merges other mappings into its own. -/
  | merge
  /-- The mark of a default value, which has no meaning by itself. -/
  | default

namespace Plain

/-! ### Words -/

/-- The spellings of null. -/
def nullWords : List String := ["", "~", "null", "Null", "NULL"]

/-- The spellings of true. -/
def trueWords : List String := ["yes", "Yes", "YES", "true", "True", "TRUE", "on", "On", "ON"]

/-- The spellings of false. -/
def falseWords : List String := ["no", "No", "NO", "false", "False", "FALSE", "off", "Off", "OFF"]

/-- The spellings of infinity, without a sign. -/
def infinityWords : List String := [".inf", ".Inf", ".INF"]

/-- The spellings of a value that is no number. -/
def nanWords : List String := [".nan", ".NaN", ".NAN"]

/-! ### Numbers -/

/-- A sign in front, and the rest. -/
def sign : List Char → Bool × List Char
  | '-' :: cs => (true, cs)
  | '+' :: cs => (false, cs)
  | cs => (false, cs)

/-- A digit or an underscore. -/
def isDigitMark (c : Char) : Bool :=
  c.isDigit || c == '_'

/-- Characters without underscores. -/
def withoutMarks (cs : List Char) : List Char :=
  cs.filter (· != '_')

/-- The number that digits of a base spell. -/
def ofDigits (base : Nat) (digits : List Char) : Nat :=
  (withoutMarks digits).foldl (fun n c => base * n + (Text.hexValue? c).getD 0) 0

/-- The number that digits of a base and underscores spell; there has to be a character. -/
def digits? (base : Nat) (cs : List Char) : Option Nat :=
  if !cs.isEmpty && cs.all fun c => c == '_' || (Text.hexValue? c).any (· < base) then
    some (ofDigits base cs)
  else none

/-- A digit of base 60: one or two decimal digits below 60. -/
def isSixtieth (cs : List Char) : Bool :=
  match cs with
  | [a] => a.isDigit
  | [a, b] => '0' ≤ a && a ≤ '5' && b.isDigit
  | _ => false

/-- Digits that begin with one that is no underscore. -/
def isDecimalRun (cs : List Char) : Bool :=
  (cs.head?.map Char.isDigit).getD false && cs.all isDigitMark

/-- The whole number of an unsigned numeral. -/
def magnitude? (cs : List Char) : Option Nat :=
  match cs with
  | ['0'] => some 0
  | '0' :: 'b' :: rest => digits? 2 rest
  | '0' :: 'x' :: rest => digits? 16 rest
  | '0' :: rest => digits? 8 rest
  | c :: _ =>
    if '1' ≤ c && c ≤ '9' then
      match cs.splitOn ':' with
      | [whole] => if isDecimalRun whole then some (ofDigits 10 whole) else none
      | first :: rest =>
        if isDecimalRun first && rest.all isSixtieth then
          some (rest.foldl (fun n part => 60 * n + ofDigits 10 part) (ofDigits 10 first))
        else none
      | [] => none
    else none
  | [] => none

/-- The whole number of a numeral. -/
def int? (cs : List Char) : Option Int :=
  let (negative, rest) := sign cs
  (magnitude? rest).map fun n => if negative then -(n : Int) else n

/-- An exponent: a mark, a sign and digits, or nothing. -/
def isExponent (cs : List Char) : Bool :=
  match cs with
  | [] => true
  | mark :: s :: digits =>
    (mark == 'e' || mark == 'E') && (s == '+' || s == '-') && !digits.isEmpty &&
      digits.all Char.isDigit
  | _ => false

/-- Digits with a point and perhaps an exponent; without digits before the point there are some
after it, and no sign. -/
def isPointed (signed : Bool) (cs : List Char) : Bool :=
  let whole := cs.takeWhile isDigitMark
  match cs.drop whole.length with
  | '.' :: rest =>
    let fraction := rest.takeWhile isDigitMark
    isExponent (rest.drop fraction.length) &&
      if whole.isEmpty then !signed && isDecimalRun fraction else isDecimalRun whole
  | _ => false

/-- A number with digits of base 60 added to it, the lowest first; `scale` is the place of the
next one. -/
def ofSixtieths (x scale : Float) : List Nat → Float
  | [] => x
  | digit :: rest => ofSixtieths (x + Float.ofNat digit * scale) (scale * 60.0) rest

/-- The number of a numeral in base 60 with a fraction. -/
def sixties? (cs : List Char) : Option Float :=
  let whole := cs.takeWhile (· != '.')
  match whole.splitOn ':', cs.drop whole.length with
  | first :: second :: rest, '.' :: fraction =>
    if isDecimalRun first && (second :: rest).all isSixtieth && fraction.all isDigitMark then
      let last := (second :: rest).getLast?.getD []
      let least := Decimal.Numeral.toFloat ⟨last, withoutMarks fraction, 0⟩
      let higher := ((first :: second :: rest).dropLast.map fun part => ofDigits 10 part).reverse
      some (ofSixtieths least 60.0 higher)
    else none
  | _, _ => none

/-- The floating-point number of an unsigned numeral. -/
def floatMagnitude? (signed : Bool) (cs : List Char) : Option Float :=
  if isPointed signed cs then (Decimal.Numeral.ofChars? (withoutMarks cs)).map (·.toFloat)
  else if infinityWords.contains (String.ofList cs) then some (1.0 / 0.0)
  else if !signed && nanWords.contains (String.ofList cs) then some (0.0 / 0.0)
  else sixties? cs

/-- The floating-point number of a numeral. -/
def float? (cs : List Char) : Option Float :=
  let (negative, rest) := sign cs
  (floatMagnitude? (rest.length != cs.length) rest).map fun x => if negative then -x else x

/-! ### Dates -/

/-- The lengths of the digit runs and the marks between them, as far as they form a date. -/
def isDay (cs : List Char) : Bool :=
  match cs.splitOn '-' with
  | [year, month, day] => year.length = 4 && month.length = 2 && day.length = 2 &&
      (year ++ month ++ day).all Char.isDigit
  | _ => false

/-- One or two digits. -/
def isShort (cs : List Char) : Bool :=
  (cs.length = 1 || cs.length = 2) && cs.all Char.isDigit

/-- A zone: `Z`, or a signed hour and perhaps minutes. -/
def isZone (cs : List Char) : Bool :=
  match cs with
  | [] => true
  | ['Z'] => true
  | c :: rest => (c == '+' || c == '-') && match rest.splitOn ':' with
    | [hour] => isShort hour
    | [hour, minute] => isShort hour && minute.length = 2 && minute.all Char.isDigit
    | _ => false

/-- A blank inside a date. -/
def isDateBlank (c : Char) : Bool := c == ' ' || c == '\t'

/-- A time of day with perhaps a fraction and a zone. -/
def isTime (cs : List Char) : Bool :=
  let body := cs.takeWhile fun c => c.isDigit || c == ':' || c == '.'
  let zone := (cs.drop body.length).dropWhile isDateBlank
  let whole := body.takeWhile (· != '.')
  let fraction := (body.drop whole.length).drop 1
  isZone zone && fraction.all Char.isDigit && match whole.splitOn ':' with
    | [hour, minute, second] => isShort hour && minute.length = 2 && second.length = 2 &&
        (hour ++ minute ++ second).all Char.isDigit
    | _ => false

/-- A date, or a date with a time. -/
def isDate (cs : List Char) : Bool :=
  let day := cs.takeWhile fun c => c.isDigit || c == '-'
  isDay cs || match cs.drop day.length, day.splitOn '-' with
    | c :: rest, [year, month, dayOfMonth] =>
      year.length = 4 && year.all Char.isDigit && isShort month && isShort dayOfMonth &&
        if c == 'T' || c == 't' then isTime rest
        else isDateBlank c && isTime (rest.dropWhile isDateBlank)
    | _, _ => false

/-! ### All forms -/

/-- What a plain scalar stands for. -/
def ofChars (cs : List Char) : Plain :=
  let word := String.ofList cs
  if nullWords.contains word then null
  else if trueWords.contains word then bool true
  else if falseWords.contains word then bool false
  else if word = "<<" then merge
  else if word = "=" then default
  else match float? cs, int? cs with
    | some x, _ => float x
    | none, some n => int n
    | none, none => if isDate cs then date else text

/-- A plain scalar that stands for itself. -/
def isText (cs : List Char) : Bool :=
  match ofChars cs with
  | text => true
  | _ => false

/-- The value of a plain scalar. -/
def value? (cs : List Char) : Option Json :=
  match ofChars cs with
  | null => some .null
  | bool b => some (.bool b)
  | int n => some (.int n)
  | float x => some (.float x)
  | text => some (.text (String.ofList cs))
  | date => some .foreign
  | merge | default => none

end Plain

end DesignTokens.Yaml

import DesignTokens.Decimal.Text
import DesignTokens.Json.Basic
import DesignTokens.Text.Class

/-!
# Scalars of TOML

Texts in four kinds of quotes, numbers and dates. Each reader takes a scalar off the front of a text
and gives the rest.
-/

namespace DesignTokens.Toml

/-- A blank within a line. -/
def isBlank (c : Char) : Bool :=
  c == ' ' || c == '\t'

/-- A blank or a line end. -/
def isGap (c : Char) : Bool :=
  isBlank c || c == '\n'

/-- A control character that may stand nowhere. -/
def isControl (c : Char) : Bool :=
  (c.toNat < 0x20 || c.toNat == 0x7F) && c != '\t'

/-! ### Texts -/

/-- How a text is enclosed. -/
structure Quotes where
  mark : Char
  /-- Escapes are read. -/
  escapes : Bool
  /-- The text may have several lines; it is enclosed by three marks. -/
  multiline : Bool
deriving DecidableEq, Repr

/-- The escapes with a letter of their own. -/
def letterEscapes : List (Char × Char) :=
  [('b', '\x08'), ('t', '\t'), ('n', '\n'), ('f', '\x0c'), ('r', '\r'), ('"', '"'), ('\\', '\\')]

/-- The character that hexadecimal digits spell. -/
def readCode (width : Nat) (cs : List Char) : Option (List Char × List Char) :=
  let digits := (cs.take width).filterMap Text.hexValue?
  let n := digits.foldl (fun n d => 16 * n + d) 0
  if digits.length = width ∧ n.isValidChar then some ([Char.ofNat n], cs.drop width) else none

/-- What an escape stands for, after its backslash. At the end of a line it takes the line end and the
gap after it away. -/
def readEscape (multiline : Bool) (cs : List Char) : Option (List Char × List Char) :=
  match cs with
  | [] => none
  | c :: rest =>
    if multiline && isGap c then
      match cs.dropWhile isBlank with
      | '\n' :: rest => some ([], rest.dropWhile isGap)
      | [] => some ([], [])
      | _ => none
    else if c = 'u' then readCode 4 rest
    else if c = 'U' then readCode 8 rest
    else (letterEscapes.lookup c).map fun d => ([d], rest)

/-- The rest after three marks. -/
def afterThree? (mark : Char) : List Char → Option (List Char)
  | a :: b :: c :: rest => if a = mark ∧ b = mark ∧ c = mark then some rest else none
  | _ => none

/-- Up to two marks that stand before the closing ones. -/
def readExtra (mark : Char) (cs : List Char) : List Char × List Char :=
  let extra := (cs.take 2).takeWhile (· == mark)
  (extra, cs.drop extra.length)

/-- The characters up to the closing marks, and the rest after them. -/
def readQuoted (q : Quotes) : Nat → List Char → Option (List Char × List Char)
  | 0, _ => none
  | _, [] => none
  | fuel + 1, c :: rest =>
    if c = q.mark ∧ !q.multiline then some ([], rest)
    else if c = q.mark ∧ (afterThree? q.mark (c :: rest)).isSome then
      some (readExtra q.mark (rest.drop 2))
    else if c = '\\' ∧ q.escapes then do
      let (cs, rest) ← readEscape q.multiline rest
      let (more, rest) ← readQuoted q fuel rest
      return (cs ++ more, rest)
    else if isControl c ∧ !(q.multiline ∧ c = '\n') then none
    else do
      let (more, rest) ← readQuoted q fuel rest
      return (c :: more, rest)

/-- A text after its opening mark, on one line. -/
def readLine (mark : Char) (cs : List Char) : Option (String × List Char) :=
  (readQuoted ⟨mark, mark == '"', false⟩ (cs.length + 1) cs).map fun (text, rest) =>
    (String.ofList text, rest)

/-- A text that begins with a mark, on one line or on several. A line end right after the opening marks
does not belong to it. -/
def readText (mark : Char) (cs : List Char) : Option (String × List Char) :=
  match afterThree? mark cs with
  | none => readLine mark (cs.drop 1)
  | some rest =>
    let rest := if rest.head? = some '\n' then rest.drop 1 else rest
    (readQuoted ⟨mark, mark == '"', true⟩ (rest.length + 1) rest).map fun (text, rest) =>
      (String.ofList text, rest)

/-! ### Numbers -/

/-- Digits of a class, with single underscores between them. -/
def readDigits (p : Char → Bool) : List Char → List Char × List Char
  | [] => ([], [])
  | c :: rest =>
    if p c then
      let (digits, rest) := readDigits p rest
      (c :: digits, rest)
    else if c = '_' then
      match rest with
      | d :: further =>
        if p d then
          let (digits, rest) := readDigits p further
          (d :: digits, rest)
        else ([], c :: rest)
      | [] => ([], c :: rest)
    else ([], c :: rest)

/-- At least one digit of a class. -/
def digits? (p : Char → Bool) (cs : List Char) : Option (List Char × List Char) :=
  if cs.head?.any p then some (readDigits p cs) else none

/-- The number that digits of a base spell. -/
def ofDigits (base : Nat) (digits : List Char) : Nat :=
  digits.foldl (fun n c => base * n + (Text.hexValue? c).getD 0) 0

/-- A digit of a base. -/
def isDigitOf (base : Nat) (c : Char) : Bool :=
  (Text.hexValue? c).any (· < base)

/-- The base that a letter after a zero stands for. -/
def baseOf? (letter : Char) : Option Nat :=
  match letter with
  | 'x' => some 16
  | 'o' => some 8
  | 'b' => some 2
  | _ => none

/-- A whole number in another base than ten. -/
def readBased (cs : List Char) : Option (Json × List Char) :=
  match cs with
  | '0' :: letter :: rest => do
    let base ← baseOf? letter
    let (digits, rest) ← digits? (isDigitOf base) rest
    return (.int (ofDigits base digits), rest)
  | _ => none

/-- A sign, and the rest. -/
def readSign (cs : List Char) : Bool × List Char :=
  match cs with
  | '-' :: rest => (true, rest)
  | '+' :: rest => (false, rest)
  | _ => (false, cs)

/-- A decimal point with the digits after it, if there are some. -/
def readFraction (cs : List Char) : Option (List Char) × List Char :=
  match cs with
  | '.' :: rest =>
    match digits? Char.isDigit rest with
    | some (digits, rest) => (some digits, rest)
    | none => (none, cs)
  | _ => (none, cs)

/-- An exponent, if there is one. -/
def readExponent (cs : List Char) : Option Int × List Char :=
  match cs with
  | mark :: rest =>
    if mark = 'e' ∨ mark = 'E' then
      let (negative, digits) := readSign rest
      match digits? Char.isDigit digits with
      | some (digits, rest) =>
        let n : Int := ofDigits 10 digits
        (some (if negative then -n else n), rest)
      | none => (none, cs)
    else (none, cs)
  | [] => (none, [])

/-- A decimal number: a zero alone or digits without a leading zero, a fraction, an exponent. -/
def readDecimal (cs : List Char) : Option (Json × List Char) := do
  let (negative, cs) := readSign cs
  let (whole, rest) ← match cs with
    | '0' :: rest => some (['0'], rest)
    | _ => digits? Char.isDigit cs
  let (fraction, rest) := readFraction rest
  let (exponent, rest) := readExponent rest
  match fraction, exponent with
  | none, none =>
    let n : Int := ofDigits 10 whole
    return (.int (if negative then -n else n), rest)
  | _, _ =>
    let x := Decimal.Numeral.toFloat ⟨whole, fraction.getD [], exponent.getD 0⟩
    return (.float (if negative then -x else x), rest)

/-- An infinity or the value that is no number. -/
def readSpecial (cs : List Char) : Option (Json × List Char) :=
  let (negative, rest) := readSign cs
  match rest with
  | 'i' :: 'n' :: 'f' :: rest =>
    some (.float (if negative then -(1.0 / 0.0) else 1.0 / 0.0), rest)
  | 'n' :: 'a' :: 'n' :: rest => some (.float (0.0 / 0.0), rest)
  | _ => none

/-! ### Dates -/

/-- Two digits whose number lies between two bounds. -/
def readPair (least greatest : Nat) (cs : List Char) : Option (Nat × List Char) :=
  match cs with
  | a :: b :: rest =>
    let n := ofDigits 10 [a, b]
    if a.isDigit ∧ b.isDigit ∧ least ≤ n ∧ n ≤ greatest then some (n, rest) else none
  | _ => none

/-- The rest after a character. -/
def afterMark? (mark : Char) (cs : List Char) : Option (List Char) :=
  if cs.head? = some mark then some (cs.drop 1) else none

/-- The rest after a time of day. -/
def afterTime? (cs : List Char) : Option (List Char) := do
  let (_, rest) ← readPair 0 23 cs
  let (_, rest) ← readPair 0 59 (← afterMark? ':' rest)
  let (_, rest) ← readPair 0 59 (← afterMark? ':' rest)
  match rest with
  | '.' :: d :: further => if d.isDigit then return further.dropWhile Char.isDigit else return rest
  | _ => return rest

/-- The rest after a distance from universal time, if there is one. -/
def afterZone (cs : List Char) : List Char :=
  match cs with
  | c :: rest =>
    if c = 'Z' ∨ c = 'z' then rest
    else if c = '+' ∨ c = '-' then
      (do
        let (_, rest) ← readPair 0 23 rest
        let (_, rest) ← readPair 0 59 (← afterMark? ':' rest)
        return rest).getD cs
    else cs
  | [] => []

/-- The number of days of a month. -/
def daysIn (year month : Nat) : Nat :=
  if month = 2 then
    if year % 4 = 0 ∧ (year % 100 ≠ 0 ∨ year % 400 = 0) then 29 else 28
  else if [4, 6, 9, 11].contains month then 30
  else 31

/-- What stands where a date can stand. -/
inductive DateForm where
  /-- Something else. -/
  | absent
  /-- The form of a date, but not a day that exists. -/
  | impossible
  /-- A date, and the rest after it. -/
  | present (rest : List Char)

/-- Reads a date, perhaps with a time of day. -/
def readDate (cs : List Char) : DateForm :=
  let year := cs.take 4
  let read : Option (Nat × Nat × List Char) := do
    if !(year.length = 4 ∧ year.all Char.isDigit) then none
    let (month, rest) ← readPair 1 12 (← afterMark? '-' (cs.drop 4))
    let (day, rest) ← readPair 1 31 (← afterMark? '-' rest)
    return (month, day, rest)
  match read with
  | none => .absent
  | some (month, day, rest) =>
    let number := ofDigits 10 year
    if number = 0 ∨ daysIn number month < day then .impossible
    else match rest with
      | c :: further =>
        if c = 'T' ∨ c = 't' ∨ c = ' ' then
          match afterTime? further with
          | some rest => .present (afterZone rest)
          | none => .present rest
        else .present rest
      | [] => .present []

/-- A date, a time or a number. -/
def readPlain (cs : List Char) : Option (Json × List Char) :=
  match readDate cs with
  | .present rest => some (.foreign, rest)
  | .impossible => none
  | .absent =>
    ((afterTime? cs).map fun rest => (Json.foreign, rest)) <|> readBased cs <|> readDecimal cs <|>
      readSpecial cs

end DesignTokens.Toml

import DesignTokens.Text.ClassTable

/-!
# Character classes

White space, word characters, digits and printable characters in the sense of the Unicode character
database. On ASCII each class is given by its own small rule, beyond it by a table.
-/

namespace DesignTokens.Text

/-- The character is one of ASCII. -/
def isAscii (c : Char) : Bool :=
  c.toNat < 0x80

/-- White space: the ASCII blanks, the four separator controls and the Unicode separators. -/
def isSpace (c : Char) : Bool :=
  let n := c.toNat
  n == 0x20 || (0x09 ≤ n && n ≤ 0x0D) || (0x1C ≤ n && n ≤ 0x1F) || n == 0x85 || n == 0xA0 ||
    n == 0x1680 || (0x2000 ≤ n && n ≤ 0x200A) || n == 0x2028 || n == 0x2029 || n == 0x202F ||
    n == 0x205F || n == 0x3000

/-- A decimal digit of any script. -/
def isDecimal (c : Char) : Bool :=
  if isAscii c then c.isDigit else inSpans decimalSpans c.toNat

/-- The value of a decimal digit. Runs of ten digits follow each other without a gap. -/
def decimalValue (c : Char) : Nat :=
  if isAscii c then c.toNat - '0'.toNat
  else match decimalSpans.find? (·.holds c.toNat) with
    | some s => (c.toNat - s.first) % 10
    | none => 0

/-- A digit of any kind, superscripts and circled digits included. -/
def isDigit (c : Char) : Bool :=
  isDecimal c || inSpans otherDigitSpans c.toNat

/-- A letter, a digit, another numeric character or an underscore. -/
def isWord (c : Char) : Bool :=
  if isAscii c then c.isAlphanum || c == '_' else inSpans wordSpans c.toNat

/-- A character that a quoted form writes as it is. -/
def isPrintable (c : Char) : Bool :=
  if isAscii c then 0x20 ≤ c.toNat && c.toNat < 0x7F else !inSpans unprintableSpans c.toNat

/-! ### Hexadecimal digits -/

/-- The lower-case hexadecimal digit of a value below sixteen. -/
def hexDigit (n : Nat) : Char :=
  if n < 10 then Char.ofNat ('0'.toNat + n) else Char.ofNat ('a'.toNat + (n - 10))

/-- The last `width` hexadecimal digits of a number. -/
def hexDigits : Nat → Nat → List Char
  | 0, _ => []
  | width + 1, n => hexDigits width (n / 16) ++ [hexDigit (n % 16)]

/-- The value of a hexadecimal digit. -/
def hexValue? (c : Char) : Option Nat :=
  if c.isDigit then some (c.toNat - '0'.toNat)
  else if 'a' ≤ c ∧ c ≤ 'f' then some (c.toNat - 'a'.toNat + 10)
  else if 'A' ≤ c ∧ c ≤ 'F' then some (c.toNat - 'A'.toNat + 10)
  else none

end DesignTokens.Text

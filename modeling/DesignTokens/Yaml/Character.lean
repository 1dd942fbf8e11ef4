import DesignTokens.Text.Class

/-!
# Characters of YAML

The classes of characters that reading and writing share, and the escapes of a text between double
quotes. The layout depends on lines and columns: a text is read as a list of marks, each a character
with its place, so that the rest of a text always knows where it begins.
-/

namespace DesignTokens.Yaml

/-- A line break. -/
def isBreak (c : Char) : Bool :=
  c == '\n' || c.toNat == 0x85 || c.toNat == 0x2028 || c.toNat == 0x2029

/-- A blank, a line break or the end of the text. -/
def isGap : Option Char → Bool
  | some c => c == ' ' || c == '\t' || c == '\r' || c == '\x00' || isBreak c
  | none => true

/-- A character that may stand in a file. -/
def isPrintable (c : Char) : Bool :=
  let n := c.toNat
  c == '\t' || c == '\n' || c == '\r' || (0x20 ≤ n && n ≤ 0x7E) || n == 0x85 ||
    (0xA0 ≤ n && n ≤ 0xFFFD) || 0x10000 ≤ n

/-- A character that has to be escaped. -/
def isSpecial (c : Char) : Bool :=
  let n := c.toNat
  !(c == '\n' || (0x20 ≤ n && n ≤ 0x7E) || n == 0x85 ||
    (0xA0 ≤ n && n < 0x10FFFF && n != 0xFEFF && n != 0xFFFE && n != 0xFFFF))

/-- A character that begins something else than a plain text. -/
def isLeadingMark (c : Char) : Bool :=
  "#,[]\x7b\x7d&*!|>'\"%@\x60".toList.contains c

/-- The line begins with the mark between documents, whatever follows it. -/
def looksLikeMarker (cs : List Char) : Bool :=
  "---".toList.isPrefixOf cs || "...".toList.isPrefixOf cs

/-- The escapes with a letter of their own. -/
def letterEscapes : List (Nat × Char) :=
  [(0x00, '0'), (0x07, 'a'), (0x08, 'b'), (0x09, 't'), (0x0A, 'n'), (0x0B, 'v'), (0x0C, 'f'),
    (0x0D, 'r'), (0x1B, 'e'), (0x22, '"'), (0x5C, '\\'), (0x85, 'N'), (0xA0, '_'), (0x2028, 'L'),
    (0x2029, 'P')]

/-- The character that an escape with a letter stands for. Some characters may be escaped by
themselves. -/
def ofLetter? (letter : Char) : Option Char :=
  if letter == ' ' || letter == '/' || letter == '\t' then some letter
  else (letterEscapes.find? (·.2 == letter)).map fun entry => Char.ofNat entry.1

/-- How many hexadecimal digits follow the letter of an escape. -/
def escapeWidth? (letter : Char) : Option Nat :=
  match letter with
  | 'x' => some 2
  | 'u' => some 4
  | 'U' => some 8
  | _ => none

/-! ### Characters and where they stand -/

/-- A character and where it stands. -/
structure Mark where
  char : Char
  line : Nat
  column : Nat

namespace Mark

/-- The marks of characters from a place on. -/
def listFrom (line column : Nat) : List Char → List Mark
  | [] => []
  | c :: rest =>
    ⟨c, line, column⟩ :: if isBreak c then listFrom (line + 1) 0 rest
      else listFrom line (column + 1) rest

/-- The marks of a text. -/
def listOf (cs : List Char) : List Mark :=
  listFrom 0 0 cs

/-- The characters of marks. -/
def chars (ms : List Mark) : List Char :=
  ms.map (·.char)

/-- The first character. -/
def head? (ms : List Mark) : Option Char :=
  ms.head?.map (·.char)

/-- What follows the line: from its break on. -/
def afterLine (ms : List Mark) : List Mark :=
  ms.dropWhile fun m => !isBreak m.char

/-- What follows spaces. -/
def afterSpaces (ms : List Mark) : List Mark :=
  ms.dropWhile (·.char == ' ')

/-- What follows spaces, line breaks and comments; the flag says that a comment is being passed. -/
def afterBlanks (comment : Bool) : List Mark → List Mark
  | [] => []
  | m :: rest =>
    if isBreak m.char then afterBlanks false rest
    else if comment || m.char == ' ' then afterBlanks comment rest
    else if m.char == '#' then afterBlanks true rest
    else m :: rest

/-- The next character is the given one, with a gap after it. -/
def beginsEntry (mark : Char) (ms : List Mark) : Bool :=
  match ms with
  | m :: rest => m.char == mark && isGap (head? rest)
  | [] => false

end Mark

end DesignTokens.Yaml

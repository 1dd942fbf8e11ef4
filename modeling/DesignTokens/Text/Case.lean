import DesignTokens.Text.Class
import DesignTokens.Text.CaseTable

/-!
# Letter case

Full lowering, raising and folding of a text, and the looser comparison of two letters that patterns
use. Lowering knows one rule that looks at the neighbours of a letter: a capital sigma at the end of
a word becomes a final sigma.
-/

namespace DesignTokens.Text

/-- One code point as a character. -/
def ofCode (n : Nat) : Char :=
  Char.ofNat n

/-- The characters a letter is lowered to when its neighbours do not matter. -/
def lowerChar (c : Char) : List Char :=
  if isAscii c then [c.toLower]
  else if c.toNat = 0x130 then ['i', ofCode 0x307]
  else [(shifted? lowerShifts c.toNat).elim c ofCode]

/-- The characters a letter is raised to. -/
def upperChar (c : Char) : List Char :=
  if isAscii c then [c.toUpper]
  else match upperExpansions.lookup c.toNat with
    | some codes => codes.map ofCode
    | none => [(shifted? upperShifts c.toNat).elim c ofCode]

/-- The characters a letter is folded to. -/
def foldChar (c : Char) : List Char :=
  if isAscii c then [c.toLower]
  else match foldExpansions.lookup c.toNat with
    | some codes => codes.map ofCode
    | none => match shifted? foldShifts c.toNat with
      | some n => [ofCode n]
      | none => lowerChar c

/-- The character is skipped when the end of a word is looked for. -/
def isCaseIgnorable (c : Char) : Bool :=
  if isAscii c then c == '\'' || c == '.' || c == ':' || c == '^' || c == '\x60'
  else inSpans caseIgnorableSpans c.toNat

/-- The first character that is not skipped has a case. -/
def nextIsCased (cs : List Char) : Bool :=
  match (cs.dropWhile isCaseIgnorable).head? with
  | some c => if isAscii c then c.isAlpha else inSpans casedSpans c.toNat
  | none => false

/-- Lowers a text, given the characters before it, the nearest first. -/
def lowerAfter (before : List Char) : List Char → List Char
  | [] => []
  | c :: rest =>
    let lowered :=
      if c.toNat = 0x3A3 then
        [ofCode (if nextIsCased before && !nextIsCased rest then 0x3C2 else 0x3C3)]
      else lowerChar c
    lowered ++ lowerAfter (c :: before) rest

/-- A text in lower case. -/
def lower (s : String) : String :=
  String.ofList (lowerAfter [] s.toList)

/-- A text in upper case. -/
def upper (s : String) : String :=
  String.ofList (s.toList.flatMap upperChar)

/-- A text in the form in which texts that differ in case only are equal. -/
def fold (s : String) : String :=
  String.ofList (s.toList.flatMap foldChar)

/-! ### Comparing single letters -/

/-- A letter lowered to one character: the first of those it is lowered to. -/
def simpleLower (c : Char) : Char :=
  (lowerChar c).headD c

/-- A letter raised to one character: the first of those it is raised to. -/
def simpleUpper (c : Char) : Char :=
  (upperChar c).headD c

/-- Groups of lower-case letters that have a common upper-case letter. -/
def sameUpperGroups : List (List Nat) :=
  [[0x69, 0x131], [0x73, 0x17F], [0xB5, 0x3BC], [0x345, 0x3B9, 0x1FBE], [0x390, 0x1FD3],
    [0x3B0, 0x1FE3], [0x3B2, 0x3D0], [0x3B5, 0x3F5], [0x3B8, 0x3D1], [0x3BA, 0x3F0],
    [0x3C0, 0x3D6], [0x3C1, 0x3F1], [0x3C2, 0x3C3], [0x3C6, 0x3D5], [0x432, 0x1C80],
    [0x434, 0x1C81], [0x43E, 0x1C82], [0x441, 0x1C83], [0x442, 0x1C84, 0x1C85],
    [0x44A, 0x1C86], [0x463, 0x1C87], [0x1C88, 0xA64B], [0x1E61, 0x1E9B], [0xFB05, 0xFB06]]

/-- Both code points are in one group. -/
def sameUpper (m n : Nat) : Bool :=
  sameUpperGroups.any fun group => group.contains m && group.contains n

/-- The character has another form in the other case. -/
def isCased (c : Char) : Bool :=
  simpleLower c != c || simpleUpper c != c

/-- A literal of a pattern and a character agree up to case: a literal without case stands for
itself, any other for the letters that lower to the same letter or share its upper case. -/
def sameLetter (literal c : Char) : Bool :=
  if isCased literal then
    let l := simpleLower literal
    let k := simpleLower c
    k == l || sameUpper l.toNat k.toNat
  else c == literal

end DesignTokens.Text

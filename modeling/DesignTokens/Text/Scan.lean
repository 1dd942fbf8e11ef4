import DesignTokens.Text.Case

/-!
# Scanning

Small steps over a list of characters, from which the readers of colors, directives and templates
are put together. Each step gives the rest of the text, or nothing when the text does not begin with
what is asked for.
-/

namespace DesignTokens.Text

/-- A text without white space at its start. -/
def skipSpaces (cs : List Char) : List Char :=
  cs.dropWhile isSpace

/-- A text without white space at its end. -/
def trimEnd (cs : List Char) : List Char :=
  (cs.reverse.dropWhile isSpace).reverse

/-- A text without white space at both ends. -/
def trim (cs : List Char) : List Char :=
  trimEnd (skipSpaces cs)

/-- A text without white space at both ends. -/
def trimmed (s : String) : String :=
  String.ofList (trim s.toList)

/-- A text that is empty or all white space. -/
def isBlank (s : String) : Bool :=
  s.toList.all isSpace

/-- The rest after one given character. -/
def afterChar? (c : Char) : List Char → Option (List Char)
  | d :: rest => if d = c then some rest else none
  | [] => none

/-- The rest after a word whose letters may be in either case. -/
def afterLetters? : List Char → List Char → Option (List Char)
  | [], cs => some cs
  | l :: word, c :: cs => if sameLetter l c then afterLetters? word cs else none
  | _ :: _, [] => none

/-- The longest run of characters of a class, if there is one, and the rest. -/
def run? (p : Char → Bool) (cs : List Char) : Option (List Char × List Char) :=
  let taken := cs.takeWhile p
  if taken.isEmpty then none else some (taken, cs.dropWhile p)

/-- The first suffix of a text at which a reader succeeds. -/
def firstMatch? (reader : List Char → Option β) : List Char → Option β
  | [] => reader []
  | c :: cs => match reader (c :: cs) with
    | some found => some found
    | none => firstMatch? reader cs

/-- Whether a word occurs in a text. -/
def occursIn (word : List Char) : List Char → Bool
  | [] => word.isEmpty
  | c :: cs => word.isPrefixOf (c :: cs) || occursIn word cs

/-- A text with the first occurrence of a character replaced. -/
def replaceFirst (old new : Char) : List Char → List Char
  | [] => []
  | c :: cs => if c = old then new :: cs else c :: replaceFirst old new cs

end DesignTokens.Text

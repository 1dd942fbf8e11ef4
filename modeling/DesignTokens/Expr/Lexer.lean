import DesignTokens.Text.Class
import DesignTokens.Text.Quoted

/-!
# Lexemes of calculations

A calculation is scanned into numbers, identifiers, operators and punctuation; white space separates
and is dropped. A number is scanned as far as it goes: digits with at most one point, then an
exponent if digits follow its mark. Every lexeme knows its text and its position, and the end of the
text has a position as well.
-/

namespace DesignTokens

/-- The kinds of lexemes. -/
inductive LexKind where
  | number
  | ident
  | plus
  | minus
  | star
  | slash
  | leftParen
  | rightParen
  | comma
deriving DecidableEq, Repr

/-- A lexeme with its text and the index of its first character. -/
structure Lexeme where
  kind : LexKind
  text : String
  pos : Nat
deriving DecidableEq, Repr

/-- A character at which no lexeme begins. -/
structure LexFault where
  found : Char
  pos : Nat
deriving DecidableEq, Repr

/-- The wording of a scanning fault. -/
def LexFault.message (f : LexFault) : String :=
  "Unexpected character: " ++ Text.quoted (String.ofList [f.found])

namespace Lexeme

/-- The kind of a lexeme that is one character. -/
def punctuation? (c : Char) : Option LexKind :=
  if c = '+' then some .plus
  else if c = '-' then some .minus
  else if c = '*' then some .star
  else if c = '/' then some .slash
  else if c = '(' then some .leftParen
  else if c = ')' then some .rightParen
  else if c = ',' then some .comma
  else none

/-- An ASCII letter or an underscore. -/
def startsIdent (c : Char) : Bool :=
  c.isAlpha || c == '_'

/-- How many characters at the front are decimal digits. -/
def digitCount (cs : List Char) : Nat :=
  (cs.takeWhile Text.isDecimal).length

/-- The length of an exponent at the front, zero when no digits follow its mark and sign. -/
def exponentLength : List Char → Nat
  | mark :: rest =>
    if mark = 'e' ∨ mark = 'E' then
      let signLength := match rest with
        | sign :: _ => if sign = '+' ∨ sign = '-' then 1 else 0
        | [] => 0
      let digits := digitCount (rest.drop signLength)
      if digits = 0 then 0 else 1 + signLength + digits
    else 0
  | [] => 0

/-- The length of the digits and the point of a number at the front: digits with perhaps a point
and more digits, or a point with digits after it. -/
def mantissaLength (cs : List Char) : Nat :=
  let whole := digitCount cs
  match cs.drop whole with
  | '.' :: rest =>
    let fraction := digitCount rest
    if whole = 0 ∧ fraction = 0 then 0 else whole + 1 + fraction
  | _ => whole

/-- The length of a number at the front, zero when there is none. -/
def numberLength (cs : List Char) : Nat :=
  let mantissa := mantissaLength cs
  if mantissa = 0 then 0 else mantissa + exponentLength (cs.drop mantissa)

/-- The kind of the lexeme that begins with a character, and how many more characters it takes from
those that follow. -/
def begin? (c : Char) (rest : List Char) : Option (LexKind × Nat) :=
  let number := numberLength (c :: rest)
  if 0 < number then some (.number, number - 1)
  else if startsIdent c then some (.ident, (rest.takeWhile Text.isWord).length)
  else (punctuation? c).map fun kind => (kind, 0)

/-- The lexemes of a text that begins at a position. -/
def scanFrom (pos : Nat) : List Char → Except LexFault (List Lexeme)
  | [] => .ok []
  | c :: rest =>
    if Text.isSpace c then scanFrom (pos + 1) rest
    else match begin? c rest with
      | none => .error ⟨c, pos⟩
      | some (kind, more) =>
        match scanFrom (pos + 1 + more) (rest.drop more) with
        | .ok lexemes => .ok (⟨kind, String.ofList (c :: rest.take more), pos⟩ :: lexemes)
        | .error fault => .error fault
termination_by cs => cs.length
decreasing_by
  · simp
  · simp only [List.length_drop, List.length_cons]
    omega

/-- The lexemes of a text. -/
def scan (source : String) : Except LexFault (List Lexeme) :=
  scanFrom 0 source.toList

end Lexeme

/-- A lexeme of a text, or the end of the text. -/
inductive Terminal where
  | lexeme (t : Lexeme)
  | finish (pos : Nat)
deriving DecidableEq, Repr

namespace Terminal

/-- The index of the first character; the end has the index behind the last character. -/
def pos : Terminal → Nat
  | lexeme t => t.pos
  | finish pos => pos

/-- The text of a lexeme; the end has none. -/
def text : Terminal → String
  | lexeme t => t.text
  | finish _ => ""

/-- Lexemes of a text of the given length, and its end. -/
def ofLexemes (lexemes : List Lexeme) (length : Nat) : List Terminal :=
  lexemes.map lexeme ++ [finish length]

/-- The terminals of a text: its lexemes and its end. -/
def scan (source : String) : Except LexFault (List Terminal) :=
  (Lexeme.scan source).map (ofLexemes · source.length)

end Terminal

end DesignTokens

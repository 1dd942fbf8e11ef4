import DesignTokens.Yaml.Character
import DesignTokens.Yaml.Scalar

/-!
# Writing YAML

Plain data as YAML, an entry a line. Mappings are indented by two spaces and lists inside mappings
not at all. A text is written without quotes if it can be, else between single quotes, and between
double quotes only if it holds characters that need an escape. Lines longer than 80 characters are
broken at single spaces.
-/

namespace DesignTokens.Yaml

/-! ### Which quotes a text needs -/

/-- The three ways to write a text. -/
inductive Quotes where
  | none
  | single
  | double
deriving DecidableEq, Repr

/-- The first characters make a text something else than a plain one. -/
def opensOtherwise (cs : List Char) : Bool :=
  looksLikeMarker cs || match cs with
    | c :: rest => isLeadingMark c || ((c == '?' || c == ':' || c == '-') && isGap rest.head?)
    | [] => false

/-- A colon before a gap or a number sign after one stands inside a text. -/
def hasInnerMark : List Char → Bool
  | c :: d :: rest =>
    (d == ':' && isGap rest.head?) || (d == '#' && isGap (some c)) || hasInnerMark (d :: rest)
  | _ => false

/-- A character of the first class stands right before one of the second. -/
def hasPair (p q : Char → Bool) : List Char → Bool
  | c :: d :: rest => (p c && q d) || hasPair p q (d :: rest)
  | _ => false

/-- A space. -/
def isSpaceChar (c : Char) : Bool := c == ' '

/-- The start or the end of a text is a space or a line break. -/
def hasEdgeGap (cs : List Char) : Bool :=
  [cs.head?, cs.getLast?].any fun c => c.any fun c => isSpaceChar c || isBreak c

/-- The text can be written without quotes. -/
def allowsNone (cs : List Char) : Bool :=
  cs.isEmpty || (!hasEdgeGap cs && !cs.any isBreak && !cs.any isSpecial && !opensOtherwise cs &&
    !hasInnerMark cs)

/-- The text can be written between single quotes. -/
def allowsSingle (cs : List Char) : Bool :=
  !hasPair isBreak isSpaceChar cs && !hasPair isSpaceChar isBreak cs && !cs.any isSpecial

/-- The quotes a text is written with. -/
def quotesFor (cs : List Char) : Quotes :=
  if Plain.isText cs && allowsNone cs then .none
  else if allowsSingle cs then .single
  else .double

/-! ### Scalars -/

/-- The longest line that is not broken. -/
def lineWidth : Nat := 80

/-- The start of a line. -/
def newLine (indent : Nat) : List Char :=
  '\n' :: List.replicate indent ' '

/-- The class of characters a run consists of. -/
def runClass (c : Char) : Nat :=
  if isSpaceChar c then 0 else if isBreak c then 1 else 2

/-- The runs of spaces, of line breaks and of other characters of a text. -/
def runs (cs : List Char) : List (List Char) :=
  cs.splitBy fun a b => runClass a == runClass b

/-- Characters with every single quote doubled. -/
def doubleQuotes (cs : List Char) : List Char :=
  cs.flatMap fun c => if c = '\'' then ['\'', '\''] else [c]

/-- Line breaks inside single quotes: one more than there are, as a single one is read as a
space. -/
def writtenBreaks (indent : Nat) (breaks : List Char) : List Char :=
  (if breaks.head? = some '\n' then ['\n'] else []) ++ breaks ++ List.replicate indent ' '

/-- Runs from a column on. A single space between two runs becomes a line break when the line is too
long. -/
def foldRuns (indent : Nat) (first : Bool) (column : Nat) : List (List Char) → List Char
  | [] => []
  | run :: rest =>
    if run = [' '] ∧ lineWidth < column ∧ first = false ∧ rest ≠ [] then
      newLine indent ++ foldRuns indent false indent rest
    else if run.any isBreak then
      writtenBreaks indent run ++ foldRuns indent false indent rest
    else run ++ foldRuns indent false (column + run.length) rest

/-- The escape of a character. -/
def escape (c : Char) : List Char :=
  let n := c.toNat
  '\\' :: match letterEscapes.lookup n with
    | some letter => [letter]
    | .none =>
      let (mark, width) :=
        if n ≤ 0xFF then ('x', 2) else if n ≤ 0xFFFF then ('u', 4) else ('U', 8)
      mark :: (Text.hexDigits width n).map Char.toUpper

/-- A character that stands for itself between double quotes. -/
def isVerbatim (c : Char) : Bool :=
  let n := c.toNat
  (0x20 ≤ n && n ≤ 0x7E && c != '"' && c != '\\') ||
    (0xA0 ≤ n && n ≤ 0xFFFD && n != 0x2028 && n != 0x2029 && n != 0xFEFF)

/-- What follows a line break between double quotes: a space is escaped, as it would be lost. -/
def afterFold (indent : Nat) (next : Option Char) : List Char × Nat :=
  if next = some ' ' then (newLine indent ++ ['\\'], indent + 1) else (newLine indent, indent)

/-- A text between double quotes from a column on; `pending` holds the characters read but not yet
written, the last one first. Long lines are broken before a space and after an escape. -/
def foldDouble (indent : Nat) (first : Bool) (column : Nat) (pending : List Char) :
    List Char → List Char
  | [] => pending.reverse
  | c :: rest =>
    let inside := !first && !rest.isEmpty
    if isVerbatim c then
      if inside && (c == ' ' || pending.isEmpty) && lineWidth < column + pending.length then
        let (start, column) := afterFold indent (some c)
        pending.reverse ++ '\\' :: start ++ foldDouble indent false column [c] rest
      else foldDouble indent false column (c :: pending) rest
    else
      let written := pending.reverse ++ escape c
      let column := column + written.length
      if inside && lineWidth + 1 < column then
        let (start, column) := afterFold indent rest.head?
        written ++ '\\' :: start ++ foldDouble indent false column [] rest
      else written ++ foldDouble indent false column [] rest

/-- A text from a column on. -/
def textChars (indent column : Nat) (cs : List Char) : List Char :=
  match quotesFor cs with
  | .none => foldRuns indent true column (runs cs)
  | .single =>
    '\'' :: foldRuns indent true (column + 1) ((runs cs).map doubleQuotes) ++ ['\'']
  | .double => '"' :: foldDouble indent true (column + 1) [] cs ++ ['"']

/-- A floating-point number; an exponent follows a decimal point. -/
def floatText (x : Float) : String :=
  let cs := (Decimal.text ".nan" ".inf" x).toList
  let mantissa := cs.takeWhile (· != 'e')
  let exponent := cs.drop mantissa.length
  String.ofList (if exponent.isEmpty || mantissa.contains '.' then cs
    else mantissa ++ ['.', '0'] ++ exponent)

/-! ### Collections -/

/-- Spaces. -/
def padding (indent : Nat) : String :=
  String.ofList (List.replicate indent ' ')

/-- Entries, each on its own line at an indentation; the first one stands where the writer is. -/
def entryLines (indent : Nat) (entries : List String) : String :=
  ("\n" ++ padding indent).intercalate entries

/-- A text from a column on, lines after the first one at an indentation. -/
def scalarText (indent column : Nat) (s : String) : String :=
  String.ofList (textChars indent column s.toList)

mutual

/-- A value after its key, given the indentation of the mapping and the column after the colon. -/
def afterKey (indent column : Nat) : Json → String
  | .null => " null"
  | .bool b => if b then " true" else " false"
  | .int n => " " ++ toString n
  | .float x => " " ++ floatText x
  | .text s => " " ++ scalarText (indent + 2) (column + 1) s
  | .list [] => " []"
  | .object [] => " \x7b\x7d"
  | .list (item :: items) =>
    "\n" ++ padding indent ++ entryLines indent (itemTexts indent (item :: items))
  | .object (field :: fields) =>
    "\n" ++ padding (indent + 2) ++
      entryLines (indent + 2) (fieldTexts (indent + 2) (field :: fields))

/-- A value after the dash of an item. -/
def afterDash (indent : Nat) : Json → String
  | .null => "null"
  | .bool b => if b then "true" else "false"
  | .int n => toString n
  | .float x => floatText x
  | .text s => scalarText (indent + 2) (indent + 2) s
  | .list [] => "[]"
  | .object [] => "\x7b\x7d"
  | .list (item :: items) => entryLines (indent + 2) (itemTexts (indent + 2) (item :: items))
  | .object (field :: fields) =>
    entryLines (indent + 2) (fieldTexts (indent + 2) (field :: fields))

/-- The items of a list. -/
def itemTexts (indent : Nat) : List Json → List String
  | [] => []
  | item :: rest => ("- " ++ afterDash indent item) :: itemTexts indent rest

/-- The fields of a mapping. -/
def fieldTexts (indent : Nat) : List (String × Json) → List String
  | [] => []
  | (key, value) :: rest =>
    let written := scalarText indent indent key
    (written ++ ":" ++ afterKey indent (indent + written.length + 1) value) ::
      fieldTexts indent rest

end

/-- The YAML text of plain data. -/
def render : Json → String
  | .object (field :: fields) => entryLines 0 (fieldTexts 0 (field :: fields)) ++ "\n"
  | .list (item :: items) => entryLines 0 (itemTexts 0 (item :: items)) ++ "\n"
  | value => afterDash 0 value ++ "\n"

end DesignTokens.Yaml

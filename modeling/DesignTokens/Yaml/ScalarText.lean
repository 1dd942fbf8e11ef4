import DesignTokens.Yaml.Character

/-!
# Texts in a file

How the text of a scalar is recovered from the file: without quotes, between single or double
quotes, or as a block of lines. Line breaks inside a scalar are folded: one of them becomes a space,
and of several one is lost. Each reader gives the text and what follows it.
-/

namespace DesignTokens.Yaml

/-- Line breaks inside a scalar, folded. -/
def folded : List Char → List Char
  | [] => []
  | '\n' :: [] => [' ']
  | '\n' :: rest => rest
  | breaks => breaks

/-- A gap inside a scalar: spaces within a line stay, spaces around line breaks are lost. -/
def foldedGap (gap : List Char) : List Char :=
  if gap.any isBreak then folded (gap.filter isBreak) else gap

/-! ### Plain texts -/

/-- A character that separates or closes the parts of a collection in brackets. -/
def isFlowMark (c : Char) : Bool :=
  ",?[]\x7b\x7d".toList.contains c

/-- A plain text ends at a character, given the one after it. -/
def endsPlain (flow : Bool) (c : Char) (next : Option Char) : Bool :=
  isGap (some c) || (flow && isFlowMark c) ||
    (c == ':' && (isGap next || (flow && next.any fun d => d != '?' && isFlowMark d)))

/-- A plain text can begin with these characters. -/
def beginsPlain (flow : Bool) (ms : List Mark) : Bool :=
  match ms with
  | m :: rest =>
    let c := m.char
    if c == '-' || (!flow && (c == '?' || c == ':')) then !isGap (Mark.head? rest)
    else !(isGap (some c) || isLeadingMark c || c == '?' || c == ':')
  | [] => false

/-- The characters of a plain text up to a gap. -/
def plainWord (flow : Bool) : List Mark → List Char × List Mark
  | [] => ([], [])
  | m :: rest =>
    if endsPlain flow m.char (Mark.head? rest) then ([], m :: rest)
    else
      let (word, rest) := plainWord flow rest
      (m.char :: word, rest)

/-- The gap between two words of a plain text: spaces, and with a line break all blank lines. -/
def plainGap (ms : List Mark) : List Char × List Mark :=
  let next := Mark.afterSpaces ms
  if (Mark.head? next).any isBreak then
    (foldedGap (Mark.chars (ms.takeWhile fun m => m.char == ' ' || isBreak m.char)),
      ms.dropWhile fun m => m.char == ' ' || isBreak m.char)
  else (Mark.chars (ms.takeWhile (·.char == ' ')), next)

/-- A plain text. Its further lines begin at a column or behind it; it has none if `oneLine` is
set. -/
def plainText (flow oneLine : Bool) (column : Nat) : Nat → List Mark → List Char × List Mark
  | 0, ms => ([], ms)
  | fuel + 1, ms =>
    match plainWord flow ms with
    | ([], _) => ([], ms)
    | (word, rest) =>
      let (gap, next) := plainGap rest
      let stops := gap.isEmpty || match rest.head?, next.head? with
        | some here, some there => there.char == '#' || (!flow && there.column < column) ||
            (oneLine && here.line != there.line)
        | _, _ => true
      if stops then (word, rest)
      else match plainText flow oneLine column fuel next with
        | ([], _) => (word, rest)
        | (more, rest) => (word ++ gap ++ more, rest)

/-! ### Quoted texts -/

/-- A blank or a break inside quotes. -/
def isQuotedGap (c : Char) : Bool :=
  c == ' ' || c == '\t' || isBreak c

/-- Characters in front of what has been read. -/
def prepend (cs : List Char) (read : List Char × List Mark) : List Char × List Mark :=
  (cs ++ read.1, read.2)

/-- A text after its opening single quote; a quote inside is written twice. The gap read last is
folded when it ends. -/
def singleQuoted (gap : List Char) : List Mark → Option (List Char × List Mark)
  | [] => none
  | m :: rest =>
    if isQuotedGap m.char then singleQuoted (gap ++ [m.char]) rest
    else if m.char = '\'' then
      match rest with
      | n :: further =>
        if n.char = '\'' then (singleQuoted [] further).map (prepend (foldedGap gap ++ ['\'']))
        else some (foldedGap gap, n :: further)
      | [] => some (foldedGap gap, [])
    else (singleQuoted [] rest).map (prepend (foldedGap gap ++ [m.char]))

/-- What an escape stands for, after its backslash: a character, or nothing for an escaped line
break except the blank lines that follow. -/
def readEscape (ms : List Mark) : Option (List Char × List Mark) :=
  match ms with
  | [] => none
  | m :: rest =>
    match ofLetter? m.char, escapeWidth? m.char with
    | some c, _ => some ([c], rest)
    | none, some width =>
      let digits := (Mark.chars (rest.take width)).filterMap Text.hexValue?
      let n := digits.foldl (fun n d => 16 * n + d) 0
      if digits.length = width ∧ n.isValidChar then some ([Char.ofNat n], rest.drop width)
      else none
    | none, none =>
      if isBreak m.char then
        some ((Mark.chars (rest.takeWhile fun m => isQuotedGap m.char)).filter isBreak,
          rest.dropWhile fun m => isQuotedGap m.char)
      else none

/-- A text after its opening double quote. -/
def doubleQuoted (gap : List Char) : Nat → List Mark → Option (List Char × List Mark)
  | 0, _ => none
  | _, [] => none
  | fuel + 1, m :: rest =>
    if isQuotedGap m.char then doubleQuoted (gap ++ [m.char]) fuel rest
    else if m.char = '"' then some (foldedGap gap, rest)
    else if m.char = '\\' then do
      let (cs, rest) ← readEscape rest
      (doubleQuoted [] fuel rest).map (prepend (foldedGap gap ++ cs))
    else (doubleQuoted [] fuel rest).map (prepend (foldedGap gap ++ [m.char]))

/-! ### Blocks of lines -/

/-- What becomes of the line breaks at the end of a block. -/
inductive Ending where
  /-- The last line keeps its break, blank lines after it are lost. -/
  | clip
  /-- No break is kept. -/
  | strip
  /-- All breaks are kept. -/
  | keep
deriving DecidableEq, Repr

/-- How a block is to be read. -/
structure BlockHeader where
  /-- Line breaks are folded. -/
  folds : Bool
  ending : Ending := .clip
  /-- The indentation below that of the surrounding collection, when it is given. -/
  indent : Option Nat := none

/-- The marks that follow the sign of a block, each at most once. -/
def BlockHeader.read (header : BlockHeader) : List Mark → Option (BlockHeader × List Mark)
  | m :: rest =>
    if m.char = '+' ∧ header.ending = .clip then { header with ending := .keep }.read rest
    else if m.char = '-' ∧ header.ending = .clip then { header with ending := .strip }.read rest
    else if '1' ≤ m.char ∧ m.char ≤ '9' ∧ header.indent = none then
      { header with indent := some (m.char.toNat - '0'.toNat) }.read rest
    else if isGap (some m.char) then some (header, m :: rest)
    else none
  | [] => some (header, [])

/-- A line of a block without its indentation, and its break. -/
structure BlockLine where
  text : List Char
  lineEnd : Option Char

/-- A line without a character. -/
def BlockLine.isBlank (l : BlockLine) : Bool := l.text.isEmpty

/-- The line does not begin with a space. -/
def BlockLine.isFlush (l : BlockLine) : Bool :=
  l.text.head?.all fun c => c != ' ' && c != '\t'

/-- The break of a line. -/
def BlockLine.breakText (l : BlockLine) : List Char := l.lineEnd.toList

/-- The widest indentation among the first lines up to one that is not blank. -/
def detectedIndent (widest : Nat) : List Mark → Nat
  | [] => widest
  | m :: rest =>
    if m.char = ' ' then detectedIndent (max widest (m.column + 1)) rest
    else if isBreak m.char then detectedIndent widest rest
    else widest

/-- The lines that belong to a block with an indentation, and what follows them. -/
def blockLines (indent : Nat) : Nat → List Mark → List BlockLine × List Mark
  | 0, ms => ([], ms)
  | fuel + 1, ms =>
    let line := ms.takeWhile fun m => !isBreak m.char
    let further := Mark.afterLine ms
    let margin := line.takeWhile (·.char == ' ')
    let text := line.drop indent
    let isOutside := margin.length < indent ∧ margin.length < line.length
    if isOutside ∨ (text.isEmpty ∧ further.isEmpty) then ([], ms)
    else
      let (lines, rest) := blockLines indent fuel (further.drop 1)
      (⟨Mark.chars text, Mark.head? further⟩ :: lines, rest)

/-- The lines of a block up to the text of its last one. A break between two lines that begin
without a space is folded. -/
def joinLines (folds : Bool) : List BlockLine → List Char
  | [] => []
  | l :: rest =>
    if l.isBlank then l.breakText ++ joinLines folds rest
    else match (rest.dropWhile (·.isBlank)).head? with
      | none => l.text
      | some next =>
        let joint :=
          if folds && l.isFlush && next.isFlush && l.lineEnd == some '\n' then
            if (rest.head?.map BlockLine.isBlank).getD false then [] else [' ']
          else l.breakText
        l.text ++ joint ++ joinLines folds rest

/-- The text of the lines of a block. -/
def blockText (header : BlockHeader) (lines : List BlockLine) : List Char :=
  let trailing := (lines.reverse.takeWhile (·.isBlank)).reverse
  let written := lines.take (lines.length - trailing.length)
  let last := (written.getLast?.map BlockLine.breakText).getD []
  joinLines header.folds written ++ match header.ending with
    | .strip => []
    | .clip => last
    | .keep => last ++ trailing.flatMap BlockLine.breakText

/-- A block after its sign; its lines begin at a column or behind it. -/
def readBlock (folds : Bool) (column : Nat) (ms : List Mark) : Option (List Char × List Mark) := do
  let (header, rest) ← BlockHeader.read { folds } ms
  let rest := Mark.afterSpaces rest
  let rest := if Mark.head? rest = some '#' then Mark.afterLine rest else rest
  if (Mark.head? rest).all isBreak then
    let body := rest.drop 1
    let least := max column 1
    let indent := match header.indent with
      | some n => least + n - 1
      | none => max least (detectedIndent 0 body)
    let (lines, rest) := blockLines indent (body.length + 1) body
    return (blockText header lines, rest)
  else none

end DesignTokens.Yaml

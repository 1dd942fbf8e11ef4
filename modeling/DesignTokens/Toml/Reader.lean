import DesignTokens.Toml.Scalar
import DesignTokens.Toml.Table

/-!
# Reading TOML

A file is a sequence of statements, each on lines of its own: the header of a table, the header of
one more table of a list, or a key with its value. Statements are read one after the other and
change the tables read so far.
-/

namespace DesignTokens.Toml

/-! ### Keys -/

/-- A character of a key without quotes. -/
def isKeyChar (c : Char) : Bool :=
  c.isAlphanum || c == '-' || c == '_'

/-- The text without the blanks at its front. -/
def skipBlanks (cs : List Char) : List Char :=
  cs.dropWhile isBlank

/-- One part of a key. -/
def readKeyPart (cs : List Char) : Option (String × List Char) :=
  match cs with
  | [] => none
  | c :: rest =>
    if isKeyChar c then some (String.ofList (cs.takeWhile isKeyChar), cs.dropWhile isKeyChar)
    else if c = '"' ∨ c = '\'' then readLine c rest
    else none

/-- A key: parts with points between them, and blanks around these. -/
def readKey : Nat → List Char → Option (List String × List Char)
  | 0, _ => none
  | fuel + 1, cs => do
    let (part, rest) ← readKeyPart cs
    match skipBlanks rest with
    | '.' :: rest =>
      let (parts, rest) ← readKey fuel (skipBlanks rest)
      return (part :: parts, rest)
    | rest => return ([part], rest)

/-! ### Values -/

/-- The rest after a comment, which ends before the line end; it holds no control characters. -/
def afterComment? (cs : List Char) : Option (List Char) :=
  match cs with
  | '#' :: rest =>
    if (rest.takeWhile (· != '\n')).any isControl then none else some (rest.dropWhile (· != '\n'))
  | _ => some cs

/-- The rest after gaps and comments. -/
def skipGaps : Nat → List Char → Option (List Char)
  | 0, cs => some cs
  | fuel + 1, cs =>
    match cs.dropWhile isGap with
    | '#' :: rest => do skipGaps fuel (← afterComment? ('#' :: rest))
    | rest => some rest

mutual

/-- Reads one value at the front. The fuel bounds the number of steps; twice the length of the text
is always enough. -/
def readValue : Nat → List Char → Option (Json × List Char)
  | 0, _ => none
  | fuel + 1, cs =>
    match cs with
    | '"' :: _ => (readText '"' cs).map fun (s, rest) => (.text s, rest)
    | '\'' :: _ => (readText '\'' cs).map fun (s, rest) => (.text s, rest)
    | 't' :: 'r' :: 'u' :: 'e' :: rest => some (.bool true, rest)
    | 'f' :: 'a' :: 'l' :: 's' :: 'e' :: rest => some (.bool false, rest)
    | '[' :: rest => do
      let (items, rest) ← readItems fuel rest
      return (.list items, rest)
    | '\x7b' :: rest =>
      match skipBlanks rest with
      | '\x7d' :: rest => some (.object [], rest)
      | rest => do
        let (table, rest) ← readFields fuel [] rest
        return (table.toJson, rest)
    | _ => readPlain cs

/-- Reads the items of a list up to its closing bracket. -/
def readItems : Nat → List Char → Option (List Json × List Char)
  | 0, _ => none
  | fuel + 1, cs => do
    match ← skipGaps fuel cs with
    | ']' :: rest => return ([], rest)
    | cs =>
      let (item, rest) ← readValue fuel cs
      match ← skipGaps fuel rest with
      | ']' :: rest => return ([item], rest)
      | ',' :: rest =>
        let (items, rest) ← readItems fuel rest
        return (item :: items, rest)
      | _ => none

/-- Reads the fields of a table in braces up to the closing one. -/
def readFields : Nat → Table → List Char → Option (Table × List Char)
  | 0, _, _ => none
  | fuel + 1, table, cs => do
    let ((key, value), rest) ← readPairing fuel cs
    let table ← table.insert 0 value key
    match skipBlanks rest with
    | '\x7d' :: rest => return (table, rest)
    | ',' :: rest => readFields fuel table (skipBlanks rest)
    | _ => none

/-- Reads a key with its value. -/
def readPairing : Nat → List Char → Option ((List String × Json) × List Char)
  | 0, _ => none
  | fuel + 1, cs => do
    let (key, rest) ← readKey fuel cs
    match rest with
    | '=' :: rest =>
      let (value, rest) ← readValue fuel (skipBlanks rest)
      return ((key, value), rest)
    | _ => none

end

/-! ### Documents -/

/-- The tables read so far and the section that further keys belong to. -/
structure Draft where
  root : Table := []
  header : List String := []
  /-- The number of headers so far. -/
  number : Nat := 0

/-- Makes a change to the table that holds the last part of a path. -/
def Draft.open? (d : Draft) (path : List String) (change : String → Table → Option Table) :
    Option Draft := do
  let root ← d.root.within path.dropLast (change (← path.getLast?))
  return { root, header := path, number := d.number + 1 }

/-- Reads a statement and makes its change. -/
def readStatement (d : Draft) (cs : List Char) : Option (Draft × List Char) := do
  let fuel := 2 * cs.length + 2
  match cs with
  | '[' :: '[' :: rest =>
    let (path, rest) ← readKey fuel (skipBlanks rest)
    match rest with
    | ']' :: ']' :: rest => return (← d.open? path Table.append, rest)
    | _ => none
  | '[' :: rest =>
    let (path, rest) ← readKey fuel (skipBlanks rest)
    match rest with
    | ']' :: rest => return (← d.open? path Table.declare, rest)
    | _ => none
  | _ =>
    let ((key, value), rest) ← readPairing fuel cs
    return ({ d with root := ← d.root.within d.header (Table.insert d.number value key) }, rest)

/-- Reads statements up to the end of the file. -/
def readStatements : Nat → Draft → List Char → Option Draft
  | 0, _, _ => none
  | fuel + 1, d, cs => do
    let cs := skipBlanks cs
    let (d, rest) ← match cs.head? with
      | none => some (d, cs)
      | some c => if c = '\n' ∨ c = '#' then some (d, cs) else readStatement d cs
    match ← afterComment? (skipBlanks rest) with
    | [] => return d
    | '\n' :: rest => readStatements fuel d rest
    | _ => none

/-- Characters in which a carriage return before a line feed is left out. -/
def plainLines : List Char → List Char
  | '\r' :: '\n' :: rest => '\n' :: plainLines rest
  | c :: rest => c :: plainLines rest
  | [] => []

/-- Reads a file as plain data. -/
def read? (s : String) : Option Json :=
  let cs := plainLines s.toList
  (readStatements (cs.length + 1) {} cs).map fun d => d.root.toJson

end DesignTokens.Toml

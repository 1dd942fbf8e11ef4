import DesignTokens.Yaml.Scalar
import DesignTokens.Yaml.ScalarText

/-!
# Reading YAML

A file holds one document: a scalar, or a collection laid out by columns or written in brackets. What
it describes is plain data; keys that are no texts are kept in their display form, and a key that is
repeated has its last value. Anchors, aliases, merge keys and the tags of plain data are known, and
directives may stand before a document. Whatever else YAML allows is refused.
-/

namespace DesignTokens.Yaml

/-! ### Contents -/

/-- What a node holds, before its tag is looked at. -/
inductive Content where
  | plain (text : List Char)
  | quoted (text : List Char)
  | value (value : Json)

/-- The anchor and the tag in front of a node. -/
structure Properties where
  anchor : Option String := none
  tag : Option String := none
deriving DecidableEq

/-- A node without an anchor and a tag. -/
def Properties.isEmpty (p : Properties) : Bool := p.anchor.isNone && p.tag.isNone

/-- The key of an entry: a name, or the mark of mappings to be merged. -/
inductive Key where
  | merge
  | named (name : String)

/-- The characters of a scalar. -/
def Content.chars? : Content → Option (List Char)
  | plain cs => some cs
  | quoted cs => some cs
  | value _ => none

/-- The value of a content without a tag. -/
def Content.value? : Content → Option Json
  | plain cs => Plain.value? cs
  | quoted cs => some (.text (String.ofList cs))
  | value v => some v

/-- The value of a content under a tag. -/
def Content.tagged? (tag : String) (content : Content) : Option Json :=
  match tag, content, content.chars? with
  | "!", _, _ => content.value?
  | "!!str", _, some cs => some (.text (String.ofList cs))
  | "!!seq", value (.list items), _ => some (.list items)
  | "!!map", value (.object fields), _ => some (.object fields)
  | "!!null", _, some _ => some .null
  | "!!int", _, some cs => (Plain.int? cs).map .int
  | "!!float", _, some cs =>
    match Plain.float? cs, Plain.int? cs with
    | some x, _ => some (.float x)
    | none, some n => some (.float (Float.ofInt n))
    | none, none => none
  | "!!bool", _, some cs =>
    match Plain.ofChars cs with
    | .bool b => some (.bool b)
    | _ => none
  | _, _, _ => none

/-- The fields of a mapping. -/
def fields? : Json → Option (List (String × Json))
  | .object fields => some fields
  | _ => none

/-- The fields that a merged value brings in; of several mappings the first ones count most. -/
def mergedFields? : Json → Option (List (String × Json))
  | .list items => (items.mapM fields?).map fun parts => parts.reverse.flatten
  | value => fields? value

/-- The value to be merged, if the entry has one. -/
def merged? : Key × Json → Option Json
  | (.merge, value) => some value
  | (.named _, _) => none

/-- The field that an entry describes. -/
def field? : Key × Json → Option (String × Json)
  | (.merge, _) => none
  | (.named name, value) => some (name, value)

/-- The mapping of entries. Merged fields give way to those of the mapping itself. -/
def mapping? (entries : List (Key × Json)) : Option Json := do
  let merged ← (entries.filterMap merged?).mapM mergedFields?
  return Json.object (OrderedMap.ofList (merged.flatten ++ entries.filterMap field?))

/-! ### Steps -/

/-- The rest of a document and the values known by an anchor. -/
structure Progress where
  rest : List Mark
  anchors : List (String × Json) := []

/-- A step through a document, which may refuse it. -/
abbrev Step := StateT Progress Option

/-- What has not been read yet. -/
def upcoming : Step (List Mark) := return (← get).rest

/-- Goes on with other marks. -/
def goOn (ms : List Mark) : Step Unit := modify ({ · with rest := ms })

/-- Passes blanks, line breaks and comments. -/
def passBlanks : Step Unit := do goOn (Mark.afterBlanks false (← upcoming))

/-- Passes spaces. -/
def passSpaces : Step Unit := do goOn (Mark.afterSpaces (← upcoming))

/-- Passes a character if it is the next one, and says whether it was. -/
def passes (c : Char) : Step Bool := do
  match ← upcoming with
  | m :: rest => if m.char = c then goOn rest; return true else return false
  | [] => return false

/-- Passes the colon after a key; it stands on the line on which the key begins. -/
def passesColon (line : Nat) : Step Bool := do
  if (← upcoming).head?.any fun m => m.line == line then passes ':' else return false

/-- Makes a partial answer the next step. -/
def demand {α : Type} (answer : Option α) : Step α := liftM answer

/-- Reads a text with one of the readers of scalars. -/
def textStep (answer : Option (List Char × List Mark)) : Step (List Char) := do
  let (cs, rest) ← demand answer
  goOn rest
  return cs

/-- A character of an anchor. -/
def isAnchorChar (c : Char) : Bool :=
  c.isAlphanum || c == '-' || c == '_'

/-- Reads the name of an anchor after its sign. -/
def readAnchor : Step String := do
  let ms := (← upcoming).drop 1
  let name := ms.takeWhile fun m => isAnchorChar m.char
  let rest := ms.drop name.length
  let isClosed := isGap (Mark.head? rest) ||
    (Mark.head? rest).any fun c => "?:,]\x7d%@\x60".toList.contains c
  if name.isEmpty || !isClosed then failure
  goOn rest
  return String.ofList (Mark.chars name)

/-- Reads a tag. -/
def readTag : Step String := do
  let ms ← upcoming
  let tag := ms.takeWhile fun m => !isGap (some m.char)
  goOn (ms.drop tag.length)
  return String.ofList (Mark.chars tag)

/-- Reads an anchor and a tag in either order, each at most once. -/
def readProperties : Nat → Properties → Step Properties
  | 0, p => return p
  | n + 1, p => do
    match Mark.head? (← upcoming), p.anchor, p.tag with
    | some '&', none, _ =>
      let name ← readAnchor
      passSpaces
      readProperties n { p with anchor := some name }
    | some '!', _, none =>
      let tag ← readTag
      passSpaces
      readProperties n { p with tag := some tag }
    | _, _, _ => return p

/-- The value that an alias stands for. -/
def readAlias : Step Json := do
  let name ← readAnchor
  demand ((← get).anchors.lookup name)

/-- The value of a node, known by its anchor from now on. -/
def finish (p : Properties) (content : Content) : Step Json := do
  let value ← demand (match p.tag with
    | none => content.value?
    | some tag => content.tagged? tag)
  match p.anchor with
  | none => return value
  | some name =>
    if ((← get).anchors.lookup name).isSome then failure
    modify fun s => { s with anchors := (name, value) :: s.anchors }
    return value

/-- A value as a key, which is no collection. -/
def keyOf (value : Json) : Step Key :=
  match value with
  | .list _ => failure
  | .object _ => failure
  | _ => return .named value.asText

/-- The key of a content. -/
def finishKey (p : Properties) (content : Content) : Step Key := do
  match p.tag, content with
  | none, .plain ['<', '<'] => return .merge
  | none, .plain ['='] => return .named "="
  | _, _ => keyOf (← finish p content)

/-! ### Nodes -/

/-- Where a node stands. -/
inductive Place where
  /-- Inside brackets. -/
  | flow
  /-- In front of a colon. -/
  | key
  /-- Where further lines of a scalar begin at a column or behind it. -/
  | block (column : Nat)

/-- Reads a plain text. -/
def plainStep (place : Place) (ms : List Mark) : Step (List Char) := do
  let (cs, rest) := match place with
    | .flow => plainText true false 0 ms.length ms
    | .key => plainText false true 0 ms.length ms
    | .block column => plainText false false column ms.length ms
  goOn rest
  return cs

/-- A plain text can begin here. -/
def Place.beginsPlain (place : Place) (ms : List Mark) : Bool :=
  match place with
  | .flow => Yaml.beginsPlain true ms
  | _ => Yaml.beginsPlain false ms

/-- The longest key before its colon. -/
def keyLimit : Nat := 1024

mutual

/-- Reads a scalar, an alias or a collection in brackets. The fuel bounds the number of steps; four
times the length of the text is always enough. -/
def readContent : Nat → Place → Step Content
  | 0, _ => failure
  | fuel + 1, place => do
    let ms ← upcoming
    let further := ms.drop 1
    match Mark.head? ms with
    | some '*' => return .value (← readAlias)
    | some '[' =>
      goOn further
      return .value (.list (← readFlowItems fuel))
    | some '\x7b' =>
      goOn further
      return .value (← demand (mapping? (← readFlowEntries fuel)))
    | some '\'' => return .quoted (← textStep (singleQuoted [] further))
    | some '"' => return .quoted (← textStep (doubleQuoted [] ms.length further))
    | some c =>
      match place with
      | .block column =>
        if c = '|' ∨ c = '>' then
          return .quoted (← textStep (readBlock (c == '>') column further))
        else if place.beginsPlain ms then return .plain (← plainStep place ms)
        else failure
      | _ => if place.beginsPlain ms then return .plain (← plainStep place ms) else failure
    | none => failure

/-- Reads a node in brackets. -/
def readFlowNode : Nat → Step (Properties × Content)
  | 0 => failure
  | fuel + 1 => do
    let p ← readProperties 2 {}
    passBlanks
    let isMissing := (Mark.head? (← upcoming)).any fun c => ":,]\x7d".toList.contains c
    if !p.isEmpty && isMissing then return (p, .plain [])
    else return (p, ← readContent fuel .flow)

/-- Reads a value after its colon in brackets. -/
def readFlowValue : Nat → Step Json
  | 0 => failure
  | fuel + 1 => do
    passBlanks
    if (Mark.head? (← upcoming)).any fun c => c == ',' || c == ']' || c == '\x7d' then
      return .null
    let (p, content) ← readFlowNode fuel
    finish p content

/-- Reads the items of a list up to its closing bracket. An item with a colon is a mapping with one
entry. -/
def readFlowItems : Nat → Step (List Json)
  | 0 => failure
  | fuel + 1 => do
    passBlanks
    if ← passes ']' then return []
    let line := ((← upcoming).head?.map (·.line)).getD 0
    let (p, content) ← readFlowNode fuel
    passBlanks
    let item ←
      if ← passesColon line then
        let key ← finishKey p content
        let value ← readFlowValue fuel
        demand (mapping? [(key, value)])
      else finish p content
    passBlanks
    if ← passes ',' then return item :: (← readFlowItems fuel)
    if ← passes ']' then return [item]
    failure

/-- Reads the entries of a mapping up to its closing brace. A key without a colon has no value. -/
def readFlowEntries : Nat → Step (List (Key × Json))
  | 0 => failure
  | fuel + 1 => do
    passBlanks
    if ← passes '\x7d' then return []
    let line := ((← upcoming).head?.map (·.line)).getD 0
    let (p, content) ← readFlowNode fuel
    let key ← finishKey p content
    passBlanks
    let value ← if ← passesColon line then readFlowValue fuel else pure .null
    passBlanks
    if ← passes ',' then return (key, value) :: (← readFlowEntries fuel)
    if ← passes '\x7d' then return [(key, value)]
    failure

/-- Reads a key on one line with its colon. -/
def readKey : Nat → Step Key
  | 0 => failure
  | fuel + 1 => do
    let start ← upcoming
    let p ← readProperties 2 {}
    let content ←
      if Mark.beginsEntry ':' (← upcoming) then pure (.plain []) else readContent fuel .key
    passSpaces
    let rest ← upcoming
    let sameLine := match start.head?, rest.head? with
      | some first, some last => first.line == last.line
      | _, _ => false
    if Mark.beginsEntry ':' rest && sameLine && start.length - rest.length ≤ keyLimit then
      goOn (rest.drop 1)
      finishKey p content
    else failure

/-- Reads a node laid out by columns: one at a column or behind it, or a list whose dashes stand just
before that column, if `dashes` allows it. On the line `inline` no collection can begin. Where there
is no node, the value is null. -/
def readNode : Nat → Properties → Option Nat → Nat → Bool → Step Json
  | 0, _, _, _, _ => failure
  | fuel + 1, p, inline, column, dashes => do
    passBlanks
    let ms ← upcoming
    match ms.head? with
    | none => finish p (.plain [])
    | some m =>
      let isFree := inline != some m.line
      let hasDash := Mark.beginsEntry '-' ms
      let isOutside := m.column < column && !(dashes && hasDash && m.column + 1 == column)
      if isFree && isOutside then finish p (.plain [])
      else if isFree && hasDash then finish p (.value (.list (← readItems fuel m.column)))
      else if isFree && (Mark.beginsEntry '?' ms || ((readKey fuel).run (← get)).isSome) then
        finish p (.value (← demand (mapping? (← readEntries fuel m.column))))
      else if p.isEmpty && (m.char == '&' || m.char == '!') then
        readNode fuel (← readProperties 2 {}) (some m.line) column dashes
      else finish p (← readContent fuel (.block column))

/-- Reads the items of a list whose dashes stand at a column. -/
def readItems : Nat → Nat → Step (List Json)
  | 0, _ => failure
  | fuel + 1, column => do
    goOn ((← upcoming).drop 1)
    let item ← readNode fuel {} none (column + 1) false
    passBlanks
    let ms ← upcoming
    if Mark.beginsEntry '-' ms && ms.head?.any fun m => m.column == column then
      return item :: (← readItems fuel column)
    else return [item]

/-- Reads the entries of a mapping whose keys begin at a column. -/
def readEntries : Nat → Nat → Step (List (Key × Json))
  | 0, _ => failure
  | fuel + 1, column => do
    let entry ← readEntry fuel column
    passBlanks
    match (← upcoming).head? with
    | none => return [entry]
    | some m =>
      if m.column = column then return entry :: (← readEntries fuel column)
      else if m.column < column then return [entry]
      else failure

/-- Reads an entry: a key on one line, or a longer one after a question mark. -/
def readEntry : Nat → Nat → Step (Key × Json)
  | 0, _ => failure
  | fuel + 1, column => do
    let ms ← upcoming
    if Mark.beginsEntry '?' ms then
      goOn (ms.drop 1)
      let key ← keyOf (← readNode fuel {} none (column + 1) true)
      passBlanks
      let ms ← upcoming
      if Mark.beginsEntry ':' ms && ms.head?.any fun m => m.column == column then
        goOn (ms.drop 1)
        return (key, ← readNode fuel {} none (column + 1) true)
      else return (key, .null)
    else
      let key ← readKey fuel
      return (key, ← readNode fuel {} (ms.head?.map (·.line)) (column + 1) true)

end

/-! ### Documents -/

/-- A mark between documents begins the line. -/
def isMarker (cs : List Char) : Bool :=
  looksLikeMarker cs && isGap (cs.drop 3).head?

/-- The characters before the first line that begins with a mark between documents, and the rest from
that line on. -/
def untilMarker (lineStart : Bool) : List Char → List Char × List Char
  | [] => ([], [])
  | c :: rest =>
    if lineStart && isMarker (c :: rest) then ([], c :: rest)
    else
      let (before, further) := untilMarker (isBreak c) rest
      (c :: before, further)

/-- The text holds blanks and comments only. -/
def isVoid (cs : List Char) : Bool :=
  (Mark.afterBlanks false (Mark.listOf cs)).isEmpty

/-- The version in a directive: numbers before and after a point. The first one has to be 1. -/
def isKnownVersion (cs : List Char) : Bool :=
  let major := cs.takeWhile Char.isDigit
  match cs.drop major.length with
  | '.' :: rest =>
    let minor := rest.takeWhile Char.isDigit
    let further := rest.drop minor.length
    Decimal.natOfDigits major == 1 && !minor.isEmpty && further.head?.all (· == ' ') &&
      isVoid further
  | _ => false

/-- The name of the directive that gives the version. -/
def versionDirective : List Char := "YAML".toList

/-- The name of the directive on a line, when it is one that can be obeyed. Directives other than the
version are passed over. -/
def directive? (line : List Char) : Option (List Char) :=
  match line with
  | '%' :: rest =>
    let name := rest.takeWhile isAnchorChar
    let further := rest.drop name.length
    if name.isEmpty || !further.head?.all (· == ' ') then none
    else if name == versionDirective && !isKnownVersion (further.dropWhile (· == ' ')) then none
    else some name
  | _ => none

/-- Lines that may stand before the mark of a document: blanks, comments and directives, of which at
most one gives the version. -/
def isProlog (cs : List Char) : Bool :=
  let lines := cs.splitOnP isBreak
  lines.all (fun line => isVoid line || (directive? line).isSome) &&
    lines.countP (fun line => directive? line == some versionDirective) ≤ 1

/-- Nothing follows a document, unless its end is marked. -/
def endsStream : List Char → Bool
  | [] => true
  | '.' :: '.' :: '.' :: rest => isVoid rest
  | _ => false

/-- Reads the text of a document; on the line `inline` no collection can begin. -/
def readDocument (inline : Option Nat) (cs : List Char) : Option Json := do
  let step : Step Json := do
    let value ← readNode (4 * cs.length + 8) {} inline 0 false
    passBlanks
    if !(← upcoming).isEmpty then failure
    return value
  step.run' { rest := Mark.listOf cs }

/-- Characters without the mark of byte order, all line breaks of one byte made line feeds. -/
def normalChars (cs : List Char) : List Char :=
  (if cs.head?.map Char.toNat = some 0xFEFF then cs.drop 1 else cs).map fun c =>
    if c.toNat = 0x85 then '\n' else c

/-- Reads a file that holds one document. Its line ends are line feeds. -/
def read? (s : String) : Option Json :=
  let cs := normalChars s.toList
  if !cs.all isPrintable then none
  else
    let (before, rest) := untilMarker true cs
    match rest with
    | '-' :: _ =>
      let (body, rest) := untilMarker false (rest.drop 3)
      if isProlog before && endsStream rest then readDocument (some 0) ([' ', ' ', ' '] ++ body)
      else none
    | [] => readDocument none before
    | _ => if !isVoid before && endsStream rest then readDocument none before else none

end DesignTokens.Yaml

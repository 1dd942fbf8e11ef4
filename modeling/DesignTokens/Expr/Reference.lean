import DesignTokens.Text.Scan

/-!
# References in calculations

A calculation names variables by a quoted path, `'Spacing/base'`, in which a backslash makes the next
character stand for itself, or by a custom property, `var(--spacing-base)`. A text is cut into its
references and the characters between them; nothing is lost, and each reference is as long as the
first closing quote or parenthesis allows.
-/

namespace DesignTokens

/-- A reference, with what stands between its delimiters as written. -/
inductive Reference where
  | path (raw : List Char)
  | property (raw : List Char)
deriving DecidableEq, Repr

/-- A piece of a text. -/
inductive Piece where
  | plain (c : Char)
  | reference (r : Reference)
deriving DecidableEq, Repr

namespace Reference

/-- A reference as it is written. -/
def chars : Reference → List Char
  | path raw => '\'' :: raw ++ ['\'']
  | property raw => "var(--".toList ++ raw ++ [')']

/-- A reference as it is written. -/
def text (r : Reference) : String :=
  String.ofList r.chars

/-- The part of a quoted path up to the closing quote: escaped characters that are no line breaks,
and characters that are neither quotes nor backslashes. -/
def quotedBody? : List Char → Option (List Char)
  | [] => none
  | c :: rest =>
    if c = '\'' then some []
    else if c = '\\' then match rest with
      | d :: rest => if d = '\n' then none else (quotedBody? rest).map fun body => c :: d :: body
      | [] => none
    else (quotedBody? rest).map (c :: ·)

/-- The quoted path at the front. -/
def path? : List Char → Option Reference
  | '\'' :: rest => match quotedBody? rest with
    | some (c :: body) => some (path (c :: body))
    | _ => none
  | _ => none

/-- The custom property at the front. -/
def property? (cs : List Char) : Option Reference :=
  match "var(--".toList.isPrefixOf? cs with
  | none => none
  | some rest =>
    let raw := rest.takeWhile (· != ')')
    if raw.isEmpty ∨ rest.length = raw.length then none else some (property raw)

/-- The reference of either kind at the front. -/
def any? (cs : List Char) : Option Reference :=
  path? cs <|> property? cs

/-- Characters without the backslashes that make the next character stand for itself. -/
def unescape : List Char → List Char
  | [] => []
  | [c] => [c]
  | c :: d :: rest =>
    if c = '\\' ∧ d ≠ '\n' then d :: unescape rest else c :: unescape (d :: rest)

/-- The path that a quoted path denotes. -/
def pathText (raw : List Char) : String :=
  String.ofList (unescape raw)

/-- A reference text as messages show it: a quoted text without its quotes and escapes. -/
def display (reference : String) : String :=
  let cs := reference.toList
  if cs.head? = some '\'' ∧ cs.getLast? = some '\'' ∧ 2 ≤ cs.length then
    pathText (cs.drop 1).dropLast
  else reference

end Reference

/-- Cuts a text into the references that a reader finds and the characters between them. -/
def pieces (reader : List Char → Option Reference) : List Char → List Piece
  | [] => []
  | c :: rest => match reader (c :: rest) with
    | some r => .reference r :: pieces reader (rest.drop (r.chars.length - 1))
    | none => .plain c :: pieces reader rest
termination_by cs => cs.length
decreasing_by
  · simp only [List.length_drop, List.length_cons]
    omega
  · simp

/-- The references that a reader finds in a text, in order. -/
def referencesOf (reader : List Char → Option Reference) (text : String) : List Reference :=
  (pieces reader text.toList).filterMap fun
    | .reference r => some r
    | .plain _ => none

/-- The custom properties a text refers to, as written. -/
def propertyReferences (text : String) : List String :=
  (referencesOf Reference.property? text).map Reference.text

/-- The paths a text refers to. -/
def pathReferences (text : String) : List String :=
  (referencesOf Reference.path? text).filterMap fun
    | .path raw => some (Reference.pathText raw)
    | .property _ => none

/-- A text in which every reference that a reader finds is replaced. -/
def replaceReferences (reader : List Char → Option Reference)
    (replacement : Reference → List Char) (text : String) : String :=
  String.ofList <| (pieces reader text.toList).flatMap fun
    | .plain c => [c]
    | .reference r => replacement r

end DesignTokens

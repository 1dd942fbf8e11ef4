import DesignTokens.Decimal.Exact
import DesignTokens.Proofs.OrderedMap
import DesignTokens.Token.Document

/-!
# Documents that are the same

Two documents are the same if they have the same collections in the same order, the same names in
their trees, and tokens with the same types, values, descriptions and origins, where numbers are
compared by value: a zero is the same number with either sign.  A kind of styles without tokens
counts as absent.

A segment of a path is reserved if it begins with a dollar sign, and so is the mode name `$ref`.
Documents that are the same walk through the same tokens (`Document.Same.tokens`), so that none or
both of them use a reserved name.
-/

namespace DesignTokens

/-! ## Values -/

/-- Two typography values are the same. -/
structure Typography.Same (a b : Typography) : Prop where
  fontFamily : a.fontFamily = b.fontFamily
  fontSize : (a.fontSize == b.fontSize) = true
  fontWeight : (a.fontWeight == b.fontWeight) = true
  fontStyle : a.fontStyle = b.fontStyle
  lineHeight : a.lineHeight = b.lineHeight
  letterSpacing : a.letterSpacing = b.letterSpacing
  textDecoration : a.textDecoration = b.textDecoration
  textTransform : a.textTransform = b.textTransform

/-- Two shadow values are the same. -/
structure BoxShadow.Same (a b : BoxShadow) : Prop where
  offsetX : (a.offsetX == b.offsetX) = true
  offsetY : (a.offsetY == b.offsetY) = true
  blur : (a.blur == b.blur) = true
  spread : (a.spread == b.spread) = true
  color : a.color = b.color
  inner : a.inner = b.inner

/-- Two grid values are the same. -/
structure GridTracks.Same (a b : GridTracks) : Prop where
  pattern : a.pattern = b.pattern
  count : Option.Rel (fun x y => (x == y) = true) a.count b.count
  sectionSize : Option.Rel (fun x y => (x == y) = true) a.sectionSize b.sectionSize
  gutterSize : (a.gutterSize == b.gutterSize) = true
  offset : (a.offset == b.offset) = true

/-- Two literal values are the same. -/
inductive Literal.Same : Literal → Literal → Prop
  | bool (b : Bool) : Same (.bool b) (.bool b)
  | number {x y : Float} (h : (x == y) = true) : Same (.number x) (.number y)
  | text (s : String) : Same (.text s) (.text s)
  | typography {a b : Typography} (h : a.Same b) : Same (.typography a) (.typography b)
  | shadow {a b : BoxShadow} (h : a.Same b) : Same (.shadow a) (.shadow b)
  | grid {a b : GridTracks} (h : a.Same b) : Same (.grid a) (.grid b)

/-- Two single values are the same. -/
inductive FlatValue.Same : FlatValue → FlatValue → Prop
  | literal {a b : Literal} (h : a.Same b) : Same (.literal a) (.literal b)
  | reference (path : String) : Same (.reference path) (.reference path)

/-- Two values of tokens are the same. -/
inductive TokenValue.Same : TokenValue → TokenValue → Prop
  | flat {a b : FlatValue} (h : a.Same b) : Same (.flat a) (.flat b)
  | perMode {a b : OrderedMap FlatValue} (h : a.Matches FlatValue.Same b) :
      Same (.perMode a) (.perMode b)

/-- Two tokens are the same. -/
structure Token.Same (a b : Token) : Prop where
  type : a.type = b.type
  value : a.value.Same b.value
  description : a.description = b.description
  origin : a.origin = b.origin

/-! ## Trees and documents -/

mutual

/-- Two nodes are the same. -/
inductive TokenNode.Same : TokenNode → TokenNode → Prop
  | token {a b : Token} (h : a.Same b) : TokenNode.Same (.token a) (.token b)
  | group {a b : List (String × TokenNode)} (h : TokenTree.Same a b) :
      TokenNode.Same (.group a) (.group b)

/-- Two trees are the same. -/
inductive TokenTree.Same : TokenTree → TokenTree → Prop
  | nil : TokenTree.Same [] []
  | cons {name : String} {m n : TokenNode} {a b : TokenTree} (hnode : TokenNode.Same m n)
      (hrest : TokenTree.Same a b) : TokenTree.Same ((name, m) :: a) ((name, n) :: b)

end

/-- Two documents are the same. -/
structure Document.Same (d e : Document) : Prop where
  collections : d.collections.Matches TokenTree.Same e.collections
  styles : d.presentStyles.Matches TokenTree.Same e.presentStyles
  sourceFile : d.sourceFile = e.sourceFile
  generatedAt : d.generatedAt = e.generatedAt
  schema : d.schema = e.schema

/-- The tokens of a document with their paths in their trees. -/
def Document.tokens (d : Document) : List (List String × Token) :=
  (d.collections ++ d.presentStyles).flatMap fun e => TokenTree.walk [] e.2

/-! ## Numbers -/

/-- The numbers of a literal value. -/
def Literal.numbers : Literal → List Float
  | bool _ | text _ => []
  | number x => [x]
  | typography t => [t.fontSize, t.fontWeight]
  | shadow s => [s.offsetX, s.offsetY, s.blur, s.spread]
  | grid g => g.count.toList ++ g.sectionSize.toList ++ [g.gutterSize, g.offset]

/-- The numbers of a single value. -/
def FlatValue.numbers : FlatValue → List Float
  | literal l => l.numbers
  | reference _ => []

/-- The numbers of a token. -/
def Token.numbers (t : Token) : List Float :=
  match t.value with
  | .flat v => v.numbers
  | .perMode modes => modes.flatMap fun e => e.2.numbers

/-- All numbers of a token are finite. -/
def Token.IsFinite (t : Token) : Prop :=
  ∀ x ∈ t.numbers, isFiniteNumber x = true

/-- All numbers of a document are finite. -/
def Document.IsFinite (d : Document) : Prop :=
  ∀ e ∈ d.tokens, e.2.IsFinite

/-! ## Reserved names -/

/-- A token at a path uses no reserved name. -/
def IsUnreserved (e : List String × Token) : Prop :=
  (∀ segment ∈ e.1, segment.toList.head? ≠ some '$') ∧ "$ref" ∉ e.2.modeNames

/-- No token of a document uses a reserved name. -/
def Document.IsUnreserved (d : Document) : Prop :=
  ∀ e ∈ d.tokens, DesignTokens.IsUnreserved e

/-! ## Walks of trees that are the same -/

/-- Tokens that are the same have the same mode names. -/
lemma Token.Same.modeNames {a b : Token} (h : a.Same b) : a.modeNames = b.modeNames := by
  have hvalue := h.value
  unfold Token.modeNames
  generalize a.value = v at hvalue
  generalize b.value = w at hvalue
  cases hvalue with
  | flat _ => rfl
  | perMode hmodes => exact hmodes.keys

/-- Two tokens with their paths are the same. -/
def SameAt (a b : List String × Token) : Prop :=
  a.1 = b.1 ∧ a.2.Same b.2

mutual

/-- Nodes that are the same walk through the same tokens. -/
lemma TokenNode.Same.walk {a b : TokenNode} (path : List String) :
    a.Same b → List.Forall₂ SameAt (TokenTree.walkNode path a) (TokenTree.walkNode path b)
  | .token h => .cons ⟨rfl, h⟩ .nil
  | .group h => TokenTree.Same.walkBelow path h

/-- Trees that are the same walk through the same tokens. -/
lemma TokenTree.Same.walkBelow {a b : TokenTree} (path : List String) :
    TokenTree.Same a b →
      List.Forall₂ SameAt (TokenTree.walkBelow path a) (TokenTree.walkBelow path b)
  | .nil => .nil
  | .cons hnode hrest =>
    List.rel_append (TokenNode.Same.walk _ hnode) (TokenTree.Same.walkBelow path hrest)

end

/-- Documents that are the same walk through the same tokens. -/
theorem Document.Same.tokens {d e : Document} (h : d.Same e) :
    List.Forall₂ SameAt d.tokens e.tokens := by
  have htrees : (d.collections ++ d.presentStyles).Matches TokenTree.Same
      (e.collections ++ e.presentStyles) := List.rel_append h.collections h.styles
  exact List.rel_flatMap htrees fun _ _ hentry => TokenTree.Same.walkBelow [] hentry.2

/-- A token uses no reserved name if one that is the same uses none. -/
lemma SameAt.isUnreserved {a b : List String × Token} (h : SameAt a b) (ha : IsUnreserved a) :
    IsUnreserved b := by
  obtain ⟨hpath, htoken⟩ := h
  unfold IsUnreserved at ha ⊢
  rwa [hpath, htoken.modeNames] at ha

/-- A document uses no reserved name if one that is the same uses none. -/
theorem Document.Same.isUnreserved {d e : Document} (h : d.Same e) (hd : d.IsUnreserved) :
    e.IsUnreserved := by
  intro x hx
  obtain ⟨y, hy, hsame⟩ := exists_of_forall₂ h.tokens.flip hx
  exact SameAt.isUnreserved hsame (hd y hy)

end DesignTokens

import DesignTokens.Design.Membership
import DesignTokens.Token.Tree

/-!
# Token documents

A document holds a tree of tokens for each collection of a design file, and may hold trees of style
tokens. References between tokens are kept as texts and are looked up when they are needed.
-/

namespace DesignTokens

/-- The mode names of a token, in order. -/
def Token.modeNames (t : Token) : List String :=
  match t.value with
  | .perMode modes => OrderedMap.keys modes
  | .flat _ => []

/-- The value of a token where one value is needed: the one of the default mode, or of the first
mode. -/
def Token.flatValue? (t : Token) : Option FlatValue :=
  match t.value with
  | .flat value => some value
  | .perMode modes => (preferDefault? Prod.fst modes).map (·.2)

/-- The trees of style tokens, by kind of style. -/
structure StyleTrees where
  paint : Option TokenTree := none
  text : Option TokenTree := none
  effect : Option TokenTree := none
  grid : Option TokenTree := none

/-- The trees that are there and not empty, by the names of their kinds. -/
def StyleTrees.present (s : StyleTrees) : OrderedMap TokenTree :=
  [("paint", s.paint), ("text", s.text), ("effect", s.effect), ("grid", s.grid)].filterMap
    fun (name, tree) => match tree with
      | some (child :: rest) => some (name, child :: rest)
      | _ => none

/-- The address that documents name as their format. -/
def defaultSchema : String := "https://design-tokens.github.io/format/"

/-- A token document. -/
structure Document where
  collections : OrderedMap TokenTree := []
  styles : Option StyleTrees := none
  sourceFile : String := ""
  generatedAt : String := ""
  schema : String := defaultSchema

namespace Document

/-- The style trees that are there and not empty. -/
def presentStyles (d : Document) : OrderedMap TokenTree :=
  (d.styles.map StyleTrees.present).getD []

/-- There are no tokens. -/
def isEmpty (d : Document) : Bool :=
  d.collections.all (·.2.isEmpty) && d.presentStyles.isEmpty

/-! ### Looking up references -/

/-- The path of the token a dotted reference names. The names of collections and tokens may hold dots
themselves; of several readings the first one in document order counts. -/
def resolveReference (d : Document) (reference : String) : Option (List String) :=
  d.collections.findSome? fun (name, tree) =>
    match (name.toList ++ ['.']).isPrefixOf? reference.toList with
    | some rest => (TokenTree.matchDotted? rest tree).map (name :: ·)
    | none => none

/-- The segments of a path with slashes. -/
def segments (path : String) : List String :=
  (path.toList.splitOn '/').map String.ofList

/-- The token at a path that begins with the name of its collection. -/
def atFullPath? (d : Document) (path : List String) : Option Token :=
  match path with
  | name :: next :: rest =>
    (OrderedMap.find? name d.collections).bind (TokenTree.token? (next :: rest))
  | _ => none

/-- The paths of the tokens that have a path in their collections, with the tokens. -/
def atShortPath (d : Document) (path : List String) : List (List String × Token) :=
  d.collections.filterMap fun (name, tree) =>
    (TokenTree.token? path tree).map fun t => (name :: path, t)

/-- The token a path with slashes names: with the name of its collection in front, or alone. A path
that names tokens of several collections is ambiguous. -/
def resolvePath (d : Document) (path : String) : Except Fault (Option (List String × Token)) :=
  match d.atFullPath? (segments path) with
  | some t => .ok (some (segments path, t))
  | none => match d.atShortPath (segments path) with
    | [] => .ok none
    | [found] => .ok (some found)
    | found => .error (.ambiguousReference path (found.map fun f => f.1.headD ""))

end Document

end DesignTokens

import DesignTokens.Fault
import DesignTokens.Token.Basic

/-!
# Trees of tokens

Tokens are kept in a tree of groups, under paths of names. No name of a group is both a token and a
group: a token is refused where a group stands, and below another token.
-/

namespace DesignTokens

/-- What a name of a group stands for. -/
inductive TokenNode where
  | token (token : Token)
  | group (children : List (String × TokenNode))

/-- A tree of tokens, given by the children of its root. -/
abbrev TokenTree := OrderedMap TokenNode

namespace TokenTree

/-- Adds a token at a path below the place where the segments `above` lead. -/
def insertBelow (above : List String) :
    List String → Token → TokenTree → Except TreeConflict TokenTree
  | [], _, _ => .error .emptyPath
  | [leaf], token, tree => match OrderedMap.find? leaf tree with
    | some (.group _) => .error (.overGroup (above ++ [leaf]))
    | _ => .ok (OrderedMap.set leaf (.token token) tree)
  | segment :: next :: rest, token, tree => match OrderedMap.find? segment tree with
    | some (.token _) =>
      .error (.throughToken (above ++ [segment]) (above ++ segment :: next :: rest))
    | some (.group children) => do
      let children ← insertBelow (above ++ [segment]) (next :: rest) token children
      return OrderedMap.set segment (.group children) tree
    | none => do
      let children ← insertBelow (above ++ [segment]) (next :: rest) token []
      return OrderedMap.set segment (.group children) tree

/-- Adds a token at a path, with the groups it needs. A token that is there already is replaced. -/
def insert (path : List String) (token : Token) (tree : TokenTree) :
    Except TreeConflict TokenTree :=
  insertBelow [] path token tree

/-- What stands at a path below a node. -/
def nodeAt? : List String → TokenNode → Option TokenNode
  | [], node => some node
  | _ :: _, .token _ => none
  | segment :: rest, .group children => match OrderedMap.find? segment children with
    | some child => nodeAt? rest child
    | none => none

/-- What stands at a path; the empty path leads to the root. -/
def get? (path : List String) (tree : TokenTree) : Option TokenNode :=
  nodeAt? path (.group tree)

/-- The token at a path. -/
def token? (path : List String) (tree : TokenTree) : Option Token :=
  match get? path tree with
  | some (.token t) => some t
  | _ => none

mutual

/-- The tokens at and below a node, each with its path. -/
def walkNode (path : List String) : TokenNode → List (List String × Token)
  | .token t => [(path, t)]
  | .group children => walkBelow path children

/-- The tokens below a place, each with its path, depth first in order. -/
def walkBelow (path : List String) : List (String × TokenNode) → List (List String × Token)
  | [] => []
  | (name, node) :: rest => walkNode (path ++ [name]) node ++ walkBelow path rest

end

/-- The tokens of a tree, each with its path after the segments `above`. -/
def walk (above : List String) (tree : TokenTree) : List (List String × Token) :=
  walkBelow above tree

mutual

/-- The path that leads from a node to a token and that reads as a text when its names are joined by
dots; `name` is the name of the node. -/
def matchNode? (name reference : List Char) : TokenNode → Option (List String)
  | .token _ => if reference = name then some [] else none
  | .group children => match (name ++ ['.']).isPrefixOf? reference with
    | some rest => matchDotted? rest children
    | none => none

/-- The path of the first token whose names, joined by dots, read as a text. -/
def matchDotted? (reference : List Char) : List (String × TokenNode) → Option (List String)
  | [] => none
  | (name, node) :: rest => match matchNode? name.toList reference node with
    | some path => some (name :: path)
    | none => matchDotted? reference rest

end

end TokenTree

end DesignTokens

import DesignTokens.Token.Tree

/-!
# Insertion in place

A tree that is held by others is edited where it is. On its way down an insertion makes the groups
that are missing, each one before it looks below it, and what it has made by then stays if the token
is refused.
-/

namespace DesignTokens.TokenTree

/-- Adds a token in place at a path below the place where the segments `above` lead: the tree that
is left, and whether the token was refused. -/
def insertInPlaceBelow (above : List String) :
    List String → Token → TokenTree → TokenTree × Except TreeConflict Unit
  | [], _, tree => (tree, .error .emptyPath)
  | [leaf], token, tree => match OrderedMap.find? leaf tree with
    | some (.group _) => (tree, .error (.overGroup (above ++ [leaf])))
    | _ => (OrderedMap.set leaf (.token token) tree, .ok ())
  | segment :: next :: rest, token, tree => match OrderedMap.find? segment tree with
    | some (.token _) =>
      (tree, .error (.throughToken (above ++ [segment]) (above ++ segment :: next :: rest)))
    | some (.group children) =>
      let (children, outcome) :=
        insertInPlaceBelow (above ++ [segment]) (next :: rest) token children
      (OrderedMap.set segment (.group children) tree, outcome)
    | none =>
      let tree := OrderedMap.set segment (.group []) tree
      let (children, outcome) := insertInPlaceBelow (above ++ [segment]) (next :: rest) token []
      (OrderedMap.set segment (.group children) tree, outcome)

/-- Adds a token in place at a path, with the groups it needs. A token that is there already is
replaced. -/
def insertInPlace (path : List String) (token : Token) (tree : TokenTree) :
    TokenTree × Except TreeConflict Unit :=
  insertInPlaceBelow [] path token tree

end DesignTokens.TokenTree

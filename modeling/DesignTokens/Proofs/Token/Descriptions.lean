import DesignTokens.Proofs.OrderedMap
import DesignTokens.Proofs.Token.DottedPath
import DesignTokens.Proofs.Token.Styles

/-!
# Documents without descriptions

Changing the tokens of a document one by one leaves its groups and paths as they are.  A reference
is resolved to the same path, and a path leads to the changed token (`Document.resolvePath_mapTokens`).
The descriptions of tokens are left out in this way.
-/

namespace DesignTokens

/-! ## Changed tokens -/

mutual

/-- A node with all its tokens changed. -/
def TokenNode.mapTokens (f : Token → Token) : TokenNode → TokenNode
  | .token t => .token (f t)
  | .group children => .group (TokenTree.mapTokens f children)

/-- A tree with all its tokens changed. -/
def TokenTree.mapTokens (f : Token → Token) : List (String × TokenNode) → List (String × TokenNode)
  | [] => []
  | (name, node) :: rest => (name, node.mapTokens f) :: TokenTree.mapTokens f rest

end

/-- Style trees with all their tokens changed. -/
def StyleTrees.mapTokens (f : Token → Token) (s : StyleTrees) : StyleTrees where
  paint := s.paint.map (TokenTree.mapTokens f)
  text := s.text.map (TokenTree.mapTokens f)
  effect := s.effect.map (TokenTree.mapTokens f)
  grid := s.grid.map (TokenTree.mapTokens f)

/-- A document with all its tokens changed. -/
def Document.mapTokens (f : Token → Token) (d : Document) : Document :=
  { d with
    collections := d.collections.map fun (name, tree) => (name, TokenTree.mapTokens f tree)
    styles := d.styles.map (StyleTrees.mapTokens f) }

namespace TokenTree

variable (f : Token → Token)

/-- The nodes of a tree are changed one by one. -/
lemma mapTokens_eq_map (tree : TokenTree) :
    mapTokens f tree = tree.map fun (name, node) => (name, node.mapTokens f) := by
  induction tree with
  | nil => rfl
  | cons child rest ih => rw [mapTokens, ih, List.map_cons]

/-- A name stands for the changed node. -/
lemma find?_mapTokens (name : String) (tree : TokenTree) :
    OrderedMap.find? name (mapTokens f tree) =
      (OrderedMap.find? name tree).map (TokenNode.mapTokens f) := by
  rw [mapTokens_eq_map]
  exact OrderedMap.find?_map (TokenNode.mapTokens f) tree name

mutual

/-- The walk of a node comes to the changed tokens. -/
lemma walkNode_mapTokens (path : List String) : (node : TokenNode) →
    walkNode path (node.mapTokens f) = (walkNode path node).map fun e => (e.1, f e.2)
  | .token _ => rfl
  | .group children => walkBelow_mapTokens path children

/-- The walk below a place comes to the changed tokens. -/
lemma walkBelow_mapTokens (path : List String) : (children : List (String × TokenNode)) →
    walkBelow path (mapTokens f children) = (walkBelow path children).map fun e => (e.1, f e.2)
  | [] => rfl
  | (name, node) :: rest => by
    rw [mapTokens, walkBelow, walkBelow, walkNode_mapTokens (path ++ [name]) node,
      walkBelow_mapTokens path rest, List.map_append]

end

/-- The walk of a tree comes to the changed tokens. -/
lemma walk_mapTokens (above : List String) (tree : TokenTree) :
    walk above (mapTokens f tree) = (walk above tree).map fun e => (e.1, f e.2) :=
  walkBelow_mapTokens f above tree

/-- A path leads to the changed node. -/
lemma nodeAt?_mapTokens (path : List String) (node : TokenNode) :
    nodeAt? path (node.mapTokens f) = (nodeAt? path node).map (TokenNode.mapTokens f) := by
  induction path generalizing node with
  | nil => cases node <;> rfl
  | cons name rest ih =>
    cases node with
    | token t => rfl
    | group children =>
      rw [TokenNode.mapTokens, nodeAt?, nodeAt?, find?_mapTokens]
      cases OrderedMap.find? name children with
      | none => rfl
      | some child => exact ih child

/-- A path leads to the changed token. -/
lemma token?_mapTokens (path : List String) (tree : TokenTree) :
    token? path (mapTokens f tree) = (token? path tree).map f := by
  have hget : get? path (mapTokens f tree) = (get? path tree).map (TokenNode.mapTokens f) :=
    nodeAt?_mapTokens f path (.group tree)
  unfold token?
  rw [hget]
  cases get? path tree with
  | none => rfl
  | some node => cases node <;> rfl

/-- The same path reads as a text. -/
lemma matchDotted?_mapTokens (reference : List Char) (tree : TokenTree) :
    matchDotted? reference (mapTokens f tree) = matchDotted? reference tree := by
  rw [matchDotted?_eq_find?, matchDotted?_eq_find?, walkBelow_mapTokens, List.find?_map,
    Option.map_map]
  rfl

end TokenTree

/-- The style trees that are there and not empty are changed one by one. -/
lemma StyleTrees.present_mapTokens (f : Token → Token) (s : StyleTrees) :
    (s.mapTokens f).present =
      s.present.map fun (name, tree) => (name, TokenTree.mapTokens f tree) := by
  have hkept : ∀ e : String × Option TokenTree,
      kept (e.1, e.2.map (TokenTree.mapTokens f)) =
        (kept e).map fun (name, tree) => (name, TokenTree.mapTokens f tree) := by
    rintro ⟨name, _ | _ | ⟨child, rest⟩⟩ <;> rfl
  have hnames : (s.mapTokens f).byName =
      s.byName.map fun e => (e.1, e.2.map (TokenTree.mapTokens f)) := rfl
  rw [present_eq, present_eq, hnames, List.filterMap_map, List.map_filterMap]
  exact List.filterMap_congr fun e _ => hkept e

namespace Document

variable (f : Token → Token) (d : Document)

/-- The style trees of a document are changed one by one. -/
lemma presentStyles_mapTokens : (d.mapTokens f).presentStyles =
    d.presentStyles.map fun (name, tree) => (name, TokenTree.mapTokens f tree) := by
  unfold presentStyles mapTokens
  cases d.styles with
  | none => rfl
  | some s => exact s.present_mapTokens f

/-- A reference is resolved to the same path. -/
lemma resolveReference_mapTokens (reference : String) :
    (d.mapTokens f).resolveReference reference = d.resolveReference reference := by
  unfold resolveReference mapTokens
  rw [List.findSome?_map]
  congr 1
  funext e
  simp only [Function.comp_apply]
  split
  · rw [TokenTree.matchDotted?_mapTokens]
  · rfl

/-- A full path leads to the changed token. -/
lemma atFullPath?_mapTokens (path : List String) :
    (d.mapTokens f).atFullPath? path = (d.atFullPath? path).map f := by
  unfold atFullPath? mapTokens
  split
  · rename_i name next rest
    rw [OrderedMap.find?_map]
    cases OrderedMap.find? name d.collections with
    | none => rfl
    | some tree => exact TokenTree.token?_mapTokens f _ tree
  · rfl

/-- The same collections have a token at a path. -/
lemma atShortPath_mapTokens (path : List String) :
    (d.mapTokens f).atShortPath path = (d.atShortPath path).map fun e => (e.1, f e.2) := by
  unfold atShortPath mapTokens
  rw [List.filterMap_map, List.map_filterMap]
  refine List.filterMap_congr fun e _ => ?_
  simp only [Function.comp_apply]
  rw [TokenTree.token?_mapTokens, Option.map_map, Option.map_map]
  rfl

/-- A path with slashes names the changed token, and is ambiguous where it was. -/
theorem resolvePath_mapTokens (path : String) : (d.mapTokens f).resolvePath path =
    (d.resolvePath path).map (Option.map fun e => (e.1, f e.2)) := by
  unfold resolvePath
  rw [atFullPath?_mapTokens, atShortPath_mapTokens]
  cases d.atFullPath? (segments path) with
  | some t => rfl
  | none =>
    rcases d.atShortPath (segments path) with _ | ⟨e, _ | ⟨e', rest⟩⟩
    · rfl
    · rfl
    · simp [Except.map, Function.comp_def]

end Document

/-! ## Descriptions -/

/-- A token without its description. -/
def Token.withoutDescription (t : Token) : Token :=
  { t with description := none }

/-- A document without the descriptions of its tokens. -/
def Document.withoutDescriptions (d : Document) : Document :=
  d.mapTokens Token.withoutDescription

end DesignTokens

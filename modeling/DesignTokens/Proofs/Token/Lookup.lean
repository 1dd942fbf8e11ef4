import DesignTokens.Proofs.Token.Tree
import Mathlib.Data.List.Nodup

/-!
# Looking up paths in token trees

A tree can be read in two ways: by its walk, and by following a path from name to name.  A tree is
keyed if no group has one name twice (`TokenNode.IsKeyed`), which every insertion keeps
(`TokenTree.Inserted.isKeyed`).  In a keyed tree the token that stands at a path is the one that is
walked there (`TokenTree.token?_eq_some_iff`).
-/

namespace DesignTokens

/-- No group has one name twice. -/
inductive TokenNode.IsKeyed : TokenNode → Prop
  | token (t : Token) : IsKeyed (.token t)
  | group {children : List (String × TokenNode)} (hkeys : (OrderedMap.keys children).Nodup)
      (hchildren : ∀ child ∈ children, IsKeyed child.2) : IsKeyed (.group children)

namespace TokenTree

/-- No group of the tree has one name twice. -/
def IsKeyed (tree : TokenTree) : Prop :=
  TokenNode.IsKeyed (.group tree)

/-- The empty tree has no names. -/
lemma isKeyed_nil : IsKeyed [] :=
  .group List.nodup_nil (List.forall_mem_nil _)

/-- A node that is stored in a keyed tree leaves it keyed, if it is keyed itself. -/
lemma IsKeyed.set {tree : TokenTree} (h : tree.IsKeyed) {name : String} {node : TokenNode}
    (hnode : node.IsKeyed) : IsKeyed (OrderedMap.set name node tree) := by
  cases h with
  | group hkeys hchildren =>
    refine .group (OrderedMap.nodup_keys_set hkeys) fun child hchild => ?_
    rcases OrderedMap.mem_of_mem_set hchild with hself | hold
    · rw [hself]
      exact hnode
    · exact hchildren child hold

/-- An insertion leaves a keyed tree keyed. -/
theorem Inserted.isKeyed {token : Token} {path : List String} {tree tree' : TokenTree}
    (h : Inserted token path tree tree') (htree : tree.IsKeyed) : tree'.IsKeyed := by
  induction h with
  | leaf hgroup => exact htree.set (.token token)
  | @within name path tree children children' hfind hinserted ih =>
    have hgroup : IsKeyed children := by
      cases htree with
      | group hkeys hchildren => exact hchildren _ (OrderedMap.mem_of_find? hfind)
    exact htree.set (ih hgroup)
  | fresh hfind hinserted ih => exact htree.set (ih isKeyed_nil)

/-! ## Walks and paths -/

/-- What is walked at a named node is walked at the node, with the name in front. -/
lemma mem_walkNode_singleton {name : String} {node : TokenNode} {path : List String} {t : Token} :
    (path, t) ∈ walkNode [name] node ↔
      ∃ rest, path = name :: rest ∧ (rest, t) ∈ walkNode [] node := by
  have hwalk := walkNode_append [name] [] node
  rw [List.append_nil] at hwalk
  rw [hwalk, List.mem_map]
  constructor
  · rintro ⟨⟨rest, t'⟩, hmem, heq⟩
    cases heq
    exact ⟨rest, rfl, hmem⟩
  · rintro ⟨rest, rfl, hmem⟩
    exact ⟨(rest, t), hmem, rfl⟩

/-- What is walked in a tree below a name is walked in the tree, with the name in front. -/
lemma mem_walk_singleton {name : String} {tree : TokenTree} {path : List String} {t : Token} :
    (path, t) ∈ walk [name] tree ↔ ∃ rest, path = name :: rest ∧ (rest, t) ∈ walk [] tree := by
  have hnode := @mem_walkNode_singleton name (.group tree) path t
  rw [walkNode] at hnode
  exact hnode

/-- The walk of a group is that of its nodes, each with its name in front. -/
lemma mem_walk_iff {children : List (String × TokenNode)} {path : List String} {t : Token} :
    (path, t) ∈ walkBelow [] children ↔
      ∃ name node rest, (name, node) ∈ children ∧ path = name :: rest ∧
        (rest, t) ∈ walkNode [] node := by
  rw [mem_walkBelow]
  constructor
  · rintro ⟨⟨name, node⟩, hchild, hwalk⟩
    obtain ⟨rest, hpath, hrest⟩ := mem_walkNode_singleton.mp hwalk
    exact ⟨name, node, rest, hchild, hpath, hrest⟩
  · rintro ⟨name, node, rest, hchild, hpath, hrest⟩
    exact ⟨(name, node), hchild, mem_walkNode_singleton.mpr ⟨rest, hpath, hrest⟩⟩

/-- The walk at a keyed node comes to no path twice. -/
lemma nodup_walkNode {node : TokenNode} (h : node.IsKeyed) (above : List String) :
    ((walkNode above node).map Prod.fst).Nodup := by
  induction h generalizing above with
  | token t => exact List.nodup_singleton above
  | @group children hkeys _ ih =>
    show ((walkBelow above children).map Prod.fst).Nodup
    rw [walkBelow_eq_flatMap, List.map_flatMap, List.nodup_flatMap]
    refine ⟨fun child hchild => ih child hchild _, ?_⟩
    refine (List.pairwise_map.mp hkeys).imp fun {child other} hne path hpath hpath' => ?_
    obtain ⟨e, he, rfl⟩ := List.mem_map.mp hpath
    obtain ⟨e', he', heq⟩ := List.mem_map.mp hpath'
    have hfirst := prefix_of_mem_walkNode child.2 he
    have hsecond := prefix_of_mem_walkNode other.2 he'
    rw [heq] at hsecond
    -- two beginnings of one path that are equally long are the same
    have hprefix := List.prefix_of_prefix_length_le hfirst hsecond (by simp)
    have hsame := hprefix.eq_of_length (by simp)
    exact hne (List.singleton_inj.mp (List.append_cancel_left hsame))

/-- The walk of a keyed tree comes to no path twice. -/
theorem nodup_walk {tree : TokenTree} (h : tree.IsKeyed) (above : List String) :
    ((walk above tree).map Prod.fst).Nodup :=
  nodup_walkNode h above

/-- In a keyed group, what is walked behind a name is walked at the node of that name. -/
lemma mem_walkNode_cons_iff {name : String} {rest : List String}
    {children : List (String × TokenNode)} {t : Token}
    (hkeys : (OrderedMap.keys children).Nodup) :
    (name :: rest, t) ∈ walkNode [] (.group children) ↔
      ∃ node, OrderedMap.find? name children = some node ∧ (rest, t) ∈ walkNode [] node := by
  refine mem_walk_iff.trans ⟨?_, ?_⟩
  · rintro ⟨_, node, path, hchild, hpath, hwalk⟩
    cases hpath
    exact ⟨node, (OrderedMap.find?_eq_some_iff_mem hkeys).mpr hchild, hwalk⟩
  · rintro ⟨node, hfind, hwalk⟩
    exact ⟨name, node, rest, OrderedMap.mem_of_find? hfind, rfl, hwalk⟩

/-- In a keyed node, what is walked behind a path is walked at the node to which the path leads. -/
theorem mem_walkNode_append_iff {path rest : List String} {node : TokenNode} {t : Token}
    (h : node.IsKeyed) : (path ++ rest, t) ∈ walkNode [] node ↔
      ∃ found, nodeAt? path node = some found ∧ (rest, t) ∈ walkNode [] found := by
  induction path generalizing node with
  | nil => simp [nodeAt?]
  | cons name path ih =>
    cases h with
    | token t' => simp [nodeAt?, walkNode]
    | @group children hkeys hchildren =>
      rw [List.cons_append, mem_walkNode_cons_iff hkeys, nodeAt?]
      cases hfind : OrderedMap.find? name children with
      | none => simp
      | some child => simp [ih (hchildren _ (OrderedMap.mem_of_find? hfind))]

/-- In a keyed node the token at a path is the one that is walked there. -/
lemma nodeAt?_eq_some_iff {path : List String} {node : TokenNode} {t : Token}
    (h : node.IsKeyed) : nodeAt? path node = some (.token t) ↔ (path, t) ∈ walkNode [] node := by
  have hwalk := @mem_walkNode_append_iff path [] node t h
  rw [List.append_nil] at hwalk
  rw [hwalk]
  constructor
  · exact fun hfound => ⟨_, hfound, List.mem_singleton.mpr rfl⟩
  · rintro ⟨found, hfound, hself⟩
    cases found with
    | token t' =>
      cases List.mem_singleton.mp hself
      exact hfound
    | group children => exact absurd rfl (ne_nil_of_mem_walk hself)

/-- In a keyed tree the token at a path is the one that is walked there. -/
theorem token?_eq_some_iff {tree : TokenTree} (h : tree.IsKeyed) {path : List String} {t : Token} :
    token? path tree = some t ↔ (path, t) ∈ walk [] tree := by
  have hnode : token? path tree = some t ↔ nodeAt? path (.group tree) = some (.token t) := by
    unfold token? get?
    split
    · rename_i t' hfound
      simp [hfound]
    · rename_i hother
      exact ⟨nofun, fun hfound => absurd hfound (hother t)⟩
  exact hnode.trans (nodeAt?_eq_some_iff h)

end TokenTree

end DesignTokens

import DesignTokens.Proofs.OrderedMap
import DesignTokens.Token.Tree

/-!
# Insertion into token trees

A tree is known by its walk, the list of its tokens with their paths.  This file describes what
one insertion does: `Inserted` is the relation between a tree and the tree after it, one rule for
each of the ways in which `TokenTree.insertBelow` succeeds, and from it come the facts about the
walk.  A token that is walked after an insertion is the inserted one or was walked before
(`Inserted.mem_walk`), the inserted token is walked (`Inserted.self_mem_walk`), tokens at
other paths stay (`Inserted.mem_walk_of_ne`), and no group is left without tokens
(`Inserted.isPopulated`).
-/

namespace DesignTokens

/-- Every name of a group leads to a token. -/
inductive TokenNode.IsPopulated : TokenNode → Prop
  | token (t : Token) : IsPopulated (.token t)
  | group {children : List (String × TokenNode)} (hne : children ≠ [])
      (hchildren : ∀ child ∈ children, IsPopulated child.2) : IsPopulated (.group children)

namespace TokenTree

/-! ## Walks -/

/-- A walk below a place walks the nodes there one after the other. -/
lemma walkBelow_eq_flatMap (above : List String) (children : List (String × TokenNode)) :
    walkBelow above children =
      children.flatMap fun child => walkNode (above ++ [child.1]) child.2 := by
  induction children with
  | nil => rfl
  | cons child rest ih => rw [walkBelow, ih, List.flatMap_cons]

/-- What is walked below a place is walked at one of the nodes there. -/
lemma mem_walkBelow {above : List String} {e : List String × Token}
    {children : List (String × TokenNode)} :
    e ∈ walkBelow above children ↔
      ∃ child ∈ children, e ∈ walkNode (above ++ [child.1]) child.2 := by
  rw [walkBelow_eq_flatMap, List.mem_flatMap]

mutual

/-- The paths that are walked at a node go on from the path of the node. -/
lemma prefix_of_mem_walkNode {above : List String} {e : List String × Token} :
    (node : TokenNode) → e ∈ walkNode above node → above <+: e.1
  | .token t, h => by
    rw [walkNode, List.mem_singleton] at h
    exact h ▸ List.prefix_rfl
  | .group children, h => prefix_of_mem_walkBelow children h

/-- The paths that are walked below a place go on from the path of the place. -/
lemma prefix_of_mem_walkBelow {above : List String} {e : List String × Token} :
    (children : List (String × TokenNode)) → e ∈ walkBelow above children → above <+: e.1
  | [], h => (List.not_mem_nil h).elim
  | (name, node) :: rest, h => by
    rw [walkBelow, List.mem_append] at h
    rcases h with hnode | hrest
    · exact (List.prefix_append above [name]).trans (prefix_of_mem_walkNode node hnode)
    · exact prefix_of_mem_walkBelow rest hrest

end

/-- The walk of a group passes no token at the place of the group itself. -/
lemma ne_nil_of_mem_walk {children : List (String × TokenNode)} {e : List String × Token}
    (h : e ∈ walkBelow [] children) : e.1 ≠ [] := by
  obtain ⟨child, _, hwalk⟩ := mem_walkBelow.mp h
  have hprefix := prefix_of_mem_walkNode child.2 hwalk
  intro hnil
  rw [hnil] at hprefix
  simp at hprefix

mutual

/-- A walk from a longer path walks the same tokens, with the path in front. -/
lemma walkNode_append (above path : List String) : (node : TokenNode) →
    walkNode (above ++ path) node = (walkNode path node).map fun e => (above ++ e.1, e.2)
  | .token _ => rfl
  | .group children => walkBelow_append above path children

/-- A walk below a longer path walks the same tokens, with the path in front. -/
lemma walkBelow_append (above path : List String) : (children : List (String × TokenNode)) →
    walkBelow (above ++ path) children =
      (walkBelow path children).map fun e => (above ++ e.1, e.2)
  | [] => rfl
  | (name, node) :: rest => by
    rw [walkBelow, walkBelow, List.map_append, List.append_assoc,
      walkNode_append above (path ++ [name]) node, walkBelow_append above path rest]

end

/-- A token that is walked from the root is walked from a place, with the path of the place in
front. -/
lemma mem_walk_of_mem {above : List String} {tree : TokenTree} {e : List String × Token}
    (h : e ∈ walk [] tree) : (above ++ e.1, e.2) ∈ walk above tree := by
  have hwalk := walkBelow_append above [] tree
  rw [List.append_nil] at hwalk
  show _ ∈ walkBelow above tree
  rw [hwalk]
  exact List.mem_map_of_mem h

/-- A token is walked at a node where every name leads to one. -/
lemma exists_mem_walkNode {node : TokenNode} (h : node.IsPopulated) (above : List String) :
    ∃ e, e ∈ walkNode above node := by
  induction h generalizing above with
  | token t => exact ⟨(above, t), List.mem_singleton.mpr rfl⟩
  | @group children hne _ ih =>
    obtain ⟨child, hchild⟩ := List.exists_mem_of_ne_nil children hne
    obtain ⟨e, he⟩ := ih child hchild (above ++ [child.1])
    exact ⟨e, mem_walkBelow.mpr ⟨child, hchild, he⟩⟩

/-- A name of a group is a segment of a path that is walked. -/
lemma exists_mem_walk_of_mem {tree : TokenTree} {child : String × TokenNode}
    (hchild : child ∈ tree) (h : child.2.IsPopulated) (above : List String) :
    ∃ e ∈ walkBelow above tree, child.1 ∈ e.1 := by
  obtain ⟨e, he⟩ := exists_mem_walkNode h (above ++ [child.1])
  have hprefix := prefix_of_mem_walkNode child.2 he
  exact ⟨e, mem_walkBelow.mpr ⟨child, hchild, he⟩,
    hprefix.subset (List.mem_append_right above List.mem_cons_self)⟩

/-! ## Paths -/

/-- A path of a tree leads on from the name that it begins with. -/
lemma get?_cons (name : String) (rest : List String) (tree : TokenTree) :
    get? (name :: rest) tree = (OrderedMap.find? name tree).bind (nodeAt? rest) := by
  unfold get?
  rw [nodeAt?]
  cases OrderedMap.find? name tree <;> rfl

/-- A path of one segment leads to what has the name. -/
lemma get?_singleton (name : String) (tree : TokenTree) :
    get? [name] tree = OrderedMap.find? name tree := by
  rw [get?_cons]
  cases OrderedMap.find? name tree <;> rfl

/-! ## Insertion -/

/-- The tree after a token has been inserted at a path. -/
inductive Inserted (token : Token) : List String → TokenTree → TokenTree → Prop
  /-- The last segment takes the token, and no group stands there. -/
  | leaf {name : String} {tree : TokenTree}
      (hgroup : ∀ children, OrderedMap.find? name tree ≠ some (.group children)) :
      Inserted token [name] tree (OrderedMap.set name (.token token) tree)
  /-- The segment leads to a group that is there. -/
  | within {name : String} {path : List String} {tree children children' : TokenTree}
      (hfind : OrderedMap.find? name tree = some (.group children))
      (hinserted : Inserted token path children children') :
      Inserted token (name :: path) tree (OrderedMap.set name (.group children') tree)
  /-- The segment leads to a new group. -/
  | fresh {name : String} {path : List String} {tree children' : TokenTree}
      (hfind : OrderedMap.find? name tree = none)
      (hinserted : Inserted token path [] children') :
      Inserted token (name :: path) tree (OrderedMap.set name (.group children') tree)

/-- An insertion that succeeds is one of those described. -/
theorem inserted_of_insertBelow {token : Token} {path above : List String}
    {tree tree' : TokenTree} (h : insertBelow above path token tree = .ok tree') :
    Inserted token path tree tree' := by
  induction path generalizing above tree tree' with
  | nil => cases h
  | cons name rest ih =>
    cases rest with
    | nil =>
      unfold insertBelow at h
      split at h
      · cases h
      · rename_i hgroup
        cases h
        exact .leaf hgroup
    | cons next rest =>
      unfold insertBelow at h
      split at h
      · cases h
      · rename_i children hfind
        cases hbelow : insertBelow (above ++ [name]) (next :: rest) token children with
        | error conflict =>
          rw [hbelow] at h
          cases h
        | ok children' =>
          rw [hbelow] at h
          cases h
          exact .within hfind (ih hbelow)
      · rename_i hfind
        cases hbelow : insertBelow (above ++ [name]) (next :: rest) token [] with
        | error conflict =>
          rw [hbelow] at h
          cases h
        | ok children' =>
          rw [hbelow] at h
          cases h
          exact .fresh hfind (ih hbelow)

/-- An insertion at the root that succeeds is one of those described. -/
theorem inserted_of_insert {token : Token} {path : List String} {tree tree' : TokenTree}
    (h : insert path token tree = .ok tree') : Inserted token path tree tree' :=
  inserted_of_insertBelow h

namespace Inserted

variable {token : Token} {path : List String} {tree tree' : TokenTree}

/-- A tree into which a token has been inserted is not empty. -/
lemma ne_nil (h : Inserted token path tree tree') : tree' ≠ [] := by
  cases h <;> exact OrderedMap.set_ne_nil _ _ _

/-- An insertion leaves no group without tokens. -/
theorem isPopulated (h : Inserted token path tree tree')
    (htree : ∀ child ∈ tree, child.2.IsPopulated) : ∀ child ∈ tree', child.2.IsPopulated := by
  induction h with
  | leaf hgroup =>
    intro child hchild
    rcases OrderedMap.mem_of_mem_set hchild with hself | hold
    · rw [hself]
      exact .token token
    · exact htree child hold
  | within hfind hinserted ih =>
    have hgroup := htree _ (OrderedMap.mem_of_find? hfind)
    intro child hchild
    rcases OrderedMap.mem_of_mem_set hchild with hself | hold
    · rw [hself]
      cases hgroup with
      | group _ hchildren => exact .group hinserted.ne_nil (ih hchildren)
    · exact htree child hold
  | fresh hfind hinserted ih =>
    intro child hchild
    rcases OrderedMap.mem_of_mem_set hchild with hself | hold
    · rw [hself]
      exact .group hinserted.ne_nil (ih (List.forall_mem_nil _))
    · exact htree child hold

/-- A token that is walked after an insertion is the inserted one or was walked before. -/
theorem mem_walk (h : Inserted token path tree tree') {above : List String}
    {e : List String × Token} (he : e ∈ walkBelow above tree') :
    e = (above ++ path, token) ∨ e ∈ walkBelow above tree := by
  induction h generalizing above with
  | leaf hgroup =>
    obtain ⟨child, hchild, hwalk⟩ := mem_walkBelow.mp he
    rcases OrderedMap.mem_of_mem_set hchild with hself | hold
    · rw [hself] at hwalk
      exact Or.inl (List.mem_singleton.mp hwalk)
    · exact Or.inr (mem_walkBelow.mpr ⟨child, hold, hwalk⟩)
  | @within name path tree children children' hfind hinserted ih =>
    obtain ⟨child, hchild, hwalk⟩ := mem_walkBelow.mp he
    rcases OrderedMap.mem_of_mem_set hchild with hself | hold
    · rw [hself] at hwalk
      rcases ih hwalk with hinserted | hbefore
      · rw [hinserted, List.append_assoc]
        exact Or.inl rfl
      · have hgroup := OrderedMap.mem_of_find? hfind
        exact Or.inr (mem_walkBelow.mpr ⟨_, hgroup, hbefore⟩)
    · exact Or.inr (mem_walkBelow.mpr ⟨child, hold, hwalk⟩)
  | @fresh name path tree children' hfind hinserted ih =>
    obtain ⟨child, hchild, hwalk⟩ := mem_walkBelow.mp he
    rcases OrderedMap.mem_of_mem_set hchild with hself | hold
    · rw [hself] at hwalk
      rcases ih hwalk with hinserted | hbefore
      · rw [hinserted, List.append_assoc]
        exact Or.inl rfl
      · exact (List.not_mem_nil hbefore).elim
    · exact Or.inr (mem_walkBelow.mpr ⟨child, hold, hwalk⟩)

/-- The inserted token is walked at its path. -/
theorem self_mem_walk (h : Inserted token path tree tree') (above : List String) :
    (above ++ path, token) ∈ walkBelow above tree' := by
  induction h generalizing above with
  | leaf hgroup =>
    exact mem_walkBelow.mpr ⟨_, OrderedMap.self_mem_set _ _ _, List.mem_singleton.mpr rfl⟩
  | @within name path tree children children' hfind hinserted ih =>
    have hbelow := ih (above ++ [name])
    rw [List.append_assoc] at hbelow
    exact mem_walkBelow.mpr ⟨_, OrderedMap.self_mem_set _ _ _, hbelow⟩
  | @fresh name path tree children' hfind hinserted ih =>
    have hbelow := ih (above ++ [name])
    rw [List.append_assoc] at hbelow
    exact mem_walkBelow.mpr ⟨_, OrderedMap.self_mem_set _ _ _, hbelow⟩

/-- A token that was walked at another path is walked after an insertion. -/
theorem mem_walk_of_ne (h : Inserted token path tree tree') {above : List String}
    {e : List String × Token} (he : e ∈ walkBelow above tree) (hne : e.1 ≠ above ++ path) :
    e ∈ walkBelow above tree' := by
  induction h generalizing above with
  | @leaf name tree hgroup =>
    obtain ⟨⟨k, node⟩, hchild, hwalk⟩ := mem_walkBelow.mp he
    rcases @OrderedMap.mem_set_of_mem _ name (.token token) _ _ hchild with hkept | ⟨hk, hfind⟩
    · exact mem_walkBelow.mpr ⟨_, hkept, hwalk⟩
    · cases node with
      | token old =>
        have hpath : e = (above ++ [k], old) := List.mem_singleton.mp hwalk
        rw [hpath] at hne
        exact absurd (congrArg (fun s => above ++ [s]) hk) hne
      | group children => exact absurd hfind (hgroup children)
  | @within name path tree children children' hfind hinserted ih =>
    obtain ⟨⟨k, node⟩, hchild, hwalk⟩ := mem_walkBelow.mp he
    rcases @OrderedMap.mem_set_of_mem _ name (.group children') _ _ hchild with hkept | ⟨hk, hsame⟩
    · exact mem_walkBelow.mpr ⟨_, hkept, hwalk⟩
    · have hnode : node = .group children := Option.some.inj (hsame.symm.trans hfind)
      have hname : k = name := hk
      rw [hnode, hname] at hwalk
      have hpath : above ++ name :: path = above ++ [name] ++ path :=
        (List.append_assoc above [name] path).symm
      rw [hpath] at hne
      exact mem_walkBelow.mpr ⟨_, OrderedMap.self_mem_set _ _ _, ih hwalk hne⟩
  | @fresh name path tree children' hfind hinserted ih =>
    obtain ⟨⟨k, node⟩, hchild, hwalk⟩ := mem_walkBelow.mp he
    rcases @OrderedMap.mem_set_of_mem _ name (.group children') _ _ hchild with hkept | ⟨hk, hsame⟩
    · exact mem_walkBelow.mpr ⟨_, hkept, hwalk⟩
    · rw [hfind] at hsame
      cases hsame

end Inserted

end TokenTree

end DesignTokens

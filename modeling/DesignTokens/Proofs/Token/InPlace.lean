import DesignTokens.Proofs.Token.Tree
import DesignTokens.Token.InPlace

/-!
# What one insertion changes

An insertion in place makes the groups that are missing on its way before it knows whether the token
fits.  Still a token that is refused leaves the tree as it was, since nothing can be in the way
below a group that has just been made (`TokenTree.insertInPlace_eq`).  A token is refused for one of
three reasons, each of which can be read off the tree (`TokenTree.Conflicts`).  Otherwise one leaf
changes: the other paths lead where they led before (`TokenTree.Inserted.get?_of_not_prefix`), and
in the walk the token takes the place of the one at its path, or follows the tokens of the last
group that was there on its way (`TokenTree.Inserted.walk`).
-/

namespace DesignTokens

namespace TokenTree

variable {token : Token} {path above : List String} {tree tree' : TokenTree}

/-! ## Refused tokens -/

/-- What a path leads to in a group it leads to in the tree, with the name of the group in front. -/
lemma get?_within {name : String} {children : List (String × TokenNode)}
    (hfind : OrderedMap.find? name tree = some (.group children)) (path : List String) :
    get? (name :: path) tree = get? path children := by
  rw [get?_cons, hfind]
  rfl

/-- A token does not fit into a tree at a path: the path is empty, it leads on from the path of a
token, or a group stands there.  The segments `above` lead to the tree. -/
inductive Conflicts (above : List String) (tree : TokenTree) (path : List String) :
    TreeConflict → Prop
  | emptyPath (hpath : path = []) : Conflicts above tree path .emptyPath
  | throughToken {before after : List String} {t : Token} (hpath : path = before ++ after)
      (hbefore : before ≠ []) (hafter : after ≠ []) (hfound : get? before tree = some (.token t)) :
      Conflicts above tree path (.throughToken (above ++ before) (above ++ path))
  | overGroup {children : List (String × TokenNode)} (hpath : path ≠ [])
      (hfound : get? path tree = some (.group children)) :
      Conflicts above tree path (.overGroup (above ++ path))

/-- At a name, a token does not fit if a group has the name. -/
lemma conflicts_singleton_iff {name : String} {conflict : TreeConflict} :
    Conflicts above tree [name] conflict ↔
      conflict = .overGroup (above ++ [name]) ∧
        ∃ children, OrderedMap.find? name tree = some (.group children) := by
  constructor
  · intro h
    cases h with
    | emptyPath hpath => cases hpath
    | throughToken hpath hbefore hafter _ =>
      rcases List.singleton_eq_append_iff.mp hpath with ⟨hnil, _⟩ | ⟨_, hnil⟩
      · exact absurd hnil hbefore
      · exact absurd hnil hafter
    | overGroup _ hfound => exact ⟨rfl, _, get?_singleton name tree ▸ hfound⟩
  · rintro ⟨rfl, children, hfind⟩
    exact .overGroup (List.cons_ne_nil _ _) ((get?_singleton name tree).trans hfind)

/-- At a longer path, a token does not fit if the first name stands for a token, or for a group in
which it does not fit at the rest of the path. -/
lemma conflicts_cons_iff {name : String} {rest : List String} (hrest : rest ≠ [])
    {conflict : TreeConflict} :
    Conflicts above tree (name :: rest) conflict ↔
      (∃ t, OrderedMap.find? name tree = some (.token t) ∧
        conflict = .throughToken (above ++ [name]) (above ++ name :: rest)) ∨
      ∃ children, OrderedMap.find? name tree = some (.group children) ∧
        Conflicts (above ++ [name]) children rest conflict := by
  have hpath : ∀ below, above ++ name :: below = above ++ [name] ++ below :=
    fun below => (List.append_assoc above [name] below).symm
  constructor
  · intro h
    cases h with
    | emptyPath hnil => cases hnil
    | throughToken hsplit hbefore hafter hfound =>
      rcases List.cons_eq_append_iff.mp hsplit with ⟨hnil, _⟩ | ⟨below, rfl, hbelow⟩
      · exact absurd hnil hbefore
      · rw [get?_cons] at hfound
        obtain ⟨node, hfind, hnode⟩ := Option.bind_eq_some_iff.mp hfound
        cases node with
        | token t =>
          cases below with
          | nil => exact Or.inl ⟨t, hfind, rfl⟩
          | cons _ _ => cases hnode
        | group children =>
          have hne : below ≠ [] := by
            rintro rfl
            cases hnode
          rw [hpath below, hpath rest]
          exact Or.inr ⟨children, hfind, .throughToken hbelow hne hafter hnode⟩
    | overGroup _ hfound =>
      rw [get?_cons] at hfound
      obtain ⟨node, hfind, hnode⟩ := Option.bind_eq_some_iff.mp hfound
      cases node with
      | token t =>
        obtain ⟨next, later, rfl⟩ := List.exists_cons_of_ne_nil hrest
        cases hnode
      | group children =>
        rw [hpath rest]
        exact Or.inr ⟨children, hfind, .overGroup hrest hnode⟩
  · rintro (⟨t, hfind, rfl⟩ | ⟨children, hfind, h⟩)
    · exact .throughToken rfl (List.cons_ne_nil _ _) hrest ((get?_singleton name tree).trans hfind)
    · cases h with
      | emptyPath hnil => exact absurd hnil hrest
      | @throughToken before after t hsplit _ hafter hfound =>
        rw [← hpath before, ← hpath rest]
        exact .throughToken (congrArg _ hsplit) (List.cons_ne_nil _ _) hafter
          ((get?_within hfind before).trans hfound)
      | overGroup _ hfound =>
        rw [← hpath rest]
        exact .overGroup (List.cons_ne_nil _ _) ((get?_within hfind rest).trans hfound)

/-- In the empty tree every token fits, unless its path is empty. -/
lemma not_conflicts_of_empty (hpath : path ≠ []) {conflict : TreeConflict} :
    ¬ Conflicts above [] path conflict := by
  obtain ⟨name, rest, rfl⟩ := List.exists_cons_of_ne_nil hpath
  cases rest with
  | nil =>
    rw [conflicts_singleton_iff]
    rintro ⟨_, _, hfind⟩
    cases hfind
  | cons next rest =>
    rw [conflicts_cons_iff (List.cons_ne_nil _ _)]
    rintro (⟨_, hfind, _⟩ | ⟨_, hfind, _⟩) <;> cases hfind

/-- A token is refused exactly if it does not fit, and for this reason. -/
theorem insertBelow_eq_error_iff {conflict : TreeConflict} :
    insertBelow above path token tree = .error conflict ↔ Conflicts above tree path conflict := by
  induction path generalizing above tree with
  | nil =>
    constructor
    · rintro ⟨⟩
      exact .emptyPath rfl
    · intro h
      cases h with
      | emptyPath _ => rfl
      | throughToken hpath hbefore _ _ =>
        exact absurd (List.append_eq_nil_iff.mp hpath.symm).1 hbefore
      | overGroup hpath _ => exact absurd rfl hpath
  | cons name rest ih =>
    cases rest with
    | nil =>
      rw [conflicts_singleton_iff]
      unfold insertBelow
      split
      · rename_i children hfind
        constructor
        · rintro ⟨⟩
          exact ⟨rfl, children, hfind⟩
        · rintro ⟨rfl, _⟩
          rfl
      · rename_i hgroup
        refine ⟨nofun, ?_⟩
        rintro ⟨_, children, hfind⟩
        exact absurd hfind (hgroup children)
    | cons next rest =>
      have hbelow : ∀ children : TokenTree, (do
          let below ← insertBelow (above ++ [name]) (next :: rest) token children
          return OrderedMap.set name (TokenNode.group below) tree) = .error conflict ↔
            Conflicts (above ++ [name]) children (next :: rest) conflict := by
        intro children
        rw [← ih]
        cases insertBelow (above ++ [name]) (next :: rest) token children with
        | error other => exact Iff.rfl
        | ok below => exact ⟨nofun, nofun⟩
      rw [conflicts_cons_iff (List.cons_ne_nil _ _)]
      unfold insertBelow
      cases hfind : OrderedMap.find? name tree with
      | none =>
        refine (hbelow []).trans ⟨fun h => ?_, ?_⟩
        · exact absurd h (not_conflicts_of_empty (List.cons_ne_nil _ _))
        · rintro (⟨_, hnone, _⟩ | ⟨_, hnone, _⟩) <;> cases hnone
      | some node =>
        cases node with
        | token t =>
          constructor
          · rintro ⟨⟩
            exact Or.inl ⟨t, rfl, rfl⟩
          · rintro (⟨_, _, rfl⟩ | ⟨_, hgroup, _⟩)
            · rfl
            · cases hgroup
        | group children =>
          refine (hbelow children).trans ⟨fun h => Or.inr ⟨children, rfl, h⟩, ?_⟩
          rintro (⟨_, htoken, _⟩ | ⟨_, ⟨⟩, h⟩)
          · cases htoken
          · exact h

/-- An insertion in place leaves the tree with the token, or the tree as it was if the token is
refused. -/
lemma insertInPlaceBelow_eq (above : List String) (path : List String) (token : Token)
    (tree : TokenTree) :
    insertInPlaceBelow above path token tree =
      match insertBelow above path token tree with
      | .ok tree' => (tree', .ok ())
      | .error conflict => (tree, .error conflict) := by
  induction path generalizing above tree with
  | nil => rfl
  | cons name rest ih =>
    cases rest with
    | nil =>
      unfold insertInPlaceBelow insertBelow
      cases OrderedMap.find? name tree with
      | none => rfl
      | some node => cases node <;> rfl
    | cons next rest =>
      unfold insertInPlaceBelow insertBelow
      cases hfind : OrderedMap.find? name tree with
      | none =>
        -- Below the group that has just been made nothing is in the way.
        dsimp only
        rw [ih]
        cases hbelow : insertBelow (above ++ [name]) (next :: rest) token [] with
        | error conflict =>
          exact absurd (insertBelow_eq_error_iff.mp hbelow)
            (not_conflicts_of_empty (List.cons_ne_nil next rest))
        | ok below =>
          dsimp only
          rw [OrderedMap.set_set]
          rfl
      | some node =>
        cases node with
        | token t => rfl
        | group children =>
          dsimp only
          rw [ih]
          cases insertBelow (above ++ [name]) (next :: rest) token children with
          | ok below => rfl
          | error conflict =>
            exact congrArg (fun tree => (tree, Except.error conflict))
              (OrderedMap.set_of_find? hfind)

/-- An insertion in place leaves the tree with the token, or the tree as it was if the token is
refused. -/
theorem insertInPlace_eq (path : List String) (token : Token) (tree : TokenTree) :
    insertInPlace path token tree =
      match insert path token tree with
      | .ok tree' => (tree', .ok ())
      | .error conflict => (tree, .error conflict) :=
  insertInPlaceBelow_eq [] path token tree

/-! ## Paths after an insertion -/

/-- A path that does not lead through what is stored under a name leads where it led before, if this
holds of the paths below the name that do not lead to `path`. -/
lemma get?_set_of_not_prefix {name : String} {node : TokenNode}
    (hbelow : ∀ rest, ¬ rest <+: path →
      nodeAt? rest node = (OrderedMap.find? name tree).bind (nodeAt? rest))
    {other : List String} (hother : ¬ other <+: name :: path) :
    get? other (OrderedMap.set name node tree) = get? other tree := by
  cases other with
  | nil => exact absurd List.nil_prefix hother
  | cons first rest =>
    rw [get?_cons, get?_cons]
    by_cases hfirst : first = name
    · subst hfirst
      rw [OrderedMap.find?_set_self, ← hbelow rest fun hprefix =>
        hother (List.cons_prefix_cons.mpr ⟨rfl, hprefix⟩)]
      rfl
    · rw [OrderedMap.find?_set_of_ne hfirst]

namespace Inserted

/-- The token stands at its path. -/
lemma get?_self (h : Inserted token path tree tree') : get? path tree' = some (.token token) := by
  induction h with
  | leaf _ => rw [get?_singleton, OrderedMap.find?_set_self]
  | within _ _ ih | fresh _ _ ih =>
    rw [get?_cons, OrderedMap.find?_set_self]
    exact ih

/-- Groups lead to the token. -/
lemma exists_group (h : Inserted token path tree tree') {before after : List String}
    (hpath : path = before ++ after) (hafter : after ≠ []) :
    ∃ children, get? before tree' = some (.group children) := by
  induction h generalizing before with
  | leaf _ =>
    rcases List.singleton_eq_append_iff.mp hpath with ⟨rfl, _⟩ | ⟨_, hnil⟩
    · exact ⟨_, rfl⟩
    · exact absurd hnil hafter
  | within _ _ ih | fresh _ _ ih =>
    rcases List.cons_eq_append_iff.mp hpath with ⟨rfl, _⟩ | ⟨below, rfl, hbelow⟩
    · exact ⟨_, rfl⟩
    · rw [get?_cons, OrderedMap.find?_set_self]
      exact ih hbelow

/-- A path that does not lead to the token leads where it led before. -/
theorem get?_of_not_prefix (h : Inserted token path tree tree') {other : List String}
    (hother : ¬ other <+: path) : get? other tree' = get? other tree := by
  induction h generalizing other with
  | @leaf name tree hgroup =>
    refine get?_set_of_not_prefix (fun rest hrest => ?_) hother
    -- A name that stands for a token before and after has nothing below it.
    cases rest with
    | nil => exact absurd List.nil_prefix hrest
    | cons next below =>
      cases hfind : OrderedMap.find? name tree with
      | none => rfl
      | some node =>
        cases node with
        | token t => rfl
        | group children => exact absurd hfind (hgroup children)
  | within hfind _ ih =>
    refine get?_set_of_not_prefix (fun rest hrest => ?_) hother
    rw [hfind]
    exact ih hrest
  | fresh hfind _ ih =>
    refine get?_set_of_not_prefix (fun rest hrest => ?_) hother
    rw [hfind]
    cases rest with
    | nil => exact absurd List.nil_prefix hrest
    | cons next below => exact ih hrest

end Inserted

/-! ## The walk after an insertion -/

/-- The tokens that are walked before the walk of a tree comes to a path. -/
def walkBefore (above : List String) : List String → TokenTree → List (List String × Token)
  | [], _ => []
  | name :: rest, tree =>
    walkBelow above (tree.takeWhile fun child => child.1 != name) ++
      match OrderedMap.find? name tree with
      | some (.group children) => walkBefore (above ++ [name]) rest children
      | _ => []

/-- In the walk of a tree, a token takes the place of the one at its path. -/
def ReplacesInWalk (above : List String) (token : Token) (path : List String)
    (tree tree' : TokenTree) : Prop :=
  ∃ old after, get? path tree = some (.token old) ∧
    walk above tree = walkBefore above path tree ++ (above ++ path, old) :: after ∧
    walk above tree' = walkBefore above path tree ++ (above ++ path, token) :: after

/-- In the walk of a tree, a token follows the tokens of the last group that is there on its way. -/
def FollowsInWalk (above : List String) (token : Token) (path : List String)
    (tree tree' : TokenTree) : Prop :=
  ∃ group name rest children after, path = group ++ name :: rest ∧
    get? group tree = some (.group children) ∧ get? (group ++ [name]) tree = none ∧
    walk above tree =
      walkBefore above group tree ++ walk (above ++ group) children ++ after ∧
    walk above tree' =
      walkBefore above group tree ++ walk (above ++ group) children ++
        (above ++ path, token) :: after

/-- The walk below joined lists of children walks the one after the other. -/
lemma walkBelow_concat (above : List String) (a b : List (String × TokenNode)) :
    walkBelow above (a ++ b) = walkBelow above a ++ walkBelow above b := by
  simp only [walkBelow_eq_flatMap, List.flatMap_append]

/-- A group in a tree is walked between the nodes before and behind it. -/
lemma exists_walk_of_find? {name : String} {children : List (String × TokenNode)}
    (hfind : OrderedMap.find? name tree = some (.group children)) (above : List String) :
    ∃ before after,
      (∀ path, walkBefore above (name :: path) tree =
        before ++ walkBefore (above ++ [name]) path children) ∧
      walk above tree = before ++ walk (above ++ [name]) children ++ after ∧
      ∀ children', walk above (OrderedMap.set name (.group children') tree) =
        before ++ walk (above ++ [name]) children' ++ after := by
  obtain ⟨left, right, htree, hleft, hset⟩ := OrderedMap.exists_split_of_find? hfind
  have hwalk : ∀ below, walk above (left ++ (name, .group below) :: right) =
      walkBelow above left ++ walk (above ++ [name]) below ++ walkBelow above right := by
    intro below
    show walkBelow above _ = _
    rw [walkBelow_concat, walkBelow, walkNode, ← List.append_assoc]
    rfl
  refine ⟨walkBelow above left, walkBelow above right, fun path => ?_, ?_, fun children' => ?_⟩
  · rw [walkBefore, hleft, hfind]
  · rw [← hwalk, ← htree]
  · rw [hset, hwalk]

/-- A token that replaces another one at a name takes its place. -/
lemma replacesInWalk_of_token {name : String} {old : Token}
    (hfind : OrderedMap.find? name tree = some (.token old)) (token : Token) :
    ReplacesInWalk above token [name] tree (OrderedMap.set name (.token token) tree) := by
  obtain ⟨left, right, htree, hleft, hset⟩ := OrderedMap.exists_split_of_find? hfind
  have hwalk : ∀ t, walk above (left ++ (name, .token t) :: right) =
      walkBelow above left ++ (above ++ [name], t) :: walkBelow above right := by
    intro t
    show walkBelow above _ = _
    rw [walkBelow_concat, walkBelow]
    rfl
  have hbefore : walkBefore above [name] tree = walkBelow above left := by
    rw [walkBefore, hleft, hfind, List.append_nil]
  refine ⟨old, walkBelow above right, ?_, ?_, ?_⟩
  · rw [get?_cons, hfind]
    rfl
  · rw [hbefore, ← hwalk, ← htree]
  · rw [hbefore, hset, hwalk]

/-- A node with the token that is stored under a new name follows the whole tree. -/
lemma followsInWalk_of_new {name : String} {rest : List String} {node : TokenNode}
    (hfind : OrderedMap.find? name tree = none)
    (hnode : walkNode (above ++ [name]) node = [(above ++ name :: rest, token)]) :
    FollowsInWalk above token (name :: rest) tree (OrderedMap.set name node tree) := by
  refine ⟨[], name, rest, tree, [], rfl, rfl, ?_, ?_, ?_⟩
  · rw [List.nil_append, get?_cons, hfind]
    rfl
  · rw [walkBefore, List.append_nil, List.append_nil]
    rfl
  · rw [OrderedMap.set_of_not_mem (OrderedMap.not_mem_keys_of_find? hfind), List.append_nil]
    show walkBelow above _ = _
    rw [walkBelow_concat, walkBelow, hnode]
    rfl

section within

variable {name : String} {children children' : List (String × TokenNode)}
  (hfind : OrderedMap.find? name tree = some (.group children))
include hfind

/-- A token that takes the place of another one in a group does so in the tree. -/
lemma ReplacesInWalk.within
    (h : ReplacesInWalk (above ++ [name]) token path children children') :
    ReplacesInWalk above token (name :: path) tree
      (OrderedMap.set name (.group children') tree) := by
  obtain ⟨old, after, hold, hbefore, hafter⟩ := h
  obtain ⟨left, right, hwalkBefore, hwalk, hset⟩ := exists_walk_of_find? hfind above
  refine ⟨old, after ++ right, (get?_within hfind path).trans hold, ?_, ?_⟩
  · rw [hwalk, hwalkBefore, hbefore]
    simp
  · rw [hset, hwalkBefore, hafter]
    simp

/-- A token that follows others in a group does so in the tree. -/
lemma FollowsInWalk.within
    (h : FollowsInWalk (above ++ [name]) token path children children') :
    FollowsInWalk above token (name :: path) tree
      (OrderedMap.set name (.group children') tree) := by
  obtain ⟨group, first, rest, below, after, hpath, hgroup, hnew, hbefore, hafter⟩ := h
  obtain ⟨left, right, hwalkBefore, hwalk, hset⟩ := exists_walk_of_find? hfind above
  refine ⟨name :: group, first, rest, below, after ++ right, congrArg _ hpath,
    (get?_within hfind group).trans hgroup, (get?_within hfind _).trans hnew, ?_, ?_⟩
  · rw [hwalk, hwalkBefore, hbefore]
    simp
  · rw [hset, hwalkBefore, hafter]
    simp

end within

namespace Inserted

/-- In a tree that was empty the token is alone. -/
lemma walk_of_nil (h : Inserted token path [] tree') (above : List String) :
    walk above tree' = [(above ++ path, token)] := by
  generalize htree : ([] : TokenTree) = tree at h
  induction h generalizing above with
  | leaf _ =>
    subst htree
    rfl
  | within hfind _ _ =>
    subst htree
    cases hfind
  | @fresh name path tree children' _ _ ih =>
    subst htree
    show walkBelow above [(name, .group children')] = _
    rw [walkBelow, walkNode, walkBelow, List.append_nil]
    exact (ih (above ++ [name]) rfl).trans (by rw [List.append_assoc]; rfl)

/-- In the walk, the token takes the place of the one at its path, or it follows the tokens of the
last group that was there on its way. -/
theorem walk (h : Inserted token path tree tree') (above : List String) :
    ReplacesInWalk above token path tree tree' ∨ FollowsInWalk above token path tree tree' := by
  induction h generalizing above with
  | @leaf name tree hgroup =>
    cases hfind : OrderedMap.find? name tree with
    | none => exact Or.inr (followsInWalk_of_new hfind rfl)
    | some node =>
      cases node with
      | group children => exact absurd hfind (hgroup children)
      | token old => exact Or.inl (replacesInWalk_of_token hfind token)
  | within hfind _ ih =>
    exact (ih _).imp (ReplacesInWalk.within hfind) (FollowsInWalk.within hfind)
  | @fresh name path tree children' hfind hinserted ih =>
    have hnew := hinserted.walk_of_nil (above ++ [name])
    rw [List.append_assoc] at hnew
    exact Or.inr (followsInWalk_of_new hfind hnew)

end Inserted

/-- One leaf of a tree has been changed: the token stands at its path and groups lead to it, every
path that does not lead to it leads where it led before, and in the walk the token takes the place
of the one at its path or follows the tokens of the last group that was there on its way. -/
structure ChangesLeaf (token : Token) (path : List String) (tree tree' : TokenTree) : Prop where
  leaf : get? path tree' = some (.token token)
  way : ∀ before after, path = before ++ after → before ≠ [] → after ≠ [] →
    ∃ children, get? before tree' = some (.group children)
  frame : ∀ other, ¬ other <+: path → get? other tree' = get? other tree
  walk : ReplacesInWalk [] token path tree tree' ∨ FollowsInWalk [] token path tree tree'

/-- An insertion in place refuses a token exactly if its path is empty, leads on from the path of a
token, or leads to a group, and says which of these it is.  A token that is refused leaves the tree
exactly as it was, and any other one changes one leaf. -/
theorem insertInPlace_changes_leaf (path : List String) (token : Token) (tree : TokenTree) :
    (∀ conflict, (insertInPlace path token tree).2 = .error conflict ↔
      Conflicts [] tree path conflict) ∧
    (∀ conflict, (insertInPlace path token tree).2 = .error conflict →
      (insertInPlace path token tree).1 = tree) ∧
    ((insertInPlace path token tree).2 = .ok () →
      ChangesLeaf token path tree (insertInPlace path token tree).1) := by
  rw [insertInPlace_eq]
  cases hinsert : insert path token tree with
  | error found =>
    refine ⟨fun conflict => ?_, fun _ _ => rfl, nofun⟩
    have hconflict : insert path token tree = .error conflict ↔ Conflicts [] tree path conflict :=
      insertBelow_eq_error_iff
    rw [← hconflict, hinsert, Except.error.injEq, Except.error.injEq]
  | ok tree' =>
    have hinserted := inserted_of_insert hinsert
    refine ⟨fun conflict => ⟨nofun, fun hconflict => ?_⟩, nofun, fun _ => ?_⟩
    · have herror : insert path token tree = .error conflict :=
        insertBelow_eq_error_iff.mpr hconflict
      rw [hinsert] at herror
      cases herror
    · exact ⟨hinserted.get?_self, fun _ _ hpath _ hafter => hinserted.exists_group hpath hafter,
        fun _ => hinserted.get?_of_not_prefix, hinserted.walk []⟩

end TokenTree

end DesignTokens

import DesignTokens.Proofs.Outcome
import DesignTokens.Proofs.Token.Lookup
import Mathlib.Data.List.Induction

/-!
# Trees of many tokens

Tokens are inserted into a tree one after the other.  A path is free in a tree if no token stands on
the way and no group at its end (`TokenTree.IsFree`), and a token can be inserted exactly there
(`TokenTree.exists_insert_iff`).  What a tree holds is known by the list of the tokens that have been
inserted (`TokenTree.Holds`), which says of every path what stands there
(`TokenTree.Holds.get?_eq_token_iff`, `TokenTree.Holds.get?_eq_group_iff`).  So tokens at different
paths fit in one tree exactly if no path is empty and none leads on from another one, and neither
this nor what the tree answers depends on the order of the insertions
(`TokenTree.insertAll_of_perm`).
-/

namespace DesignTokens

/-- The token of a node that is one. -/
def TokenNode.token? : TokenNode → Option Token
  | .token t => some t
  | .group _ => none

namespace TokenTree

/-! ## Free paths -/

/-- A path is free in a tree: no token stands on the way, and no group at its end. -/
structure IsFree (path : List String) (tree : TokenTree) : Prop where
  way : ∀ before after, path = before ++ after → after ≠ [] →
    ∀ t, get? before tree ≠ some (.token t)
  leaf : ∀ children, get? path tree ≠ some (.group children)

/-- The root is a group. -/
lemma not_isFree_nil (tree : TokenTree) : ¬ IsFree [] tree :=
  fun h => h.leaf tree rfl

/-- The root is no token. -/
lemma get?_nil_ne_token (tree : TokenTree) (t : Token) : get? [] tree ≠ some (.token t) := by
  intro h
  cases h

/-- A name is free if no group has it. -/
lemma isFree_singleton {name : String} {tree : TokenTree} :
    IsFree [name] tree ↔ ∀ children, OrderedMap.find? name tree ≠ some (.group children) := by
  constructor
  · intro h children
    rw [← get?_singleton]
    exact h.leaf children
  · intro h
    refine ⟨fun before after hpath hafter t => ?_,
      fun children => get?_singleton name tree ▸ h children⟩
    rcases List.singleton_eq_append_iff.mp hpath with ⟨rfl, _⟩ | ⟨_, rfl⟩
    · exact get?_nil_ne_token tree t
    · exact absurd rfl hafter

/-- A longer path is free if its first name leads to nothing, or to a group in which the rest is
free. -/
lemma isFree_cons {name : String} {path : List String} {tree : TokenTree} (hpath : path ≠ []) :
    IsFree (name :: path) tree ↔
      ∀ node, OrderedMap.find? name tree = some node →
        ∃ children, node = .group children ∧ IsFree path children := by
  constructor
  · intro h node hfind
    cases node with
    | token t =>
      refine absurd ?_ (h.way [name] path rfl hpath t)
      rw [get?_cons, hfind]
      rfl
    | group children =>
      refine ⟨children, rfl, fun before after heq hafter t hfound => ?_, fun below hfound => ?_⟩
      · refine h.way (name :: before) after (congrArg _ heq) hafter t ?_
        rw [get?_cons, hfind]
        exact hfound
      · refine h.leaf below ?_
        rw [get?_cons, hfind]
        exact hfound
  · intro h
    refine ⟨fun before after heq hafter t => ?_, fun children => ?_⟩
    · rcases List.cons_eq_append_iff.mp heq with ⟨rfl, _⟩ | ⟨before, rfl, hrest⟩
      · exact get?_nil_ne_token tree t
      · rw [get?_cons]
        cases hfind : OrderedMap.find? name tree with
        | none => exact (Option.some_ne_none _).symm
        | some node =>
          obtain ⟨below, rfl, hfree⟩ := h node hfind
          exact hfree.way before after hrest hafter t
    · rw [get?_cons]
      cases hfind : OrderedMap.find? name tree with
      | none => exact (Option.some_ne_none _).symm
      | some node =>
        obtain ⟨below, rfl, hfree⟩ := h node hfind
        exact hfree.leaf children

/-- In the empty tree every path is free, except the empty one. -/
lemma isFree_of_empty {path : List String} (h : path ≠ []) : IsFree path [] := by
  obtain ⟨name, rest, rfl⟩ := List.exists_cons_of_ne_nil h
  cases rest with
  | nil =>
    refine isFree_singleton.mpr fun _ hfind => ?_
    cases hfind
  | cons next rest =>
    refine (isFree_cons (List.cons_ne_nil _ _)).mpr fun _ hfind => ?_
    cases hfind

/-- A token is inserted below a place exactly if its path is free there. -/
lemma exists_insertBelow_iff {path above : List String} {token : Token} {tree : TokenTree} :
    (∃ tree', insertBelow above path token tree = .ok tree') ↔ IsFree path tree := by
  induction path generalizing above tree with
  | nil =>
    refine ⟨?_, fun h => (not_isFree_nil tree h).elim⟩
    rintro ⟨tree', h⟩
    cases h
  | cons name rest ih =>
    cases rest with
    | nil =>
      rw [isFree_singleton]
      unfold insertBelow
      split
      · rename_i children hfind
        refine ⟨?_, fun h => absurd hfind (h children)⟩
        rintro ⟨_, hfail⟩
        cases hfail
      · rename_i hgroup
        exact ⟨fun _ => hgroup, fun _ => ⟨_, rfl⟩⟩
    | cons next rest =>
      have hbelow : ∀ children : TokenTree, (∃ tree', (do
          let below ← insertBelow (above ++ [name]) (next :: rest) token children
          return OrderedMap.set name (TokenNode.group below) tree) = .ok tree') ↔
            IsFree (next :: rest) children := by
        intro children
        rw [← @ih (above ++ [name]) children]
        constructor
        · rintro ⟨_, h⟩
          obtain ⟨below, hbelow, _⟩ := bind_eq_ok.mp h
          exact ⟨below, hbelow⟩
        · rintro ⟨below, hbelow⟩
          exact ⟨_, bind_of_ok hbelow _⟩
      rw [isFree_cons (List.cons_ne_nil next rest)]
      unfold insertBelow
      split
      · rename_i t hfind
        constructor
        · rintro ⟨_, hfail⟩
          cases hfail
        · intro h
          obtain ⟨_, heq, _⟩ := h _ hfind
          cases heq
      · rename_i children hfind
        rw [hbelow, hfind]
        constructor
        · rintro h _ ⟨⟩
          exact ⟨children, rfl, h⟩
        · intro h
          obtain ⟨_, heq, hfree⟩ := h _ rfl
          cases heq
          exact hfree
      · rename_i hfind
        rw [hbelow, hfind]
        refine ⟨fun _ _ hnone => ?_, fun _ => isFree_of_empty (List.cons_ne_nil _ _)⟩
        cases hnone

/-- A token is inserted exactly if its path is free: it is not empty, no token stands on the way, and
no group at its end. -/
theorem exists_insert_iff {path : List String} {token : Token} {tree : TokenTree} :
    (∃ tree', insert path token tree = .ok tree') ↔ IsFree path tree :=
  exists_insertBelow_iff

/-! ## What a tree holds -/

/-- What a path leads to in a node without empty groups has none either. -/
lemma isPopulated_of_nodeAt? {path : List String} {node found : TokenNode} (h : node.IsPopulated)
    (hfound : nodeAt? path node = some found) : found.IsPopulated := by
  induction path generalizing node with
  | nil =>
    cases hfound
    exact h
  | cons name rest ih =>
    cases h with
    | token t => cases hfound
    | @group children hne hchildren =>
      unfold nodeAt? at hfound
      split at hfound
      · rename_i child hfind
        exact ih (hchildren _ (OrderedMap.mem_of_find? hfind)) hfound
      · cases hfound

/-- A tree holds the tokens of a list: they are what is walked, no group has a name twice, and none
is left without tokens. -/
structure Holds (entries : List (List String × Token)) (tree : TokenTree) : Prop where
  keyed : tree.IsKeyed
  populated : ∀ child ∈ tree, child.2.IsPopulated
  walk : (walk [] tree).Perm entries

namespace Holds

variable {entries : List (List String × Token)} {tree tree' : TokenTree} {path : List String}
  {token : Token}

/-- The empty tree holds nothing. -/
lemma nil : Holds [] [] :=
  ⟨isKeyed_nil, List.forall_mem_nil _, .nil⟩

/-- The order of the list does not matter. -/
lemma perm {entries' : List (List String × Token)} (h : Holds entries tree)
    (hperm : entries.Perm entries') : Holds entries' tree :=
  ⟨h.keyed, h.populated, h.walk.trans hperm⟩

/-- A token stands at a path if the tree holds it there. -/
theorem get?_eq_token_iff (h : Holds entries tree) :
    get? path tree = some (.token token) ↔ (path, token) ∈ entries :=
  (nodeAt?_eq_some_iff h.keyed).trans h.walk.mem_iff

/-- A group stands at the root, and at each path from which the path of a token leads on. -/
theorem get?_eq_group_iff (h : Holds entries tree) :
    (∃ children, get? path tree = some (.group children)) ↔
      path = [] ∨ ∃ e ∈ entries, path <+: e.1 ∧ path ≠ e.1 := by
  constructor
  · rintro ⟨children, hgroup⟩
    by_cases hpath : path = []
    · exact Or.inl hpath
    have htree : tree ≠ [] := by
      rintro rfl
      obtain ⟨name, rest, rfl⟩ := List.exists_cons_of_ne_nil hpath
      cases hgroup
    -- The group has a token in it, whose path leads on from that of the group.
    obtain ⟨e, he⟩ := exists_mem_walkNode
      (isPopulated_of_nodeAt? (.group htree h.populated) hgroup) []
    have hwalk := (mem_walkNode_append_iff h.keyed).mpr ⟨_, hgroup, he⟩
    refine Or.inr ⟨(path ++ e.1, e.2), h.walk.mem_iff.mp hwalk, List.prefix_append path e.1, ?_⟩
    exact fun heq => ne_nil_of_mem_walk he (List.self_eq_append_right.mp heq)
  · rintro (rfl | ⟨⟨_, t⟩, he, ⟨rest, rfl⟩, hne⟩)
    · exact ⟨tree, rfl⟩
    · obtain ⟨found, hfound, hwalk⟩ :=
        (mem_walkNode_append_iff h.keyed).mp (h.walk.mem_iff.mpr he)
      cases found with
      | token t' =>
        cases List.mem_singleton.mp hwalk
        exact absurd (List.append_nil path).symm hne
      | group children => exact ⟨children, hfound⟩

/-- A path at which nothing is held is free if it is not empty, does not lead on from the path of a
token, and no such path leads on from it. -/
lemma isFree_iff (h : Holds entries tree) (hnew : path ∉ entries.map Prod.fst) :
    IsFree path tree ↔
      path ≠ [] ∧ ∀ q ∈ entries.map Prod.fst, ¬ q <+: path ∧ ¬ path <+: q := by
  constructor
  · intro hfree
    refine ⟨fun hnil => not_isFree_nil tree (hnil ▸ hfree), fun q hq => ?_⟩
    have hne : q ≠ path := fun heq => hnew (heq ▸ hq)
    obtain ⟨⟨_, t⟩, he, rfl⟩ := List.mem_map.mp hq
    constructor
    · rintro ⟨rest, hrest⟩
      refine hfree.way _ rest hrest.symm ?_ t (h.get?_eq_token_iff.mpr he)
      rintro rfl
      exact hne ((List.append_nil _).symm.trans hrest)
    · intro hstart
      obtain ⟨children, hgroup⟩ := h.get?_eq_group_iff.mpr (Or.inr ⟨_, he, hstart, hne.symm⟩)
      exact hfree.leaf children hgroup
  · rintro ⟨hne, hapart⟩
    refine ⟨fun before after hpath _ t hfound => ?_, fun children hgroup => ?_⟩
    · have he := h.get?_eq_token_iff.mp hfound
      exact (hapart before (List.mem_map_of_mem he)).1 (hpath ▸ List.prefix_append before after)
    · rcases h.get?_eq_group_iff.mp ⟨children, hgroup⟩ with hnil | ⟨e, he, hstart, _⟩
      · exact hne hnil
      · exact (hapart e.1 (List.mem_map_of_mem he)).2 hstart

/-- An insertion at a new path adds the token to those that the tree holds. -/
theorem insert (h : Holds entries tree) (hnew : path ∉ entries.map Prod.fst)
    (hinsert : TokenTree.insert path token tree = .ok tree') :
    Holds (entries ++ [(path, token)]) tree' := by
  have hinserted := inserted_of_insert hinsert
  have hkeyed := hinserted.isKeyed h.keyed
  refine ⟨hkeyed, hinserted.isPopulated h.populated, ?_⟩
  have hself : (path, token) ∉ entries := fun hmem => hnew (List.mem_map_of_mem hmem)
  have hentries : entries.Nodup :=
    h.walk.nodup_iff.mp (List.Nodup.of_map Prod.fst (nodup_walk h.keyed []))
  have hboth : (entries ++ [(path, token)]).Nodup :=
    List.nodup_append.mpr ⟨hentries, List.nodup_singleton _,
      fun e he e' he' heq => hself (List.mem_singleton.mp he' ▸ heq ▸ he)⟩
  refine (List.perm_ext_iff_of_nodup
    (List.Nodup.of_map Prod.fst (nodup_walk hkeyed [])) hboth).mpr fun e => ?_
  rw [List.mem_append, List.mem_singleton]
  constructor
  · intro he
    rcases hinserted.mem_walk he with heq | hold
    · exact Or.inr heq
    · exact Or.inl (h.walk.mem_iff.mp hold)
  · rintro (hold | rfl)
    · refine hinserted.mem_walk_of_ne (h.walk.mem_iff.mpr hold) fun heq => hnew ?_
      exact List.mem_map.mpr ⟨e, hold, heq⟩
    · exact hinserted.self_mem_walk []

end Holds

/-! ## Many insertions -/

/-- The tree of several tokens, inserted one after the other. -/
def insertAll (entries : List (List String × Token)) : Except TreeConflict TokenTree :=
  entries.foldlM (fun tree e => insert e.1 e.2 tree) []

/-- The last token is inserted into the tree of the others. -/
lemma insertAll_concat (entries : List (List String × Token)) (e : List String × Token) :
    insertAll (entries ++ [e]) = insertAll entries >>= insert e.1 e.2 := by
  unfold insertAll
  rw [List.foldlM_append]
  refine congrArg _ (funext fun tree => ?_)
  rw [List.foldlM_cons]
  exact bind_pure _

/-- Paths fit in one tree: none is empty, and none leads on from another one. -/
structure PathsFit (paths : List (List String)) : Prop where
  nonempty : [] ∉ paths
  apart : ∀ p ∈ paths, ∀ q ∈ paths, p <+: q → p = q

/-- The order of the paths does not matter. -/
lemma PathsFit.perm {paths paths' : List (List String)} (h : paths.Perm paths') :
    PathsFit paths ↔ PathsFit paths' := by
  have hfits : ∀ {a b : List (List String)}, a.Perm b → PathsFit a → PathsFit b :=
    fun hab hfit => ⟨fun hnil => hfit.nonempty (hab.mem_iff.mpr hnil), fun p hp q hq =>
      hfit.apart p (hab.mem_iff.mpr hp) q (hab.mem_iff.mpr hq)⟩
  exact ⟨hfits h, hfits h.symm⟩

/-- One more path fits if it is not empty, and it leads on from no other path and no other path from
it. -/
lemma pathsFit_concat {paths : List (List String)} {path : List String} (hnew : path ∉ paths) :
    PathsFit (paths ++ [path]) ↔
      PathsFit paths ∧ path ≠ [] ∧ ∀ q ∈ paths, ¬ q <+: path ∧ ¬ path <+: q := by
  have hself : path ∈ paths ++ [path] := List.mem_append_right _ (List.mem_singleton_self _)
  have hold : ∀ q ∈ paths, q ∈ paths ++ [path] := fun q hq => List.mem_append_left _ hq
  constructor
  · intro h
    refine ⟨⟨fun hnil => h.nonempty (hold _ hnil), fun p hp q hq => ?_⟩,
      fun hnil => h.nonempty (hnil ▸ hself), fun q hq => ⟨fun hstart => ?_, fun hstart => ?_⟩⟩
    · exact h.apart p (hold p hp) q (hold q hq)
    · exact hnew (h.apart q (hold q hq) path hself hstart ▸ hq)
    · exact hnew (h.apart path hself q (hold q hq) hstart ▸ hq)
  · rintro ⟨h, hne, hapart⟩
    have hcases : ∀ p ∈ paths ++ [path], p ∈ paths ∨ p = path :=
      fun p hp => (List.mem_append.mp hp).imp_right List.mem_singleton.mp
    refine ⟨fun hnil => (hcases _ hnil).elim h.nonempty fun heq => hne heq.symm, ?_⟩
    intro p hp q hq hstart
    rcases hcases p hp with hfirst | rfl <;> rcases hcases q hq with hsecond | rfl
    · exact h.apart p hfirst q hsecond hstart
    · exact absurd hstart (hapart p hfirst).1
    · exact absurd hstart (hapart q hsecond).2
    · rfl

/-- A tree of several tokens at different paths holds them. -/
theorem holds_insertAll {entries : List (List String × Token)} {tree : TokenTree}
    (hdistinct : (entries.map Prod.fst).Nodup) (h : insertAll entries = .ok tree) :
    Holds entries tree := by
  induction entries using List.reverseRecOn generalizing tree with
  | nil =>
    cases h
    exact .nil
  | append_singleton entries e ih =>
    rw [List.map_append, List.map_singleton, ← List.concat_eq_append, List.nodup_concat] at hdistinct
    obtain ⟨hnew, hbefore⟩ := hdistinct
    rw [insertAll_concat] at h
    obtain ⟨before, hall, hlast⟩ := bind_eq_ok.mp h
    exact (ih hbefore hall).insert hnew hlast

/-- Tokens at different paths are all inserted exactly if their paths fit in one tree. -/
theorem exists_insertAll_iff {entries : List (List String × Token)}
    (hdistinct : (entries.map Prod.fst).Nodup) :
    (∃ tree, insertAll entries = .ok tree) ↔ PathsFit (entries.map Prod.fst) := by
  induction entries using List.reverseRecOn with
  | nil => exact ⟨fun _ => ⟨List.not_mem_nil, List.forall_mem_nil _⟩, fun _ => ⟨[], rfl⟩⟩
  | append_singleton entries e ih =>
    rw [List.map_append, List.map_singleton, ← List.concat_eq_append, List.nodup_concat] at hdistinct
    obtain ⟨hnew, hbefore⟩ := hdistinct
    rw [List.map_append, List.map_singleton, pathsFit_concat hnew, ← ih hbefore, insertAll_concat]
    constructor
    · rintro ⟨_, h⟩
      obtain ⟨tree, hall, hlast⟩ := bind_eq_ok.mp h
      have hholds := holds_insertAll hbefore hall
      exact ⟨⟨tree, hall⟩, (hholds.isFree_iff hnew).mp (exists_insert_iff.mp ⟨_, hlast⟩)⟩
    · rintro ⟨⟨tree, hall⟩, hfits⟩
      have hfree := ((holds_insertAll hbefore hall).isFree_iff hnew).mpr hfits
      obtain ⟨tree', hlast⟩ := exists_insert_iff.mpr hfree
      exact ⟨tree', bind_eq_ok.mpr ⟨tree, hall, hlast⟩⟩

/-- Nodes that are the same tokens, or groups both, are alike. -/
lemma map_token?_eq {node node' : Option TokenNode}
    (htoken : ∀ t, node = some (.token t) ↔ node' = some (.token t))
    (hgroup : (∃ children, node = some (.group children)) ↔
      ∃ children, node' = some (.group children)) :
    node.map TokenNode.token? = node'.map TokenNode.token? := by
  cases node with
  | none =>
    cases node' with
    | none => rfl
    | some node' =>
      cases node' with
      | token t => cases (htoken t).mpr rfl
      | group children =>
        obtain ⟨_, h⟩ := hgroup.mpr ⟨children, rfl⟩
        cases h
  | some node =>
    cases node with
    | token t => rw [(htoken t).mp rfl]
    | group children =>
      obtain ⟨children', h⟩ := hgroup.mp ⟨children, rfl⟩
      rw [h]
      rfl

/-- In whatever order tokens at different paths are inserted, they fit in one tree exactly if no path
is empty and none leads on from another one.  The walk of the tree lists each of them once.  A token
stands at its own path only, a group at the root and wherever the path of a token leads on, so that
each path leads to the same token, to a group, or to nothing under every order. -/
theorem insertAll_of_perm {entries order : List (List String × Token)}
    (hdistinct : (entries.map Prod.fst).Nodup) (horder : order.Perm entries) :
    ((∃ tree, insertAll order = .ok tree) ↔ PathsFit (entries.map Prod.fst)) ∧
    ∀ tree, insertAll order = .ok tree →
      (walk [] tree).Perm entries ∧
      ∀ path,
        (∀ t, get? path tree = some (.token t) ↔ (path, t) ∈ entries) ∧
        ((∃ children, get? path tree = some (.group children)) ↔
          path = [] ∨ ∃ e ∈ entries, path <+: e.1 ∧ path ≠ e.1) ∧
        ∀ tree', insertAll entries = .ok tree' →
          (get? path tree).map TokenNode.token? = (get? path tree').map TokenNode.token? := by
  have hpaths := horder.map Prod.fst
  have hdistinct' := hpaths.nodup_iff.mpr hdistinct
  refine ⟨(exists_insertAll_iff hdistinct').trans (PathsFit.perm hpaths), fun tree htree => ?_⟩
  have hholds : Holds entries tree := (holds_insertAll hdistinct' htree).perm horder
  refine ⟨hholds.walk, fun path => ⟨fun t => hholds.get?_eq_token_iff, hholds.get?_eq_group_iff, ?_⟩⟩
  intro tree' htree'
  have hholds' := holds_insertAll hdistinct htree'
  exact map_token?_eq (fun t => hholds.get?_eq_token_iff.trans hholds'.get?_eq_token_iff.symm)
    (hholds.get?_eq_group_iff.trans hholds'.get?_eq_group_iff.symm)

end TokenTree

/-! ### A group and a token beside it -/

/-- A token with a text. -/
def plainToken (text : String) : Token :=
  { type := .string, value := .flat (.literal (.text text)) }

/-- Two tokens of one group, and a token beside it. -/
def paletteEntries : List (List String × Token) :=
  [(["brand", "blue"], plainToken "navy"), (["gap"], plainToken "wide"),
    (["brand", "red"], plainToken "ruby")]

/-- The tree of the three tokens. -/
def paletteTree : TokenTree :=
  [("brand", .group [("blue", .token (plainToken "navy")), ("red", .token (plainToken "ruby"))]),
    ("gap", .token (plainToken "wide"))]

/-- The tree of the three tokens, inserted the other way round. -/
def reversedPaletteTree : TokenTree :=
  [("brand", .group [("red", .token (plainToken "ruby")), ("blue", .token (plainToken "navy"))]),
    ("gap", .token (plainToken "wide"))]

/-- The tokens fit in one tree, which keeps them in the order of their insertion but answers the same
under the reversed order. -/
theorem TokenTree.insertAll_of_perm_palette :
    (paletteEntries.map Prod.fst).Nodup ∧ paletteEntries.reverse.Perm paletteEntries ∧
      TokenTree.insertAll paletteEntries = .ok paletteTree ∧
      TokenTree.insertAll paletteEntries.reverse = .ok reversedPaletteTree ∧
      TokenTree.PathsFit (paletteEntries.map Prod.fst) ∧
      (TokenTree.walk [] reversedPaletteTree).Perm paletteEntries ∧
      TokenTree.get? ["brand", "red"] reversedPaletteTree = some (.token (plainToken "ruby")) ∧
      ∀ path, (TokenTree.get? path reversedPaletteTree).map TokenNode.token? =
        (TokenTree.get? path paletteTree).map TokenNode.token? := by
  have hdistinct : (paletteEntries.map Prod.fst).Nodup := by decide
  have hperm : paletteEntries.reverse.Perm paletteEntries := List.reverse_perm _
  have htree : TokenTree.insertAll paletteEntries = .ok paletteTree := rfl
  have hreversed : TokenTree.insertAll paletteEntries.reverse = .ok reversedPaletteTree := rfl
  obtain ⟨hfits, hanswers⟩ := TokenTree.insertAll_of_perm hdistinct hperm
  obtain ⟨hwalk, hget⟩ := hanswers _ hreversed
  have hruby : (["brand", "red"], plainToken "ruby") ∈ paletteEntries :=
    List.mem_cons_of_mem _ (List.mem_cons_of_mem _ List.mem_cons_self)
  exact ⟨hdistinct, hperm, htree, hreversed, hfits.mp ⟨_, hreversed⟩, hwalk,
    ((hget _).1 _).mpr hruby, fun path => (hget path).2.2 _ htree⟩

end DesignTokens

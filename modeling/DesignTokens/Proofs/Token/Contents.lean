import DesignTokens.Proofs.Name.Order
import DesignTokens.Proofs.Token.Lookup
import DesignTokens.Token.FromLibrary

/-!
# What documents of libraries contain

The document of a library has a tree for each selected collection and no other, and each token of a
tree is the token of a variable of its collection, under the segments of the variable's name
(`Scope.exists_of_mem_tree`, `Document.exists_of_mem_collections`).  When the selected collections
have different names, none of them replaces another one, so that the trees stand in the order of the
collections (`Document.forall₂_collections`).
-/

namespace DesignTokens

/-! ## Tokens of variables -/

/-- A value is the one value of a token or the value of one of its modes. -/
def TokenValue.Shows : TokenValue → FlatValue → Prop
  | flat value, x => value = x
  | perMode modes, x => ∃ e ∈ modes, e.2 = x

/-- The ids of the modes whose values a token has: the default mode of a collection with at most one
mode, and else all modes. -/
def Collection.shownModeIds (c : Collection) : List String :=
  if c.modes.length ≤ 1 then [c.defaultModeId] else c.modes.map (·.id)

namespace Scope

variable {s : Scope} {c : Collection} {v : Variable} {f : Formatting}

/-- The values of a variable in modes come from its values in these modes. -/
lemma exists_of_mem_modeValues {modes : List Mode} {values : List (String × FlatValue)}
    (h : s.modeValues v f modes = .ok values) {e : String × FlatValue} (he : e ∈ values) :
    ∃ mode ∈ modes, ∃ value, OrderedMap.find? mode.id v.values = some value ∧
      s.flatValue v f mode.id value = .ok e.2 := by
  induction modes generalizing values with
  | nil =>
    cases h
    exact (List.not_mem_nil he).elim
  | cons mode rest ih =>
    unfold modeValues at h
    split at h
    · obtain ⟨m, hm, hvalue⟩ := ih h he
      exact ⟨m, List.mem_cons_of_mem _ hm, hvalue⟩
    · rename_i value hfind
      obtain ⟨x, hx, h⟩ := bind_eq_ok.mp h
      obtain ⟨tail, htail, h⟩ := bind_eq_ok.mp h
      cases h
      rcases List.mem_cons.mp he with hfirst | hrest
      · rw [hfirst]
        exact ⟨mode, List.mem_cons_self, value, hfind, hx⟩
      · obtain ⟨m, hm, hvalue⟩ := ih htail hrest
        exact ⟨m, List.mem_cons_of_mem _ hm, hvalue⟩

/-- What a token shows comes from a value of its variable in a mode that is shown. -/
theorem exists_of_shows {value : TokenValue} (h : s.tokenValue? c v f = .ok (some value))
    {x : FlatValue} (hx : value.Shows x) :
    ∃ modeId ∈ c.shownModeIds, ∃ y, OrderedMap.find? modeId v.values = some y ∧
      s.flatValue v f modeId y = .ok x := by
  unfold tokenValue? at h
  unfold Collection.shownModeIds
  split_ifs at h ⊢ with hmodes
  · split at h
    · cases h
    · rename_i y hfind
      obtain ⟨z, hz, heq⟩ := map_eq_ok.mp h
      cases heq
      cases hx
      exact ⟨c.defaultModeId, List.mem_singleton.mpr rfl, y, hfind, hz⟩
  · obtain ⟨values, hvalues, h⟩ := bind_eq_ok.mp h
    cases values with
    | nil => cases h
    | cons first rest =>
      cases h
      obtain ⟨e, he, rfl⟩ := hx
      obtain ⟨mode, hmode, y, hfind, hy⟩ :=
        exists_of_mem_modeValues hvalues (OrderedMap.mem_of_mem_ofList he)
      exact ⟨mode.id, List.mem_map_of_mem hmode, y, hfind, hy⟩

end Scope

/-! ## Trees of collections -/

namespace Scope

variable {s : Scope} {c : Collection} {v : Variable} {tree tree' : TokenTree}

/-- Adding a variable without a token changes nothing, and adding one with a token inserts it at the
segments of the variable's name. -/
lemma addToken_cases (h : s.addToken c tree v = .ok tree') :
    (s.token? c v = .ok none ∧ tree' = tree) ∨
      ∃ token, s.token? c v = .ok (some token) ∧
        TokenTree.Inserted token (nameSegments v.name) tree tree' := by
  unfold addToken at h
  obtain ⟨token?, htoken, h⟩ := bind_eq_ok.mp h
  cases token? with
  | none =>
    cases h
    exact Or.inl ⟨htoken, rfl⟩
  | some token =>
    dsimp only at h
    split at h
    · rename_i hinsert
      cases h
      exact Or.inr ⟨token, htoken, TokenTree.inserted_of_insert hinsert⟩
    · cases h

/-- The members of a collection are the variables that belong to it. -/
lemma mem_members {name : Variable → String} {vars members : List Variable}
    (h : c.members name vars = .ok members) :
    v ∈ members ↔ v ∈ vars ∧ v.collectionId = c.id := by
  rw [NaturalOrder.mem_sortBy h, List.mem_filter, beq_iff_eq]

/-- A token of the tree of a collection is that of one of its variables, and stands at the segments
of the variable's name. -/
theorem exists_of_mem_tree (h : s.tree c = .ok tree) {path : List String} {token : Token}
    (hwalk : (path, token) ∈ TokenTree.walk [] tree) :
    ∃ v ∈ s.vars, v.collectionId = c.id ∧ nameSegments v.name = path ∧
      s.token? c v = .ok (some token) := by
  unfold Scope.tree at h
  obtain ⟨members, hmembers, h⟩ := bind_eq_ok.mp h
  have hall : ∀ e ∈ TokenTree.walk [] tree, ∃ v ∈ members, nameSegments v.name = e.1 ∧
      s.token? c v = .ok (some e.2) := by
    refine foldlM_invariant (fun tree => ∀ e ∈ TokenTree.walk [] tree, ∃ v ∈ members,
      nameSegments v.name = e.1 ∧ s.token? c v = .ok (some e.2)) ?_ ?_ h
    · intro tree v hv tree' hold hstep e he
      rcases addToken_cases hstep with ⟨_, rfl⟩ | ⟨added, hadded, hinserted⟩
      · exact hold e he
      · rcases hinserted.mem_walk he with hself | hbefore
        · rw [hself]
          exact ⟨v, hv, rfl, hadded⟩
        · exact hold e hbefore
    · exact List.forall_mem_nil _
  obtain ⟨v, hv, hpath, htoken⟩ := hall _ hwalk
  obtain ⟨hvars, hmember⟩ := (mem_members hmembers).mp hv
  exact ⟨v, hvars, hmember, hpath, htoken⟩

/-- The token of a variable is walked at its path after it has been added. -/
lemma self_mem_addToken {token : Token} (htoken : s.token? c v = .ok (some token))
    (h : s.addToken c tree v = .ok tree') :
    (nameSegments v.name, token) ∈ TokenTree.walk [] tree' := by
  rcases addToken_cases h with ⟨hnone, _⟩ | ⟨added, hadded, hinserted⟩
  · rw [htoken] at hnone
    cases hnone
  · rw [htoken] at hadded
    cases hadded
    exact hinserted.self_mem_walk []

/-- A token that is walked stays when a variable is added that has no token at its path. -/
lemma mem_addToken {path : List String} {token : Token}
    (hpath : (path, token) ∈ TokenTree.walk [] tree)
    (hother : nameSegments v.name = path → s.token? c v = .ok none)
    (h : s.addToken c tree v = .ok tree') : (path, token) ∈ TokenTree.walk [] tree' := by
  rcases addToken_cases h with ⟨_, rfl⟩ | ⟨added, hadded, hinserted⟩
  · exact hpath
  · refine hinserted.mem_walk_of_ne hpath fun heq => ?_
    rw [hother heq.symm] at hadded
    cases hadded

/-- A path with a token keeps having one when a variable is added. -/
lemma exists_mem_addToken {path : List String}
    (hpath : ∃ token, (path, token) ∈ TokenTree.walk [] tree)
    (h : s.addToken c tree v = .ok tree') :
    ∃ token, (path, token) ∈ TokenTree.walk [] tree' := by
  obtain ⟨token, htoken⟩ := hpath
  rcases addToken_cases h with ⟨_, rfl⟩ | ⟨added, hadded, hinserted⟩
  · exact ⟨token, htoken⟩
  · by_cases hsame : path = nameSegments v.name
    · rw [hsame]
      exact ⟨added, hinserted.self_mem_walk []⟩
    · exact ⟨token, hinserted.mem_walk_of_ne htoken hsame⟩

/-- A collection has a variable with a token under a name. -/
def HasToken (s : Scope) (c : Collection) (name : String) : Prop :=
  ∃ v ∈ s.vars, v.collectionId = c.id ∧ v.name = name ∧ ∃ token, s.token? c v = .ok (some token)

/-- The paths of the tree of a collection are the segments of the names of its variables with
tokens. -/
theorem exists_mem_tree_iff (h : s.tree c = .ok tree) {path : List String} :
    (∃ token, (path, token) ∈ TokenTree.walk [] tree) ↔
      ∃ name, s.HasToken c name ∧ nameSegments name = path := by
  constructor
  · rintro ⟨token, hwalk⟩
    obtain ⟨v, hv, hmember, hpath, htoken⟩ := exists_of_mem_tree h hwalk
    exact ⟨v.name, ⟨v, hv, hmember, rfl, token, htoken⟩, hpath⟩
  · rintro ⟨_, ⟨v, hv, hmember, rfl, token, htoken⟩, rfl⟩
    unfold Scope.tree at h
    obtain ⟨members, hmembers, h⟩ := bind_eq_ok.mp h
    obtain ⟨before, after, rfl⟩ := List.append_of_mem ((mem_members hmembers).mpr ⟨hv, hmember⟩)
    exact foldlM_of_step (fun tree => ∃ token, (nameSegments v.name, token) ∈ TokenTree.walk [] tree)
      (fun _ _ hstep => ⟨token, self_mem_addToken htoken hstep⟩)
      (fun _ _ _ _ hb hstep => exists_mem_addToken hb hstep) h

/-- No group of the tree of a collection has one name twice. -/
lemma isKeyed_tree (h : s.tree c = .ok tree) : tree.IsKeyed := by
  unfold Scope.tree at h
  obtain ⟨members, _, h⟩ := bind_eq_ok.mp h
  refine foldlM_invariant TokenTree.IsKeyed (fun tree v _ tree' hkeyed hstep => ?_)
    TokenTree.isKeyed_nil h
  rcases addToken_cases hstep with ⟨_, rfl⟩ | ⟨_, _, hinserted⟩
  · exact hkeyed
  · exact hinserted.isKeyed hkeyed

/-- An entry of a document is the tree of a collection under its name. -/
def IsEntryOf (s : Scope) (c : Collection) (e : String × TokenTree) : Prop :=
  e.1 = c.name ∧ s.tree c = .ok e.2

end Scope

/-! ## Collections of documents -/

namespace Document

variable {s : Scope} {c : Collection} {d d' : Document}

/-- Adding a collection stores its tree under its name. -/
lemma addCollection_eq (h : d.addCollection s c = .ok d') :
    ∃ tree, s.tree c = .ok tree ∧
      d' = { d with collections := OrderedMap.set c.name tree d.collections } := by
  unfold addCollection at h
  obtain ⟨tree, htree, h⟩ := bind_eq_ok.mp h
  exact ⟨tree, htree, (Except.ok.inj h).symm⟩

/-- A tree stays when a collection with another name is added. -/
lemma mem_addCollection {name : String} {tree : TokenTree} (hname : (name, tree) ∈ d.collections)
    (hne : c.name ≠ name) (h : d.addCollection s c = .ok d') :
    (name, tree) ∈ d'.collections := by
  obtain ⟨added, _, rfl⟩ := addCollection_eq h
  exact (OrderedMap.mem_set_of_mem hname).resolve_right fun heq => hne heq.1.symm

/-- Collections with different new names are added in order behind those that are there. -/
lemma forall₂_foldlM {selected : List Collection} (hnames : (selected.map Collection.name).Nodup)
    (hnew : ∀ c ∈ selected, c.name ∉ OrderedMap.keys d.collections)
    (h : selected.foldlM (addCollection s) d = .ok d') :
    ∃ added, d'.collections = d.collections ++ added ∧
      List.Forall₂ s.IsEntryOf selected added := by
  induction selected generalizing d with
  | nil =>
    cases h
    exact ⟨[], (List.append_nil _).symm, .nil⟩
  | cons c rest ih =>
    rw [List.foldlM_cons] at h
    obtain ⟨first, hfirst, h⟩ := bind_eq_ok.mp h
    obtain ⟨tree, htree, rfl⟩ := addCollection_eq hfirst
    obtain ⟨hname, hrest⟩ := List.nodup_cons.mp hnames
    rw [OrderedMap.set_of_not_mem (hnew c List.mem_cons_self)] at h
    have hnew' : ∀ c' ∈ rest, c'.name ∉ OrderedMap.keys (d.collections ++ [(c.name, tree)]) := by
      intro c' hc' hmem
      unfold OrderedMap.keys at hmem
      rw [List.map_append, List.mem_append] at hmem
      rcases hmem with hold | hadded
      · exact hnew c' (List.mem_cons_of_mem _ hc') hold
      · have hsame : c'.name = c.name := List.mem_singleton.mp hadded
        have hmem := List.mem_map_of_mem (f := Collection.name) hc'
        rw [hsame] at hmem
        exact hname hmem
    obtain ⟨added, hadded, hentries⟩ := ih hrest hnew' h
    refine ⟨(c.name, tree) :: added, ?_, .cons ⟨rfl, htree⟩ hentries⟩
    rw [hadded]
    exact List.append_assoc _ _ _

variable {library : Library} {settings : Settings} {options : DocumentOptions}
  {styles : Option Styles} {sourceFile generatedAt : String}

/-- The collections of the document of a library are those that are added to an empty document one
after the other. -/
lemma exists_foldlM_of_ofLibrary
    (h : Document.ofLibrary library settings options styles sourceFile generatedAt = .ok d) :
    ∃ d', (Collection.select (options.selected.getD []) library.collections).foldlM
        (addCollection (Scope.ofSettings library settings))
        { sourceFile, generatedAt := timestamp generatedAt } = .ok d' ∧
      d.collections = d'.collections := by
  unfold Document.ofLibrary at h
  obtain ⟨d', hfold, h⟩ := bind_eq_ok.mp h
  refine ⟨d', hfold, ?_⟩
  split at h
  · obtain ⟨trees, _, h⟩ := bind_eq_ok.mp h
    cases h
    rfl
  · cases h
    rfl

/-- A tree of the document of a library is that of a selected collection. -/
theorem exists_of_mem_collections
    (h : Document.ofLibrary library settings options styles sourceFile generatedAt = .ok d)
    {e : String × TokenTree} (he : e ∈ d.collections) :
    ∃ c ∈ Collection.select (options.selected.getD []) library.collections,
      (Scope.ofSettings library settings).IsEntryOf c e := by
  obtain ⟨d', hfold, heq⟩ := exists_foldlM_of_ofLibrary h
  rw [heq] at he
  refine foldlM_invariant (fun d => ∀ e ∈ d.collections,
    ∃ c ∈ Collection.select (options.selected.getD []) library.collections,
      (Scope.ofSettings library settings).IsEntryOf c e) ?_ ?_ hfold e he
  · intro d c hc d' hold hstep e he
    obtain ⟨tree, htree, rfl⟩ := addCollection_eq hstep
    rcases OrderedMap.mem_of_mem_set he with hself | hbefore
    · rw [hself]
      exact ⟨c, hc, rfl, htree⟩
    · exact hold e hbefore
  · exact List.forall_mem_nil _

/-- No two trees of the document of a library stand under one name. -/
theorem nodup_keys_collections
    (h : Document.ofLibrary library settings options styles sourceFile generatedAt = .ok d) :
    (OrderedMap.keys d.collections).Nodup := by
  obtain ⟨d', hfold, heq⟩ := exists_foldlM_of_ofLibrary h
  rw [heq]
  refine foldlM_invariant (fun d => (OrderedMap.keys d.collections).Nodup) ?_ ?_ hfold
  · intro d c _ d' hkeys hstep
    obtain ⟨tree, _, rfl⟩ := addCollection_eq hstep
    exact OrderedMap.nodup_keys_set hkeys
  · exact List.nodup_nil

/-- The tree of a selected collection stands in the document under the name of the collection, if no
later one has this name. -/
theorem exists_tree_of_last
    (h : Document.ofLibrary library settings options styles sourceFile generatedAt = .ok d)
    {before after : List Collection}
    (hselected : Collection.select (options.selected.getD []) library.collections =
      before ++ c :: after)
    (hlast : ∀ later ∈ after, later.name ≠ c.name) :
    ∃ tree, (Scope.ofSettings library settings).tree c = .ok tree ∧
      (c.name, tree) ∈ d.collections := by
  obtain ⟨d', hfold, heq⟩ := exists_foldlM_of_ofLibrary h
  rw [hselected] at hfold
  rw [heq]
  refine foldlM_of_step (fun d => ∃ tree, (Scope.ofSettings library settings).tree c = .ok tree ∧
    (c.name, tree) ∈ d.collections) ?_ ?_ hfold
  · intro b b' hstep
    obtain ⟨tree, htree, rfl⟩ := addCollection_eq hstep
    exact ⟨tree, htree, OrderedMap.self_mem_set _ _ _⟩
  · rintro b later hmem b' ⟨tree, htree, hb⟩ hstep
    exact ⟨tree, htree, mem_addCollection hb (hlast later hmem) hstep⟩

/-- Where the selected collections have different names, their trees stand in the document one by
one. -/
theorem forall₂_collections
    (h : Document.ofLibrary library settings options styles sourceFile generatedAt = .ok d)
    (hnames : ((Collection.select (options.selected.getD []) library.collections).map
      Collection.name).Nodup) :
    List.Forall₂ (Scope.ofSettings library settings).IsEntryOf
      (Collection.select (options.selected.getD []) library.collections) d.collections := by
  obtain ⟨d', hfold, heq⟩ := exists_foldlM_of_ofLibrary h
  obtain ⟨added, hadded, hentries⟩ :=
    forall₂_foldlM hnames (fun _ _ hnone => (List.not_mem_nil hnone).elim) hfold
  rw [heq, hadded]
  exact hentries

/-- A token of the document of a library is that of a variable of a selected collection. -/
theorem exists_of_mem_walk
    (h : Document.ofLibrary library settings options styles sourceFile generatedAt = .ok d)
    {name : String} {tree : TokenTree} (htree : (name, tree) ∈ d.collections) {path : List String}
    {token : Token} (hwalk : (path, token) ∈ TokenTree.walk [] tree) :
    ∃ c ∈ Collection.select (options.selected.getD []) library.collections,
      ∃ v ∈ library.vars, c.name = name ∧ v.collectionId = c.id ∧ nameSegments v.name = path ∧
        (Scope.ofSettings library settings).token? c v = .ok (some token) := by
  obtain ⟨c, hc, hname, hctree⟩ := exists_of_mem_collections h htree
  obtain ⟨v, hv, hmember, hpath, htoken⟩ := Scope.exists_of_mem_tree hctree hwalk
  exact ⟨c, hc, v, hv, hname.symm, hmember, hpath, htoken⟩

/-- The document of a library with one selected collection has its tree. -/
lemma ofLibrary_one {tree : TokenTree}
    (hselected : Collection.select (options.selected.getD []) library.collections = [c])
    (htree : (Scope.ofSettings library settings).tree c = .ok tree) :
    Document.ofLibrary library settings options none sourceFile generatedAt =
      .ok { collections := [(c.name, tree)], sourceFile, generatedAt := timestamp generatedAt } := by
  have hcollection : Document.addCollection (Scope.ofSettings library settings)
      { sourceFile, generatedAt := timestamp generatedAt } c =
        .ok { collections := [(c.name, tree)], sourceFile, generatedAt := timestamp generatedAt } :=
    bind_of_ok htree _
  unfold Document.ofLibrary
  dsimp only
  rw [hselected, List.foldlM_cons, bind_of_ok hcollection]
  split_ifs <;> rfl

/-- The document of a library with two collections has the tree of the first one, and then that of the
second one is stored. -/
lemma ofLibrary_two {c' : Collection} {tree tree' : TokenTree}
    (hcollections : library.collections = [c, c'])
    (htree : (Scope.ofSettings library {}).tree c = .ok tree)
    (htree' : (Scope.ofSettings library {}).tree c' = .ok tree') :
    Document.ofLibrary library {} {} none "" "" =
      .ok { collections := OrderedMap.set c'.name tree' [(c.name, tree)]
            generatedAt := fixedTimestamp } := by
  have hfirst : Document.addCollection (Scope.ofSettings library {})
      { sourceFile := "", generatedAt := fixedTimestamp } c =
        .ok { collections := [(c.name, tree)], generatedAt := fixedTimestamp } :=
    bind_of_ok htree _
  have hsecond : Document.addCollection (Scope.ofSettings library {})
      { collections := [(c.name, tree)], generatedAt := fixedTimestamp } c' =
        .ok { collections := OrderedMap.set c'.name tree' [(c.name, tree)]
              generatedAt := fixedTimestamp } :=
    bind_of_ok htree' _
  have hfold : library.collections.foldlM (Document.addCollection (Scope.ofSettings library {}))
      { sourceFile := "", generatedAt := fixedTimestamp } =
        .ok { collections := OrderedMap.set c'.name tree' [(c.name, tree)]
              generatedAt := fixedTimestamp } := by
    rw [hcollections, List.foldlM_cons, bind_of_ok hfirst, List.foldlM_cons, bind_of_ok hsecond]
    rfl
  unfold Document.ofLibrary
  exact (bind_of_ok hfold _).trans rfl

end Document

end DesignTokens

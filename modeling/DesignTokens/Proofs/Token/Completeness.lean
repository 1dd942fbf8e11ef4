import DesignTokens.Proofs.Token.PathLookup
import Mathlib.Algebra.Order.BigOperators.Group.List
import Mathlib.Data.List.Pairwise

/-!
# Variables and their tokens, counted

A variable of a selected collection that has a value in a mode that its collection shows has one
token in the document, at the path of the variable, and a variable without such a value has none.
The trees of a document stand under the names of the collections, though, and a collection takes the
place of an earlier one of its name, so that only the last one keeps its tokens.  Hence the tokens are
as many as the variables with values if and only if no selected collection that has such variables is
followed by one of the same name (`Document.paths_of_ofLibrary`).
-/

namespace DesignTokens

/-! ## Variables with values -/

/-- A variable has a value in one of the modes that a collection shows. -/
def Variable.isValuedIn (v : Variable) (c : Collection) : Bool :=
  c.shownModeIds.any fun modeId => OrderedMap.has v.values modeId

namespace Library

/-- The variables of a collection that have a value. -/
def valued (l : Library) (c : Collection) : List Variable :=
  l.vars.filter fun v => v.collectionId == c.id && v.isValuedIn c

/-- The variables of some collections that have a value. -/
def valuedIn (l : Library) (collections : List Collection) : List Variable :=
  l.vars.filter fun v => collections.any fun c => v.collectionId == c.id && v.isValuedIn c

variable {l : Library} {c : Collection} {v : Variable}

/-- A variable of a collection that has a value is a variable of the library. -/
lemma mem_valued : v ∈ l.valued c ↔ v ∈ l.vars ∧ v.collectionId = c.id ∧ v.isValuedIn c = true := by
  unfold valued
  rw [List.mem_filter, Bool.and_eq_true, beq_iff_eq]

/-- A variable with a value belongs to one of the collections. -/
lemma mem_valuedIn {collections : List Collection} :
    v ∈ l.valuedIn collections ↔ ∃ c ∈ collections, v ∈ l.valued c := by
  unfold valuedIn
  simp only [mem_valued, List.mem_filter, List.any_eq_true, Bool.and_eq_true, beq_iff_eq]
  constructor
  · rintro ⟨hv, c, hc, hmember, hvalued⟩
    exact ⟨c, hc, hv, hmember, hvalued⟩
  · rintro ⟨c, hc, hv, hmember, hvalued⟩
    exact ⟨hv, c, hc, hmember, hvalued⟩

/-- Where collections have different ids, the variables with values are counted collection by
collection. -/
lemma length_valuedIn (hvars : l.vars.Nodup) {collections : List Collection}
    (hids : (collections.map Collection.id).Nodup) :
    (l.valuedIn collections).length = (collections.map fun c => (l.valued c).length).sum := by
  have hparts : (collections.flatMap l.valued).Nodup := by
    refine List.nodup_flatMap.mpr ⟨fun c _ => hvars.filter _, ?_⟩
    refine (List.pairwise_map.mp hids).imp fun {c other} hne v hv hother => hne ?_
    exact (mem_valued.mp hv).2.1.symm.trans (mem_valued.mp hother).2.1
  have hperm : (l.valuedIn collections).Perm (collections.flatMap l.valued) := by
    refine (List.perm_ext_iff_of_nodup (hvars.filter _) hparts).mpr fun v => ?_
    exact mem_valuedIn.trans List.mem_flatMap.symm
  rw [hperm.length_eq, List.length_flatMap]

end Library

namespace Scope

variable {s : Scope} {c : Collection} {v : Variable} {f : Formatting}

/-- There are values in modes if there is a value in one of the modes. -/
lemma isEmpty_modeValues {modes : List Mode} {values : List (String × FlatValue)}
    (h : s.modeValues v f modes = .ok values) :
    (!values.isEmpty) = modes.any fun mode => OrderedMap.has v.values mode.id := by
  induction modes generalizing values with
  | nil =>
    cases h
    rfl
  | cons mode rest ih =>
    unfold modeValues at h
    rw [List.any_cons]
    unfold OrderedMap.has
    split at h
    · rename_i hfind
      rw [hfind]
      exact ih h
    · rename_i value hfind
      obtain ⟨x, _, h⟩ := bind_eq_ok.mp h
      obtain ⟨tail, _, h⟩ := bind_eq_ok.mp h
      cases h
      rw [hfind]
      rfl

/-- A variable has a token value if it has a value in a shown mode. -/
lemma isSome_tokenValue? {value : Option TokenValue} (h : s.tokenValue? c v f = .ok value) :
    value.isSome = v.isValuedIn c := by
  unfold tokenValue? at h
  unfold Variable.isValuedIn Collection.shownModeIds
  split_ifs at h ⊢ with hmodes
  · rw [List.any_cons, List.any_nil, Bool.or_false]
    unfold OrderedMap.has
    split at h
    · rename_i hfind
      cases h
      rw [hfind]
      rfl
    · rename_i hfind
      obtain ⟨_, _, rfl⟩ := map_eq_ok.mp h
      rw [hfind]
      rfl
  · obtain ⟨values, hvalues, h⟩ := bind_eq_ok.mp h
    rw [List.any_map]
    refine Eq.trans ?_ (isEmpty_modeValues hvalues)
    cases values with
    | nil =>
      cases h
      rfl
    | cons first rest =>
      cases h
      rfl

/-- A variable has a token if it has a value in a shown mode. -/
theorem isSome_token? {token : Option Token} (h : s.token? c v = .ok token) :
    token.isSome = v.isValuedIn c := by
  unfold token? at h
  obtain ⟨directives, _, h⟩ := bind_eq_ok.mp h
  obtain ⟨value, hvalue, h⟩ := bind_eq_ok.mp h
  rw [← isSome_tokenValue? hvalue]
  cases value with
  | none =>
    cases h
    rfl
  | some value =>
    cases h
    rfl

/-! ## Tokens of trees -/

variable {tree : TokenTree}

/-- Each variable with a value in a collection that has a tree has a token. -/
lemma exists_token_of_valued (h : s.tree c = .ok tree) (hv : v ∈ s.valued c) :
    ∃ token, s.token? c v = .ok (some token) := by
  obtain ⟨hvars, hmember, hvalued⟩ := Library.mem_valued.mp hv
  unfold Scope.tree at h
  obtain ⟨members, hmembers, h⟩ := bind_eq_ok.mp h
  obtain ⟨before, after, rfl⟩ := List.append_of_mem ((mem_members hmembers).mpr ⟨hvars, hmember⟩)
  obtain ⟨token, htoken⟩ : ∃ token, s.token? c v = .ok token := by
    refine foldlM_of_step (fun _ => ∃ token, s.token? c v = .ok token) ?_ (fun _ _ _ _ hb _ => hb) h
    intro tree tree' hstep
    rcases addToken_cases hstep with ⟨hnone, _⟩ | ⟨token, htoken, _⟩
    · exact ⟨none, hnone⟩
    · exact ⟨some token, htoken⟩
  rw [← isSome_token? htoken, Option.isSome_iff_exists] at hvalued
  obtain ⟨token, rfl⟩ := hvalued
  exact ⟨token, htoken⟩

/-- The token of a variable with a value is walked in the tree of its collection, where no two
variables of a collection have one name. -/
theorem exists_mem_tree_of_valued
    (hnames : (s.vars.map fun v => (v.collectionId, v.name)).Nodup) (h : s.tree c = .ok tree)
    (hv : v ∈ s.valued c) :
    ∃ token, s.token? c v = .ok (some token) ∧
      (nameSegments v.name, token) ∈ TokenTree.walk [] tree := by
  have htoken := exists_token_of_valued h hv
  obtain ⟨hvars, hmember, _⟩ := Library.mem_valued.mp hv
  obtain ⟨token, hwalk⟩ := (exists_mem_tree_iff h).mpr ⟨_, ⟨v, hvars, hmember, rfl, htoken⟩, rfl⟩
  obtain ⟨w, hw, hmember', hpath, htoken'⟩ := exists_of_mem_tree h hwalk
  have hsame : w = v := by
    refine List.inj_on_of_nodup_map hnames hw hvars ?_
    rw [hmember, hmember', nameSegments_injective hpath]
  exact ⟨token, hsame ▸ htoken', hwalk⟩

/-- The paths of the tree of a collection are those of its variables with values, each once. -/
theorem perm_paths_tree (hnames : (s.vars.map fun v => (v.collectionId, v.name)).Nodup)
    (h : s.tree c = .ok tree) :
    ((TokenTree.walk [] tree).map Prod.fst).Perm
      ((s.valued c).map fun v => nameSegments v.name) := by
  have hdistinct : ((s.valued c).map fun v => nameSegments v.name).Nodup := by
    refine List.Nodup.map_on (fun v hv w hw hsame => ?_) (hnames.of_map.filter _)
    obtain ⟨hv, hmember, _⟩ := Library.mem_valued.mp hv
    obtain ⟨hw, hmember', _⟩ := Library.mem_valued.mp hw
    refine List.inj_on_of_nodup_map hnames hv hw ?_
    rw [hmember, hmember', nameSegments_injective hsame]
  have hwalked := TokenTree.nodup_walk (isKeyed_tree h) []
  refine (List.perm_ext_iff_of_nodup hwalked hdistinct).mpr fun path => ?_
  have hmem : path ∈ (TokenTree.walk [] tree).map Prod.fst ↔
      ∃ token, (path, token) ∈ TokenTree.walk [] tree := by
    simp
  rw [hmem, exists_mem_tree_iff h, List.mem_map]
  constructor
  · rintro ⟨_, ⟨v, hv, hmember, rfl, token, htoken⟩, rfl⟩
    have hvalued := (isSome_token? htoken).symm
    exact ⟨v, Library.mem_valued.mpr ⟨hv, hmember, hvalued⟩, rfl⟩
  · rintro ⟨v, hv, rfl⟩
    have htoken := exists_token_of_valued h hv
    obtain ⟨hv, hmember, _⟩ := Library.mem_valued.mp hv
    exact ⟨v.name, ⟨v, hv, hmember, rfl, htoken⟩, rfl⟩

end Scope

/-! ## Collections with one name -/

namespace Collection

/-- The selected collections are among the collections, in the same order. -/
lemma select_sublist (selected : List String) (collections : List Collection) :
    (select selected collections).Sublist collections := by
  unfold select
  split_ifs
  · exact List.Sublist.refl _
  · exact List.filter_sublist

/-- The collections that no later one of the same name takes the place of. -/
def lastNamed (collections : List Collection) : List Collection :=
  collections.pwFilter fun c later => c.name ≠ later.name

variable {c : Collection} {collections : List Collection}

/-- A name that the last ones of their names do not have is one that none has. -/
lemma forall_mem_lastNamed :
    (∀ later ∈ lastNamed collections, c.name ≠ later.name) ↔
      ∀ later ∈ collections, c.name ≠ later.name := by
  refine List.forall_mem_pwFilter (fun {x y z} hne => ?_) c collections
  by_cases hsame : x.name = y.name
  · exact Or.inr (hsame ▸ hne)
  · exact Or.inl hsame

/-- A collection without a later one of its name is kept. -/
lemma lastNamed_cons_of_new (h : ∀ later ∈ collections, c.name ≠ later.name) :
    lastNamed (c :: collections) = c :: lastNamed collections :=
  List.pwFilter_cons_of_pos (forall_mem_lastNamed.mpr h)

/-- A collection with a later one of its name is not kept. -/
lemma lastNamed_cons_of_old (h : ¬ ∀ later ∈ collections, c.name ≠ later.name) :
    lastNamed (c :: collections) = lastNamed collections :=
  List.pwFilter_cons_of_neg fun hkept => h (forall_mem_lastNamed.mp hkept)

/-- A collection that is the last one of its name is followed by collections of other names only. -/
lemma exists_of_mem_lastNamed (h : c ∈ lastNamed collections) :
    ∃ before after, collections = before ++ c :: after ∧ ∀ later ∈ after, later.name ≠ c.name := by
  induction collections with
  | nil => exact (List.not_mem_nil h).elim
  | cons first rest ih =>
    have hrest : c ∈ lastNamed rest → ∃ before after, first :: rest = before ++ c :: after ∧
        ∀ later ∈ after, later.name ≠ c.name := by
      intro hc
      obtain ⟨before, after, rfl, hafter⟩ := ih hc
      exact ⟨first :: before, after, rfl, hafter⟩
    by_cases hnew : ∀ later ∈ rest, first.name ≠ later.name
    · rw [lastNamed_cons_of_new hnew] at h
      rcases List.mem_cons.mp h with rfl | hc
      · exact ⟨[], rest, rfl, fun later hlater => (hnew later hlater).symm⟩
      · exact hrest hc
    · rw [lastNamed_cons_of_old hnew] at h
      exact hrest h

/-- Each name of a collection is that of one that is the last one of its name. -/
lemma exists_mem_lastNamed (h : c ∈ collections) : ∃ last ∈ lastNamed collections,
    last.name = c.name := by
  by_contra hnone
  refine absurd rfl (forall_mem_lastNamed.mp (fun last hlast hname => hnone ?_) c h)
  exact ⟨last, hlast, hname.symm⟩

/-- The last ones of their names are among the collections, in the same order. -/
lemma lastNamed_sublist (collections : List Collection) :
    (lastNamed collections).Sublist collections :=
  List.pwFilter_sublist collections

/-- The last ones of their names have different names. -/
lemma pairwise_lastNamed (collections : List Collection) :
    (lastNamed collections).Pairwise fun c later => c.name ≠ later.name :=
  List.pairwise_pwFilter collections

/-- The last ones of their names count as much as all collections if and only if those with a later
one of their name count nothing. -/
lemma sum_lastNamed_eq_iff (count : Collection → ℕ) :
    ((lastNamed collections).map count).sum = (collections.map count).sum ↔
      collections.Pairwise fun c later => c.name = later.name → count c = 0 := by
  induction collections with
  | nil => exact iff_of_true rfl .nil
  | cons c rest ih =>
    rw [List.pairwise_cons, ← ih, List.map_cons, List.sum_cons]
    by_cases hnew : ∀ later ∈ rest, c.name ≠ later.name
    · rw [lastNamed_cons_of_new hnew, List.map_cons, List.sum_cons, Nat.add_left_cancel_iff]
      exact ⟨fun h => ⟨fun later hlater hname => absurd hname (hnew later hlater), h⟩, And.right⟩
    · rw [lastNamed_cons_of_old hnew]
      have hle : ((lastNamed rest).map count).sum ≤ (rest.map count).sum :=
        ((lastNamed_sublist rest).map count).sum_le_sum fun _ _ => Nat.zero_le _
      push Not at hnew
      obtain ⟨later, hlater, hname⟩ := hnew
      constructor
      · intro h
        have hzero : count c = 0 := by omega
        exact ⟨fun _ _ _ => hzero, by omega⟩
      · rintro ⟨hzero, h⟩
        rw [hzero later hlater hname, h, Nat.zero_add]

end Collection

/-! ## Documents -/

namespace Document

/-- The paths of the tokens of the collections of a document, from the names of the collections
on. -/
def paths (d : Document) : List (List String) :=
  d.collections.flatMap fun e => (TokenTree.walk [e.1] e.2).map Prod.fst

variable {d : Document} {library : Library} {settings : Settings} {options : DocumentOptions}
  {styles : Option Styles} {sourceFile generatedAt : String}

/-- The walk below a name comes to the paths of the tree with the name in front. -/
lemma map_fst_walk_singleton (name : String) (tree : TokenTree) :
    (TokenTree.walk [name] tree).map Prod.fst =
      ((TokenTree.walk [] tree).map Prod.fst).map (name :: ·) := by
  have hwalk : TokenTree.walk [name] tree =
      (TokenTree.walk [] tree).map fun e => ([name] ++ e.1, e.2) :=
    TokenTree.walkBelow_append [name] [] tree
  rw [hwalk, List.map_map, List.map_map]
  rfl

/-- The tree of the last one of its name stands in the document of a library. -/
lemma exists_tree_of_lastNamed
    (h : Document.ofLibrary library settings options styles sourceFile generatedAt = .ok d)
    {c : Collection}
    (hc : c ∈ Collection.lastNamed
      (Collection.select (options.selected.getD []) library.collections)) :
    ∃ tree, (Scope.ofSettings library settings).tree c = .ok tree ∧
      (c.name, tree) ∈ d.collections := by
  obtain ⟨before, after, hselected, hlast⟩ := Collection.exists_of_mem_lastNamed hc
  exact exists_tree_of_last h hselected hlast

/-- The trees of the document of a library are those of the last ones of their names. -/
lemma mem_collections_iff
    (h : Document.ofLibrary library settings options styles sourceFile generatedAt = .ok d)
    {e : String × TokenTree} :
    e ∈ d.collections ↔ ∃ c ∈ Collection.lastNamed
        (Collection.select (options.selected.getD []) library.collections),
      (Scope.ofSettings library settings).IsEntryOf c e := by
  constructor
  · intro he
    obtain ⟨c, hc, hname, _⟩ := exists_of_mem_collections h he
    obtain ⟨last, hlast, hsame⟩ := Collection.exists_mem_lastNamed hc
    obtain ⟨tree, htree, hmem⟩ := exists_tree_of_lastNamed h hlast
    have hentry : (last.name, tree) = e :=
      List.inj_on_of_nodup_map (nodup_keys_collections h) hmem he (hsame.trans hname.symm)
    exact ⟨last, hlast, hentry ▸ ⟨rfl, htree⟩⟩
  · rintro ⟨c, hc, hname, htree⟩
    obtain ⟨tree, htree', hmem⟩ := exists_tree_of_lastNamed h hc
    rw [htree] at htree'
    cases htree'
    rwa [← hname] at hmem

/-- The document of a library has a token at no path twice. -/
lemma nodup_paths
    (h : Document.ofLibrary library settings options styles sourceFile generatedAt = .ok d) :
    d.paths.Nodup := by
  refine List.nodup_flatMap.mpr ⟨fun e he => ?_, ?_⟩
  · exact TokenTree.nodup_walk ((isKeyed_ofLibrary h).trees e he) [e.1]
  · refine (List.pairwise_map.mp (nodup_keys_collections h)).imp fun hne path hpath hpath' => hne ?_
    obtain ⟨e, he, rfl⟩ := List.mem_map.mp hpath
    obtain ⟨e', he', heq⟩ := List.mem_map.mp hpath'
    obtain ⟨rest, hrest, _⟩ := TokenTree.mem_walk_singleton.mp he
    obtain ⟨rest', hrest', _⟩ := TokenTree.mem_walk_singleton.mp he'
    rw [heq, hrest] at hrest'
    exact (List.cons.inj hrest').1

/-- The paths of an entry of a document are those of the variables with values. -/
lemma perm_paths_entry {s : Scope} (hnames : (s.vars.map fun v => (v.collectionId, v.name)).Nodup)
    {c : Collection} {e : String × TokenTree} (h : s.IsEntryOf c e) :
    ((TokenTree.walk [e.1] e.2).map Prod.fst).Perm
      ((s.valued c).map fun v => LibraryEntry.path ⟨v, c⟩) := by
  have hperm := (Scope.perm_paths_tree hnames h.2).map (c.name :: ·)
  have hpaths : ((s.valued c).map fun v => nameSegments v.name).map (c.name :: ·) =
      (s.valued c).map fun v => LibraryEntry.path ⟨v, c⟩ := List.map_map
  rw [map_fst_walk_singleton, h.1, ← hpaths]
  exact hperm

/-- The paths of the document of a library are those of the variables with values in the last ones of
their names. -/
lemma perm_paths
    (h : Document.ofLibrary library settings options styles sourceFile generatedAt = .ok d)
    (hnames : (library.vars.map fun v => (v.collectionId, v.name)).Nodup) :
    d.paths.Perm ((Collection.lastNamed
        (Collection.select (options.selected.getD []) library.collections)).flatMap
      fun c => (library.valued c).map fun v => LibraryEntry.path ⟨v, c⟩) := by
  have hentries := fun e => mem_collections_iff h (e := e)
  have hdistinct : ((Collection.lastNamed
      (Collection.select (options.selected.getD []) library.collections)).flatMap
        fun c => (library.valued c).map fun v => LibraryEntry.path ⟨v, c⟩).Nodup := by
    refine List.nodup_flatMap.mpr ⟨fun c hc => ?_, ?_⟩
    · obtain ⟨tree, htree, hmem⟩ := exists_tree_of_lastNamed h hc
      refine (perm_paths_entry (e := (c.name, tree)) hnames ⟨rfl, htree⟩).nodup_iff.mp ?_
      exact TokenTree.nodup_walk ((isKeyed_ofLibrary h).trees _ hmem) [c.name]
    · refine (Collection.pairwise_lastNamed _).imp fun hne path hpath hpath' => hne ?_
      obtain ⟨_, _, rfl⟩ := List.mem_map.mp hpath
      obtain ⟨_, _, heq⟩ := List.mem_map.mp hpath'
      exact (List.cons.inj heq).1.symm
  refine (List.perm_ext_iff_of_nodup (nodup_paths h) hdistinct).mpr fun path => ?_
  unfold paths
  rw [List.mem_flatMap, List.mem_flatMap]
  constructor
  · rintro ⟨e, he, hpath⟩
    obtain ⟨c, hc, hentry⟩ := (mem_collections_iff h).mp he
    exact ⟨c, hc, (perm_paths_entry hnames hentry).mem_iff.mp hpath⟩
  · rintro ⟨c, hc, hpath⟩
    obtain ⟨tree, htree, hmem⟩ := exists_tree_of_lastNamed h hc
    exact ⟨_, hmem, (perm_paths_entry hnames ⟨rfl, htree⟩).mem_iff.mpr hpath⟩

/-- The tokens of the document of a library are those of the variables that have a value in a mode
that is shown, one for each, as far as no later selected collection has the name of theirs.  They are
as many as the variables with values in all selected collections if and only if no collection with
such variables has the name of a later one. -/
theorem paths_of_ofLibrary
    (hids : (library.collections.map Collection.id).Nodup)
    (hnames : (library.vars.map fun v => (v.collectionId, v.name)).Nodup)
    (h : Document.ofLibrary library settings options styles sourceFile generatedAt = .ok d) :
    let selected := Collection.select (options.selected.getD []) library.collections
    d.paths.Nodup ∧
      d.paths.Perm ((Collection.lastNamed selected).flatMap fun c =>
        (library.valued c).map fun v => LibraryEntry.path ⟨v, c⟩) ∧
      (∀ c ∈ Collection.lastNamed selected, ∀ v ∈ library.valued c, ∃ t,
        (Scope.ofSettings library settings).token? c v = .ok (some t) ∧
          d.HasTokenAt (LibraryEntry.path ⟨v, c⟩) t) ∧
      (d.paths.length = (library.valuedIn selected).length ↔
        selected.Pairwise fun c later => c.name = later.name → library.valued c = []) := by
  intro selected
  have hperm := perm_paths h hnames
  refine ⟨nodup_paths h, hperm, fun c hc v hv => ?_, ?_⟩
  · obtain ⟨tree, htree, hmem⟩ := exists_tree_of_lastNamed h hc
    obtain ⟨token, htoken, hwalk⟩ := Scope.exists_mem_tree_of_valued hnames htree hv
    exact ⟨token, htoken, c.name, tree, nameSegments v.name, rfl, hmem, hwalk⟩
  · have hcounted : d.paths.length =
        ((Collection.lastNamed selected).map fun c => (library.valued c).length).sum := by
      rw [hperm.length_eq, List.length_flatMap]
      simp only [List.length_map]
      rfl
    have hselected : (selected.map Collection.id).Nodup :=
      hids.sublist ((Collection.select_sublist _ _).map _)
    rw [hcounted, Library.length_valuedIn hnames.of_map hselected,
      Collection.sum_lastNamed_eq_iff]
    simp only [List.length_eq_zero_iff]

end Document

/-! ### Two collections of one name -/

/-- A library with a variable in each of two collections of one name. -/
def sameNameLibrary : Library :=
  ⟨[{ shortVariable "v" "a" with name := "m" }, shortVariable "w" "b"],
    [oneModeCollection "a" "A", oneModeCollection "b" "A"]⟩

/-- The document with the variable of the second collection. -/
def sameNameDocument : Document :=
  { collections := [("A", shortTree)], generatedAt := fixedTimestamp }

/-- The document is the one of the library. -/
lemma ofLibrary_sameName :
    Document.ofLibrary sameNameLibrary {} {} none "" "" = .ok sameNameDocument := by
  have hfirst : (oneModeCollection "a" "A").members Variable.name sameNameLibrary.vars =
      .ok [{ shortVariable "v" "a" with name := "m" }] := NaturalOrder.sortBy_singleton rfl
  have hsecond : (oneModeCollection "b" "A").members Variable.name sameNameLibrary.vars =
      .ok [shortVariable "w" "b"] := NaturalOrder.sortBy_singleton rfl
  have htree : ∃ tree, (Scope.ofSettings sameNameLibrary {}).tree (oneModeCollection "a" "A") =
      .ok tree := by
    unfold Scope.tree
    exact ⟨_, (bind_of_ok hfirst _).trans rfl⟩
  have htree' : (Scope.ofSettings sameNameLibrary {}).tree (oneModeCollection "b" "A") =
      .ok shortTree := by
    unfold Scope.tree
    exact (bind_of_ok hsecond _).trans rfl
  obtain ⟨tree, htree⟩ := htree
  exact Document.ofLibrary_two rfl htree htree'

/-- Of two variables in collections of one name one is lost. -/
theorem Document.paths_of_ofLibrary_sameName :
    (sameNameLibrary.collections.map Collection.id).Nodup ∧
      (sameNameLibrary.vars.map fun v => (v.collectionId, v.name)).Nodup ∧
      Document.ofLibrary sameNameLibrary {} {} none "" "" = .ok sameNameDocument ∧
      sameNameDocument.paths.Perm [["A", "n"]] ∧
      sameNameDocument.paths.length ≠
        (sameNameLibrary.valuedIn sameNameLibrary.collections).length := by
  have hids : (sameNameLibrary.collections.map Collection.id).Nodup := by decide
  have hnames : (sameNameLibrary.vars.map fun v => (v.collectionId, v.name)).Nodup := by decide
  obtain ⟨_, hperm, _, hcount⟩ := Document.paths_of_ofLibrary hids hnames ofLibrary_sameName
  refine ⟨hids, hnames, ofLibrary_sameName, hperm, fun hlength => ?_⟩
  have hlost := List.pairwise_pair.mp (hcount.mp hlength) rfl
  exact List.cons_ne_nil _ _ hlost

end DesignTokens

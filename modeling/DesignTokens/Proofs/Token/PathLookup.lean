import DesignTokens.Proofs.Resolve.AliasWalk
import DesignTokens.Proofs.Token.Contents
import DesignTokens.Proofs.Token.DottedPath
import Mathlib.Data.List.TakeWhile

/-!
# Paths in libraries and in documents

A path with slashes can be looked up among the variables of a library, whose names are compared as
whole texts behind the first slash, and in a document, where the path is divided into segments that
lead through a tree.  Both divisions are the same (`divide?_eq_some_iff`).  So where names are unique
and each variable belongs to exactly one collection (`Library.HasUniqueNames`), both lookups have the
same outcome for every path (`Document.sameLookup`): a variable and its token, nothing, or ambiguity
between the same collections.
-/

namespace DesignTokens

/-! ## Paths that are divided at the first slash -/

/-- A path with a slash consists of a first segment and the segments of what comes behind the
slash. -/
lemma segments_of_slash {path : String} {head tail : List Char} (hhead : ∀ c ∈ head, c ≠ '/')
    (hpath : path.toList = head ++ '/' :: tail) :
    Document.segments path = String.ofList head :: nameSegments (String.ofList tail) := by
  unfold nameSegments Document.segments List.splitOn
  rw [hpath, List.splitOnP_append_cons_of_forall_mem (fun c hc => by simp [hhead c hc]) '/' rfl,
    String.toList_ofList, List.map_cons]

/-- A path with a slash is divided there, if something comes behind it. -/
lemma divide?_of_slash {path : String} {head tail : List Char} (hhead : ∀ c ∈ head, c ≠ '/')
    (hpath : path.toList = head ++ '/' :: tail) :
    Library.divide? path =
      if tail.isEmpty then none else some (String.ofList head, String.ofList tail) := by
  have htake : path.toList.takeWhile (· != '/') = head := by
    rw [hpath, List.takeWhile_append_of_pos fun c hc => by simp [hhead c hc]]
    simp
  have hdrop : path.toList.drop (head.length + 1) = tail := by
    rw [hpath]
    simp
  unfold Library.divide?
  dsimp only
  rw [htake, hdrop]

/-- A path without a slash is not divided. -/
lemma divide?_of_no_slash {path : String} (h : ∀ c ∈ path.toList, c ≠ '/') :
    Library.divide? path = none := by
  have htake : path.toList.takeWhile (· != '/') = path.toList :=
    List.takeWhile_eq_self_iff.mpr fun c hc => by simp [h c hc]
  unfold Library.divide?
  dsimp only
  rw [htake, List.drop_eq_nil_of_le (Nat.le_succ _)]
  rfl

/-- A path has a first slash, or none. -/
lemma exists_slash_or (path : String) :
    (∃ head tail, (∀ c ∈ head, c ≠ '/') ∧ path.toList = head ++ '/' :: tail) ∨
      ∀ c ∈ path.toList, c ≠ '/' := by
  by_cases hslash : '/' ∈ path.toList
  · obtain ⟨head, tail, hpath, hhead⟩ := List.eq_append_cons_of_mem hslash
    exact Or.inl ⟨head, tail, fun c hc heq => hhead (heq ▸ hc), hpath⟩
  · exact Or.inr fun c hc heq => hslash (heq ▸ hc)

/-- The segments of a name without a slash are the name alone. -/
lemma segments_of_no_slash {path : String} (h : ∀ c ∈ path.toList, c ≠ '/') :
    Document.segments path = [path] := by
  unfold Document.segments List.splitOn
  rw [List.splitOnP_eq_singleton fun c hc => by simp [h c hc]]
  simp

/-- A path is divided into two names if its segments are the first one and those of the second one,
which is not empty. -/
theorem divide?_eq_some_iff {path first rest : String} :
    Library.divide? path = some (first, rest) ↔
      rest ≠ "" ∧ Document.segments path = first :: nameSegments rest := by
  rcases exists_slash_or path with ⟨head, tail, hhead, hpath⟩ | hnone
  · rw [divide?_of_slash hhead hpath, segments_of_slash hhead hpath, List.cons.injEq,
      nameSegments_injective.eq_iff]
    constructor
    · intro h
      split_ifs at h with htail
      cases h
      have hne : tail ≠ [] := fun heq => htail (List.isEmpty_iff.mpr heq)
      exact ⟨fun hempty => hne (String.ofList_eq_empty_iff.mp hempty), rfl, rfl⟩
    · rintro ⟨hne, rfl, rfl⟩
      have htail : ¬ tail.isEmpty = true := fun hempty =>
        hne (String.ofList_eq_empty_iff.mpr (List.isEmpty_iff.mp hempty))
      rw [if_neg htail]
  · rw [divide?_of_no_slash hnone, segments_of_no_slash hnone]
    refine ⟨nofun, ?_⟩
    rintro ⟨_, hsegments⟩
    exact absurd (List.cons.inj hsegments).2.symm (nameSegments_ne_nil rest)

/-! ## Tokens at paths -/

namespace Document

variable {d : Document} {path : List String} {t : Token}

/-- No two collections have the same name, and neither have two nodes of a group. -/
structure IsKeyed (d : Document) : Prop where
  collections : (OrderedMap.keys d.collections).Nodup
  trees : ∀ e ∈ d.collections, e.2.IsKeyed

/-- The token at a full path is the one that stands there. -/
lemma atFullPath?_eq_some_iff (h : d.IsKeyed) :
    d.atFullPath? path = some t ↔ d.HasTokenAt path t := by
  have htree : ∀ name rest, (OrderedMap.find? name d.collections).bind (TokenTree.token? rest) =
      some t ↔ d.HasTokenAt (name :: rest) t := by
    intro name rest
    rw [Option.bind_eq_some_iff]
    constructor
    · rintro ⟨tree, hfind, htoken⟩
      have hmem := OrderedMap.mem_of_find? hfind
      exact ⟨name, tree, rest, rfl, hmem, (TokenTree.token?_eq_some_iff (h.trees _ hmem)).mp htoken⟩
    · rintro ⟨name', tree, rest', heq, hmem, hwalk⟩
      cases heq
      exact ⟨tree, (OrderedMap.find?_eq_some_iff_mem h.collections).mpr hmem,
        (TokenTree.token?_eq_some_iff (h.trees _ hmem)).mpr hwalk⟩
  unfold atFullPath?
  split
  · exact htree _ _
  · rename_i hshort
    refine ⟨nofun, ?_⟩
    rintro ⟨name, tree, rest, rfl, hmem, hwalk⟩
    obtain ⟨next, rest, rfl⟩ :=
      List.exists_cons_of_ne_nil (TokenTree.ne_nil_of_mem_walk hwalk)
    exact absurd rfl (hshort name next rest)

/-- The tokens at a short path are those that stand there in some collection. -/
lemma mem_atShortPath_iff (h : d.IsKeyed) {e : List String × Token} :
    e ∈ d.atShortPath path ↔ ∃ name t, e = (name :: path, t) ∧ d.HasTokenAt (name :: path) t := by
  unfold atShortPath
  rw [List.mem_filterMap]
  constructor
  · rintro ⟨⟨name, tree⟩, hmem, htoken⟩
    obtain ⟨t, ht, rfl⟩ := Option.map_eq_some_iff.mp htoken
    exact ⟨name, t, rfl, name, tree, path, rfl, hmem,
      (TokenTree.token?_eq_some_iff (h.trees _ hmem)).mp ht⟩
  · rintro ⟨name, t, rfl, name', tree, rest, heq, hmem, hwalk⟩
    cases heq
    refine ⟨(name, tree), hmem, Option.map_eq_some_iff.mpr ⟨t, ?_, rfl⟩⟩
    exact (TokenTree.token?_eq_some_iff (h.trees _ hmem)).mpr hwalk

/-- Each collection has one token at a short path at most. -/
lemma nodup_names_atShortPath (h : d.IsKeyed) (path : List String) :
    ((d.atShortPath path).map fun e => e.1.headD "").Nodup := by
  refine h.collections.sublist (sublist_filterMap ?_ d.collections)
  rintro ⟨name, tree⟩ e heq
  obtain ⟨t, _, rfl⟩ := Option.map_eq_some_iff.mp heq
  rfl

end Document

/-! ## Variables at paths -/

/-- The path of a variable from the name of its collection on. -/
def LibraryEntry.path (e : LibraryEntry) : List String :=
  e.home.name :: nameSegments e.item.name

namespace Library

variable {l : Library} {path : String}

/-- Collections have different names, the variables of a collection have different names that are
not empty, and each variable belongs to exactly one collection. -/
structure HasUniqueNames (l : Library) : Prop where
  collections : (l.collections.map Collection.name).Nodup
  vars : (l.vars.map fun v => (v.collectionId, v.name)).Nodup
  nonempty : ∀ v ∈ l.vars, v.name ≠ ""
  home : ∀ v ∈ l.vars, ∃ c ∈ l.collections, c.id = v.collectionId ∧
    ∀ other ∈ l.collections, other.id = v.collectionId → other = c

/-- The entries of a library are its variables with their collections. -/
lemma mem_entries_iff {e : LibraryEntry} :
    e ∈ l.entries ↔ e.item ∈ l.vars ∧ l.home? e.item = some e.home := by
  unfold entries
  rw [List.mem_filterMap]
  constructor
  · rintro ⟨v, hv, he⟩
    obtain ⟨home, hhome, rfl⟩ := Option.map_eq_some_iff.mp he
    exact ⟨hv, hhome⟩
  · rintro ⟨hv, hhome⟩
    exact ⟨e.item, hv, Option.map_eq_some_iff.mpr ⟨e.home, hhome, rfl⟩⟩

/-- The collection of a variable is one of the library that has the id which the variable names. -/
lemma mem_of_home? {v : Variable} {c : Collection} (h : l.home? v = some c) :
    c ∈ l.collections ∧ c.id = v.collectionId := by
  have hid := List.find?_some h
  exact ⟨List.mem_reverse.mp (List.mem_of_find?_eq_some h), eq_of_beq hid⟩

/-- The variable with an id is one of the library. -/
lemma mem_of_byId? {v : Variable} {id : String} (h : l.byId? id = some v) : v ∈ l.vars :=
  List.mem_reverse.mp (List.mem_of_find?_eq_some h)

/-- Entries with the same path are the same, if collections have different names and so have the
variables of a collection. -/
lemma entry_eq_of_path (hcollections : (l.collections.map Collection.name).Nodup)
    (hvars : (l.vars.map fun v => (v.collectionId, v.name)).Nodup) {e e' : LibraryEntry}
    (he : e ∈ l.entries) (he' : e' ∈ l.entries) (hpath : e.path = e'.path) : e = e' := by
  obtain ⟨hv, hhome⟩ := mem_entries_iff.mp he
  obtain ⟨hv', hhome'⟩ := mem_entries_iff.mp he'
  obtain ⟨hc, hid⟩ := mem_of_home? hhome
  obtain ⟨hc', hid'⟩ := mem_of_home? hhome'
  obtain ⟨hname, hsegments⟩ := List.cons.inj hpath
  have hhomes : e.home = e'.home := List.inj_on_of_nodup_map hcollections hc hc' hname
  have hitems : e.item = e'.item := by
    refine List.inj_on_of_nodup_map hvars hv hv' (Prod.ext ?_ ?_)
    · rw [← hid, ← hid', hhomes]
    · exact nameSegments_injective hsegments
  cases e
  cases e'
  cases hhomes
  cases hitems
  rfl

/-- A variable that is found by a full path is one with that path. -/
lemma of_byFullPath?_eq_some {e : LibraryEntry} (h : l.byFullPath? path = some e) :
    e ∈ l.entries ∧ e.path = Document.segments path := by
  unfold byFullPath? at h
  split at h
  · rename_i first rest hdivided
    have hnames := List.find?_some h
    rw [Bool.and_eq_true, beq_iff_eq, beq_iff_eq] at hnames
    refine ⟨List.mem_of_find?_eq_some h, ?_⟩
    unfold LibraryEntry.path
    rw [hnames.1, hnames.2, (divide?_eq_some_iff.mp hdivided).2]
  · cases h

/-- A path of a variable with a name is found. -/
lemma byFullPath?_ne_none {e : LibraryEntry} (he : e ∈ l.entries) (hname : e.item.name ≠ "")
    (hpath : e.path = Document.segments path) : l.byFullPath? path ≠ none := by
  have hdivided : divide? path = some (e.home.name, e.item.name) :=
    divide?_eq_some_iff.mpr ⟨hname, hpath.symm⟩
  unfold byFullPath?
  rw [hdivided]
  intro hnone
  have hall := List.find?_eq_none.mp hnone e he
  simp at hall

namespace HasUniqueNames

variable (h : l.HasUniqueNames)

include h

/-- Entries with the same path are the same. -/
lemma entry_eq {e e' : LibraryEntry} (he : e ∈ l.entries) (he' : e' ∈ l.entries)
    (hpath : e.path = e'.path) : e = e' :=
  entry_eq_of_path h.collections h.vars he he' hpath

/-- The collection that a variable names by its id is its own. -/
lemma home?_eq {v : Variable} {c : Collection} (hv : v ∈ l.vars) (hc : c ∈ l.collections)
    (hmember : v.collectionId = c.id) : l.home? v = some c := by
  obtain ⟨home, _, _, honly⟩ := h.home v hv
  have hfound : (l.home? v).isSome := by
    refine List.find?_isSome.mpr ⟨c, List.mem_reverse.mpr hc, ?_⟩
    exact beq_iff_eq.mpr hmember.symm
  obtain ⟨found, hfound⟩ := Option.isSome_iff_exists.mp hfound
  obtain ⟨hmem, hid⟩ := mem_of_home? hfound
  rw [hfound, honly found hmem hid, ← honly c hc hmember.symm]

/-- The variables with one name belong to different collections. -/
lemma nodup_homes_byName (path : String) : ((l.byName path).map (·.home.name)).Nodup := by
  have hentries : l.entries.Nodup := by
    refine List.Nodup.filterMap ?_ (List.Nodup.of_map _ h.vars)
    intro v w e hv hw
    obtain ⟨_, _, rfl⟩ := Option.map_eq_some_iff.mp hv
    obtain ⟨_, _, heq⟩ := Option.map_eq_some_iff.mp hw
    cases heq
    rfl
  refine List.Nodup.map_on ?_ (hentries.filter _)
  intro e he e' he' hname
  obtain ⟨hmem, hitem⟩ := List.mem_filter.mp he
  obtain ⟨hmem', hitem'⟩ := List.mem_filter.mp he'
  have hsame : e.item.name = e'.item.name := (beq_iff_eq.mp hitem).trans (beq_iff_eq.mp hitem').symm
  refine h.entry_eq hmem hmem' ?_
  unfold LibraryEntry.path
  rw [hname, hsame]

end HasUniqueNames

end Library

/-! ## Both lookups -/

/-- Looking up a path among variables and among tokens has the same outcome: a variable and its token
at the path of the variable, nothing at all, or ambiguity between the same collections. -/
inductive SameLookup (s : Scope) (path : String) : Except Fault (Option LibraryEntry) →
    Except Fault (Option (List String × Token)) → Prop
  | found {e : LibraryEntry} {t : Token} (he : e ∈ s.entries)
      (ht : s.token? e.home e.item = .ok (some t)) :
      SameLookup s path (.ok (some e)) (.ok (some (e.path, t)))
  | missing : SameLookup s path (.ok none) (.ok none)
  | ambiguous {names names' : List String} (hnames : names.Perm names') :
      SameLookup s path (.error (.ambiguousReference path names))
        (.error (.ambiguousReference path names'))

namespace Document

section library

variable {library : Library} {settings : Settings} {options : DocumentOptions}
  {styles : Option Styles} {sourceFile generatedAt : String} {d : Document}
  (h : Document.ofLibrary library settings options styles sourceFile generatedAt = .ok d)
  (hselected : Collection.select (options.selected.getD []) library.collections =
    library.collections)
  (hunique : library.HasUniqueNames)

include h

/-- The document of a library is keyed. -/
lemma isKeyed_ofLibrary : d.IsKeyed := by
  refine ⟨nodup_keys_collections h, fun e he => ?_⟩
  obtain ⟨c, _, _, htree⟩ := exists_of_mem_collections h he
  exact Scope.isKeyed_tree htree

include hselected hunique

variable (htokens : ∀ e ∈ library.entries, ∃ t, d.HasTokenAt e.path t)

/-- A token of the document is that of a variable, at the path of the variable. -/
lemma exists_entry_of_hasTokenAt {path : List String} {t : Token} (ht : d.HasTokenAt path t) :
    ∃ e ∈ library.entries, e.path = path ∧
      (Scope.ofSettings library settings).token? e.home e.item = .ok (some t) := by
  obtain ⟨name, tree, rest, rfl, htree, hwalk⟩ := ht
  obtain ⟨c, hc, v, hv, rfl, hmember, rfl, htoken⟩ := exists_of_mem_walk h htree hwalk
  rw [hselected] at hc
  exact ⟨⟨v, c⟩, Library.mem_entries_iff.mpr ⟨hv, hunique.home?_eq hv hc hmember⟩, rfl, htoken⟩

/-- A token at a short path in the collection of a variable of that name is the one of the
variable. -/
lemma of_mem_atShortPath {path : String} {e : LibraryEntry} {x : List String × Token}
    (he : e ∈ library.byName path) (hx : x ∈ d.atShortPath (segments path))
    (hname : e.home.name = x.1.headD "") : e ∈ library.entries ∧ x.1 = e.path ∧
      (Scope.ofSettings library settings).token? e.home e.item = .ok (some x.2) := by
  have hkeyed := isKeyed_ofLibrary h
  obtain ⟨name, t, rfl, ht⟩ := (mem_atShortPath_iff hkeyed).mp hx
  obtain ⟨hmem, hitem⟩ := List.mem_filter.mp he
  have hpath : name :: segments path = e.path := by
    unfold LibraryEntry.path
    rw [hname, beq_iff_eq.mp hitem]
    rfl
  obtain ⟨e', he', hsame, htoken⟩ := exists_entry_of_hasTokenAt h hselected hunique ht
  rw [hunique.entry_eq he' hmem (hsame.trans hpath)] at htoken
  exact ⟨hmem, hpath, htoken⟩

include htokens

/-- The token at the path of a variable is that of the variable. -/
lemma exists_token_of_entry {e : LibraryEntry} (he : e ∈ library.entries) :
    ∃ t, d.HasTokenAt e.path t ∧
      (Scope.ofSettings library settings).token? e.home e.item = .ok (some t) := by
  obtain ⟨t, ht⟩ := htokens e he
  obtain ⟨e', he', hpath, htoken⟩ := exists_entry_of_hasTokenAt h hselected hunique ht
  rw [hunique.entry_eq he' he hpath] at htoken
  exact ⟨t, ht, htoken⟩

/-- The collections with a variable of a name are those with a token at the segments of the name. -/
lemma perm_homes_byName (path : String) : ((library.byName path).map (·.home.name)).Perm
    ((d.atShortPath (segments path)).map fun e => e.1.headD "") := by
  have hkeyed := isKeyed_ofLibrary h
  refine (List.perm_ext_iff_of_nodup (hunique.nodup_homes_byName path)
    (nodup_names_atShortPath hkeyed _)).mpr fun name => ?_
  rw [List.mem_map, List.mem_map]
  constructor
  · rintro ⟨e, he, rfl⟩
    obtain ⟨hmem, hitem⟩ := List.mem_filter.mp he
    obtain ⟨t, ht, _⟩ := exists_token_of_entry h hselected hunique htokens hmem
    unfold LibraryEntry.path at ht
    rw [beq_iff_eq.mp hitem] at ht
    exact ⟨_, (mem_atShortPath_iff hkeyed).mpr ⟨e.home.name, t, rfl, ht⟩, rfl⟩
  · rintro ⟨x, hx, rfl⟩
    obtain ⟨name, t, rfl, ht⟩ := (mem_atShortPath_iff hkeyed).mp hx
    obtain ⟨e, he, hpath, _⟩ := exists_entry_of_hasTokenAt h hselected hunique ht
    obtain ⟨hname, hsegments⟩ := List.cons.inj hpath
    exact ⟨e, List.mem_filter.mpr ⟨he, beq_iff_eq.mpr (nameSegments_injective hsegments)⟩, hname⟩

/-- Looking up a path has the same outcome among the variables of a library and in its document. -/
theorem sameLookup (path : String) : SameLookup (Scope.ofSettings library settings) path
    (library.byPath path) (d.resolvePath path) := by
  have hkeyed := isKeyed_ofLibrary h
  unfold Library.byPath resolvePath
  cases hfull : library.byFullPath? path with
  | some e =>
    obtain ⟨he, hpath⟩ := Library.of_byFullPath?_eq_some hfull
    obtain ⟨t, ht, htoken⟩ := exists_token_of_entry h hselected hunique htokens he
    rw [hpath] at ht
    rw [(atFullPath?_eq_some_iff hkeyed).mpr ht, ← hpath]
    exact .found he htoken
  | none =>
    have hnone : d.atFullPath? (segments path) = none := by
      rw [Option.eq_none_iff_forall_ne_some]
      intro t ht
      obtain ⟨e, he, hpath, _⟩ := exists_entry_of_hasTokenAt h hselected hunique
        ((atFullPath?_eq_some_iff hkeyed).mp ht)
      have hname := hunique.nonempty _ (Library.mem_entries_iff.mp he).1
      exact Library.byFullPath?_ne_none he hname hpath hfull
    rw [hnone]
    -- both lists of what the short path names have the same collections, hence the same length
    have hperm := perm_homes_byName h hselected hunique htokens path
    have hmem : ∀ e ∈ library.byName path, ∀ x ∈ d.atShortPath (segments path),
        e.home.name = x.1.headD "" → e ∈ library.entries ∧ x.1 = e.path ∧
          (Scope.ofSettings library settings).token? e.home e.item = .ok (some x.2) :=
      fun _ he _ hx => of_mem_atShortPath h hselected hunique he hx
    revert hperm hmem
    -- only lists of one entry are no matter of length: there the token is that of the variable
    match library.byName path, d.atShortPath (segments path) with
    | [], [] => exact fun _ _ => .missing
    | [], x :: others => exact fun hperm => absurd hperm.length_eq.symm (Nat.succ_ne_zero _)
    | e :: rest, [] => exact fun hperm => absurd hperm.length_eq (Nat.succ_ne_zero _)
    | [e], [x] =>
      intro hperm hmem
      obtain ⟨he, hpath, htoken⟩ := hmem e List.mem_cons_self x List.mem_cons_self
        (List.singleton_perm_singleton.mp hperm)
      have hx : x = (e.path, x.2) := Prod.ext hpath rfl
      rw [hx]
      exact .found he htoken
    | [e], x :: y :: others => exact fun hperm => absurd hperm.length_eq (by simp)
    | e :: e' :: rest, [x] => exact fun hperm => absurd hperm.length_eq (by simp)
    | e :: e' :: rest, x :: y :: others => exact fun hperm _ => .ambiguous hperm

/-- Looking up a path in a library leads to a variable if and only if looking it up in the document
leads to the token of that variable at its path; it leads to nothing if and only if the other one
does; and it is ambiguous if and only if the other one is, between the same collections. -/
theorem resolvePath_agrees_with_byPath (path : String) :
    (∀ e ∈ library.entries, library.byPath path = .ok (some e) ↔
        ∃ t, (Scope.ofSettings library settings).token? e.home e.item = .ok (some t) ∧
          d.resolvePath path = .ok (some (e.path, t))) ∧
      (library.byPath path = .ok none ↔ d.resolvePath path = .ok none) ∧
      (∀ names, library.byPath path = .error (.ambiguousReference path names) →
        ∃ names', d.resolvePath path = .error (.ambiguousReference path names') ∧
          names.Perm names') ∧
      ∀ names', d.resolvePath path = .error (.ambiguousReference path names') →
        ∃ names, library.byPath path = .error (.ambiguousReference path names) ∧
          names.Perm names' := by
  have hsame := sameLookup h hselected hunique htokens path
  revert hsame
  generalize library.byPath path = found
  generalize d.resolvePath path = resolved
  intro hsame
  cases hsame with
  | @found e t he ht =>
    refine ⟨fun e' he' => ⟨?_, ?_⟩, ⟨nofun, nofun⟩, nofun, nofun⟩
    · intro heq
      cases heq
      exact ⟨t, ht, rfl⟩
    · rintro ⟨t', ht', heq⟩
      have hpath : e.path = e'.path := congrArg Prod.fst (Option.some.inj (Except.ok.inj heq))
      rw [hunique.entry_eq he he' hpath]
  | missing =>
    refine ⟨fun e he => ⟨nofun, ?_⟩, ⟨fun _ => rfl, fun _ => rfl⟩, nofun, nofun⟩
    rintro ⟨t, _, heq⟩
    cases heq
  | @ambiguous names names' hnames =>
    refine ⟨fun e he => ⟨nofun, ?_⟩, ⟨nofun, nofun⟩, ?_, ?_⟩
    · rintro ⟨t, _, heq⟩
      cases heq
    · intro other heq
      cases heq
      exact ⟨names', rfl, hnames⟩
    · intro other heq
      cases heq
      exact ⟨names, rfl, hnames⟩

end library

end Document

/-! ### Two collections with a variable of the same name -/

/-- A collection with one mode. -/
def oneModeCollection (id name : String) : Collection :=
  { id, name, modes := [⟨"m", "Value"⟩], defaultModeId := "m" }

/-- A text variable with a short name. -/
def shortVariable (id collectionId : String) : Variable :=
  { id, name := "n", type := .text, values := [("m", .text "x")], collectionId }

/-- The tree of a collection with the variable. -/
def shortTree : TokenTree :=
  [("n", .token
    { type := .string
      value := .flat (.literal (.text "x"))
      origin := some { resolvedType := some "STRING" } })]

/-- The document of two collections with a variable of that name each. -/
def shortDocument : Document :=
  { collections := [("A", shortTree), ("B", shortTree)], generatedAt := fixedTimestamp }

/-- The path of the variable leads to a token in both collections. -/
lemma hasTokenAt_shortDocument {name : String} (hname : name = "A" ∨ name = "B") :
    ∃ t, shortDocument.HasTokenAt [name, "n"] t := by
  rcases hname with rfl | rfl
  · exact ⟨_, "A", shortTree, ["n"], rfl, List.mem_cons_self, List.mem_cons_self⟩
  · exact ⟨_, "B", shortTree, ["n"], rfl, List.mem_cons_of_mem _ List.mem_cons_self,
      List.mem_cons_self⟩

/-- A library with a variable in each of two collections. -/
def apartLibrary : Library :=
  ⟨[shortVariable "v" "a", shortVariable "w" "b"],
    [oneModeCollection "a" "A", oneModeCollection "b" "B"]⟩

/-- The document is the one of the library. -/
lemma ofLibrary_apart : Document.ofLibrary apartLibrary {} {} none "" "" = .ok shortDocument := by
  have hfirst : (oneModeCollection "a" "A").members Variable.name apartLibrary.vars =
      .ok [shortVariable "v" "a"] := NaturalOrder.sortBy_singleton rfl
  have hsecond : (oneModeCollection "b" "B").members Variable.name apartLibrary.vars =
      .ok [shortVariable "w" "b"] := NaturalOrder.sortBy_singleton rfl
  have htree : (Scope.ofSettings apartLibrary {}).tree (oneModeCollection "a" "A") =
      .ok shortTree := by
    unfold Scope.tree
    exact (bind_of_ok hfirst _).trans rfl
  have htree' : (Scope.ofSettings apartLibrary {}).tree (oneModeCollection "b" "B") =
      .ok shortTree := by
    unfold Scope.tree
    exact (bind_of_ok hsecond _).trans rfl
  exact Document.ofLibrary_two rfl htree htree'

/-- The names in the library are unique. -/
lemma hasUniqueNames_apart : apartLibrary.HasUniqueNames :=
  ⟨by decide, by decide, by decide, by decide⟩

/-- The name of both variables is ambiguous in the library, and hence in the document, between the
same collections. -/
theorem Document.resolvePath_agrees_with_byPath_apart :
    Document.ofLibrary apartLibrary {} {} none "" "" = .ok shortDocument ∧
      Collection.select [] apartLibrary.collections = apartLibrary.collections ∧
      apartLibrary.HasUniqueNames ∧
      (∀ e ∈ apartLibrary.entries, ∃ t, shortDocument.HasTokenAt e.path t) ∧
      ∃ names', shortDocument.resolvePath "n" = .error (.ambiguousReference "n" names') ∧
        ["A", "B"].Perm names' := by
  have htokens : ∀ e ∈ apartLibrary.entries, ∃ t, shortDocument.HasTokenAt e.path t := by
    intro e he
    rcases List.mem_cons.mp he with rfl | hsecond
    · exact hasTokenAt_shortDocument (Or.inl rfl)
    · rw [List.mem_singleton.mp hsecond]
      exact hasTokenAt_shortDocument (Or.inr rfl)
  refine ⟨ofLibrary_apart, rfl, hasUniqueNames_apart, htokens, ?_⟩
  exact (Document.resolvePath_agrees_with_byPath ofLibrary_apart rfl hasUniqueNames_apart htokens
    "n").2.2.1 ["A", "B"] rfl

/-! ### Two collections with the same id -/

/-- A library with a variable whose collection is named by an id that two collections have. -/
def sharedLibrary : Library :=
  ⟨[shortVariable "v" "x"], [oneModeCollection "x" "A", oneModeCollection "x" "B"]⟩

/-- The document is the one of the library, with the variable in both collections. -/
lemma ofLibrary_shared : Document.ofLibrary sharedLibrary {} {} none "" "" = .ok shortDocument := by
  have hmembers : ∀ name, (oneModeCollection "x" name).members Variable.name sharedLibrary.vars =
      .ok [shortVariable "v" "x"] := fun _ => NaturalOrder.sortBy_singleton rfl
  have htree : ∀ name, (Scope.ofSettings sharedLibrary {}).tree (oneModeCollection "x" name) =
      .ok shortTree := by
    intro name
    unfold Scope.tree
    exact (bind_of_ok (hmembers name) _).trans rfl
  exact Document.ofLibrary_two rfl (htree "A") (htree "B")

/-- Where two collections have the same id, a variable of theirs has a token under both names, but
the library knows it under the last one only. -/
theorem Document.resolvePath_ne_byPath_shared :
    Document.ofLibrary sharedLibrary {} {} none "" "" = .ok shortDocument ∧
      (sharedLibrary.collections.map Collection.name).Nodup ∧
      (sharedLibrary.vars.map fun v => (v.collectionId, v.name)).Nodup ∧
      (∀ v ∈ sharedLibrary.vars, v.name ≠ "") ∧
      (∀ v ∈ sharedLibrary.vars, ∃ c ∈ sharedLibrary.collections, c.id = v.collectionId) ∧
      (∀ e ∈ sharedLibrary.entries, ∃ t, shortDocument.HasTokenAt e.path t) ∧
      sharedLibrary.byPath "A/n" = .ok none ∧ shortDocument.resolvePath "A/n" ≠ .ok none := by
  refine ⟨ofLibrary_shared, by decide, by decide, by decide, by decide, ?_, rfl, nofun⟩
  intro e he
  rw [List.mem_singleton.mp he]
  exact hasTokenAt_shortDocument (Or.inr rfl)

end DesignTokens

import DesignTokens.Proofs.Separators
import DesignTokens.Proofs.Token.Tree
import DesignTokens.Token.FromLibrary
import Mathlib.Data.List.Find

/-!
# Dotted paths

References between tokens are paths whose names are joined by dots.  Since names may hold dots
themselves, such a text can be read in several ways, and `TokenTree.matchDotted?` tries them one
after the other.  The outcome is that of a plain search: the first token of the walk whose names,
joined by dots, are the text (`TokenTree.matchDotted?_eq_find?`).  So a dotted path leads to its
token, if no other token has the same dotted path (`Document.resolveReference_of_unique`).  In any
case a reference leads to the first token of the document whose dotted path it is
(`Document.resolveReference_eq_scan`).
-/

namespace DesignTokens

/-! ## Segments of names -/

/-- The segments of a name, joined by slashes, are the name. -/
lemma intercalate_nameSegments (name : String) : "/".intercalate (nameSegments name) = name := by
  apply String.toList_injective
  unfold nameSegments Document.segments
  rw [String.toList_intercalate, List.map_map]
  have hid : String.toList ∘ String.ofList = id := funext fun _ => String.toList_ofList
  rw [hid, List.map_id]
  exact List.intercalate_splitOn '/'

/-- Names with the same segments are the same. -/
lemma nameSegments_injective : Function.Injective nameSegments := by
  intro a b h
  rw [← intercalate_nameSegments a, h, intercalate_nameSegments]

/-- A name has segments. -/
lemma nameSegments_ne_nil (name : String) : nameSegments name ≠ [] := by
  unfold nameSegments Document.segments List.splitOn
  simp [List.splitOnP_ne_nil]

/-- A name in front of the segments of another one is followed by a slash. -/
lemma intercalate_cons_nameSegments (first name : String) :
    "/".intercalate (first :: nameSegments name) = first ++ "/" ++ name := by
  obtain ⟨segment, rest, hsegments⟩ := List.exists_cons_of_ne_nil (nameSegments_ne_nil name)
  have hname := intercalate_nameSegments name
  rw [hsegments] at hname ⊢
  rw [String.intercalate_cons_cons, hname]

/-! ## Names joined by dots -/

/-- The names of a path joined by dots. -/
def dotted (path : List String) : List Char :=
  ['.'].intercalate (path.map String.toList)

/-- The names joined by dots are the text that they make. -/
lemma toList_intercalate_dot (path : List String) :
    (".".intercalate path).toList = dotted path := by
  rw [String.toList_intercalate]
  rfl

/-- A name alone is joined with nothing. -/
lemma dotted_singleton (name : String) : dotted [name] = name.toList :=
  List.intercalate_singleton

/-- A name before others is followed by a dot. -/
lemma dotted_cons {name : String} {path : List String} (h : path ≠ []) :
    dotted (name :: path) = name.toList ++ ['.'] ++ dotted path := by
  obtain ⟨first, rest, rfl⟩ := List.exists_cons_of_ne_nil h
  exact List.intercalate_cons_cons

/-- The segments of a name, joined by dots, are the name with dots for slashes. -/
lemma dotted_nameSegments (name : String) :
    dotted (nameSegments name) = name.toList.map fun c => if c = '/' then '.' else c := by
  rw [← intercalate_splitOn_eq_map]
  unfold dotted nameSegments Document.segments
  simp

/-- The dotted path of a variable consists of the name of its collection and the segments of its
own name. -/
theorem Library.toList_dottedPath (l : Library) (v : Variable) :
    (l.dottedPath v).toList = dotted (l.homeName v :: nameSegments v.name) := by
  rw [dotted_cons (nameSegments_ne_nil v.name), dotted_nameSegments]
  unfold Library.dottedPath
  simp

/-! ## Searching trees -/

namespace TokenTree

mutual

/-- The path that is matched at a named node is that of the first token there which reads as the
text behind the name. -/
lemma matchNode?_eq_find? (name : String) (reference : List Char) : (node : TokenNode) →
    matchNode? name.toList reference node =
      ((walkNode [] node).find? fun e => dotted (name :: e.1) == reference).map (·.1)
  | .token t => by
    by_cases h : reference = name.toList
    · simp [matchNode?, walkNode, dotted_singleton, h]
    · have hne : name.toList ≠ reference := fun heq => h heq.symm
      simp [matchNode?, walkNode, dotted_singleton, h, hne]
  | .group children => by
    have hjoined : ∀ e ∈ walkBelow [] children,
        dotted (name :: e.1) = name.toList ++ ['.'] ++ dotted e.1 :=
      fun e he => dotted_cons (ne_nil_of_mem_walk he)
    rw [matchNode?, walkNode]
    split
    · rename_i rest hrest
      have hreference := List.isPrefixOf?_eq_some_iff_append_eq.mp hrest
      rw [matchDotted?_eq_find? rest children]
      congr 1
      refine List.find?_congr fun e he => ?_
      rw [hjoined e he, ← hreference, Bool.eq_iff_iff, beq_iff_eq, beq_iff_eq]
      exact (List.append_right_inj _).symm
    · rename_i hnone
      have hnot : ∀ e ∈ walkBelow [] children, ¬ (dotted (name :: e.1) == reference) = true := by
        intro e he heq
        rw [beq_iff_eq, hjoined e he] at heq
        rw [List.isPrefixOf?_eq_some_iff_append_eq.mpr heq] at hnone
        cases hnone
      rw [List.find?_eq_none.mpr hnot]
      rfl

/-- The path that is matched is that of the first token which reads as the text. -/
theorem matchDotted?_eq_find? (reference : List Char) : (children : List (String × TokenNode)) →
    matchDotted? reference children =
      ((walkBelow [] children).find? fun e => dotted e.1 == reference).map (·.1)
  | [] => rfl
  | (name, node) :: rest => by
    have hwalk := walkNode_append [name] [] node
    rw [List.append_nil] at hwalk
    rw [matchDotted?, matchNode?_eq_find? name reference node, matchDotted?_eq_find? reference rest,
      walkBelow, List.nil_append, hwalk, List.find?_append, List.find?_map]
    simp only [Function.comp_def, List.singleton_append]
    cases (walkNode [] node).find? fun e => dotted (name :: e.1) == reference with
    | none => rfl
    | some e => rfl

end

/-- A path that is matched is walked and reads as the text. -/
lemma exists_of_matchDotted? {reference : List Char} {children : List (String × TokenNode)}
    {path : List String} (h : matchDotted? reference children = some path) :
    ∃ t, (path, t) ∈ walkBelow [] children ∧ dotted path = reference := by
  rw [matchDotted?_eq_find?] at h
  obtain ⟨⟨found, t⟩, hfind, rfl⟩ := Option.map_eq_some_iff.mp h
  have hreads := List.find?_some hfind
  exact ⟨t, List.mem_of_find?_eq_some hfind, eq_of_beq hreads⟩

/-- Some path is matched when a token reads as the text. -/
lemma isSome_matchDotted? {reference : List Char} {children : List (String × TokenNode)}
    {e : List String × Token} (he : e ∈ walkBelow [] children) (hreads : dotted e.1 = reference) :
    (matchDotted? reference children).isSome := by
  rw [matchDotted?_eq_find?, Option.isSome_map, List.find?_isSome]
  exact ⟨e, he, beq_iff_eq.mpr hreads⟩

end TokenTree

/-! ## References in documents -/

namespace Document

variable {d : Document} {reference : String}

/-- A token at a path from the name of its collection on is one of a document. -/
def HasTokenAt (d : Document) (path : List String) (t : Token) : Prop :=
  ∃ name tree rest, path = name :: rest ∧ (name, tree) ∈ d.collections ∧
    (rest, t) ∈ TokenTree.walk [] tree

/-- A reference that is resolved leads to a token that reads as the reference. -/
lemma exists_of_resolveReference {path : List String}
    (h : d.resolveReference reference = some path) :
    ∃ t, d.HasTokenAt path t ∧ dotted path = reference.toList := by
  obtain ⟨⟨name, tree⟩, htree, hmatch⟩ := List.exists_of_findSome?_eq_some h
  dsimp only at hmatch
  split at hmatch
  · rename_i rest hrest
    obtain ⟨path, hpath, rfl⟩ := Option.map_eq_some_iff.mp hmatch
    obtain ⟨t, hwalk, hreads⟩ := TokenTree.exists_of_matchDotted? hpath
    refine ⟨t, ⟨name, tree, path, rfl, htree, hwalk⟩, ?_⟩
    rw [dotted_cons (TokenTree.ne_nil_of_mem_walk hwalk), hreads]
    exact List.isPrefixOf?_eq_some_iff_append_eq.mp hrest
  · cases hmatch

/-- A reference is resolved when a token reads as the reference. -/
lemma isSome_resolveReference {path : List String} {t : Token} (ht : d.HasTokenAt path t)
    (hreads : dotted path = reference.toList) : (d.resolveReference reference).isSome := by
  obtain ⟨name, tree, rest, rfl, htree, hwalk⟩ := ht
  rw [dotted_cons (TokenTree.ne_nil_of_mem_walk hwalk)] at hreads
  refine List.findSome?_isSome_iff.mpr ⟨(name, tree), htree, ?_⟩
  dsimp only
  rw [List.isPrefixOf?_eq_some_iff_append_eq.mpr hreads, Option.isSome_map]
  exact TokenTree.isSome_matchDotted? hwalk rfl

/-- A reference that reads as the path of a token is resolved to that path, if no token at another
path reads the same. -/
theorem resolveReference_of_unique {path : List String} {t : Token} (ht : d.HasTokenAt path t)
    (hreads : dotted path = reference.toList)
    (hunique : ∀ other t', d.HasTokenAt other t' → dotted other = dotted path → other = path) :
    d.resolveReference reference = some path := by
  obtain ⟨found, hfound⟩ := Option.isSome_iff_exists.mp (isSome_resolveReference ht hreads)
  obtain ⟨t', ht', hsame⟩ := exists_of_resolveReference hfound
  rw [hfound, hunique found t' ht' (hsame.trans hreads.symm)]

/-- The tokens of a document in order, each with its path from the name of its collection on: one
collection after the other, and each in the order of its walk. -/
def walk (d : Document) : List (List String × Token) :=
  d.collections.flatMap fun e => TokenTree.walk [e.1] e.2

/-- A reference is matched at each collection like at a group. -/
lemma resolveReference_eq_findSome? (d : Document) (reference : String) :
    d.resolveReference reference = d.collections.findSome? fun e =>
      (TokenTree.matchNode? e.1.toList reference.toList (.group e.2)).map (e.1 :: ·) := by
  unfold resolveReference
  congr 1
  funext ⟨name, tree⟩
  dsimp only
  rw [TokenTree.matchNode?]
  cases (name.toList ++ ['.']).isPrefixOf? reference.toList <;> rfl

/-- In one collection, a reference is matched by the first token of the walk that reads as it
does. -/
lemma map_matchNode?_eq_find? (name : String) (tree : TokenTree) (reference : String) :
    (TokenTree.matchNode? name.toList reference.toList (.group tree)).map (name :: ·) =
      ((TokenTree.walk [name] tree).find? fun e => ".".intercalate e.1 == reference).map
        (·.1) := by
  have hwalk : TokenTree.walk [name] tree =
      (TokenTree.walk [] tree).map fun e => (name :: e.1, e.2) :=
    TokenTree.walkBelow_append [name] [] tree
  have hreads : ∀ path,
      (".".intercalate path == reference) = (dotted path == reference.toList) := by
    intro path
    rw [Bool.eq_iff_iff, beq_iff_eq, beq_iff_eq, ← toList_intercalate_dot, String.toList_inj]
  simp only [TokenTree.matchNode?_eq_find?, hwalk, hreads, List.find?_map, Option.map_map]
  rfl

/-- A reference leads to the first token of the document, in document order, whose path from the
name of its collection on is the reference when it is joined by dots, and to none if there is no
such token. -/
theorem resolveReference_eq_scan (d : Document) (reference : String) :
    d.resolveReference reference =
      (d.walk.find? fun e => ".".intercalate e.1 == reference).map (·.1) := by
  rw [resolveReference_eq_findSome?]
  unfold walk
  induction d.collections with
  | nil => rfl
  | cons e rest ih =>
    rw [List.findSome?_cons, ih, map_matchNode?_eq_find?, List.flatMap_cons, List.find?_append]
    cases (TokenTree.walk [e.1] e.2).find? fun e => ".".intercalate e.1 == reference <;> rfl

end Document

end DesignTokens

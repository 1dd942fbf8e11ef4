import DesignTokens.Proofs.Expr.WrittenReferences

/-!
# Quoted paths are read back

A path is written into a calculation between single quotes, with a backslash before each backslash
and each single quote of its own (`Reference.ofPath`).  Whatever the path is, it is read back from
there, and the closing quote is found (`Reference.path?_ofPath`).  A text that is put together of
quoted paths and chunks without quotes and without openings of references therefore has exactly
these paths as its references, for each of the readers (`referencesOf_quotingText`,
`pathReferences_quotingText`).
-/

namespace DesignTokens

namespace Reference

/-! ## Escapes -/

/-- A character of a path as it is written between quotes. -/
def escapedChar (c : Char) : List Char :=
  if c = '\\' ∨ c = '\'' then ['\\', c] else [c]

/-- A path as it is written between quotes. -/
def escape (path : List Char) : List Char :=
  path.flatMap escapedChar

/-- The reference that is written for a path. -/
def ofPath (path : String) : Reference :=
  .path (escape path.toList)

lemma escape_cons (c : Char) (path : List Char) :
    escape (c :: path) = escapedChar c ++ escape path :=
  List.flatMap_cons

/-- A character that is no backslash stands for itself. -/
lemma unescape_cons {c : Char} (hc : c ≠ '\\') (rest : List Char) :
    unescape (c :: rest) = c :: unescape rest := by
  cases rest with
  | nil => rfl
  | cons d rest => exact if_neg fun h => hc h.1

/-- What is written for a path denotes the path. -/
lemma unescape_escape (path : List Char) : unescape (escape path) = path := by
  induction path with
  | nil => rfl
  | cons c path ih =>
    rw [escape_cons]
    unfold escapedChar
    split_ifs with hc
    · have hbreak : c ≠ '\n' := by rcases hc with rfl | rfl <;> decide
      calc unescape ('\\' :: c :: escape path) = c :: unescape (escape path) :=
            if_pos ⟨rfl, hbreak⟩
        _ = c :: path := by rw [ih]
    · rw [List.singleton_append, unescape_cons (fun h => hc (Or.inl h)), ih]

/-- The reference that is written for a path denotes the path. -/
lemma pathText_escape (path : String) : pathText (escape path.toList) = path := by
  unfold pathText
  rw [unescape_escape, String.ofList_toList]

/-- Different paths are written as different references. -/
lemma ofPath_injective : Function.Injective ofPath := by
  intro path path' h
  rw [← pathText_escape path, ← pathText_escape path', Reference.path.inj h]

/-- A path that is not empty is not written as nothing. -/
lemma escape_ne_nil {path : List Char} (hpath : path ≠ []) : escape path ≠ [] := by
  intro h
  rw [← unescape_escape path, h] at hpath
  exact hpath rfl

/-! ## Reading -/

/-- A quoted path ends where a quote stands. -/
lemma quotedBody?_quote (rest : List Char) : quotedBody? ('\'' :: rest) = some [] := by
  rw [quotedBody?.eq_def]
  exact if_pos rfl

/-- A character behind a backslash is part of a quoted path. -/
lemma quotedBody?_escaped {c : Char} (hbreak : c ≠ '\n') (rest : List Char) :
    quotedBody? ('\\' :: c :: rest) = (quotedBody? rest).map fun body => '\\' :: c :: body := by
  rw [quotedBody?.eq_def]
  exact if_neg hbreak

/-- A character that is neither a quote nor a backslash is part of a quoted path. -/
lemma quotedBody?_plain {c : Char} (hquote : c ≠ '\'') (hbackslash : c ≠ '\\')
    (rest : List Char) : quotedBody? (c :: rest) = (quotedBody? rest).map (c :: ·) := by
  rw [quotedBody?.eq_def]
  dsimp only
  rw [if_neg hquote, if_neg hbackslash]

/-- What is written for a path goes up to the closing quote. -/
lemma quotedBody?_escape (path rest : List Char) :
    quotedBody? (escape path ++ '\'' :: rest) = some (escape path) := by
  induction path with
  | nil => exact quotedBody?_quote rest
  | cons c path ih =>
    rw [escape_cons]
    unfold escapedChar
    split_ifs with hc
    · have hbreak : c ≠ '\n' := by rcases hc with rfl | rfl <;> decide
      calc quotedBody? ('\\' :: c :: (escape path ++ '\'' :: rest))
          = (quotedBody? (escape path ++ '\'' :: rest)).map fun body => '\\' :: c :: body :=
            quotedBody?_escaped hbreak _
        _ = some ('\\' :: c :: escape path) := by rw [ih, Option.map_some]
    · obtain ⟨hbackslash, hquote⟩ := not_or.mp hc
      calc quotedBody? (c :: (escape path ++ '\'' :: rest))
          = (quotedBody? (escape path ++ '\'' :: rest)).map (c :: ·) :=
            quotedBody?_plain hquote hbackslash _
        _ = some (c :: escape path) := by rw [ih, Option.map_some]

/-- A path that is written between quotes is read as a quoted path, whatever follows. -/
lemma path?_ofPath {path : String} (hpath : path ≠ "") (rest : List Char) :
    path? ((ofPath path).chars ++ rest) = some (ofPath path) := by
  have hne : escape path.toList ≠ [] := escape_ne_nil (mt String.toList_eq_nil_iff.mp hpath)
  have hchars : (ofPath path).chars ++ rest = '\'' :: (escape path.toList ++ '\'' :: rest) := by
    show '\'' :: escape path.toList ++ ['\''] ++ rest = _
    simp only [List.cons_append, List.append_assoc, List.nil_append]
  have hbody := quotedBody?_escape path.toList rest
  obtain ⟨c, body, hbegin⟩ := List.exists_cons_of_ne_nil hne
  rw [hchars]
  simp only [path?, ofPath, hbody]
  rw [hbegin]

/-- A quoted path is read by a quote at its front only. -/
lemma path?_eq_none {c : Char} (hc : c ≠ '\'') (rest : List Char) : path? (c :: rest) = none := by
  unfold path?
  split
  · next heq => exact absurd (List.cons.inj heq).1 hc
  · rfl

/-! ## Readers -/

/-- A reader that finds what is written for paths, and nothing where neither a quote nor an opening
stands. -/
structure ReadsQuotes (reader : List Char → Option Reference) : Prop where
  reads : ∀ {path : String}, path ≠ "" → ∀ rest,
    reader ((ofPath path).chars ++ rest) = some (ofPath path)
  passes : ∀ {c : Char} {rest : List Char}, c ≠ '\'' → ¬ opening <+: c :: rest →
    reader (c :: rest) = none

/-- The reader of quoted paths alone. -/
lemma readsQuotes_path? : ReadsQuotes path? where
  reads := path?_ofPath
  passes hc _ := path?_eq_none hc _

/-- The reader of both kinds of references. -/
lemma readsQuotes_any? : ReadsQuotes any? where
  reads hpath rest := by
    unfold any?
    rw [path?_ofPath hpath]
    rfl
  passes hc hopening := by
    unfold any?
    rw [path?_eq_none hc, property?_eq_none fun rest heq => hopening ⟨rest, heq.symm⟩]
    rfl

end Reference

/-! ## Texts with quoted paths -/

open Reference (ofPath opening ReadsQuotes)

/-- A text without quotes and without openings of references to custom properties. -/
def IsPlainChunk (chunk : String) : Prop :=
  '\'' ∉ chunk.toList ∧ ¬ opening <:+: chunk.toList

/-- The text that begins with a chunk and goes on with paths between quotes, each with the chunk
behind it. -/
def quotingText (first : String) (parts : List (String × String)) : String :=
  String.ofList (first.toList ++ parts.flatMap fun part => (ofPath part.1).chars ++ part.2.toList)

/-- A word that begins in a text and has none of the characters behind it ends there. -/
lemma prefix_of_prefix_append {α : Type} {word text rest : List α}
    (hrest : ∀ a ∈ rest.head?, a ∉ word) (h : word <+: text ++ rest) : word <+: text := by
  obtain ⟨later, h⟩ := h
  rcases List.append_eq_append_iff.mp h with ⟨middle, rfl, -⟩ | ⟨middle, rfl, hmiddle⟩
  · exact List.prefix_append word middle
  · cases middle with
    | nil => simp
    | cons a middle =>
      rw [hmiddle] at hrest
      exact absurd (List.mem_append_right text List.mem_cons_self) (hrest a rfl)

section texts

variable {reader : List Char → Option Reference} {first : String} {parts : List (String × String)}

/-- A chunk is passed character by character, up to the end or to a quote. -/
lemma pieces_chunk (hreader : ReadsQuotes reader) {chunk rest : List Char} (hquote : '\'' ∉ chunk)
    (hopening : ¬ opening <:+: chunk) (hrest : ∀ c ∈ rest.head?, c = '\'') :
    pieces reader (chunk ++ rest) = chunk.map .plain ++ pieces reader rest := by
  induction chunk with
  | nil => rfl
  | cons c chunk ih =>
    obtain ⟨hc, hchunk⟩ := not_or.mp (mt List.mem_cons.mpr hquote)
    have hnone : reader (c :: (chunk ++ rest)) = none := by
      refine hreader.passes (Ne.symm hc) fun hprefix => hopening ?_
      have hends : ∀ d ∈ rest.head?, d ∉ opening := fun d hd => by
        rw [hrest d hd]
        decide
      exact (prefix_of_prefix_append hends hprefix : opening <+: c :: chunk).isInfix
    have hlater := ih hchunk fun h => hopening (h.trans (List.suffix_cons c chunk).isInfix)
    rw [List.cons_append, pieces_cons_of_none hnone, hlater, List.map_cons, List.cons_append]

/-- A text with quoted paths has these paths for references, and the characters of its chunks. -/
lemma pieces_quotingText (hreader : ReadsQuotes reader) (hpaths : ∀ part ∈ parts, part.1 ≠ "")
    (hfirst : IsPlainChunk first) (hchunks : ∀ part ∈ parts, IsPlainChunk part.2) :
    pieces reader (quotingText first parts).toList =
      first.toList.map .plain ++ parts.flatMap fun part =>
        .reference (ofPath part.1) :: part.2.toList.map .plain := by
  unfold quotingText
  rw [String.toList_ofList]
  induction parts generalizing first with
  | nil =>
    have hnothing : ∀ c ∈ ([] : List Char).head?, c = '\'' := by simp
    rw [List.flatMap_nil, List.flatMap_nil, pieces_chunk hreader hfirst.1 hfirst.2 hnothing, pieces]
  | cons part parts ih =>
    obtain ⟨hpath, hpaths⟩ := List.forall_mem_cons.mp hpaths
    obtain ⟨hchunk, hchunks⟩ := List.forall_mem_cons.mp hchunks
    have hquote : ∀ c ∈ ((ofPath part.1).chars ++ part.2.toList ++
        parts.flatMap fun part => (ofPath part.1).chars ++ part.2.toList).head?, c = '\'' :=
      fun c hc => (Option.some.inj hc).symm
    rw [List.flatMap_cons, pieces_chunk hreader hfirst.1 hfirst.2 hquote, List.append_assoc,
      pieces_append_of_read (hreader.reads hpath _), ih hpaths hchunk hchunks, List.flatMap_cons,
      List.cons_append]

/-- The reference that a piece is. -/
def Piece.reference? : Piece → Option Reference
  | .plain _ => none
  | .reference r => some r

/-- The path that a reference denotes, if it is a quoted path. -/
def Reference.pathText? : Reference → Option String
  | .path raw => some (pathText raw)
  | .property _ => none

/-- The references of a text are those among its pieces. -/
lemma referencesOf_eq (reader : List Char → Option Reference) (text : String) :
    referencesOf reader text = (pieces reader text.toList).filterMap Piece.reference? :=
  List.filterMap_congr fun piece _ => by cases piece <;> rfl

/-- The paths that a text refers to are those of its references. -/
lemma pathReferences_eq (text : String) :
    pathReferences text = (referencesOf Reference.path? text).filterMap Reference.pathText? :=
  List.filterMap_congr fun r _ => by cases r <;> rfl

/-- There are no references in a chunk. -/
lemma filterMap_reference?_plain (chunk : List Char) :
    (chunk.map Piece.plain).filterMap Piece.reference? = [] := by
  rw [List.filterMap_map]
  exact List.filterMap_eq_nil_iff.mpr fun _ _ => rfl

/-- The references of a text with quoted paths are what has been written for the paths. -/
theorem referencesOf_quotingText (hreader : ReadsQuotes reader)
    (hpaths : ∀ part ∈ parts, part.1 ≠ "") (hfirst : IsPlainChunk first)
    (hchunks : ∀ part ∈ parts, IsPlainChunk part.2) :
    referencesOf reader (quotingText first parts) = parts.map fun part => ofPath part.1 := by
  rw [referencesOf_eq, pieces_quotingText hreader hpaths hfirst hchunks, List.filterMap_append,
    filterMap_reference?_plain, List.nil_append, List.filterMap_flatMap]
  have hpart : ∀ part : String × String,
      (.reference (ofPath part.1) :: part.2.toList.map .plain).filterMap Piece.reference? =
        [ofPath part.1] := fun part =>
    congrArg (ofPath part.1 :: ·) (filterMap_reference?_plain part.2.toList)
  simp only [hpart]
  exact List.map_eq_flatMap.symm

/-- The paths that a text with quoted paths refers to are these paths. -/
theorem pathReferences_quotingText (hpaths : ∀ part ∈ parts, part.1 ≠ "")
    (hfirst : IsPlainChunk first) (hchunks : ∀ part ∈ parts, IsPlainChunk part.2) :
    pathReferences (quotingText first parts) = parts.map (·.1) := by
  rw [pathReferences_eq,
    referencesOf_quotingText Reference.readsQuotes_path? hpaths hfirst hchunks, List.filterMap_map]
  have hpart : ∀ part : String × String,
      (Reference.pathText? ∘ fun part : String × String => ofPath part.1) part = some part.1 :=
    fun part => congrArg some (Reference.pathText_escape part.1)
  rw [funext hpart]
  exact congrFun List.filterMap_eq_map parts

end texts

end DesignTokens

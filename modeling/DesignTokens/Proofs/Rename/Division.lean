import DesignTokens.Proofs.Rename.Captures

/-!
# Segments of names divided among segments of patterns

A pattern is meant segment by segment: `**` for any number of segments of a name, each other segment
for exactly one (`Glob.Describes`).  A pattern matches the names that it describes in this sense,
and only these, unless it begins with two segments `**`.  Then neither of the two brings the slash
between them, and the pattern matches as if an empty segment stood between them
(`Glob.partsOf_startsTwice`).  Both are stated by `Glob.captures_iff_describes`.
-/

namespace DesignTokens

/-! ## Letters and slashes -/

namespace Text

/-- A letter that is lowered by a table row lands above the slash. -/
lemma slash_lt_of_shifted {n m : Nat} (h : shifted? lowerShifts n = some m) : '/'.toNat < m := by
  obtain ⟨s, hfind, rfl⟩ := Option.map_eq_some_iff.mp h
  have hrows : ∀ s ∈ lowerShifts, (48 : Int) ≤ s.first + s.offset := by decide +kernel
  have hrow := hrows s (List.mem_of_find?_eq_some hfind)
  have hmoves := List.find?_some hfind
  simp only [Shift.moves, Bool.and_eq_true, decide_eq_true_iff] at hmoves
  have hfirst := hmoves.1.1
  have hslash : '/'.toNat = 47 := rfl
  omega

/-- A code point other than that of the slash is not a slash. -/
lemma ofCode_ne_slash {n : Nat} (h : n ≠ '/'.toNat) : ofCode n ≠ '/' := by
  intro hslash
  by_cases hvalid : n.isValidChar
  · have hchar : ofCode n = Char.ofNatAux n hvalid := dif_pos hvalid
    exact h (congrArg Char.toNat (hchar.symm.trans hslash))
  · have hcode : (ofCode n).toNat = 0 := congrArg Char.toNat (dif_neg hvalid)
    rw [hslash] at hcode
    cases hcode

/-- Only the slash is lowered to a slash. -/
lemma eq_slash_of_simpleLower {c : Char} (h : simpleLower c = '/') : c = '/' := by
  unfold simpleLower lowerChar at h
  split_ifs at h with hascii hdotted
  · have hlower : c.toLower = '/' := h
    unfold Char.toLower at hlower
    split_ifs at hlower with hupper
    · -- A capital letter is lowered to a letter.
      have hval := congrArg Char.val hlower
      grind
    · exact hlower
  · cases h
  · cases hshift : shifted? lowerShifts c.toNat with
    | none =>
      rw [hshift] at h
      exact h
    | some n =>
      rw [hshift] at h
      exact absurd h (ofCode_ne_slash (Nat.ne_of_gt (slash_lt_of_shifted hshift)))

/-- A letter of a pattern agrees with a slash only if it is one. -/
lemma eq_slash_of_sameLetter {l : Char} (h : sameLetter l '/' = true) : l = '/' := by
  unfold sameLetter at h
  split_ifs at h
  · have hlower : simpleLower '/' = '/' := by decide
    have hgroups : ∀ n, sameUpper n '/'.toNat = false := by
      intro n
      unfold sameUpper
      rw [List.any_eq_false]
      intro group hgroup
      have hnone : ∀ group ∈ sameUpperGroups, group.contains '/'.toNat = false := by decide
      rw [hnone group hgroup, Bool.and_false]
      exact Bool.false_ne_true
    dsimp only at h
    rw [hlower, hgroups, Bool.or_false] at h
    exact eq_slash_of_simpleLower (eq_of_beq h).symm
  · exact (eq_of_beq h).symm

end Text

namespace Glob

/-! ## Divided names -/

/-- The segments of a pattern describe those of a name: in order, `**` any number of them, and each
other segment exactly one that it can be filled to. -/
inductive Describes : List (List Char) → List (List Char) → Prop
  | nil : Describes [] []
  | globstar {segments names : List (List Char)} (taken : List (List Char))
      (hrest : Describes segments names) : Describes (['*', '*'] :: segments) (taken ++ names)
  | segment {segment name : List Char} {segments names captures : List (List Char)}
      (hsegment : segment ≠ ['*', '*']) (hfirst : Fills segment captures name)
      (hrest : Describes segments names) : Describes (segment :: segments) (name :: names)

/-- Each segment is `**` or has no two stars in a row, and no slash. -/
def AreSegments (segments : List (List Char)) : Prop :=
  ∀ segment ∈ segments,
    '/' ∉ segment ∧ (segment = ['*', '*'] ∨ ¬ ['*', '*'] <:+: segment)

/-! ## Names behind slashes -/

/-- The segments of a piece and of later ones with slashes in front are the segments of each. -/
lemma splitOn_append_slashed (piece : List Char) (pieces : List (List Char)) :
    (piece ++ slashed pieces).splitOn '/' =
      piece.splitOn '/' ++ pieces.flatMap (List.splitOn '/') := by
  induction pieces generalizing piece with
  | nil => simp [slashed]
  | cons next rest ih =>
    have hslashed : slashed (next :: rest) = '/' :: (next ++ slashed rest) := rfl
    rw [hslashed, List.flatMap_cons, ← ih]
    exact List.splitOnP_append_cons _ _ (beq_self_eq_true '/')

/-- A text is its segments, each with a slash in front. -/
lemma slashed_splitOn (text : List Char) : slashed (text.splitOn '/') = '/' :: text :=
  (slash_cons_eq_slashed_iff.mpr
    ⟨List.splitOnP_ne_nil _ _, (List.intercalate_splitOn '/').symm⟩).symm

/-- A text without a slash is one segment. -/
lemma splitOn_of_not_mem {text : List Char} (h : '/' ∉ text) : text.splitOn '/' = [text] := by
  have hparts : ∀ part ∈ [text], '/' ∉ part := by
    intro part hpart
    rw [List.mem_singleton.mp hpart]
    exact h
  have hone := List.splitOn_intercalate '/' hparts (List.cons_ne_nil _ _)
  rwa [List.intercalate_singleton] at hone

/-! ## Filled segments -/

/-- A segment without a slash and without two stars in a row is filled to a text without a slash. -/
lemma Fills.not_mem_slash {segment text : List Char} {captures : List (List Char)}
    (h : Fills segment captures text) (hslash : '/' ∉ segment)
    (hstars : ¬ ['*', '*'] <:+: segment) : '/' ∉ text := by
  induction h with
  | nil => exact hslash
  | globstar _ _ => exact absurd (List.prefix_append ['*', '*'] _).isInfix hstars
  | star _ htakes _ ih =>
    rw [List.mem_cons, not_or] at hslash
    have hrest := ih hslash.2 fun hinside => hstars (hinside.trans (List.suffix_cons _ _).isInfix)
    rw [List.mem_append, not_or]
    exact ⟨htakes.2, hrest⟩
  | @letter l c _ _ _ _ hsame _ ih =>
    rw [List.mem_cons, not_or] at hslash
    have hrest := ih hslash.2 fun hinside => hstars (hinside.trans (List.suffix_cons _ _).isInfix)
    rw [List.mem_cons, not_or]
    exact ⟨fun heq => hslash.1 (Text.eq_slash_of_sameLetter (heq ▸ hsame)).symm, hrest⟩

/-- The segments of the pieces that fill a pattern are divided among the segments of the pattern. -/
lemma describes_of_fillsSegments {segments captures pieces : List (List Char)}
    (h : FillsSegments segments captures pieces) (hsegments : AreSegments segments) :
    Describes segments (pieces.flatMap (List.splitOn '/')) := by
  induction h with
  | nil => exact .nil
  | @segment segment piece _ _ _ pieces hfirst _ ih =>
    obtain ⟨⟨hslash, hkind⟩, hrest⟩ := List.forall_mem_cons.mp hsegments
    rw [List.flatMap_cons]
    by_cases hglobstar : segment = ['*', '*']
    · subst hglobstar
      exact .globstar _ (ih hrest)
    · have hpiece := hfirst.not_mem_slash hslash (hkind.resolve_left hglobstar)
      rw [splitOn_of_not_mem hpiece]
      exact .segment hglobstar hfirst (ih hrest)
  | leftOut _ ih => exact .globstar [] (ih (List.forall_mem_cons.mp hsegments).2)

/-- Where segments of a pattern describe those of a name, their parts describe the name. -/
lemma exists_reads_of_describes {segments names : List (List Char)}
    (h : Describes segments names) (hline : ∀ name ∈ names, '\n' ∉ name) :
    ∃ captures, Reads (laterParts false segments) captures (slashed names) := by
  induction h with
  | nil => exact ⟨[], .nil⟩
  | @globstar segments names taken _ ih =>
    obtain ⟨htaken, hnames⟩ := List.forall_mem_append.mp hline
    obtain ⟨captures, hreads⟩ := ih hnames
    rw [laterParts_globstar]
    cases taken with
    | nil => exact ⟨[] :: captures, .cons .noTrailing hreads⟩
    | cons first rest =>
      have htext := slash_cons_eq_slashed_iff.mpr ⟨List.cons_ne_nil first rest, rfl⟩
      have hbreak : '\n' ∉ ['/'].intercalate (first :: rest) := by
        intro hmem
        rcases mem_of_mem_intercalate hmem with hslash | ⟨name, hname, hin⟩
        · exact absurd (List.mem_singleton.mp hslash) (by decide)
        · exact htaken name hname hin
      have hjoined : slashed (first :: rest ++ names) =
          '/' :: ['/'].intercalate (first :: rest) ++ slashed names := by
        rw [htext]
        exact List.flatMap_append
      rw [hjoined]
      exact ⟨_, .cons (.trailing hbreak) hreads⟩
  | segment hsegment hfirst _ ih =>
    obtain ⟨hname, hnames⟩ := List.forall_mem_cons.mp hline
    obtain ⟨captures, hreads⟩ := ih hnames
    rw [laterParts_segment hsegment]
    have htext := reads_append_iff.mpr
      ⟨_, _, _, _, rfl, rfl, reads_of_fills hfirst hname, hreads⟩
    exact ⟨_, reads_slash_iff.mpr ⟨_, rfl, htext⟩⟩

/-- A list of segments reads a line exactly if it describes the segments of the line, as long as it
does not begin with two segments `**`. -/
theorem exists_reads_partsOf_iff {segments : List (List Char)} {text : List Char}
    (hne : segments ≠ []) (hsegments : AreSegments segments) (hstart : ¬ StartsTwice segments)
    (hline : '\n' ∉ text) :
    (∃ captures, Reads (partsOf segments) captures text) ↔
      Describes segments (text.splitOn '/') := by
  constructor
  · rintro ⟨captures, hreads⟩
    obtain ⟨pieces, hfills, htext⟩ :=
      exists_pieces_of_reads ((reads_partsOf_iff hne hstart).mp hreads)
    cases pieces with
    | nil => cases htext
    | cons piece rest =>
      have hname : text = piece ++ slashed rest := (List.cons.inj htext).2
      rw [hname, splitOn_append_slashed, ← List.flatMap_cons]
      exact describes_of_fillsSegments hfills hsegments
  · intro h
    have hnames : ∀ name ∈ text.splitOn '/', '\n' ∉ name := by
      intro name hname hbreak
      have hmem : '\n' ∈ ['/'].intercalate (text.splitOn '/') := mem_intercalate hname hbreak
      rw [List.intercalate_splitOn] at hmem
      exact hline hmem
    obtain ⟨captures, hreads⟩ := exists_reads_of_describes h hnames
    rw [slashed_splitOn] at hreads
    exact ⟨captures, (reads_partsOf_iff hne hstart).mpr hreads⟩

/-- Two segments `**` at the start are read as if an empty segment stood between them. -/
theorem partsOf_startsTwice (rest : List (List Char)) :
    partsOf (['*', '*'] :: ['*', '*'] :: rest) =
      partsOf (['*', '*'] :: [] :: ['*', '*'] :: rest) := rfl

/-- A pattern that is not blank, each of whose segments is `**` or has no two stars in a row, gives
an answer for every name.  Unless it begins with two segments `**`, it matches exactly the lines
whose segments it describes.  A pattern that begins with two segments `**` matches exactly the lines
that the pattern with an empty segment between the two describes. -/
theorem captures_iff_describes {pattern name : String} (hblank : Text.isBlank pattern = false)
    (hsegments : ∀ segment ∈ segmentsOf pattern,
      segment = ['*', '*'] ∨ ¬ ['*', '*'] <:+: segment)
    (hline : '\n' ∉ name.toList) :
    ∃ found, captures pattern name = .ok found ∧
      (¬ StartsTwice (segmentsOf pattern) →
        (found.isSome = true ↔ Describes (segmentsOf pattern) (segmentsOf name))) ∧
      ∀ rest, segmentsOf pattern = ['*', '*'] :: ['*', '*'] :: rest →
        (found.isSome = true ↔
          Describes (['*', '*'] :: [] :: ['*', '*'] :: rest) (segmentsOf name)) := by
  have hslash : AreSegments (segmentsOf pattern) := fun segment hsegment =>
    ⟨fun hmem => absurd (not_of_mem_splitOnP hsegment hmem) (by decide),
      hsegments segment hsegment⟩
  refine ⟨_, captures_of_not_blank hblank name, fun hstart => ?_, fun rest hrest => ?_⟩
  · rw [Option.isSome_map, isSome_matchParts_iff]
    exact exists_reads_partsOf_iff (segmentsOf_ne_nil pattern) hslash hstart hline
  · rw [Option.isSome_map, isSome_matchParts_iff, hrest, partsOf_startsTwice]
    rw [hrest] at hslash
    obtain ⟨hfirst, hlater⟩ := List.forall_mem_cons.mp hslash
    have hbetween : AreSegments (['*', '*'] :: [] :: ['*', '*'] :: rest) := by
      refine List.forall_mem_cons.mpr ⟨hfirst, List.forall_mem_cons.mpr ⟨?_, hlater⟩⟩
      exact ⟨List.not_mem_nil, Or.inr (by decide)⟩
    refine exists_reads_partsOf_iff (List.cons_ne_nil _ _) hbetween ?_ hline
    rintro ⟨_, h⟩
    cases h

/-- A first segment and some levels below it are matched, up to case.  The pattern of two segments
`**` describes every name, but it does not match a name of one segment. -/
theorem captures_iff_describes_levels :
    Text.isBlank "color/**/*" = false ∧ Text.isBlank "**/**" = false ∧
      (∀ segment ∈ segmentsOf "color/**/*", segment = ['*', '*'] ∨ ¬ ['*', '*'] <:+: segment) ∧
      (∀ segment ∈ segmentsOf "**/**", segment = ['*', '*'] ∨ ¬ ['*', '*'] <:+: segment) ∧
      '\n' ∉ "Color/text/a/b".toList ∧ '\n' ∉ "a".toList ∧
      captures "color/**/*" "Color/text/a/b" = .ok (some ["text/a", "b"]) ∧
      Describes (segmentsOf "color/**/*") (segmentsOf "Color/text/a/b") ∧
      captures "**/**" "a" = .ok none ∧
      Describes (segmentsOf "**/**") (segmentsOf "a") ∧
      ¬ Describes [['*', '*'], [], ['*', '*']] (segmentsOf "a") := by
  have hcolor : Text.isBlank "color/**/*" = false := by decide +kernel
  have hany : Text.isBlank "**/**" = false := by decide +kernel
  have hcolorSegments : ∀ segment ∈ segmentsOf "color/**/*",
      segment = ['*', '*'] ∨ ¬ ['*', '*'] <:+: segment := by decide +kernel
  have hanySegments : ∀ segment ∈ segmentsOf "**/**",
      segment = ['*', '*'] ∨ ¬ ['*', '*'] <:+: segment := by decide +kernel
  have hcolorLine : '\n' ∉ "Color/text/a/b".toList := by decide +kernel
  have hanyLine : '\n' ∉ "a".toList := by decide +kernel
  have hcolorMatch : captures "color/**/*" "Color/text/a/b" = .ok (some ["text/a", "b"]) := by
    decide +kernel
  have hanyMatch : captures "**/**" "a" = .ok none := by decide +kernel
  have hcolorSplit : segmentsOf "color/**/*" = ["color".toList, ['*', '*'], ['*']] := by
    decide +kernel
  have hanySplit : segmentsOf "**/**" = [['*', '*'], ['*', '*']] := by decide +kernel
  have hname : segmentsOf "a" = [['a']] := by decide +kernel
  have hstart : ¬ StartsTwice (segmentsOf "color/**/*") := by
    rintro ⟨rest, h⟩
    rw [hcolorSplit] at h
    exact absurd (List.cons.inj h).1 (by decide)
  obtain ⟨found, hfound, hdescribes, _⟩ :=
    captures_iff_describes hcolor hcolorSegments hcolorLine
  obtain ⟨refused, hrefused, _, hempty⟩ := captures_iff_describes hany hanySegments hanyLine
  cases hcolorMatch.symm.trans hfound
  cases hanyMatch.symm.trans hrefused
  refine ⟨hcolor, hany, hcolorSegments, hanySegments, hcolorLine, hanyLine, hcolorMatch,
    (hdescribes hstart).mp rfl, hanyMatch, ?_, fun h => ?_⟩
  · rw [hanySplit, hname]
    exact .globstar [['a']] (.globstar [] .nil)
  · cases (hempty [] hanySplit).mpr h

end Glob

end DesignTokens

import DesignTokens.Proofs.Rename.Matching
import DesignTokens.Proofs.Separators
import Mathlib.Data.List.Forall2

/-!
# Captures put back

What the wildcards of a pattern capture in a name is enough to write the name again.  A segment of a
pattern is filled when captures stand in the place of its wildcards and letters may change their
case (`Glob.Fills`); the segments of a pattern are filled one after the other, where a segment `**`
that captures nothing may be left out (`Glob.FillsSegments`).  A later segment of a pattern is read
together with the slash before it, and the first segment is read as if a slash stood before the
whole name (`Glob.reads_partsOf_iff`), as long as the pattern does not begin with two segments `**`.
So the captures of a name fill its pattern, one for each wildcard (`Glob.captures_fill_pattern`).
-/

namespace DesignTokens

/-- A slash is a letter without case. -/
lemma Text.sameLetter_slash_iff {c : Char} : Text.sameLetter '/' c = true ↔ c = '/' := by
  have hcase : Text.isCased '/' = false := by decide
  unfold Text.sameLetter
  rw [hcase]
  exact beq_iff_eq

namespace Glob

/-- The segments of a pattern or of a name. -/
def segmentsOf (text : String) : List (List Char) :=
  text.toList.splitOn '/'

/-- A wildcard of a pattern. -/
inductive Wildcard where
  | star
  | globstar

/-- The wildcards of a segment from left to right; two stars in a row are one wildcard. -/
def wildcards : List Char → List Wildcard
  | [] => []
  | '*' :: '*' :: rest => .globstar :: wildcards rest
  | '*' :: rest => .star :: wildcards rest
  | _ :: rest => wildcards rest

/-- A wildcard may stand for a text: `*` takes at least one character, and no slash. -/
def Wildcard.Takes : Wildcard → List Char → Prop
  | .star, taken => taken ≠ [] ∧ '/' ∉ taken
  | .globstar, _ => True

/-- A segment of a pattern becomes a text when captures are put in the place of its wildcards, from
left to right and `**` before `*`, and its other letters are kept up to case. -/
inductive Fills : List Char → List (List Char) → List Char → Prop
  | nil : Fills [] [] []
  | globstar {segment taken text : List Char} {captures : List (List Char)}
      (hrest : Fills segment captures text) :
      Fills ('*' :: '*' :: segment) (taken :: captures) (taken ++ text)
  | star {segment taken text : List Char} {captures : List (List Char)}
      (hnext : segment.head? ≠ some '*') (htakes : Wildcard.star.Takes taken)
      (hrest : Fills segment captures text) :
      Fills ('*' :: segment) (taken :: captures) (taken ++ text)
  | letter {l c : Char} {segment text : List Char} {captures : List (List Char)} (hl : l ≠ '*')
      (hsame : Text.sameLetter l c = true) (hrest : Fills segment captures text) :
      Fills (l :: segment) captures (c :: text)

/-- The segments of a pattern become pieces of a name when captures are put in the place of the
wildcards. A segment `**` with an empty capture may be left out. -/
inductive FillsSegments : List (List Char) → List (List Char) → List (List Char) → Prop
  | nil : FillsSegments [] [] []
  | segment {segment piece : List Char} {segments found captures pieces : List (List Char)}
      (hfirst : Fills segment found piece) (hrest : FillsSegments segments captures pieces) :
      FillsSegments (segment :: segments) (found ++ captures) (piece :: pieces)
  | leftOut {segments captures pieces : List (List Char)}
      (hrest : FillsSegments segments captures pieces) :
      FillsSegments (['*', '*'] :: segments) ([] :: captures) pieces

/-- Two segments `**` stand at the start of a pattern. -/
def StartsTwice (segments : List (List Char)) : Prop :=
  ∃ rest, segments = ['*', '*'] :: ['*', '*'] :: rest

/-! ## Wildcards -/

/-- The captures that fill a segment stand for its wildcards. -/
lemma Fills.takes {segment text : List Char} {captures : List (List Char)}
    (h : Fills segment captures text) :
    List.Forall₂ Wildcard.Takes (wildcards segment) captures := by
  induction h with
  | nil => exact .nil
  | globstar _ ih => exact .cons trivial ih
  | @star segment _ _ _ hnext htakes _ ih =>
    have hwildcards : wildcards ('*' :: segment) = .star :: wildcards segment := by
      rw [wildcards]
      rintro rest rfl
      exact hnext rfl
    rw [hwildcards]
    exact .cons htakes ih
  | @letter l _ segment _ _ hl _ _ ih =>
    have hwildcards : wildcards (l :: segment) = wildcards segment := by
      rw [wildcards]
      · exact fun _ heq _ => hl heq
      · exact hl
    rw [hwildcards]
    exact ih

/-- The captures that fill the segments of a pattern stand for the wildcards of the pattern. -/
lemma FillsSegments.takes {segments captures pieces : List (List Char)}
    (h : FillsSegments segments captures pieces) :
    List.Forall₂ Wildcard.Takes (segments.flatMap wildcards) captures := by
  induction h with
  | nil => exact .nil
  | segment hfirst _ ih =>
    rw [List.flatMap_cons]
    exact List.rel_append hfirst.takes ih
  | leftOut _ ih => exact .cons trivial ih

/-! ## Segments -/

/-- A star alone is one part. -/
lemma segmentParts_star {segment : List Char} (h : segment.head? ≠ some '*') :
    segmentParts ('*' :: segment) = .star :: segmentParts segment := by
  rw [segmentParts]
  rintro rest rfl
  exact h rfl

/-- Another letter is one part. -/
lemma segmentParts_letter {l : Char} (h : l ≠ '*') (segment : List Char) :
    segmentParts (l :: segment) = .literal l :: segmentParts segment := by
  rw [segmentParts]
  · exact fun _ heq _ => h heq
  · exact h

/-- A text that the parts of a segment describe fills the segment. -/
lemma fills_of_reads {segment text : List Char} {captures : List (List Char)}
    (h : Reads (segmentParts segment) captures text) : Fills segment captures text := by
  fun_induction segmentParts segment generalizing captures text with
  | case1 =>
    cases h
    exact .nil
  | case2 rest ih =>
    obtain ⟨_, _, _, _, rfl, rfl, hpart, hrest⟩ := reads_cons_iff.mp h
    cases hpart with
    | globstar _ => exact .globstar (ih hrest)
  | case3 rest hnext ih =>
    obtain ⟨_, _, _, _, rfl, rfl, hpart, hrest⟩ := reads_cons_iff.mp h
    cases hpart with
    | star hne hslash =>
      refine .star (fun hhead => ?_) ⟨hne, hslash⟩ (ih hrest)
      obtain ⟨later, rfl⟩ := List.head?_eq_some_iff.mp hhead
      exact hnext later rfl
  | case4 l rest _ hl ih =>
    obtain ⟨_, _, _, _, rfl, rfl, hpart, hrest⟩ := reads_cons_iff.mp h
    cases hpart with
    | literal hsame => exact .letter hl hsame (ih hrest)

/-- A line that fills a segment is described by the parts of the segment. -/
lemma reads_of_fills {segment text : List Char} {captures : List (List Char)}
    (h : Fills segment captures text) (hline : '\n' ∉ text) :
    Reads (segmentParts segment) captures text := by
  induction h with
  | nil => exact .nil
  | globstar _ ih =>
    rw [List.mem_append, not_or] at hline
    exact .cons (.globstar hline.1) (ih hline.2)
  | star hnext htakes _ ih =>
    rw [List.mem_append, not_or] at hline
    rw [segmentParts_star hnext]
    exact .cons (.star htakes.1 htakes.2) (ih hline.2)
  | letter hl hsame _ ih =>
    rw [List.mem_cons, not_or] at hline
    rw [segmentParts_letter hl]
    exact .cons (.literal hsame) (ih hline.2)

/-! ## Segments behind slashes -/

/-- Pieces, each with a slash in front. -/
def slashed (pieces : List (List Char)) : List Char :=
  pieces.flatMap ('/' :: ·)

/-- Pieces with slashes between them follow a slash when each has one in front. -/
lemma slash_cons_eq_slashed_iff {text : List Char} {pieces : List (List Char)} :
    '/' :: text = slashed pieces ↔ pieces ≠ [] ∧ text = ['/'].intercalate pieces := by
  have hslashed : ∀ first rest,
      slashed (first :: rest) = '/' :: ['/'].intercalate (first :: rest) := by
    intro first rest
    induction rest generalizing first with
    | nil => simp [slashed]
    | cons second rest ih =>
      rw [List.intercalate_cons_cons, List.append_assoc, List.singleton_append, ← ih]
      rfl
  cases pieces with
  | nil => simp [slashed]
  | cons first rest => simp [hslashed]

/-- The parts of a segment `**` and of those after it. -/
lemma laterParts_globstar (afterLeading : Bool) (rest : List (List Char)) :
    laterParts afterLeading (['*', '*'] :: rest) = .trailing :: laterParts false rest := rfl

/-- Another segment brings the slash before it. -/
lemma laterParts_segment {segment : List Char} (h : segment ≠ ['*', '*'])
    (rest : List (List Char)) :
    laterParts false (segment :: rest) =
      .literal '/' :: (segmentParts segment ++ laterParts false rest) := by
  have hother : isGlobstar segment = false := decide_eq_false h
  rw [laterParts, hother]
  rfl

/-- A segment right after a leading `**` does not. -/
lemma laterParts_afterLeading {segment : List Char} (h : segment ≠ ['*', '*'])
    (rest : List (List Char)) :
    laterParts true (segment :: rest) = segmentParts segment ++ laterParts false rest := by
  have hother : isGlobstar segment = false := decide_eq_false h
  rw [laterParts, hother]
  rfl

/-- A slash in front of parts stands for a slash in front of the text. -/
lemma reads_slash_iff {parts : List GlobPart} {captures : List (List Char)} {text : List Char} :
    Reads (.literal '/' :: parts) captures text ↔
      ∃ rest, text = '/' :: rest ∧ Reads parts captures rest := by
  rw [reads_cons_iff]
  constructor
  · rintro ⟨_, later, _, rest, rfl, rfl, ⟨hsame⟩, hrest⟩
    rw [Text.sameLetter_slash_iff.mp hsame]
    exact ⟨rest, rfl, hrest⟩
  · rintro ⟨rest, rfl, hrest⟩
    exact ⟨[], captures, ['/'], rest, rfl, rfl, .literal (Text.sameLetter_slash_iff.mpr rfl), hrest⟩

/-- What the parts of later segments describe is made of pieces that fill the segments, each with a
slash in front. -/
theorem exists_pieces_of_reads {segments captures : List (List Char)} {text : List Char}
    (h : Reads (laterParts false segments) captures text) :
    ∃ pieces, FillsSegments segments captures pieces ∧ text = slashed pieces := by
  induction segments generalizing captures text with
  | nil =>
    cases h
    exact ⟨[], .nil, rfl⟩
  | cons segment segments ih =>
    by_cases hglobstar : segment = ['*', '*']
    · subst hglobstar
      rw [laterParts_globstar] at h
      obtain ⟨found, later, piece, rest, rfl, rfl, hpart, hrest⟩ := reads_cons_iff.mp h
      obtain ⟨pieces, hpieces, rfl⟩ := ih hrest
      cases hpart with
      | @trailing taken _ =>
        have hfirst : Fills ['*', '*'] [taken] taken := by
          simpa using (Fills.globstar .nil : Fills _ [taken] (taken ++ []))
        exact ⟨taken :: pieces, .segment hfirst hpieces, rfl⟩
      | noTrailing => exact ⟨pieces, .leftOut hpieces, rfl⟩
    · rw [laterParts_segment hglobstar] at h
      obtain ⟨rest, rfl, hsegments⟩ := reads_slash_iff.mp h
      obtain ⟨first, later, piece, rest, rfl, rfl, hfirst, hrest⟩ := reads_append_iff.mp hsegments
      obtain ⟨pieces, hpieces, rfl⟩ := ih hrest
      exact ⟨piece :: pieces, .segment (fills_of_reads hfirst) hpieces, rfl⟩

/-- A leading `**` before parts is read like a later one before a slash and the parts, with a slash
in front of the text. -/
lemma reads_leading_iff {parts : List GlobPart} {captures : List (List Char)} {text : List Char} :
    Reads (.leading :: parts) captures text ↔
      Reads (.trailing :: .literal '/' :: parts) captures ('/' :: text) := by
  rw [reads_cons_iff, reads_cons_iff]
  constructor
  · rintro ⟨_, later, _, rest, rfl, rfl, hpart, hrest⟩
    have hslash : Reads (.literal '/' :: parts) later ('/' :: rest) :=
      reads_slash_iff.mpr ⟨rest, rfl, hrest⟩
    cases hpart with
    | @leading taken hline =>
      exact ⟨[taken], later, '/' :: taken, '/' :: rest, rfl, by simp, .trailing hline, hslash⟩
    | noLeading => exact ⟨[[]], later, [], '/' :: rest, rfl, rfl, .noTrailing, hslash⟩
  · rintro ⟨_, later, _, _, rfl, htext, hpart, hslash⟩
    obtain ⟨rest, rfl, hrest⟩ := reads_slash_iff.mp hslash
    cases hpart with
    | @trailing taken hline =>
      refine ⟨[taken], later, taken ++ ['/'], rest, rfl, ?_, .leading hline, hrest⟩
      simpa using htext
    | noTrailing =>
      cases htext
      exact ⟨[[]], later, [], text, rfl, rfl, .noLeading, hrest⟩

/-- A pattern describes a text as its segments, each with a slash in front, describe the text with a
slash in front, as long as it does not begin with two segments `**`. -/
theorem reads_partsOf_iff {segments captures : List (List Char)} {text : List Char}
    (hne : segments ≠ []) (hstart : ¬ StartsTwice segments) :
    Reads (partsOf segments) captures text ↔
      Reads (laterParts false segments) captures ('/' :: text) := by
  obtain ⟨first, later, rfl⟩ := List.exists_cons_of_ne_nil hne
  by_cases hfirst : first = ['*', '*']
  · subst hfirst
    cases later with
    | nil =>
      -- The pattern `**` alone always takes the whole text, here behind the slash in front.
      show Reads [.globstar] captures text ↔ Reads [.trailing] captures ('/' :: text)
      rw [reads_cons_iff, reads_cons_iff]
      constructor
      · rintro ⟨_, later, taken, rest, rfl, rfl, hpart, hrest⟩
        cases hpart with
        | globstar hline =>
          exact ⟨[taken], later, '/' :: taken, rest, rfl, rfl, .trailing hline, hrest⟩
      · rintro ⟨_, later, _, rest, rfl, htext, hpart, hrest⟩
        cases hpart with
        | @trailing taken hline =>
          cases htext
          exact ⟨[taken], later, taken, rest, rfl, rfl, .globstar hline, hrest⟩
        | noTrailing =>
          cases hrest
          cases htext
    | cons second rest =>
      have hsecond : second ≠ ['*', '*'] := fun heq => hstart ⟨rest, heq ▸ rfl⟩
      have hparts : partsOf (['*', '*'] :: second :: rest) =
          .leading :: (segmentParts second ++ laterParts false rest) := by
        rw [← laterParts_afterLeading hsecond]
        rfl
      rw [hparts, laterParts_globstar, laterParts_segment hsecond]
      exact reads_leading_iff
  · have hother : isGlobstar first = false := decide_eq_false hfirst
    have hparts : partsOf (first :: later) = segmentParts first ++ laterParts false later := by
      cases later with
      | nil =>
        rw [partsOf, hother, laterParts, List.append_nil]
        rfl
      | cons second rest =>
        rw [partsOf, hother]
        · rfl
        · nofun
    rw [hparts, laterParts_segment hfirst, reads_slash_iff]
    constructor
    · exact fun h => ⟨text, rfl, h⟩
    · rintro ⟨_, ⟨⟩, h⟩
      exact h

/-! ## Names -/

/-- A name has segments. -/
lemma segmentsOf_ne_nil (text : String) : segmentsOf text ≠ [] :=
  List.splitOnP_ne_nil _ _

/-- A pattern that is not blank gives an answer for every name. -/
lemma captures_of_not_blank {pattern : String} (h : Text.isBlank pattern = false) (name : String) :
    captures pattern name =
      .ok ((matchParts (partsOf (segmentsOf pattern)) name.toList).map
        (·.map String.ofList)) := by
  unfold captures compile
  rw [h]
  rfl

/-- A pattern that captures something is not blank. -/
lemma not_blank_of_captures {pattern name : String} {found : Option (List String)}
    (h : captures pattern name = .ok found) : Text.isBlank pattern = false := by
  cases hblank : Text.isBlank pattern with
  | false => rfl
  | true =>
    unfold captures compile at h
    rw [hblank] at h
    cases h

/-- The captures of a name put the name together again.  There is one for each wildcard of the
pattern, and what stands for a `*` is not empty and has no slash.  With the captures in the place of
the wildcards, and letters up to case, the segments of the pattern joined by slashes are the name,
where a segment `**` whose capture is empty may be left out with the slash beside it.  The pattern
must not begin with two segments `**`. -/
theorem captures_fill_pattern {pattern name : String} {found : List String}
    (hstart : ¬ StartsTwice (segmentsOf pattern)) (h : captures pattern name = .ok (some found)) :
    List.Forall₂ (fun wildcard capture => wildcard.Takes capture.toList)
        ((segmentsOf pattern).flatMap wildcards) found ∧
      ∃ pieces, FillsSegments (segmentsOf pattern) (found.map String.toList) pieces ∧
        pieces ≠ [] ∧ name.toList = ['/'].intercalate pieces := by
  rw [captures_of_not_blank (not_blank_of_captures h)] at h
  obtain ⟨captured, hmatch, rfl⟩ := Option.map_eq_some_iff.mp (Except.ok.inj h)
  have hreads := (reads_partsOf_iff (segmentsOf_ne_nil pattern) hstart).mp
    (reads_of_matchParts hmatch)
  obtain ⟨pieces, hfills, htext⟩ := exists_pieces_of_reads hreads
  obtain ⟨hne, hname⟩ := slash_cons_eq_slashed_iff.mp htext
  have htexts : (captured.map String.ofList).map String.toList = captured := by
    simp [List.map_map, Function.comp_def]
  refine ⟨?_, pieces, htexts.symm ▸ hfills, hne, hname⟩
  rw [List.forall₂_map_right_iff]
  simpa using hfills.takes

/-- The first segment is left out, and the last one is a star, a hyphen, two stars in a row and a
star again. -/
theorem captures_fill_pattern_color :
    ¬ StartsTwice (segmentsOf "**/color/*-***") ∧
      captures "**/color/*-***" "Color/a-b/cd" = .ok (some ["", "a", "b/c", "d"]) ∧
      List.Forall₂ (fun wildcard capture => wildcard.Takes capture.toList)
        ((segmentsOf "**/color/*-***").flatMap wildcards) ["", "a", "b/c", "d"] ∧
      ∃ pieces, FillsSegments (segmentsOf "**/color/*-***")
          (["", "a", "b/c", "d"].map String.toList) pieces ∧
        pieces ≠ [] ∧ "Color/a-b/cd".toList = ['/'].intercalate pieces := by
  have hsplit : segmentsOf "**/color/*-***" =
      [['*', '*'], "color".toList, "*-***".toList] := by decide +kernel
  have hstart : ¬ StartsTwice (segmentsOf "**/color/*-***") := by
    rintro ⟨rest, h⟩
    rw [hsplit] at h
    exact absurd (List.cons.inj (List.cons.inj h).2).1 (by decide)
  have hcaptures :
      captures "**/color/*-***" "Color/a-b/cd" = .ok (some ["", "a", "b/c", "d"]) := by
    decide +kernel
  exact ⟨hstart, hcaptures, captures_fill_pattern hstart hcaptures⟩

end Glob

end DesignTokens

import DesignTokens.Rename.Pattern
import Mathlib.Data.List.Basic

/-!
# What the parts of a pattern describe

`Glob.matchParts` tries the longest runs first and goes back to shorter ones when the rest of a
pattern does not fit.  What it finds at all does not depend on this order.  `GlobPart.Reads` says
what one part describes, and under which capture; a list of parts describes what can be cut into
pieces that they describe one after the other (`Glob.Reads`).  Every match is such a reading
(`Glob.reads_of_matchParts`), and where there is a reading there is a match
(`Glob.isSome_matchParts_iff`).
-/

namespace DesignTokens

/-- A part of a pattern describes a piece of a text, its wildcard standing for what is captured. -/
inductive GlobPart.Reads : GlobPart → List (List Char) → List Char → Prop
  | literal {l c : Char} (hsame : Text.sameLetter l c = true) : Reads (.literal l) [] [c]
  | star {taken : List Char} (hne : taken ≠ []) (hslash : '/' ∉ taken) : Reads .star [taken] taken
  | globstar {taken : List Char} (hline : '\n' ∉ taken) : Reads .globstar [taken] taken
  | leading {taken : List Char} (hline : '\n' ∉ taken) : Reads .leading [taken] (taken ++ ['/'])
  | noLeading : Reads .leading [[]] []
  | trailing {taken : List Char} (hline : '\n' ∉ taken) : Reads .trailing [taken] ('/' :: taken)
  | noTrailing : Reads .trailing [[]] []

namespace Glob

/-! ## Cuts -/

/-- A text is cut at each place up to which its characters are of the class. -/
lemma mem_cuts {p : Char → Bool} {cs taken rest : List Char} :
    (taken, rest) ∈ cuts p cs ↔ taken ++ rest = cs ∧ ∀ c ∈ taken, p c = true := by
  unfold cuts
  rw [List.mem_map]
  constructor
  · rintro ⟨n, hn, heq⟩
    obtain ⟨rfl, rfl⟩ := Prod.mk.inj heq
    rw [List.mem_reverse, List.mem_range, Nat.lt_succ_iff] at hn
    have hlength : (cs.take n).length ≤ (cs.takeWhile p).length :=
      Nat.le_trans (List.length_take_le n cs) hn
    have hrun : cs.take n <+: cs.takeWhile p :=
      List.prefix_of_prefix_length_le (List.take_prefix n cs) (List.takeWhile_prefix p) hlength
    exact ⟨List.take_append_drop n cs,
      fun c hc => List.all_eq_true.mp List.all_takeWhile c (hrun.subset hc)⟩
  · rintro ⟨rfl, hrun⟩
    refine ⟨taken.length, ?_, ?_⟩
    · rw [List.mem_reverse, List.mem_range, List.takeWhile_append_of_pos hrun, List.length_append]
      exact Nat.lt_succ_of_le (Nat.le_add_right _ _)
    · rw [List.take_left, List.drop_left]

/-- All characters of a run differ from one character. -/
lemma forall_bne {taken : List Char} {c : Char} : (∀ d ∈ taken, (d != c) = true) ↔ c ∉ taken := by
  simp only [bne_iff_ne]
  exact ⟨fun h hc => h c hc rfl, fun h d hd heq => h (heq ▸ hd)⟩

/-- A cut within a segment takes no slash. -/
lemma mem_cuts_inSegment {cs taken rest : List Char} :
    (taken, rest) ∈ cuts inSegment cs ↔ taken ++ rest = cs ∧ '/' ∉ taken :=
  mem_cuts.trans (and_congr_right fun _ => forall_bne)

/-- A cut within a line takes no line break. -/
lemma mem_cuts_inLine {cs taken rest : List Char} :
    (taken, rest) ∈ cuts inLine cs ↔ taken ++ rest = cs ∧ '\n' ∉ taken :=
  mem_cuts.trans (and_congr_right fun _ => forall_bne)

/-! ## Readings -/

/-- The parts of a pattern describe a text, which is made of the pieces that they describe one after
the other. -/
inductive Reads : List GlobPart → List (List Char) → List Char → Prop
  | nil : Reads [] [] []
  | cons {part : GlobPart} {parts : List GlobPart} {found captures : List (List Char)}
      {piece text : List Char} (hpart : part.Reads found piece)
      (hrest : Reads parts captures text) :
      Reads (part :: parts) (found ++ captures) (piece ++ text)

/-- A text is described by a part and those after it if they describe its two pieces. -/
lemma reads_cons_iff {part : GlobPart} {parts : List GlobPart} {captures : List (List Char)}
    {text : List Char} :
    Reads (part :: parts) captures text ↔
      ∃ found later piece rest, captures = found ++ later ∧ text = piece ++ rest ∧
        part.Reads found piece ∧ Reads parts later rest := by
  constructor
  · rintro (_ | ⟨hpart, hrest⟩)
    exact ⟨_, _, _, _, rfl, rfl, hpart, hrest⟩
  · rintro ⟨_, _, _, _, rfl, rfl, hpart, hrest⟩
    exact .cons hpart hrest

/-- A text is described by joined lists of parts if they describe its two pieces. -/
theorem reads_append_iff {a b : List GlobPart} {captures : List (List Char)} {text : List Char} :
    Reads (a ++ b) captures text ↔
      ∃ first later start rest, captures = first ++ later ∧ text = start ++ rest ∧
        Reads a first start ∧ Reads b later rest := by
  constructor
  · intro h
    induction a generalizing captures text with
    | nil => exact ⟨[], captures, [], text, rfl, rfl, .nil, h⟩
    | cons part a ih =>
      obtain ⟨found, captures, piece, text, rfl, rfl, hpart, hrest⟩ := reads_cons_iff.mp h
      obtain ⟨first, later, start, rest, rfl, rfl, ha, hb⟩ := ih hrest
      exact ⟨found ++ first, later, piece ++ start, rest, (List.append_assoc _ _ _).symm,
        (List.append_assoc _ _ _).symm, .cons hpart ha, hb⟩
  · rintro ⟨first, later, start, rest, rfl, rfl, ha, hb⟩
    induction ha with
    | nil => exact hb
    | cons hpart _ ih =>
      rw [List.append_assoc, List.append_assoc]
      exact .cons hpart ih

/-! ## Matches -/

/-- A match begins with a piece that the first part describes. -/
lemma exists_of_matchParts_cons {part : GlobPart} {parts : List GlobPart} {text : List Char}
    {captures : List (List Char)} (h : matchParts (part :: parts) text = some captures) :
    ∃ found later piece rest, captures = found ++ later ∧ text = piece ++ rest ∧
      part.Reads found piece ∧ matchParts parts rest = some later := by
  cases part with
  | literal l =>
    cases text with
    | nil => cases h
    | cons c rest =>
      rw [matchParts] at h
      split_ifs at h with hsame
      exact ⟨[], captures, [c], rest, rfl, rfl, .literal hsame, h⟩
  | star =>
    rw [matchParts] at h
    obtain ⟨⟨taken, rest⟩, hcut, hfound⟩ := List.exists_of_findSome?_eq_some h
    obtain ⟨rfl, hslash⟩ := mem_cuts_inSegment.mp hcut
    dsimp only at hfound
    split_ifs at hfound with hempty
    obtain ⟨later, hlater, rfl⟩ := Option.map_eq_some_iff.mp hfound
    have hne : taken ≠ [] := fun heq => hempty (List.isEmpty_iff.mpr heq)
    exact ⟨[taken], later, taken, rest, rfl, rfl, .star hne hslash, hlater⟩
  | globstar =>
    rw [matchParts] at h
    obtain ⟨⟨taken, rest⟩, hcut, hfound⟩ := List.exists_of_findSome?_eq_some h
    obtain ⟨rfl, hline⟩ := mem_cuts_inLine.mp hcut
    obtain ⟨later, hlater, rfl⟩ := Option.map_eq_some_iff.mp hfound
    exact ⟨[taken], later, taken, rest, rfl, rfl, .globstar hline, hlater⟩
  | leading =>
    rw [matchParts, Option.orElse_eq_orElse, Option.orElse_eq_or] at h
    rcases Option.or_eq_some_iff.mp h with hpresent | ⟨_, habsent⟩
    · obtain ⟨⟨taken, rest⟩, hcut, hfound⟩ := List.exists_of_findSome?_eq_some hpresent
      obtain ⟨rfl, hline⟩ := mem_cuts_inLine.mp hcut
      dsimp only at hfound
      split at hfound
      · rename_i rest
        obtain ⟨later, hlater, rfl⟩ := Option.map_eq_some_iff.mp hfound
        exact ⟨[taken], later, taken ++ ['/'], rest, rfl, (List.append_cons _ _ _),
          .leading hline, hlater⟩
      · cases hfound
    · obtain ⟨later, hlater, rfl⟩ := Option.map_eq_some_iff.mp habsent
      exact ⟨[[]], later, [], text, rfl, rfl, .noLeading, hlater⟩
  | trailing =>
    unfold matchParts at h
    rw [Option.orElse_eq_orElse, Option.orElse_eq_or] at h
    rcases Option.or_eq_some_iff.mp h with hpresent | ⟨_, habsent⟩
    · split at hpresent
      · obtain ⟨⟨taken, rest⟩, hcut, hfound⟩ := List.exists_of_findSome?_eq_some hpresent
        obtain ⟨rfl, hline⟩ := mem_cuts_inLine.mp hcut
        obtain ⟨later, hlater, rfl⟩ := Option.map_eq_some_iff.mp hfound
        exact ⟨[taken], later, '/' :: taken, rest, rfl, rfl, .trailing hline, hlater⟩
      · cases hpresent
    · obtain ⟨later, hlater, rfl⟩ := Option.map_eq_some_iff.mp habsent
      exact ⟨[[]], later, [], text, rfl, rfl, .noTrailing, hlater⟩

/-- A piece that the first part describes is tried, so that it begins a match if the rest has one.
-/
lemma isSome_matchParts_cons {part : GlobPart} {parts : List GlobPart} {found : List (List Char)}
    {piece rest : List Char} (hpart : part.Reads found piece)
    (hrest : (matchParts parts rest).isSome = true) :
    (matchParts (part :: parts) (piece ++ rest)).isSome = true := by
  cases hpart with
  | literal hsame =>
    rw [List.singleton_append, matchParts, if_pos hsame]
    exact hrest
  | star hne hslash =>
    rw [matchParts, List.findSome?_isSome_iff]
    refine ⟨(piece, rest), mem_cuts_inSegment.mpr ⟨rfl, hslash⟩, ?_⟩
    dsimp only
    rw [if_neg fun hempty => hne (List.isEmpty_iff.mp hempty), Option.isSome_map]
    exact hrest
  | globstar hline =>
    rw [matchParts, List.findSome?_isSome_iff]
    refine ⟨(piece, rest), mem_cuts_inLine.mpr ⟨rfl, hline⟩, ?_⟩
    rw [Option.isSome_map]
    exact hrest
  | @leading taken hline =>
    rw [matchParts, Option.orElse_eq_orElse, Option.orElse_eq_or, Option.isSome_or,
      Bool.or_eq_true, List.findSome?_isSome_iff, List.append_assoc]
    refine Or.inl ⟨(taken, '/' :: rest), mem_cuts_inLine.mpr ⟨rfl, hline⟩, ?_⟩
    show ((matchParts parts rest).map (taken :: ·)).isSome = true
    rw [Option.isSome_map]
    exact hrest
  | noLeading =>
    rw [matchParts, Option.orElse_eq_orElse, Option.orElse_eq_or, Option.isSome_or,
      Bool.or_eq_true, Option.isSome_map]
    exact Or.inr hrest
  | @trailing taken hline =>
    rw [List.cons_append, matchParts, Option.orElse_eq_orElse, Option.orElse_eq_or,
      Option.isSome_or, Bool.or_eq_true, List.findSome?_isSome_iff]
    refine Or.inl ⟨(taken, rest), mem_cuts_inLine.mpr ⟨rfl, hline⟩, ?_⟩
    rw [Option.isSome_map]
    exact hrest
  | noTrailing =>
    unfold matchParts
    rw [Option.orElse_eq_orElse, Option.orElse_eq_or, Option.isSome_or, Bool.or_eq_true,
      Option.isSome_map]
    exact Or.inr hrest

/-- A match is a reading. -/
theorem reads_of_matchParts {parts : List GlobPart} {text : List Char}
    {captures : List (List Char)} (h : matchParts parts text = some captures) :
    Reads parts captures text := by
  induction parts generalizing text captures with
  | nil =>
    rw [matchParts] at h
    split_ifs at h with hempty
    cases h
    rw [List.isEmpty_iff.mp hempty]
    exact .nil
  | cons part parts ih =>
    obtain ⟨found, later, piece, rest, rfl, rfl, hpart, hrest⟩ := exists_of_matchParts_cons h
    exact .cons hpart (ih hrest)

/-- There is a match exactly if there is a reading. -/
theorem isSome_matchParts_iff {parts : List GlobPart} {text : List Char} :
    (matchParts parts text).isSome = true ↔ ∃ captures, Reads parts captures text := by
  constructor
  · intro h
    obtain ⟨captures, hcaptures⟩ := Option.isSome_iff_exists.mp h
    exact ⟨captures, reads_of_matchParts hcaptures⟩
  · rintro ⟨captures, h⟩
    induction h with
    | nil => rfl
    | cons hpart _ ih => exact isSome_matchParts_cons hpart ih

end Glob

end DesignTokens

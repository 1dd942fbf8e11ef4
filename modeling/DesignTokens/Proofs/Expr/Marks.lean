import DesignTokens.Expr.Calculation
import DesignTokens.Proofs.Expr.Scanning

/-!
# Calculations as their writers read them

The text of a calculation has lexemes of its own and references between them.  `Calculation.marks?`
cuts it so: each run of characters between two references is scanned for itself, and a reference is
one mark.  The text that is parsed has an identifier between blanks in place of each reference, so
that its lexemes are these marks, each reference having become an identifier
(`Calculation.shapes?_substituted`): nothing that a writer writes grows together with an identifier
that stands for a reference.
-/

namespace DesignTokens

open Lexeme (Shape shapes?)

namespace Calculation

/-- A lexeme that is written in a calculation, or a reference. -/
inductive Mark where
  | own (shape : Shape)
  | reference (r : Reference)
deriving DecidableEq, Repr

/-- The marks of a run of characters and of the pieces after it. -/
def marksFrom (run : List Char) : List Piece → Option (List Mark)
  | [] => (shapes? run).map (List.map .own)
  | .plain c :: rest => marksFrom (run ++ [c]) rest
  | .reference r :: rest =>
    (shapes? run).bind fun before =>
      (marksFrom [] rest).map (before.map .own ++ .reference r :: ·)

/-- The marks of a calculation, when it can be scanned between its references. -/
def marks? (text : String) : Option (List Mark) :=
  marksFrom [] (pieces Reference.any? text.toList)

/-- The lexeme of a mark when a reference is written as a word. -/
def Mark.shapeWith (word : Reference → List Char) : Mark → Shape
  | .own shape => shape
  | .reference r => (.ident, String.ofList (word r))

/-- A piece, with a word between blanks in place of a reference. -/
def spaced (word : Reference → List Char) : Piece → List Char
  | .plain c => [c]
  | .reference r => ' ' :: (word r ++ [' '])

/-- An identifier. -/
def IsIdent (word : List Char) : Prop :=
  ∃ c rest, word = c :: rest ∧ Lexeme.startsIdent c = true ∧ ∀ d ∈ rest, Text.isWord d = true

/-- A blank ends an identifier. -/
lemma stopsIdent_blank (rest : List Char) : Lexeme.StopsIdent (' ' :: rest) := by
  intro c hc
  obtain rfl := Option.some.inj hc
  decide

/-- An identifier between blanks is scanned apart from what stands around it. -/
lemma shapes?_between_blanks {word : List Char} (hword : IsIdent word) (before rest : List Char) :
    shapes? (before ++ ' ' :: (word ++ ' ' :: rest)) =
      (shapes? before).bind fun shapes =>
        (shapes? rest).map (shapes ++ (LexKind.ident, String.ofList word) :: ·) := by
  obtain ⟨c, more, rfl, hc, hmore⟩ := hword
  rw [Lexeme.shapes?_append_blank, List.cons_append,
    Lexeme.shapes?_ident hc hmore (stopsIdent_blank rest), Lexeme.shapes?_space (by decide)]
  cases shapes? rest <;> rfl

/-- With identifiers between blanks in place of references the lexemes are those of the marks. -/
lemma shapes?_flatMap_spaced {word : Reference → List Char} (hword : ∀ r, IsIdent (word r))
    (run : List Char) (later : List Piece) :
    shapes? (run ++ later.flatMap (spaced word)) =
      (marksFrom run later).map (List.map (Mark.shapeWith word)) := by
  induction later generalizing run with
  | nil =>
    rw [List.flatMap_nil, List.append_nil, marksFrom]
    cases shapes? run with
    | none => rfl
    | some shapes =>
      show some shapes = some ((shapes.map .own).map (Mark.shapeWith word))
      rw [List.map_map]
      exact congrArg some (List.map_id shapes).symm
  | cons piece later ih =>
    cases piece with
    | plain c =>
      rw [List.flatMap_cons, ← List.append_assoc]
      exact ih (run ++ [c])
    | reference r =>
      have hchars : (Piece.reference r :: later).flatMap (spaced word) =
          ' ' :: (word r ++ ' ' :: later.flatMap (spaced word)) := by
        rw [List.flatMap_cons]
        simp [spaced]
      have hlater := ih []
      rw [List.nil_append] at hlater
      rw [hchars, shapes?_between_blanks (hword r), hlater, marksFrom]
      cases shapes? run with
      | none => rfl
      | some shapes =>
        cases marksFrom [] later with
        | none => rfl
        | some marks =>
          have hshapes : (shapes.map Mark.own).map (Mark.shapeWith word) = shapes := by
            rw [List.map_map]
            exact List.map_id shapes
          simp [hshapes, Mark.shapeWith]

/-- What stands for a reference is an identifier. -/
lemma isIdent_standIn (i : ℕ) : IsIdent (standIn i).toList := by
  have hchars : (standIn i).toList = '_' :: ("_ref".toList ++ Nat.toDigits 10 i) := by
    show ("__ref" ++ Nat.repr i).toList = _
    rw [String.toList_append, Nat.toList_repr]
    rfl
  have hletters : ∀ d ∈ "_ref".toList, Text.isWord d = true := List.all_eq_true.mp (by decide)
  refine ⟨'_', _, hchars, by decide, fun d hd => ?_⟩
  rcases List.mem_append.mp hd with hd | hd
  · exact hletters d hd
  · have hdigit : d.isDigit = true := Nat.isDigit_of_mem_toDigits (by decide) (by decide) hd
    unfold Text.isWord Char.isAlphanum
    rw [if_pos (Text.isAscii_of_isDigit hdigit), hdigit, Bool.or_true, Bool.true_or]

/-- The lexeme of a mark in the text that is parsed. -/
def Mark.shape (references : List Reference) : Mark → Shape :=
  Mark.shapeWith fun r => (standIn (references.idxOf r)).toList

/-- The lexemes of the text that is parsed are the marks of the calculation. -/
theorem shapes?_substituted (text : String) :
    shapes? (substituted text).toList =
      (marks? text).map (List.map (Mark.shape (distinctReferences text))) := by
  have hpieces : (substituted text).toList =
      (pieces Reference.any? text.toList).flatMap
        (spaced fun r => (standIn ((distinctReferences text).idxOf r)).toList) := by
    unfold substituted replaceReferences
    rw [String.toList_ofList]
    refine congrArg (List.flatMap · (pieces Reference.any? text.toList)) (funext fun piece => ?_)
    cases piece <;> rfl
  rw [hpieces]
  exact shapes?_flatMap_spaced (fun r => isIdent_standIn _) [] _

end Calculation

end DesignTokens

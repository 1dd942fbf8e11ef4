import DesignTokens.Proofs.Expr.Marks
import DesignTokens.Proofs.Expr.Placement
import DesignTokens.Proofs.Resolve.Calculation
import DesignTokens.Resolve.Passthrough

/-!
# Reading written calculations

A calculation that is written out is a calculation again, with references of the language in it and
with numbers that have units.  `CalcSyntax.readShapes?` scans such a text: where a lexeme begins, a
reference to a custom property, a variable of SCSS or one of the numbers `1rem`, `1em` and `100%` is
one operand, and everything else is scanned as in any calculation.

Written between blanks and references, the text of a calculation that can be parsed has the lexemes
that it has alone (`CalcSyntax.readShapes?_run`).  The reason is the order of its lexemes: no unit
stands right after a number, no reference right after a name, and an opening parenthesis that is
never closed, as in `var(--`, does not occur.
-/

namespace DesignTokens

open DesignTokens.Expr (Orderly IsOperand)
open Lexeme (Shape shapes? begin? StopsNumber StopsIdent)
open Text (isSpace isWord)

namespace CalcSyntax

/-! ## Scanning what is written -/

/-- A character of the name of a variable in SCSS. -/
def isVariableChar (c : Char) : Bool :=
  isWord c || c == '-'

/-- The variable at the front of a text, in the language that has variables. -/
def scssVariable? : CalcSyntax → List Char → Option (List Char)
  | .scss, '$' :: rest =>
    let name := rest.takeWhile isVariableChar
    if name.isEmpty then none else some ('$' :: name)
  | _, _ => none

/-- The numbers with units that a conversion multiplies by. -/
def unitNumbers : List (List Char) :=
  ["1rem".toList, "1em".toList, "100%".toList]

/-- The operand at the front of a text that calculations themselves do not have. -/
def atom? (language : CalcSyntax) (cs : List Char) : Option (List Char) :=
  (Reference.property? cs).map Reference.chars <|> language.scssVariable? cs <|>
    unitNumbers.find? (·.isPrefixOf cs)

/-- The lexemes of a text that is written in a language, when it can be scanned. -/
def readShapes? (language : CalcSyntax) : List Char → Option (List Shape)
  | [] => some []
  | c :: rest =>
    if isSpace c then readShapes? language rest
    else match language.atom? (c :: rest) with
      | some atom =>
        (readShapes? language (rest.drop (atom.length - 1))).map
          ((LexKind.ident, String.ofList atom) :: ·)
      | none => match begin? c rest with
        | some (kind, more) =>
          (readShapes? language (rest.drop more)).map
            ((kind, String.ofList (c :: rest.take more)) :: ·)
        | none => none
termination_by cs => cs.length
decreasing_by
  · simp
  · simp only [List.length_drop, List.length_cons]
    omega
  · simp only [List.length_drop, List.length_cons]
    omega

variable {language : CalcSyntax} {c : Char} {cs rest tail : List Char}

/-- White space is passed. -/
lemma readShapes?_space (hc : isSpace c = true) (rest : List Char) :
    readShapes? language (c :: rest) = readShapes? language rest := by
  rw [readShapes?, if_pos hc]

/-- An operand of the language. -/
lemma readShapes?_of_atom? {atom : List Char} (hc : isSpace c = false)
    (h : language.atom? (c :: (atom ++ rest)) = some (c :: atom)) :
    readShapes? language (c :: (atom ++ rest)) =
      (readShapes? language rest).map ((LexKind.ident, String.ofList (c :: atom)) :: ·) := by
  rw [readShapes?, if_neg (by simp [hc]), h]
  dsimp only
  rw [List.length_cons, Nat.add_sub_cancel, List.drop_left]

/-- A lexeme of calculations. -/
lemma readShapes?_of_begin? {kind : LexKind} {more : ℕ} (hc : isSpace c = false)
    (hatom : language.atom? (c :: rest) = none) (h : begin? c rest = some (kind, more)) :
    readShapes? language (c :: rest) =
      (readShapes? language (rest.drop more)).map
        ((kind, String.ofList (c :: rest.take more)) :: ·) := by
  rw [readShapes?, if_neg (by simp [hc]), hatom, h]

/-! ## Numbers with units -/

/-- A number with a unit is a number and the beginning of a unit. -/
lemma exists_of_mem_unitNumbers {u : List Char} (hu : u ∈ unitNumbers) (rest : List Char) :
    ∃ digits d unit, u = digits ++ d :: unit ∧ 0 < digits.length ∧
      Lexeme.numberLength (u ++ rest) = digits.length ∧ (d = 'r' ∨ d = 'e' ∨ d = '%') := by
  unfold unitNumbers at hu
  simp only [List.mem_cons, List.not_mem_nil, or_false] at hu
  rcases hu with rfl | rfl | rfl
  · exact ⟨['1'], 'r', "em".toList, rfl, by decide, rfl, Or.inl rfl⟩
  · exact ⟨['1'], 'e', "m".toList, rfl, by decide, rfl, Or.inr (Or.inl rfl)⟩
  · exact ⟨"100".toList, '%', [], rfl, by decide, rfl, Or.inr (Or.inr rfl)⟩

/-- A text that goes on after a calculation: with a reference, or after a blank. -/
def StopsRun (tail : List Char) : Prop :=
  ∀ c ∈ tail.head?, c = 'v' ∨ c = '$' ∨ c = ' '

/-- What goes on so does not continue a number. -/
lemma StopsRun.stopsNumber (h : StopsRun tail) : StopsNumber tail := by
  intro c hc
  rcases h c hc with rfl | rfl | rfl <;> decide

/-- The lexemes of a text with a lexeme at its front. -/
lemma exists_of_shapes? {own : List Shape} (hc : isSpace c = false)
    (hown : shapes? (c :: cs) = some own) :
    ∃ kind more own', begin? c cs = some (kind, more) ∧ shapes? (cs.drop more) = some own' ∧
      own = (kind, String.ofList (c :: cs.take more)) :: own' := by
  cases hbegin : begin? c cs with
  | none =>
    rw [Lexeme.shapes?_of_begin?_eq_none hc hbegin] at hown
    cases hown
  | some found =>
    obtain ⟨kind, more⟩ := found
    rw [Lexeme.shapes?_of_begin? hc hbegin] at hown
    obtain ⟨own', hown', rfl⟩ := Option.map_eq_some_iff.mp hown
    exact ⟨kind, more, own', rfl, hown', rfl⟩

/-- Calculations have no numbers with units. -/
lemma not_mem_unitNumbers {own : List Shape} {later : List LexKind} {u : List Char}
    (htail : StopsRun tail) (hc : isSpace c = false) (hown : shapes? (c :: cs) = some own)
    (horder : Orderly (own.map Prod.fst ++ later)) (hstart : u <+: c :: (cs ++ tail)) :
    u ∉ unitNumbers := by
  intro hu
  obtain ⟨rest, hrest⟩ := hstart
  obtain ⟨digits, d, unit, rfl, hpos, hlength, hd⟩ := exists_of_mem_unitNumbers hu rest
  have hnumber : Lexeme.numberLength (c :: cs) = digits.length := by
    rw [← hlength, hrest, ← List.cons_append, Lexeme.numberLength_append htail.stopsNumber]
  have hkind : begin? c cs = some (.number, digits.length - 1) := by
    unfold begin?
    rw [hnumber]
    exact if_pos hpos
  obtain ⟨kind, more, own', hbegin, hown', rfl⟩ := exists_of_shapes? hc hown
  cases hkind.symm.trans hbegin
  have hle : digits.length ≤ (c :: cs).length := hnumber ▸ Lexeme.numberLength_le (c :: cs)
  have hdrop : (c :: cs).drop digits.length = cs.drop (digits.length - 1) := by
    obtain ⟨n, hn⟩ := Nat.exists_eq_add_one_of_ne_zero (Nat.ne_of_gt hpos)
    rw [hn]
    rfl
  have hafter : cs.drop (digits.length - 1) ++ tail = d :: (unit ++ rest) := by
    rw [← hdrop, ← List.drop_append_of_le_length hle, List.cons_append, ← hrest,
      List.append_assoc, List.drop_left, List.cons_append]
  cases hcs : cs.drop (digits.length - 1) with
  | nil =>
    rw [hcs, List.nil_append] at hafter
    rcases htail d (by rw [hafter]; rfl) with h | h | h <;>
      rcases hd with rfl | rfl | rfl <;> exact absurd h (by decide)
  | cons d' cs' =>
    rw [hcs] at hafter hown'
    obtain rfl : d' = d := (List.cons.inj hafter).1
    have hspace : isSpace d' = false := by
      rcases hd with rfl | rfl | rfl <;> decide
    obtain ⟨kind', more', own'', hbegin', -, rfl⟩ := exists_of_shapes? hspace hown'
    have hident : kind' = .ident := by
      rcases hd with rfl | rfl | rfl
      · rw [Lexeme.begin?_ident (by decide)] at hbegin'
        cases hbegin'
        rfl
      · rw [Lexeme.begin?_ident (by decide)] at hbegin'
        cases hbegin'
        rfl
      · cases hbegin'
    exact horder.not_isOperand (Or.inl rfl) (Or.inr hident)

/-! ## The text between references -/

/-- Calculations have no variables of SCSS. -/
lemma scssVariable?_eq_none {own : List Shape} (hc : isSpace c = false)
    (hown : shapes? (c :: cs) = some own) (rest : List Char) :
    language.scssVariable? (c :: rest) = none := by
  have hsign : c ≠ '$' := by
    rintro rfl
    obtain ⟨kind, more, own', hbegin, -⟩ := exists_of_shapes? hc hown
    cases hbegin
  unfold scssVariable?
  split
  · next heq => exact absurd (List.cons.inj heq).1 hsign
  · rfl

/-- An identifier of a calculation ends where it ends without what follows. -/
lemma takeWhile_isWord_append {own : List Shape} {later : List LexKind} (htail : StopsRun tail)
    (hfollow : tail.head? = some 'v' → ∃ k ∈ later.head?, IsOperand k)
    (hc : isSpace c = false) (hident : Lexeme.startsIdent c = true)
    (hown : shapes? (c :: cs) = some own) (horder : Orderly (own.map Prod.fst ++ later)) :
    (cs ++ tail).takeWhile isWord = cs.takeWhile isWord := by
  rw [List.takeWhile_append]
  split_ifs with hall
  · by_cases hv : tail.head? = some 'v'
    · -- The identifier would grow together with the reference, but no operand stands beside it.
      obtain ⟨k, hk, hoperand⟩ := hfollow hv
      obtain ⟨kind, more, own', hbegin, hown', rfl⟩ := exists_of_shapes? hc hown
      rw [Lexeme.begin?_ident hident] at hbegin
      cases hbegin
      rw [hall, List.drop_length, Lexeme.shapes?_nil] at hown'
      cases hown'
      cases later with
      | nil => cases hk
      | cons k' later =>
        obtain rfl : k' = k := Option.some.inj hk
        exact absurd hoperand (horder.not_isOperand (Or.inr rfl))
    · have hstops : StopsIdent tail := by
        intro d hd
        rcases htail d hd with rfl | rfl | rfl
        · exact absurd hd hv
        · decide
        · decide
      have hnone : tail.takeWhile isWord = [] := by
        cases tail with
        | nil => rfl
        | cons d tail => exact List.takeWhile_cons_of_neg (by rw [hstops d rfl]; decide)
      rw [hnone, List.append_nil]
      exact (List.IsPrefix.eq_of_length (List.takeWhile_prefix isWord) hall).symm
  · rfl

/-- The text of a calculation has the lexemes that it has alone, where a reference or a blank follows
and where nothing is read as a reference that is none. -/
theorem readShapes?_run {own : List Shape} {later : List LexKind} (htail : StopsRun tail)
    (hfollow : tail.head? = some 'v' → ∃ k ∈ later.head?, IsOperand k)
    (hproperty : ∀ after own', after <:+ cs → after ≠ [] → shapes? after = some own' →
      Orderly (own'.map Prod.fst ++ later) → Reference.property? (after ++ tail) = none)
    (hown : shapes? cs = some own) (horder : Orderly (own.map Prod.fst ++ later)) :
    readShapes? language (cs ++ tail) = (readShapes? language tail).map (own ++ ·) := by
  induction hlength : cs.length using Nat.strong_induction_on generalizing cs own with
  | _ n ih =>
    cases cs with
    | nil =>
      rw [Lexeme.shapes?_nil] at hown
      cases hown
      rw [List.nil_append]
      cases readShapes? language tail <;> rfl
    | cons c cs =>
      have hsuffix : ∀ {after}, after <:+ cs → after <:+ c :: cs :=
        fun h => h.trans (List.suffix_cons c cs)
      rw [List.cons_append]
      cases hspace : isSpace c with
      | true =>
        rw [Lexeme.shapes?_space hspace] at hown
        rw [readShapes?_space hspace]
        exact ih cs.length (by simp [← hlength])
          (fun after own' hafter => hproperty after own' (hsuffix hafter)) hown horder rfl
      | false =>
        have hatom : language.atom? (c :: (cs ++ tail)) = none := by
          have hnone := hproperty _ own List.suffix_rfl (List.cons_ne_nil c cs) hown horder
          have hunits : unitNumbers.find? (·.isPrefixOf (c :: (cs ++ tail))) = none :=
            List.find?_eq_none.mpr fun u hu hstart => not_mem_unitNumbers htail hspace hown
              horder (List.isPrefixOf_iff_prefix.mp hstart) hu
          rw [List.cons_append] at hnone
          unfold atom?
          rw [hnone, scssVariable?_eq_none hspace hown, hunits]
          rfl
        have hbegin' : begin? c (cs ++ tail) = begin? c cs :=
          Lexeme.begin?_append htail.stopsNumber fun hident =>
            takeWhile_isWord_append htail hfollow hspace hident hown horder
        obtain ⟨kind, more, own', hbegin, hown', rfl⟩ := exists_of_shapes? hspace hown
        have hle := Lexeme.le_length_of_begin? hbegin
        have hshorter : (cs.drop more).length < n := by
          rw [← hlength, List.length_drop, List.length_cons]
          omega
        rw [readShapes?_of_begin? hspace hatom (hbegin'.trans hbegin),
          List.drop_append_of_le_length hle, List.take_append_of_le_length hle,
          ih _ hshorter (fun after own'' hafter =>
            hproperty after own'' (hsuffix (hafter.trans (List.drop_suffix more cs)))) hown'
            horder.tail rfl]
        cases readShapes? language tail <;> rfl

end CalcSyntax

end DesignTokens

import DesignTokens.Proofs.Resolve.WrittenMarks

/-!
# The conversion at the end of written calculations

A calculation that is written out is converted to its unit by factors at its end.  Read again, the
written text is a calculation, and these factors belong to the last product of it.  So the conversion
applies to the whole exactly if the calculation is one product at its outermost level; in a sum it
applies to the last summand alone (`Scope.conversion_of_passThrough`).
-/

namespace DesignTokens

open Calculation (Mark marks?)
open Lexeme (Shape shape)

/-! ## Trees of lexemes without positions -/

/-- A lexeme whose position does not matter. -/
def Lexeme.ofShape (s : Shape) : Lexeme :=
  ⟨s.1, s.2, 0⟩

namespace Expr

/-- The tree of a list of lexemes, when it has one. -/
def ofShapes? (shapes : List Shape) : Option Expr :=
  (ofLexemes (shapes.map Lexeme.ofShape) 0).toOption

/-- Lexemes with a derivation have its tree. -/
lemma ofShapes?_of_yield {shapes : List Shape} (D : Grammar.Derivation .expr)
    (hyield : D.yield = shapes.map Lexeme.ofShape) : ofShapes? shapes = some D.tree := by
  unfold ofShapes?
  rw [← hyield, D.accepted]
  rfl

/-- The number that a conversion to a unit multiplies by. -/
def unitNumber (unit : CssUnit) : String :=
  if unit = .percent then "100%" else "1" ++ unit.suffix

/-- A calculation converted to a unit, as one operand. -/
def converted (unit : CssUnit) (base : Option String) (e : Expr) : Expr :=
  match base with
  | some reference =>
    if unit = .percent then .binary .mul e (.name (unitNumber unit))
    else .binary .mul (.binary .div e (.name reference)) (.name (unitNumber unit))
  | none => .binary .mul e (.name (unitNumber unit))

end Expr

/-! ## What is written at the end -/

/-- The lexemes of a conversion. -/
def conversionShapes (unit : CssUnit) (base : Option String) : List Shape :=
  match base with
  | some reference =>
    if unit = .percent then [(.star, "*"), (.ident, Expr.unitNumber unit)]
    else [(.slash, "/"), (.ident, reference), (.star, "*"), (.ident, Expr.unitNumber unit)]
  | none => [(.star, "*"), (.ident, Expr.unitNumber unit)]

/-- The units that a conversion multiplies by. -/
def CssUnit.IsFactor (unit : CssUnit) : Prop :=
  unit = .rem ∨ unit = .em ∨ unit = .percent

variable {unit : CssUnit} {base : Option String}

/-- A conversion is written after the text. -/
lemma convertTo_eq_append (base : Option String) (text : String) :
    convertTo unit base text = text ++ convertTo unit base "" := by
  cases unit <;> cases base <;> simp [convertTo, String.append_assoc]

/-- A conversion begins with a blank. -/
lemma head?_convertTo (hunit : unit.IsFactor) (base : Option String) :
    (convertTo unit base "").toList.head? = some ' ' := by
  rcases hunit with rfl | rfl | rfl <;> cases base <;> simp [convertTo]

/-- A conversion multiplies. -/
lemma star_mem_convertTo (hunit : unit.IsFactor) (base : Option String) :
    '*' ∈ (convertTo unit base "").toList := by
  rcases hunit with rfl | rfl | rfl <;> cases base <;> simp [convertTo]

namespace CalcSyntax

variable {language : CalcSyntax}

/-- A text that is a calculation in a language, in `calc()` where the language needs it. -/
def enclosed : CalcSyntax → String → String
  | .css, text => "calc(" ++ text ++ ")"
  | .scss, text => text

/-- The tree of a text that is written in a language, when it has one. -/
def readBack? (language : CalcSyntax) (text : String) : Option Expr :=
  (language.readShapes? text.toList).bind Expr.ofShapes?

/-- The lexemes of a factor with a unit. -/
lemma readShapes?_factor (hunit : unit.IsFactor) :
    language.readShapes? (" * " ++ Expr.unitNumber unit).toList =
      some [(.star, "*"), (.ident, Expr.unitNumber unit)] := by
  rcases hunit with rfl | rfl | rfl <;> cases language <;> decide +kernel

/-- The lexemes of a conversion are read as they are written. -/
lemma readShapes?_conversion (hunit : unit.IsFactor)
    (hbase : ∀ reference ∈ base, ∃ name, reference = language.reference name ∧
      language.Legible name.toList) :
    language.readShapes? (convertTo unit base "").toList = some (conversionShapes unit base) := by
  have hfactor : language.readShapes? (" * " ++ Expr.unitNumber unit).toList = _ :=
    readShapes?_factor hunit
  cases base with
  | none =>
    have htext : convertTo unit none "" = " * " ++ Expr.unitNumber unit := by
      rcases hunit with rfl | rfl | rfl <;> rfl
    rw [htext, hfactor]
    rfl
  | some reference =>
    by_cases hpercent : unit = .percent
    · subst hpercent
      exact hfactor
    · obtain ⟨name, rfl, hname⟩ := hbase reference rfl
      have htext : (convertTo unit (some (language.reference name)) "").toList =
          ' ' :: '/' :: ' ' :: ((language.reference name).toList ++
            (" * " ++ Expr.unitNumber unit).toList) := by
        rcases hunit with rfl | rfl | rfl
        · simp [convertTo, Expr.unitNumber]
        · simp [convertTo, Expr.unitNumber]
        · exact absurd rfl hpercent
      have hstops : StopsVariable (" * " ++ Expr.unitNumber unit).toList := by
        intro c hc
        rw [String.toList_append] at hc
        obtain rfl : ' ' = c := Option.some.inj hc
        decide
      have hslash : language.readShapes? ('/' :: ' ' :: ((language.reference name).toList ++
            (" * " ++ Expr.unitNumber unit).toList)) =
          (language.readShapes? (' ' :: ((language.reference name).toList ++
            (" * " ++ Expr.unitNumber unit).toList))).map ((LexKind.slash, "/") :: ·) := by
        have hatom : ∀ rest, language.atom? ('/' :: rest) = none := by
          intro rest
          cases language <;> rfl
        have hbegin : ∀ rest, Lexeme.begin? '/' rest = some (.slash, 0) := fun _ => rfl
        exact readShapes?_of_begin? (by decide) (hatom _) (hbegin _)
      have hshapes : conversionShapes unit (some (language.reference name)) =
          [(.slash, "/"), (.ident, language.reference name), (.star, "*"),
            (.ident, Expr.unitNumber unit)] := if_neg hpercent
      rw [htext, readShapes?_space (by decide), hslash, readShapes?_space (by decide),
        readShapes?_reference hname fun _ => hstops, hfactor, hshapes]
      rfl

end CalcSyntax

/-! ## Derivations that go on -/

namespace Expr

namespace Grammar

/-- A name as a signed operand. -/
def Derivation.ofName (name : String) : Derivation .signed :=
  .plain (.name ⟨.ident, name, 0⟩ rfl)

/-- A product that is converted at its end. -/
lemma exists_converted (unit : CssUnit) (base : Option String) (T : Derivation .term) :
    ∃ T' : Derivation .term,
      T'.yield = T.yield ++ (conversionShapes unit base).map Lexeme.ofShape ∧
        T'.tree = converted unit base T.tree := by
  have hfactor : ∀ T : Derivation .term, ∃ T' : Derivation .term,
      T'.yield = T.yield ++
        [(LexKind.star, "*"), (LexKind.ident, unitNumber unit)].map Lexeme.ofShape ∧
        T'.tree = .binary .mul T.tree (.name (unitNumber unit)) := fun T =>
    term_snoc T (t := ⟨.star, "*", 0⟩) rfl (.ofName (unitNumber unit))
  cases base with
  | none => exact hfactor T
  | some reference =>
    by_cases hpercent : unit = .percent
    · unfold conversionShapes converted
      simp only [if_pos hpercent]
      exact hfactor T
    · unfold conversionShapes converted
      simp only [if_neg hpercent]
      obtain ⟨T₁, hyield₁, htree₁⟩ :=
        term_snoc T (rfl : productOp? (⟨.slash, "/", 0⟩ : Lexeme).kind = some .div)
          (.ofName reference)
      obtain ⟨T₂, hyield₂, htree₂⟩ := hfactor T₁
      refine ⟨T₂, ?_, ?_⟩
      · rw [hyield₂, hyield₁, List.append_assoc]
        rfl
      · rw [htree₂, htree₁]
        rfl

/-- A conversion is a product. -/
lemma ne_converted {op : BinaryOp} (hop : op = .add ∨ op = .sub) (l r e : Expr) :
    Expr.binary op l r ≠ converted unit base e := by
  intro h
  unfold converted at h
  split at h
  · split_ifs at h
    · cases h
      rcases hop with hop | hop <;> cases hop
    · cases h
      rcases hop with hop | hop <;> cases hop
  · cases h
    rcases hop with hop | hop <;> cases hop

/-- An operator of a sum adds or subtracts. -/
lemma add_or_sub_of_sumOp? {k : LexKind} {op : BinaryOp} (h : sumOp? k = some op) :
    op = .add ∨ op = .sub := by
  cases k <;> cases h
  · exact Or.inl rfl
  · exact Or.inr rfl

variable {shapes : List Shape}

/-- The conversion of one product applies to all of it. -/
lemma ofShapes?_term (unit : CssUnit) (base : Option String) (T : Derivation .term)
    (hyield : T.yield = shapes.map Lexeme.ofShape) :
    ofShapes? shapes = some T.tree ∧
      ofShapes? (shapes ++ conversionShapes unit base) = some (converted unit base T.tree) := by
  obtain ⟨T', hyield', htree'⟩ := exists_converted unit base T
  constructor
  · refine ofShapes?_of_yield (.expr T .exprEnd) ?_
    rw [← hyield]
    exact List.append_nil _
  · rw [← htree']
    refine ofShapes?_of_yield (.expr T' .exprEnd) ?_
    rw [List.map_append, ← hyield, ← hyield']
    exact List.append_nil _

/-- The conversion of a sum applies to the last term. -/
lemma ofShapes?_sum (unit : CssUnit) (base : Option String) (D : Derivation .expr) {t : Lexeme}
    {op : BinaryOp} (ht : sumOp? t.kind = some op) (T : Derivation .term)
    (hyield : D.yield ++ t :: T.yield = shapes.map Lexeme.ofShape) :
    ofShapes? shapes = some (.binary op D.tree T.tree) ∧
      ofShapes? (shapes ++ conversionShapes unit base) =
        some (.binary op D.tree (converted unit base T.tree)) := by
  obtain ⟨T', hyield', htree'⟩ := exists_converted unit base T
  obtain ⟨D₁, hyield₁, htree₁⟩ := expr_snoc D ht T
  obtain ⟨D₂, hyield₂, htree₂⟩ := expr_snoc D ht T'
  constructor
  · rw [← htree₁]
    exact ofShapes?_of_yield D₁ (hyield₁.trans hyield)
  · rw [← htree', ← htree₂]
    refine ofShapes?_of_yield D₂ ?_
    rw [hyield₂, hyield', List.map_append, ← hyield, List.append_assoc, List.cons_append]

/-- Lexemes that are written for the marks of a calculation are similar to the lexemes of any other
way to write its references. -/
lemma similar_of_marks {word word' : Reference → List Char} {marks : List Mark} {ls : List Lexeme}
    (h : ls.map shape = marks.map (Mark.shapeWith word)) :
    List.Forall₂ Similar ((marks.map (Mark.shapeWith word')).map Lexeme.ofShape) ls := by
  induction marks generalizing ls with
  | nil =>
    obtain rfl := List.map_eq_nil_iff.mp h
    exact List.Forall₂.nil
  | cons mark marks ih =>
    cases ls with
    | nil => cases h
    | cons t ls =>
      obtain ⟨ht, hls⟩ := List.cons.inj h
      refine List.Forall₂.cons ?_ (ih hls)
      cases mark with
      | own s =>
        obtain rfl : t.shape = s := ht
        exact ⟨rfl, fun _ => rfl⟩
      | reference r =>
        have hkind : t.kind = .ident := congrArg Prod.fst ht
        refine ⟨hkind.symm, fun hnumber => ?_⟩
        rw [hkind] at hnumber
        cases hnumber

end Grammar

end Expr

/-! ## Calculations that are written out -/

/-- The text of a calculation is one product at its outermost level: an operand in parentheses, a
call, or several such operands with `*` and `/` between them. -/
def Calculation.IsProduct (text : String) : Prop :=
  ∃ ls, Lexeme.scan (substituted text) = .ok ls ∧
    ∃ T : Expr.Grammar.Derivation .term, T.yield = ls

namespace Scope

/-- The variable that holds the base of a conversion. -/
def conversionBase? (s : Scope) (remBaseVariable : Option String) : Option Variable :=
  (remBaseVariable.filter (· ≠ "")).bind s.byId?

/-- The tree of a calculation with its references written in a language. -/
def writtenTree? (s : Scope) (language : CalcSyntax) (text : String) : Option Expr :=
  (marks? text).bind fun marks =>
    Expr.ofShapes? (marks.map (Mark.shapeWith (s.passReference language)))

/-- A calculation whose quoted paths all name variables, and whose references are told apart from
the text around them once they are written. -/
structure IsLegible (s : Scope) (language : CalcSyntax) (text : String)
    (remBaseVariable : Option String) : Prop where
  /-- Each quoted path names a variable, by a name that the language can hold. -/
  paths : ∀ raw, .path raw ∈ referencesOf Reference.any? text →
    ∃ entry, s.byPath (Reference.pathText raw) = .ok (some entry) ∧
      language.Legible (s.cssName entry.item).toList
  /-- The base of the conversion has such a name as well. -/
  base : ∀ v ∈ s.conversionBase? remBaseVariable, language.Legible (s.cssName v).toList
  /-- No quoted path begins inside of a custom property. -/
  properties : ∀ raw, .property raw ∈ referencesOf Reference.any? text → '\'' ∉ raw
  /-- No minus stands right after what becomes a variable of SCSS. -/
  minus : language = .scss → ∀ raw,
    ¬ [.reference (.path raw), .plain '-'] <:+: pieces Reference.any? text.toList

variable {s : Scope} {language : CalcSyntax} {text : String} {remBaseVariable : Option String}
  {unit : CssUnit}

/-- A reference of a text is among its pieces. -/
lemma mem_referencesOf {r : Reference} (h : .reference r ∈ pieces Reference.any? text.toList) :
    r ∈ referencesOf Reference.any? text :=
  List.mem_filterMap.mpr ⟨.reference r, h, rfl⟩

/-- The references of a legible calculation are read as they are written. -/
lemma IsLegible.reads (h : s.IsLegible language text remBaseVariable) {r : Reference}
    (hr : .reference r ∈ pieces Reference.any? text.toList) :
    language.Reads (s.passReference language) r := by
  cases r with
  | path raw =>
    obtain ⟨entry, hentry, hname⟩ := h.paths raw (mem_referencesOf hr)
    have hword : s.passReference language (.path raw) =
        (language.reference (s.cssName entry.item)).toList := by
      unfold passReference
      dsimp only
      rw [hentry]
    constructor
    · rw [hword]
      cases language with
      | css => exact ⟨'v', _, WrittenPart.toList_reference _, Or.inl rfl⟩
      | scss => exact ⟨'$', _, String.toList_append, Or.inr rfl⟩
    · intro rest hrest
      rw [hword, String.ofList_toList]
      exact CalcSyntax.readShapes?_reference hname fun hscss => hrest hscss ⟨raw, rfl⟩
  | property raw =>
    obtain ⟨hne, hclosing⟩ := of_property_mem_referencesOf (mem_referencesOf hr)
    constructor
    · exact ⟨'v', _, rfl, Or.inl rfl⟩
    · intro rest _
      exact CalcSyntax.readShapes?_property hne hclosing rest

/-- The text of a calculation that is written out. -/
lemma toList_passReferences (h : s.IsLegible language text remBaseVariable) :
    (s.passReferences language text).toList =
      (pieces Reference.any? text.toList).flatMap
        (Piece.charsWith (s.passReference language)) := by
  have hpieces : (s.passReferences language text).toList =
      (pieces Reference.path? text.toList).flatMap
        (Piece.charsWith (s.passReference language)) := by
    unfold passReferences replaceReferences
    rw [String.toList_ofList]
    refine congrArg (List.flatMap · (pieces Reference.path? text.toList)) (funext fun piece => ?_)
    cases piece <;> rfl
  rw [hpieces]
  exact flatMap_path_pieces (fun raw hraw => h.properties raw (mem_referencesOf hraw))
    fun raw => rfl

/-- A character that occurs in a text. -/
lemma occursIn_of_mem {c : Char} {cs : List Char} (h : c ∈ cs) : Text.occursIn [c] cs = true := by
  induction cs with
  | nil => cases h
  | cons d cs ih =>
    rw [Text.occursIn, Bool.or_eq_true]
    rcases List.mem_cons.mp h with rfl | h
    · left
      simp
    · exact Or.inr (ih h)

/-- What is converted by a factor is a calculation of its language. -/
lemma passThrough_eq (hunit : unit.IsFactor) :
    s.passThrough language text remBaseVariable unit =
      language.enclosed (s.passReferences language text ++
        convertTo unit ((s.conversionBase? remBaseVariable).map fun v =>
          language.reference (s.cssName v)) "") := by
  unfold passThrough
  dsimp only
  rw [convertTo_eq_append _ (s.passReferences language text)]
  cases language with
  | scss => rfl
  | css =>
    show wrapCalc _ = _
    unfold wrapCalc hasCalculation
    rw [if_pos]
    · rfl
    · refine List.any_eq_true.mpr ⟨['*'], List.mem_cons_self, occursIn_of_mem ?_⟩
      rw [String.toList_append]
      exact List.mem_append_right _ (star_mem_convertTo hunit _)

/-- The lexemes of a calculation that is written out are its marks and those of the conversion. -/
lemma readShapes?_passThrough {marks : List Mark} (h : s.IsLegible language text remBaseVariable)
    (hunit : unit.IsFactor) (hmarks : marks? text = some marks)
    (horder : Expr.Orderly (marks.map Mark.kind)) :
    let base := (s.conversionBase? remBaseVariable).map fun v => language.reference (s.cssName v)
    language.readShapes? (s.passReferences language text ++ convertTo unit base "").toList =
      some (marks.map (Mark.shapeWith (s.passReference language)) ++
        conversionShapes unit base) := by
  intro base
  have hbase : ∀ reference ∈ base, ∃ name, reference = language.reference name ∧
      language.Legible name.toList := by
    intro reference hreference
    obtain ⟨v, hv, rfl⟩ := Option.map_eq_some_iff.mp hreference
    exact ⟨_, rfl, h.base v hv⟩
  have hread := CalcSyntax.readShapes?_marks hmarks horder
    (fun c after hsuffix => property?_of_suffix_pieces hsuffix)
    (fun r hr => h.reads hr) h.minus (head?_convertTo hunit base)
  rw [CalcSyntax.readShapes?_conversion hunit hbase, List.nil_append] at hread
  rw [String.toList_append, toList_passReferences h]
  exact hread

/-- The conversion of a calculation that is written out belongs to the last product of it.  What is
written for a text that can be parsed, with its quoted paths resolved and its references legible, is
a calculation again.  Its tree is that of the text, as one operand, with the conversion after it
exactly if the text is one product; any other text is a sum or a difference, and then the conversion
applies to the last operand alone. -/
theorem conversion_of_passThrough {tree : Expr}
    (hparse : Expr.parse (Calculation.substituted text) = .ok tree)
    (hlegible : s.IsLegible language text remBaseVariable) (hunit : unit.IsFactor) :
    let base := (s.conversionBase? remBaseVariable).map fun v => language.reference (s.cssName v)
    ∃ body e t, s.passThrough language text remBaseVariable unit = language.enclosed body ∧
      s.writtenTree? language text = some e ∧ language.readBack? body = some t ∧
      (t = e.converted unit base ↔ Calculation.IsProduct text) ∧
      (¬ Calculation.IsProduct text → ∃ op l r, (op = .add ∨ op = .sub) ∧ e = .binary op l r ∧
        t = .binary op l (r.converted unit base)) := by
  intro base
  obtain ⟨ls, hls, D, hyield, -⟩ := Expr.parse_eq_ok.mp hparse
  have hshapes : Lexeme.shapes? (Calculation.substituted text).toList = some (ls.map shape) :=
    Lexeme.shapes?_eq_some.mpr ⟨ls, hls, rfl⟩
  rw [Calculation.shapes?_substituted] at hshapes
  obtain ⟨marks, hmarks, hmap⟩ := Option.map_eq_some_iff.mp hshapes
  have hkinds : marks.map Mark.kind = ls.map Lexeme.kind := by
    have hfirst := congrArg (List.map Prod.fst) hmap
    unfold Mark.shape at hfirst
    rw [Calculation.map_fst_shapeWith, List.map_map] at hfirst
    exact hfirst
  have horder : Expr.Orderly (marks.map Mark.kind) := by
    rw [hkinds, ← hyield]
    exact D.orderly
  have hsimilar : List.Forall₂ Expr.Grammar.Similar
      ((marks.map (Mark.shapeWith (s.passReference language))).map Lexeme.ofShape) ls :=
    Expr.Grammar.similar_of_marks hmap.symm
  have hwritten : s.writtenTree? language text =
      Expr.ofShapes? (marks.map (Mark.shapeWith (s.passReference language))) := by
    unfold writtenTree?
    rw [hmarks, Option.bind_some]
  have hback : language.readBack? (s.passReferences language text ++ convertTo unit base "") =
      Expr.ofShapes? (marks.map (Mark.shapeWith (s.passReference language)) ++
        conversionShapes unit base) := by
    unfold CalcSyntax.readBack?
    rw [readShapes?_passThrough hlegible hunit hmarks horder, Option.bind_some]
  refine ⟨s.passReferences language text ++ convertTo unit base "", ?_⟩
  rw [hwritten, hback]
  cases D with
  | expr first rest =>
    rcases Expr.Grammar.Derivation.exists_last first rest with
      rfl | ⟨hrest, D, t, op, T, ht, hlast⟩
    · have hfirst : first.yield = ls := (List.append_nil _).symm.trans hyield
      obtain ⟨T, hT⟩ := first.exists_of_similar (hfirst ▸ hsimilar)
      obtain ⟨he, ht⟩ := Expr.Grammar.ofShapes?_term unit base T hT
      have hproduct : Calculation.IsProduct text := ⟨ls, hls, first, hfirst⟩
      exact ⟨T.tree, _, passThrough_eq hunit, he, ht, ⟨fun _ => hproduct, fun _ => rfl⟩,
        fun hnot => absurd hproduct hnot⟩
    · have hsum : ¬ Calculation.IsProduct text := by
        rintro ⟨ls', hls', T', hT'⟩
        cases hls.symm.trans hls'
        have hsame : Expr.Grammar.Derivation.expr T' .exprEnd = .expr first rest :=
          Expr.Grammar.Derivation.unique
            ((List.append_nil _).trans (hT'.trans hyield.symm))
        cases hsame
        exact hrest rfl
      rw [← hyield, hlast] at hsimilar
      obtain ⟨ls₁, ls₂, hsplit, h₁, h₂⟩ := Expr.Grammar.similar_append hsimilar
      obtain ⟨D', rfl⟩ := D.exists_of_similar h₁
      rcases h₂ with _ | ⟨⟨hkind, -⟩, h₂⟩
      obtain ⟨T', rfl⟩ := T.exists_of_similar h₂
      obtain ⟨he, ht'⟩ := Expr.Grammar.ofShapes?_sum unit base D' (by rw [hkind]; exact ht) T'
        hsplit.symm
      have hop := Expr.Grammar.add_or_sub_of_sumOp? ht
      refine ⟨_, _, passThrough_eq hunit, he, ht', ⟨fun heq => ?_, fun h => absurd h hsum⟩,
        fun _ => ⟨op, _, _, hop, rfl, rfl⟩⟩
      exact absurd heq (Expr.Grammar.ne_converted hop _ _ _)

/-- A number of a library. -/
def summand (name : String) : Variable :=
  { id := name, name, type := .number, values := [("m", .number 8.0)], collectionId := "c" }

/-- A scope with two numbers. -/
def summands : Scope :=
  ofSettings ⟨[summand "a", summand "b"],
    [{ id := "c", name := "C", modes := [⟨"m", "M"⟩], defaultModeId := "m" }]⟩ {}

/-- The tree of a sum of two quoted paths, converted to `rem`, is not that of the converted sum. -/
theorem conversion_of_passThrough_sum :
    summands.passThrough .css "'a' + 'b'" none .rem = "calc(var(--a) + var(--b) * 1rem)" ∧
      ∃ e t, summands.writtenTree? .css "'a' + 'b'" = some e ∧
        CalcSyntax.readBack? .css "var(--a) + var(--b) * 1rem" = some t ∧
        t ≠ e.converted .rem none := by
  have hreferences : referencesOf Reference.any? "'a' + 'b'" = [.path ['a'], .path ['b']] := by
    decide +kernel
  have hlexemes : Lexeme.scan (Calculation.substituted "'a' + 'b'") =
      .ok [⟨.ident, "__ref0", 1⟩, ⟨.plus, "+", 9⟩, ⟨.ident, "__ref1", 12⟩] := by
    decide +kernel
  have hparse : Expr.parse (Calculation.substituted "'a' + 'b'") =
      .ok (.binary .add (.name "__ref0") (.name "__ref1")) := by
    unfold Expr.parse
    rw [hlexemes]
    rfl
  have hlegible : summands.IsLegible .css "'a' + 'b'" none := by
    refine ⟨?_, nofun, ?_, nofun⟩
    · rw [hreferences]
      intro raw hraw
      rcases List.mem_cons.mp hraw with h | h
      · cases h
        exact ⟨_, rfl, by decide +kernel⟩
      · cases List.mem_singleton.mp h
        exact ⟨_, rfl, by decide +kernel⟩
    · rw [hreferences]
      nofun
  have hsum : ¬ Calculation.IsProduct "'a' + 'b'" := by
    rintro ⟨ls, hls, T, hT⟩
    cases hls.symm.trans hlexemes
    have hsame : Expr.Grammar.Derivation.expr T .exprEnd =
        .expr (.term (.plain (.name ⟨.ident, "__ref0", 1⟩ rfl)) .termEnd)
          (.exprMore ⟨.plus, "+", 9⟩ .add rfl
            (.term (.plain (.name ⟨.ident, "__ref1", 12⟩ rfl)) .termEnd) .exprEnd) :=
      Expr.Grammar.Derivation.unique ((List.append_nil _).trans hT)
    cases hsame
  have hwritten : summands.passThrough .css "'a' + 'b'" none .rem =
      "calc(var(--a) + var(--b) * 1rem)" := by
    decide +kernel
  obtain ⟨body, e, t, hbody, he, ht, hiff, -⟩ :=
    conversion_of_passThrough hparse hlegible (Or.inl rfl : CssUnit.rem.IsFactor)
  have htext : body = "var(--a) + var(--b) * 1rem" := by
    have henclosed : "calc(" ++ body ++ ")" = "calc(" ++ "var(--a) + var(--b) * 1rem" ++ ")" :=
      hbody.symm.trans hwritten
    exact (String.append_right_inj _).mp ((String.append_left_inj _).mp henclosed)
  rw [htext] at ht
  exact ⟨hwritten, e, t, he, ht, fun h => hsum (hiff.mp h)⟩

end Scope

end DesignTokens

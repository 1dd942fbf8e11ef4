import DesignTokens.Proofs.Resolve.ReadBack

/-!
# The marks of a calculation in what is written

When a calculation is written out, its references are written as the language has it and the text
between them stays.  Read again, the written text has the marks of the calculation, each reference
having become one operand (`CalcSyntax.readShapes?_marks`).  The names have to be legible: a name in
CSS ends at the first closing parenthesis, and a name in SCSS goes as far as letters, digits, `_` and
`-` do, so that a minus right after a variable would become part of its name.
-/

namespace DesignTokens

open DesignTokens.Expr (Orderly IsOperand)
open Lexeme (Shape shapes? begin?)
open Text (isSpace isWord)

/-! ## The pieces of a text -/

/-- A piece as it is written. -/
def Piece.chars : Piece → List Char
  | .plain c => [c]
  | .reference r => r.chars

/-- A piece, with a word in place of a reference. -/
def Piece.charsWith (word : Reference → List Char) : Piece → List Char
  | .plain c => [c]
  | .reference r => word r

namespace Reference

/-- A quoted path is closed by a quote. -/
lemma exists_of_quotedBody? {cs body : List Char} (h : quotedBody? cs = some body) :
    ∃ rest, cs = body ++ '\'' :: rest := by
  fun_induction quotedBody? cs generalizing body with
  | case1 => cases h
  | case2 rest =>
    cases h
    exact ⟨rest, rfl⟩
  | case3 => cases h
  | case4 d rest _ hd ih =>
    obtain ⟨body', hbody', rfl⟩ := Option.map_eq_some_iff.mp h
    obtain ⟨rest', rfl⟩ := ih hbody'
    exact ⟨rest', rfl⟩
  | case5 => cases h
  | case6 c rest hquote hescape ih =>
    obtain ⟨body', hbody', rfl⟩ := Option.map_eq_some_iff.mp h
    obtain ⟨rest', rfl⟩ := ih hbody'
    exact ⟨rest', rfl⟩

/-- A quoted path stands where it is read. -/
lemma exists_of_path? {cs : List Char} {r : Reference} (h : path? cs = some r) :
    ∃ raw rest, r = path raw ∧ cs = r.chars ++ rest := by
  unfold path? at h
  split at h
  · next rest =>
    split at h
    · next c body hbody =>
      cases h
      obtain ⟨later, rfl⟩ := exists_of_quotedBody? hbody
      refine ⟨c :: body, later, rfl, ?_⟩
      show _ = '\'' :: (c :: body ++ ['\'']) ++ later
      simp only [List.cons_append, List.append_assoc, List.nil_append]
    · cases h
  · cases h

/-- A reference to a custom property as it is written. -/
lemma chars_property (raw : List Char) : (property raw).chars = opening ++ (raw ++ [')']) := by
  have hopening : "var(--".toList = opening := by decide
  show "var(--".toList ++ raw ++ [')'] = _
  rw [hopening]
  exact List.append_assoc _ _ _

/-- A reference to a custom property stands where it is read. -/
lemma exists_of_property? {cs : List Char} {r : Reference} (h : property? cs = some r) :
    ∃ raw rest, r = property raw ∧ cs = r.chars ++ rest := by
  obtain ⟨raw, rest, rfl, rfl, -, -⟩ := property?_eq_some_iff.mp h
  refine ⟨raw, rest, rfl, ?_⟩
  rw [chars_property, List.append_assoc, List.append_assoc, List.singleton_append]

/-- A reference stands where it is read. -/
lemma chars_append_drop {c : Char} {cs : List Char} {r : Reference} (h : any? (c :: cs) = some r) :
    r.chars ++ cs.drop (r.chars.length - 1) = c :: cs := by
  obtain ⟨rest, hrest⟩ : ∃ rest, c :: cs = r.chars ++ rest := by
    unfold any? at h
    cases hpath : path? (c :: cs) with
    | some r' =>
      rw [hpath] at h
      cases h
      obtain ⟨_, rest, -, hrest⟩ := exists_of_path? hpath
      exact ⟨rest, hrest⟩
    | none =>
      rw [hpath] at h
      obtain ⟨_, rest, -, hrest⟩ := exists_of_property? h
      exact ⟨rest, hrest⟩
  have hpos : r.chars.length = r.chars.length - 1 + 1 := by
    cases r with
    | path raw => rfl
    | property raw => rfl
  have hdrop : cs.drop (r.chars.length - 1) = rest := by
    calc cs.drop (r.chars.length - 1)
        = (c :: cs).drop (r.chars.length - 1 + 1) := rfl
      _ = (r.chars ++ rest).drop r.chars.length := by rw [← hpos, hrest]
      _ = rest := List.drop_left
  rw [hdrop, hrest]

/-- Where no reference is read, there is none to a custom property. -/
lemma property?_of_any?_eq_none {cs : List Char} (h : any? cs = none) : property? cs = none := by
  unfold any? at h
  cases hpath : path? cs with
  | some r =>
    rw [hpath] at h
    cases h
  | none =>
    rw [hpath] at h
    exact h

/-- Where no reference is read, there is no quoted path. -/
lemma path?_of_any?_eq_none {cs : List Char} (h : any? cs = none) : path? cs = none := by
  unfold any? at h
  cases hpath : path? cs with
  | some r =>
    rw [hpath] at h
    cases h
  | none => rfl

end Reference

/-- A text is made of its pieces. -/
lemma flatMap_chars_pieces (cs : List Char) :
    (pieces Reference.any? cs).flatMap Piece.chars = cs := by
  induction cs using pieces.induct Reference.any? with
  | case1 =>
    rw [pieces]
    rfl
  | case2 c cs r hread ih =>
    rw [pieces, hread]
    dsimp only
    rw [List.flatMap_cons, ih]
    exact Reference.chars_append_drop hread
  | case3 c rest hnone ih =>
    rw [pieces_cons_of_none hnone, List.flatMap_cons, ih]
    rfl

/-- A character that stands for itself begins no reference to a custom property. -/
lemma property?_of_suffix_pieces {cs : List Char} {c : Char} {after : List Piece}
    (h : .plain c :: after <:+ pieces Reference.any? cs) :
    Reference.property? (c :: after.flatMap Piece.chars) = none := by
  induction cs using pieces.induct Reference.any? with
  | case1 =>
    rw [pieces] at h
    cases List.suffix_nil.mp h
  | case2 d cs r hread ih =>
    rw [pieces, hread] at h
    rcases List.suffix_cons_iff.mp h with heq | h
    · cases heq
    · exact ih h
  | case3 d rest hnone ih =>
    rw [pieces_cons_of_none hnone] at h
    rcases List.suffix_cons_iff.mp h with heq | h
    · obtain ⟨hc, rfl⟩ := List.cons.inj heq
      cases hc
      rw [flatMap_chars_pieces]
      exact Reference.property?_of_any?_eq_none hnone
    · exact ih h

/-! ## Quoted paths among the pieces -/

/-- Without quotes in the references to custom properties, the quoted paths that are read on their
own are those that are read beside them. -/
lemma flatMap_path_pieces {cs : List Char} {word : Reference → List Char}
    (hquotes : ∀ raw, .reference (.property raw) ∈ pieces Reference.any? cs → '\'' ∉ raw)
    (hword : ∀ raw, word (.property raw) = (Reference.property raw).chars) :
    (pieces Reference.path? cs).flatMap (Piece.charsWith word) =
      (pieces Reference.any? cs).flatMap (Piece.charsWith word) := by
  have hplain : ∀ before rest : List Char, '\'' ∉ before →
      (pieces Reference.path? (before ++ rest)).flatMap (Piece.charsWith word) =
        before ++ (pieces Reference.path? rest).flatMap (Piece.charsWith word) := by
    intro before rest hbefore
    induction before with
    | nil => rfl
    | cons c before ih =>
      obtain ⟨hc, hbefore⟩ := not_or.mp (mt List.mem_cons.mpr hbefore)
      have hnone : Reference.path? (c :: (before ++ rest)) = none := by
        unfold Reference.path?
        split
        · next heq => exact absurd (List.cons.inj heq).1.symm hc
        · rfl
      rw [List.cons_append, pieces_cons_of_none hnone, List.flatMap_cons, ih hbefore]
      rfl
  induction cs using pieces.induct Reference.any? with
  | case1 =>
    rw [pieces, pieces]
  | case2 c cs r hread ih =>
    have hpieces : pieces Reference.any? (c :: cs) =
        .reference r :: pieces Reference.any? (cs.drop (r.chars.length - 1)) := by
      rw [pieces, hread]
    rw [hpieces] at hquotes ⊢
    have hlater := ih fun raw hraw => hquotes raw (List.mem_cons_of_mem _ hraw)
    rw [List.flatMap_cons, ← hlater]
    cases r with
    | path raw =>
      have hpath : Reference.path? (c :: cs) = some (.path raw) := by
        unfold Reference.any? at hread
        cases hpath : Reference.path? (c :: cs) with
        | some r' =>
          rw [hpath] at hread
          exact hread
        | none =>
          rw [hpath] at hread
          obtain ⟨_, _, heq, -⟩ := Reference.exists_of_property? hread
          cases heq
      rw [pieces, hpath]
      rfl
    | property raw =>
      have hraw := hquotes raw List.mem_cons_self
      have hchars : '\'' ∉ (Reference.property raw).chars := by
        intro hmem
        rcases List.mem_append.mp hmem with hmem | hmem
        · rcases List.mem_append.mp hmem with hmem | hmem
          · exact absurd hmem (by decide)
          · exact hraw hmem
        · exact absurd hmem (by decide)
      rw [← Reference.chars_append_drop hread, hplain _ _ hchars]
      show _ = word (.property raw) ++ _
      rw [hword]
  | case3 c rest hnone ih =>
    rw [pieces_cons_of_none (Reference.path?_of_any?_eq_none hnone), pieces_cons_of_none hnone,
      List.flatMap_cons, List.flatMap_cons, ih fun raw hraw => hquotes raw (by
        rw [pieces_cons_of_none hnone]
        exact List.mem_cons_of_mem _ hraw)]

/-! ## Characters of names -/

/-- Punctuation is no word character. -/
lemma punctuation?_of_isWord {c : Char} (hc : isWord c = true) : Lexeme.punctuation? c = none := by
  have hne : ∀ d : Char, isWord d = false → c ≠ d := by
    rintro d hd rfl
    cases hc.symm.trans hd
  unfold Lexeme.punctuation?
  rw [if_neg (hne _ (by decide)), if_neg (hne _ (by decide)), if_neg (hne _ (by decide)),
    if_neg (hne _ (by decide)), if_neg (hne _ (by decide)), if_neg (hne _ (by decide)),
    if_neg (hne _ (by decide))]

/-- What begins with a word character is an operand. -/
lemma isOperand_of_begin? {c : Char} {cs : List Char} {kind : LexKind} {more : ℕ}
    (hc : isWord c = true) (h : begin? c cs = some (kind, more)) : IsOperand kind := by
  unfold begin? at h
  dsimp only at h
  split_ifs at h
  · cases h
    exact Or.inl rfl
  · cases h
    exact Or.inr rfl
  · rw [punctuation?_of_isWord hc] at h
    cases h

/-- Only a closing parenthesis is a lexeme of this kind. -/
lemma eq_of_begin?_rightParen {c : Char} {cs : List Char} {more : ℕ}
    (h : begin? c cs = some (.rightParen, more)) : c = ')' := by
  unfold begin? Lexeme.punctuation? at h
  dsimp only at h
  split_ifs at h with h₁ h₂ h₃ h₄ h₅ h₆ h₇ h₈ h₉
  all_goals first | exact h₈ | cases h

/-- A closing parenthesis among the lexemes of a text stands in the text. -/
lemma mem_of_rightParen_mem {cs : List Char} {own : List Shape} (hown : shapes? cs = some own)
    (h : .rightParen ∈ own.map Prod.fst) : ')' ∈ cs := by
  induction hlength : cs.length using Nat.strong_induction_on generalizing cs own with
  | _ n ih =>
    cases cs with
    | nil =>
      rw [Lexeme.shapes?_nil] at hown
      cases hown
      cases h
    | cons c cs =>
      cases hspace : isSpace c with
      | true =>
        rw [Lexeme.shapes?_space hspace] at hown
        exact List.mem_cons_of_mem _ (ih cs.length (by simp [← hlength]) hown h rfl)
      | false =>
        obtain ⟨kind, more, own', hbegin, hown', rfl⟩ := CalcSyntax.exists_of_shapes? hspace hown
        rcases List.mem_cons.mp h with hkind | h
        · obtain rfl : LexKind.rightParen = kind := hkind
          rw [eq_of_begin?_rightParen hbegin]
          exact List.mem_cons_self
        · have hshorter : (cs.drop more).length < n := by
            rw [← hlength, List.length_drop, List.length_cons]
            omega
          exact List.mem_cons_of_mem _ (List.mem_of_mem_drop (ih _ hshorter hown' h rfl))

/-! ## The kinds of marks -/

namespace Calculation

/-- The kind of a mark; a reference is an identifier. -/
def Mark.kind : Mark → LexKind
  | .own shape => shape.1
  | .reference _ => .ident

/-- The kinds of the lexemes of marks. -/
lemma map_fst_shapeWith (word : Reference → List Char) (marks : List Mark) :
    (marks.map (Mark.shapeWith word)).map Prod.fst = marks.map Mark.kind := by
  rw [List.map_map]
  refine congrArg (List.map · marks) (funext fun mark => ?_)
  cases mark <;> rfl

/-- The kinds of the marks of a run are those of its lexemes. -/
lemma map_kind_own (own : List Shape) : (own.map Mark.own).map Mark.kind = own.map Prod.fst := by
  rw [List.map_map]
  rfl

variable {run : List Char} {later : List Piece} {marks : List Mark}

/-- A closing parenthesis among the marks stands in the text. -/
lemma mem_of_rightParen_mem_kinds (hmarks : marksFrom run later = some marks)
    (h : .rightParen ∈ marks.map Mark.kind) : ')' ∈ run ++ later.flatMap Piece.chars := by
  induction later generalizing run marks with
  | nil =>
    obtain ⟨own, hown, rfl⟩ := Option.map_eq_some_iff.mp hmarks
    rw [map_kind_own] at h
    exact List.mem_append_left _ (mem_of_rightParen_mem hown h)
  | cons piece later ih =>
    cases piece with
    | plain c =>
      have hmem := ih hmarks h
      rwa [List.append_assoc] at hmem
    | reference r =>
      obtain ⟨before, hbefore, hlater⟩ := Option.bind_eq_some_iff.mp hmarks
      obtain ⟨after, hafter, rfl⟩ := Option.map_eq_some_iff.mp hlater
      rw [List.map_append, map_kind_own, List.mem_append] at h
      rcases h with h | h
      · exact List.mem_append_left _ (mem_of_rightParen_mem hbefore h)
      · rcases List.mem_cons.mp h with h | h
        · cases h
        · exact List.mem_append_right _ (List.mem_append_right _ (ih hafter h))

/-- What begins with a word character begins with an operand. -/
lemma exists_isOperand_of_isWord {c : Char} (hc : isWord c = true)
    (hmarks : marksFrom (c :: run) later = some marks) :
    ∃ k ∈ (marks.map Mark.kind).head?, IsOperand k := by
  have hfirst : ∀ {cs own}, shapes? (c :: cs) = some own →
      ∃ k kinds, own.map Prod.fst = k :: kinds ∧ IsOperand k := by
    intro cs own hown
    obtain ⟨kind, more, own', hbegin, -, rfl⟩ :=
      CalcSyntax.exists_of_shapes? (Lexeme.isSpace_of_isWord hc) hown
    exact ⟨kind, _, rfl, isOperand_of_begin? hc hbegin⟩
  induction later generalizing run marks with
  | nil =>
    obtain ⟨own, hown, rfl⟩ := Option.map_eq_some_iff.mp hmarks
    obtain ⟨k, kinds, hkinds, hk⟩ := hfirst hown
    rw [map_kind_own, hkinds]
    exact ⟨k, rfl, hk⟩
  | cons piece later ih =>
    cases piece with
    | plain d => exact ih hmarks
    | reference r =>
      obtain ⟨before, hbefore, hlater⟩ := Option.bind_eq_some_iff.mp hmarks
      obtain ⟨after, -, rfl⟩ := Option.map_eq_some_iff.mp hlater
      obtain ⟨k, kinds, hkinds, hk⟩ := hfirst hbefore
      rw [List.map_append, map_kind_own, hkinds]
      exact ⟨k, rfl, hk⟩

end Calculation

namespace CalcSyntax

open Calculation (Mark marksFrom)

variable {language : CalcSyntax}

/-! ## References of the language -/

/-- A name that a reference of a language can hold. -/
def Legible : CalcSyntax → List Char → Prop
  | .css, name => name ≠ [] ∧ ')' ∉ name
  | .scss, name => name ≠ [] ∧ ∀ c ∈ name, isVariableChar c = true

instance (language : CalcSyntax) (name : List Char) : Decidable (language.Legible name) :=
  match language with
  | .css => inferInstanceAs (Decidable (name ≠ [] ∧ ')' ∉ name))
  | .scss => inferInstanceAs (Decidable (name ≠ [] ∧ ∀ c ∈ name, isVariableChar c = true))

/-- A text that does not continue the name of a variable. -/
def StopsVariable (rest : List Char) : Prop :=
  ∀ c ∈ rest.head?, isVariableChar c = false

/-- A reference to a custom property is one operand. -/
lemma readShapes?_property {raw : List Char} (hne : raw ≠ []) (hclosing : ')' ∉ raw)
    (rest : List Char) :
    readShapes? language ((Reference.property raw).chars ++ rest) =
      (readShapes? language rest).map
        ((LexKind.ident, String.ofList (Reference.property raw).chars) :: ·) := by
  have hchars : (Reference.property raw).chars ++ rest =
      Reference.opening ++ (raw ++ ')' :: rest) := by
    rw [Reference.chars_property, List.append_assoc, List.append_assoc, List.singleton_append]
  have hread : Reference.property? ((Reference.property raw).chars ++ rest) =
      some (.property raw) :=
    Reference.property?_eq_some_iff.mpr ⟨raw, rest, rfl, hchars, hne, hclosing⟩
  have hatom : language.atom? ((Reference.property raw).chars ++ rest) =
      some (Reference.property raw).chars := by
    unfold atom?
    rw [hread]
    rfl
  exact readShapes?_of_atom? (c := 'v') (by decide) hatom

/-- A variable of SCSS is one operand where its name does not go on. -/
lemma readShapes?_scssVariable {name rest : List Char} (hname : Legible .scss name)
    (hrest : StopsVariable rest) :
    readShapes? .scss ('$' :: (name ++ rest)) =
      (readShapes? .scss rest).map ((LexKind.ident, String.ofList ('$' :: name)) :: ·) := by
  have htake : (name ++ rest).takeWhile isVariableChar = name := by
    rw [Lexeme.takeWhile_append_of_stops hrest]
    exact List.takeWhile_eq_self_iff.mpr hname.2
  have hatom : atom? .scss ('$' :: (name ++ rest)) = some ('$' :: name) := by
    have hproperty : Reference.property? ('$' :: (name ++ rest)) = none :=
      Reference.property?_eq_none fun _ heq => absurd (List.cons.inj heq).1 (by decide)
    have hempty : ¬ name.isEmpty = true := by
      rw [List.isEmpty_iff]
      exact hname.1
    unfold atom? scssVariable?
    rw [hproperty]
    simp only [htake, if_neg hempty]
    rfl
  exact readShapes?_of_atom? (by decide) hatom

/-- A reference of the language is one operand where its name does not go on. -/
lemma readShapes?_reference {name : String} {rest : List Char}
    (hname : language.Legible name.toList) (hrest : language = .scss → StopsVariable rest) :
    readShapes? language ((language.reference name).toList ++ rest) =
      (readShapes? language rest).map ((LexKind.ident, language.reference name) :: ·) := by
  cases language with
  | css =>
    have hchars : (CssName.reference name).toList = (Reference.property name.toList).chars :=
      (WrittenPart.toList_reference name).trans (Reference.chars_property _).symm
    have hread : readShapes? .css ((Reference.property name.toList).chars ++ rest) = _ :=
      readShapes?_property hname.1 hname.2 rest
    rw [← hchars, String.ofList_toList] at hread
    exact hread
  | scss =>
    have hchars : (reference .scss name).toList = '$' :: name.toList := by
      show ("$" ++ name).toList = _
      rw [String.toList_append]
      rfl
    have hread := readShapes?_scssVariable hname (hrest rfl)
    rw [← hchars, String.ofList_toList] at hread
    rw [hchars]
    exact hread

/-! ## Nothing else is read -/

/-- An opening of a reference is a function and a parenthesis. -/
lemma shapes?_opening {rest : List Char} {own : List Shape}
    (h : shapes? (Reference.opening ++ rest) = some own) :
    ∃ word paren own', own = (LexKind.ident, word) :: (LexKind.leftParen, paren) :: own' ∧
      shapes? ('-' :: '-' :: rest) = some own' := by
  have hstops : Lexeme.StopsIdent ('(' :: '-' :: '-' :: rest) := by
    intro d hd
    obtain rfl := Option.some.inj hd
    decide
  have hword : shapes? ('v' :: (['a', 'r'] ++ '(' :: '-' :: '-' :: rest)) = _ :=
    Lexeme.shapes?_ident (by decide) (List.all_eq_true.mp (by decide)) hstops
  have hparen : shapes? ('(' :: '-' :: '-' :: rest) =
      (shapes? ('-' :: '-' :: rest)).map ((LexKind.leftParen, "(") :: ·) :=
    Lexeme.shapes?_of_begin? (by decide)
      (rfl : Lexeme.begin? '(' ('-' :: '-' :: rest) = some (.leftParen, 0))
  rw [hparen] at hword
  have hown : shapes? (Reference.opening ++ rest) = _ := hword
  rw [h] at hown
  cases hlater : shapes? ('-' :: '-' :: rest) with
  | none =>
    rw [hlater] at hown
    cases hown
  | some own' =>
    rw [hlater] at hown
    cases hown
    exact ⟨_, _, own', rfl, rfl⟩

/-- Where the text of a calculation begins no reference to a custom property, what is written begins
none either: the opening would be a parenthesis that is never closed. -/
lemma property?_append_eq_none {after tail origin : List Char} {own : List Shape}
    {later : List LexKind} (htail : StopsRun tail) (hne : after ≠ [])
    (hown : shapes? after = some own) (horder : Orderly (own.map Prod.fst ++ later))
    (hnone : Reference.property? (after ++ origin) = none)
    (horigin : ∀ c ∈ origin.head?, c ≠ ')') (hlater : .rightParen ∈ later → ')' ∈ origin) :
    Reference.property? (after ++ tail) = none := by
  cases hread : Reference.property? (after ++ tail) with
  | none => rfl
  | some r =>
    obtain ⟨raw, rest, rfl, htext, hraw, hclosing⟩ := Reference.property?_eq_some_iff.mp hread
    obtain ⟨more, rfl, hmore⟩ : ∃ more, after = Reference.opening ++ more ∧
        raw ++ ')' :: rest = more ++ tail := by
      rcases List.append_eq_append_iff.mp htext with ⟨gap, hopening, hgap⟩ | ⟨more, hafter, hmore⟩
      · cases gap with
        | nil => exact ⟨[], by rw [List.append_nil] at hopening; rw [hopening, List.append_nil],
            hgap.symm⟩
        | cons d gap =>
          -- What follows the text begins with no character that is inside an opening.
          obtain ⟨c, after, rfl⟩ := List.exists_cons_of_ne_nil hne
          have hinside : d ∈ "ar(--".toList := by
            rw [Reference.opening_eq] at hopening
            rw [(List.cons.inj hopening).2]
            exact List.mem_append_right _ List.mem_cons_self
          rcases htail d (by rw [hgap]; rfl) with rfl | rfl | rfl <;>
            exact absurd hinside (by decide)
      · exact ⟨more, hafter, hmore⟩
    have hopen : ')' ∉ more ++ origin := by
      intro hmem
      obtain ⟨raw', later', hsplit, hraw'⟩ := List.eq_append_cons_of_mem hmem
      have hempty : raw' = [] := by
        by_contra hne'
        have hsome : Reference.property? (Reference.opening ++ more ++ origin) =
            some (.property raw') :=
          Reference.property?_eq_some_iff.mpr
            ⟨raw', later', rfl, by rw [List.append_assoc, hsplit], hne', hraw'⟩
        cases hnone.symm.trans hsome
      rw [hempty, List.nil_append] at hsplit
      cases more with
      | nil => exact horigin ')' (by rw [← List.nil_append origin, hsplit]; rfl) rfl
      | cons d more =>
        obtain rfl : d = ')' := (List.cons.inj hsplit).1
        obtain ⟨c, raw, rfl⟩ := List.exists_cons_of_ne_nil hraw
        rw [(List.cons.inj hmore).1] at hclosing
        exact hclosing List.mem_cons_self
    obtain ⟨word, paren, own', rfl, hown'⟩ := shapes?_opening hown
    rcases List.mem_append.mp horder.tail.rightParen_mem with hmem | hmem
    · have hchars := mem_of_rightParen_mem hown' hmem
      simp only [List.mem_cons] at hchars
      rcases hchars with h | h | h
      · exact absurd h (by decide)
      · exact absurd h (by decide)
      · exact absurd (List.mem_append_left _ h) hopen
    · exact absurd (List.mem_append_right _ (hlater hmem)) hopen

/-! ## The written marks -/

variable {word : Reference → List Char} {tail run : List Char} {later : List Piece}
  {marks : List Mark}

/-- A reference is written so that it is read as one operand. -/
structure Reads (language : CalcSyntax) (word : Reference → List Char) (r : Reference) : Prop where
  begins : ∃ c rest, word r = c :: rest ∧ (c = 'v' ∨ c = '$')
  reads : ∀ rest, (language = .scss → (∃ raw, r = .path raw) → StopsVariable rest) →
    readShapes? language (word r ++ rest) =
      (readShapes? language rest).map ((LexKind.ident, String.ofList (word r)) :: ·)

/-- A variable is followed by no character that would continue its name. -/
lemma stopsVariable_written (hmarks : marksFrom [] later = some marks)
    (horder : Orderly (.ident :: marks.map Mark.kind)) (htail : tail.head? = some ' ')
    (hminus : ∀ rest, later ≠ .plain '-' :: rest) :
    StopsVariable (later.flatMap (Piece.charsWith word) ++ tail) := by
  intro d hd
  cases later with
  | nil =>
    rw [List.flatMap_nil, List.nil_append, htail] at hd
    obtain rfl := Option.some.inj hd
    decide
  | cons piece later =>
    cases piece with
    | plain c =>
      obtain rfl : c = d := Option.some.inj hd
      unfold isVariableChar
      rw [Bool.or_eq_false_iff]
      constructor
      · refine Bool.eq_false_iff.mpr fun hword => ?_
        obtain ⟨k, hk, hoperand⟩ := Calculation.exists_isOperand_of_isWord hword hmarks
        cases hkinds : marks.map Mark.kind with
        | nil =>
          rw [hkinds] at hk
          cases hk
        | cons k' kinds =>
          rw [hkinds] at hk horder
          obtain rfl : k' = k := Option.some.inj hk
          exact horder.not_isOperand (Or.inr rfl) hoperand
      · exact beq_eq_false_iff_ne.mpr fun heq => hminus later (by rw [heq])
    | reference r =>
      obtain ⟨before, hbefore, hlater⟩ := Option.bind_eq_some_iff.mp hmarks
      obtain ⟨after, -, rfl⟩ := Option.map_eq_some_iff.mp hlater
      rw [Lexeme.shapes?_nil] at hbefore
      cases hbefore
      exact absurd (Or.inr rfl) (horder.not_isOperand (Or.inr rfl))

/-- Written and read again, the text of a calculation has the marks of the calculation, and after
them come the lexemes of what is written behind it. -/
theorem readShapes?_marks (hmarks : marksFrom run later = some marks)
    (horder : Orderly (marks.map Mark.kind))
    (hplain : ∀ c after, .plain c :: after <:+ run.map .plain ++ later →
      Reference.property? (c :: after.flatMap Piece.chars) = none)
    (hwords : ∀ r, .reference r ∈ later → Reads language word r)
    (hminus : language = .scss → ∀ raw, ¬ [.reference (.path raw), .plain '-'] <:+: later)
    (htail : tail.head? = some ' ') :
    readShapes? language (run ++ (later.flatMap (Piece.charsWith word) ++ tail)) =
      (readShapes? language tail).map (marks.map (Mark.shapeWith word) ++ ·) := by
  have hstops : StopsRun tail := by
    intro c hc
    rw [htail] at hc
    exact Or.inr (Or.inr (Option.some.inj hc).symm)
  have hsuffix : ∀ {run later : List _}, (∀ c after, .plain c :: after <:+ run.map .plain ++ later →
      Reference.property? (c :: after.flatMap Piece.chars) = none) → ∀ after, after <:+ run →
      after ≠ [] → Reference.property? (after ++ later.flatMap Piece.chars) = none := by
    intro run later hplain after hafter hne
    obtain ⟨before, rfl⟩ := hafter
    obtain ⟨c, after, rfl⟩ := List.exists_cons_of_ne_nil hne
    have hnone := hplain c (after.map .plain ++ later)
      ⟨before.map .plain, by rw [List.map_append, List.append_assoc]; rfl⟩
    have hchars : (after.map Piece.plain).flatMap Piece.chars = after := by
      rw [List.flatMap_map]
      exact List.flatMap_singleton' after
    rwa [List.flatMap_append, hchars] at hnone
  induction later generalizing run marks with
  | nil =>
    obtain ⟨own, hown, rfl⟩ := Option.map_eq_some_iff.mp hmarks
    rw [Calculation.map_kind_own, ← List.append_nil (own.map Prod.fst)] at horder
    have hrun : readShapes? language (run ++ tail) =
        (readShapes? language tail).map (own ++ ·) := readShapes?_run hstops
      (fun hv => by rw [htail] at hv; cases hv)
      (fun after own' hafter hne hown' horder' => property?_append_eq_none hstops hne hown' horder'
        (hsuffix hplain after hafter hne) (by nofun) (by nofun)) hown horder
    rw [List.flatMap_nil, List.nil_append, hrun, List.map_map]
    exact congrArg (fun shapes => (readShapes? language tail).map (shapes ++ ·))
      (List.map_id own).symm
  | cons piece later ih =>
    cases piece with
    | plain c =>
      have hlater := ih hmarks horder (by simpa using hplain)
        (fun r hr => hwords r (List.mem_cons_of_mem _ hr))
        (fun hscss raw hpart => hminus hscss raw (hpart.trans (List.suffix_cons _ _).isInfix))
      rwa [List.append_assoc] at hlater
    | reference r =>
      obtain ⟨before, hbefore, hrest⟩ := Option.bind_eq_some_iff.mp hmarks
      obtain ⟨after, hafter, rfl⟩ := Option.map_eq_some_iff.mp hrest
      have hreads := hwords r List.mem_cons_self
      rw [List.map_append, Calculation.map_kind_own, List.map_cons] at horder
      have hinside : later <:+ run.map .plain ++ .reference r :: later :=
        (List.suffix_cons _ later).trans (List.suffix_append _ _)
      have hlater := @ih [] after hafter horder.of_append.tail
        (fun c after hsuffix => hplain c after (hsuffix.trans hinside))
        (fun r hr => hwords r (List.mem_cons_of_mem _ hr))
        (fun hscss raw hpart => hminus hscss raw (hpart.trans (List.suffix_cons _ _).isInfix))
      rw [List.nil_append] at hlater
      have hreference := hreads.reads (later.flatMap (Piece.charsWith word) ++ tail) (by
        rintro hscss ⟨raw, rfl⟩
        refine stopsVariable_written hafter horder.of_append htail fun rest hrest => ?_
        exact hminus hscss raw ⟨[], rest, by rw [hrest]; rfl⟩)
      have hstops' : StopsRun (word r ++ (later.flatMap (Piece.charsWith word) ++ tail)) := by
        obtain ⟨c, rest, hword, hc⟩ := hreads.begins
        rw [hword]
        intro d hd
        obtain rfl := Option.some.inj hd
        exact hc.imp_right Or.inl
      have hrun : readShapes? language (run ++ (word r ++ (_ ++ tail))) = _ :=
        readShapes?_run hstops' (fun _ => ⟨_, rfl, Or.inr rfl⟩)
        (fun after' own' hsuffix' hne hown' horder' => property?_append_eq_none hstops' hne hown'
          horder' (hsuffix hplain after' hsuffix' hne) (by
            cases r <;> exact fun c hc => by cases hc; decide) (by
            intro hmem
            rcases List.mem_cons.mp hmem with hmem | hmem
            · cases hmem
            · exact List.mem_append_right _
                (Calculation.mem_of_rightParen_mem_kinds hafter hmem)))
        hbefore horder
      have hchars : (Piece.reference r :: later).flatMap (Piece.charsWith word) =
          word r ++ later.flatMap (Piece.charsWith word) := List.flatMap_cons
      rw [hchars, List.append_assoc, hrun, hreference, hlater]
      have hshapes : (before.map Mark.own).map (Mark.shapeWith word) = before := by
        rw [List.map_map]
        exact List.map_id before
      cases readShapes? language tail with
      | none => rfl
      | some shapes => simp [hshapes, Mark.shapeWith]

end CalcSyntax

end DesignTokens

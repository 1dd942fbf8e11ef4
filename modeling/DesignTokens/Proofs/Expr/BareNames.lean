import DesignTokens.Proofs.Expr.Marks
import DesignTokens.Proofs.Expr.Outcomes
import DesignTokens.Proofs.Expr.Parsing

/-!
# Names that are written in calculations

A calculation reads values through its references.  An identifier that its writer writes himself is
the name of a function if an opening parenthesis follows and a bare name otherwise
(`Calculation.bareNames`).  The bare names of a text are the names in its tree
(`Expr.Grammar.Derivation.mem_names_iff`), and a name has a value only if it is one of the
identifiers that stand for references.  A bare name that is none of these takes the value of the
calculation away; one that is spelled like the identifier of a reference reads the value of that
reference (`Calculation.bareNames_read`).
-/

namespace DesignTokens

open Lexeme (Shape)

/-! ## Bare names of lexemes -/

namespace Lexeme

/-- A list of lexemes that begins with an opening parenthesis. -/
def opens : List Shape → Bool
  | (kind, _) :: _ => kind = .leftParen
  | [] => false

/-- The identifiers of a list of lexemes that no opening parenthesis follows. -/
def bareNames : List Shape → List String
  | [] => []
  | (kind, text) :: rest =>
    if kind = .ident ∧ opens rest = false then text :: bareNames rest else bareNames rest

/-- A lexeme that is no identifier is no bare name. -/
lemma bareNames_cons_of_ne {t : Lexeme} (ht : t.kind ≠ .ident) (rest : List Shape) :
    bareNames (t.shape :: rest) = bareNames rest :=
  if_neg fun h => ht h.1

/-- An identifier before an opening parenthesis is no bare name. -/
lemma bareNames_cons_of_opens {t : Lexeme} {rest : List Shape} (h : opens rest = true) :
    bareNames (t.shape :: rest) = bareNames rest :=
  if_neg fun h' => Bool.noConfusion (h.symm.trans h'.2)

/-- An identifier before anything else is a bare name. -/
lemma bareNames_cons_of_ident {t : Lexeme} (ht : t.kind = .ident) {rest : List Shape}
    (h : opens rest = false) : bareNames (t.shape :: rest) = t.text :: bareNames rest :=
  if_pos ⟨ht, h⟩

end Lexeme

/-! ## The names of a tree -/

namespace Expr

variable {n : String}

/-- A number has no names in it. -/
lemma isPart_name_number {x : Float} : ¬ IsPart (.name n) (.number x) := nofun

/-- A name has no other name in it. -/
lemma isPart_name_name {m : String} : IsPart (.name n) (.name m) ↔ n = m := by
  constructor
  · intro h
    cases h
    rfl
  · rintro rfl
    exact IsPart.self _

/-- The names in a signed operand. -/
lemma isPart_name_unary {op : UnaryOp} {e : Expr} :
    IsPart (.name n) (.unary op e) ↔ IsPart (.name n) e := by
  constructor
  · intro h
    cases h with
    | operand _ h => exact h
  · exact IsPart.operand op

/-- The names in two operands. -/
lemma isPart_name_binary {op : BinaryOp} {l r : Expr} :
    IsPart (.name n) (.binary op l r) ↔ IsPart (.name n) l ∨ IsPart (.name n) r := by
  constructor
  · intro h
    cases h with
    | left _ _ h => exact Or.inl h
    | right _ _ h => exact Or.inr h
  · rintro (h | h)
    · exact h.left op r
    · exact h.right op l

/-- The names in the arguments of a call. -/
lemma isPart_name_call {function : String} {arguments : List Expr} :
    IsPart (.name n) (.call function arguments) ↔ ∃ e ∈ arguments, IsPart (.name n) e := by
  constructor
  · intro h
    cases h with
    | argument _ he h => exact ⟨_, he, h⟩
  · rintro ⟨e, he, h⟩
    exact h.argument function he

namespace Grammar

open ParseState (NotOpening)

namespace Derivation

/-- The names that a derivation derives, from left to right. -/
def names {c : Category} : Derivation c → List String
  | expr first rest => first.names ++ rest.names
  | exprEnd => []
  | exprMore _ _ _ operand rest => operand.names ++ rest.names
  | term first rest => first.names ++ rest.names
  | termEnd => []
  | termMore _ _ _ operand rest => operand.names ++ rest.names
  | sign _ _ _ operand => operand.names
  | plain operand => operand.names
  | number _ _ _ _ => []
  | name t _ => [t.text]
  | call _ _ _ _ arguments _ _ => arguments.names
  | group _ _ inner _ _ => inner.names
  | noArguments => []
  | someArguments first rest => first.names ++ rest.names
  | argumentsEnd => []
  | argumentsMore _ _ argument rest => argument.names ++ rest.names

end Derivation

/-- A list of lexemes that does not begin with an opening parenthesis. -/
lemma opens_of_notOpening {ls : List Lexeme} (h : NotOpening ls) :
    Lexeme.opens (ls.map Lexeme.shape) = false := by
  cases ls with
  | nil => rfl
  | cons t ls => exact decide_eq_false (h t rfl)

/-- A closing parenthesis does not open. -/
lemma notOpening_closing {t : Lexeme} (ht : t.kind = .rightParen) (rest : List Lexeme) :
    NotOpening (t :: rest) := by
  intro u hu
  obtain rfl : t = u := Option.some.inj hu
  rw [ht]
  decide

/-- A kind of lexemes that stands for an operator or a sign is not that of identifiers. -/
lemma ne_ident_of_eq_some {α : Type} {read : LexKind → Option α} (hread : read .ident = none)
    {k : LexKind} {a : α} (h : read k = some a) : k ≠ .ident := by
  rintro rfl
  cases hread.symm.trans h

/-- The names of a derivation are the bare names of its lexemes. -/
theorem Derivation.bareNames_yield {c : Category} (D : Derivation c) {rest : List Lexeme}
    (hrest : NotOpening rest) :
    Lexeme.bareNames ((D.yield ++ rest).map Lexeme.shape) =
      D.names ++ Lexeme.bareNames (rest.map Lexeme.shape) := by
  induction D generalizing rest with
  | number t ht numeral hn =>
    exact Lexeme.bareNames_cons_of_ne (by rw [ht]; decide) _
  | name t ht => exact Lexeme.bareNames_cons_of_ident ht (opens_of_notOpening hrest)
  | plain operand ih => exact ih hrest
  | sign t op ht operand ih =>
    have hkind : t.kind ≠ .ident := ne_ident_of_eq_some rfl ht
    rw [yield, List.cons_append, List.map_cons, Lexeme.bareNames_cons_of_ne hkind, ih hrest, names]
  | termEnd => rfl
  | exprEnd => rfl
  | argumentsEnd => rfl
  | noArguments => rfl
  | termMore t op ht operand more ihoperand ihmore =>
    have hkind : t.kind ≠ .ident := ne_ident_of_eq_some rfl ht
    rw [yield, List.cons_append, List.append_assoc, List.map_cons,
      Lexeme.bareNames_cons_of_ne hkind, ihoperand (more.notOpening rfl rest hrest), ihmore hrest,
      names, List.append_assoc]
  | exprMore t op ht operand more ihoperand ihmore =>
    have hkind : t.kind ≠ .ident := ne_ident_of_eq_some rfl ht
    rw [yield, List.cons_append, List.append_assoc, List.map_cons,
      Lexeme.bareNames_cons_of_ne hkind, ihoperand (more.notOpening rfl rest hrest), ihmore hrest,
      names, List.append_assoc]
  | argumentsMore t ht argument more ihargument ihmore =>
    have hkind : t.kind ≠ .ident := by
      rw [ht]
      decide
    rw [yield, List.cons_append, List.append_assoc, List.map_cons,
      Lexeme.bareNames_cons_of_ne hkind, ihargument (more.notOpening rfl rest hrest), ihmore hrest,
      names, List.append_assoc]
  | term first more ihfirst ihmore =>
    rw [yield, List.append_assoc, ihfirst (more.notOpening rfl rest hrest), ihmore hrest, names,
      List.append_assoc]
  | expr first more ihfirst ihmore =>
    rw [yield, List.append_assoc, ihfirst (more.notOpening rfl rest hrest), ihmore hrest, names,
      List.append_assoc]
  | someArguments first more ihfirst ihmore =>
    rw [yield, List.append_assoc, ihfirst (more.notOpening rfl rest hrest), ihmore hrest, names,
      List.append_assoc]
  | group opening ho inner closing hc ih =>
    rw [yield, List.cons_append, List.append_assoc, List.singleton_append, List.map_cons,
      Lexeme.bareNames_cons_of_ne (by rw [ho]; decide), ih (notOpening_closing hc _),
      List.map_cons, Lexeme.bareNames_cons_of_ne (by rw [hc]; decide), names]
  | call t ht opening ho arguments closing hc ih =>
    have hopens : Lexeme.opens ((opening :: (arguments.yield ++ [closing]) ++ rest).map
        Lexeme.shape) = true := decide_eq_true ho
    rw [yield, List.cons_append, List.map_cons, Lexeme.bareNames_cons_of_opens hopens,
      List.cons_append, List.append_assoc, List.singleton_append, List.map_cons,
      Lexeme.bareNames_cons_of_ne (by rw [ho]; decide), ih (notOpening_closing hc _),
      List.map_cons, Lexeme.bareNames_cons_of_ne (by rw [hc]; decide), names]

/-- The names of a category are those in what its derivations stand for. -/
def NamesIn : (c : Category) → List String → c.Meaning → Prop
  | .expr, names, e | .term, names, e | .signed, names, e | .atom, names, e =>
    ∀ n, n ∈ names ↔ IsPart (.name n) e
  | .exprRest, names, f | .termRest, names, f =>
    ∀ e n, IsPart (.name n) e ∨ n ∈ names ↔ IsPart (.name n) (f e)
  | .arguments, names, es | .argumentsRest, names, es =>
    ∀ n, n ∈ names ↔ ∃ e ∈ es, IsPart (.name n) e

/-- The names of a derivation are those in its tree. -/
theorem Derivation.namesIn {c : Category} (D : Derivation c) : NamesIn c D.names D.tree := by
  induction D with
  | number t ht numeral hn => exact fun n => ⟨nofun, fun h => (isPart_name_number h).elim⟩
  | name t ht => exact fun n => List.mem_singleton.trans isPart_name_name.symm
  | plain operand ih => exact ih
  | group opening ho inner closing hc ih => exact ih
  | sign t op ht operand ih => exact fun n => (ih n).trans isPart_name_unary.symm
  | call t ht opening ho arguments closing hc ih =>
    exact fun n => (ih n).trans isPart_name_call.symm
  | termEnd => exact fun e n => by simp [names, tree]
  | exprEnd => exact fun e n => by simp [names, tree]
  | termMore t op ht operand more ihoperand ihmore =>
    intro e n
    rw [tree, ← ihmore, isPart_name_binary, ← ihoperand, names, List.mem_append, or_assoc]
  | exprMore t op ht operand more ihoperand ihmore =>
    intro e n
    rw [tree, ← ihmore, isPart_name_binary, ← ihoperand, names, List.mem_append, or_assoc]
  | term first more ihfirst ihmore =>
    intro n
    rw [tree, ← ihmore, ← ihfirst, names, List.mem_append]
  | expr first more ihfirst ihmore =>
    intro n
    rw [tree, ← ihmore, ← ihfirst, names, List.mem_append]
  | noArguments => exact fun n => by simp [names, tree]
  | argumentsEnd => exact fun n => by simp [names, tree]
  | someArguments first more ihfirst ihmore =>
    intro n
    rw [names, List.mem_append, ihfirst n, ihmore n, tree, List.exists_mem_cons_iff]
  | argumentsMore t ht argument more ihargument ihmore =>
    intro n
    rw [names, List.mem_append, ihargument n, ihmore n, tree, List.exists_mem_cons_iff]

/-- The names in the tree of a text are its bare names. -/
theorem isPart_name_iff {source : String} {tree : Expr} (h : parse source = .ok tree) :
    ∃ shapes, Lexeme.shapes? source.toList = some shapes ∧
      ∀ n, IsPart (.name n) tree ↔ n ∈ Lexeme.bareNames shapes := by
  obtain ⟨ls, hls, D, hyield, htree⟩ := parse_eq_ok.mp h
  refine ⟨ls.map Lexeme.shape, Lexeme.shapes?_eq_some.mpr ⟨ls, hls, rfl⟩, fun n => ?_⟩
  have hnames := D.bareNames_yield (nofun : NotOpening [])
  rw [List.append_nil, hyield, List.map_nil, Lexeme.bareNames, List.append_nil] at hnames
  rw [hnames, ← htree]
  exact (D.namesIn n).symm

end Grammar

end Expr

/-! ## Bare names of calculations -/

namespace Expr

/-- Every call in a calculation is one of a function, with as many arguments as it takes. -/
def CallsFunctions (e : Expr) : Prop :=
  ∀ function arguments, IsPart (.call function arguments) e →
    ∃ f, CalcFunction.IsCalled function arguments.length f

/-- A calculation has a value when its calls are calls of functions and its names have values. -/
lemma exists_hasValue_of_names {values : String → Option Float} {e : Expr}
    (hcalls : e.CallsFunctions) (hnames : ∀ n, IsPart (.name n) e → (values n).isSome = true) :
    ∃ x, HasValue values e x := by
  refine exists_hasValue_iff.mpr fun fault hfault => ?_
  obtain ⟨part, hpart, hfault⟩ := hfault
  cases hfault with
  | @name n hn =>
    have hsome := hnames n hpart
    rw [hn] at hsome
    cases hsome
  | @call function arguments fault hrefuses =>
    obtain ⟨f, hf⟩ := hcalls function arguments hpart
    cases (CalcFunction.forCall_eq_error.mpr hrefuses).symm.trans
      (CalcFunction.forCall_eq_ok.mpr hf)

end Expr

namespace Calculation

/-- Marks that begin with an opening parenthesis. -/
def opens : List Mark → Bool
  | .own (kind, _) :: _ => kind = .leftParen
  | _ => false

/-- The identifiers that are written in a calculation beside its references and that no opening
parenthesis follows. -/
def bareNames : List Mark → List String
  | [] => []
  | .own (kind, text) :: rest =>
    if kind = .ident ∧ opens rest = false then text :: bareNames rest else bareNames rest
  | .reference _ :: rest => bareNames rest

variable {references : List Reference} {text : String} {marks : List Mark}

/-- A reference does not open a parenthesis. -/
lemma opens_map_shape (references : List Reference) (marks : List Mark) :
    Lexeme.opens (marks.map (Mark.shape references)) = opens marks := by
  cases marks with
  | nil => rfl
  | cons mark marks => cases mark <;> rfl

/-- A bare name is a bare name of the text that is parsed. -/
lemma mem_bareNames_of_mem {n : String} (h : n ∈ bareNames marks) :
    n ∈ Lexeme.bareNames (marks.map (Mark.shape references)) := by
  induction marks with
  | nil => cases h
  | cons mark marks ih =>
    cases mark with
    | own shape =>
      obtain ⟨kind, word⟩ := shape
      show n ∈ if kind = .ident ∧ Lexeme.opens (marks.map (Mark.shape references)) = false then _
        else _
      rw [opens_map_shape]
      unfold bareNames at h
      split_ifs at h ⊢ with hbare
      · rcases List.mem_cons.mp h with rfl | h
        · exact List.mem_cons_self
        · exact List.mem_cons_of_mem _ (ih h)
      · exact ih h
    | reference r =>
      have hlater := ih h
      show n ∈ if _ then _ else _
      split_ifs
      · exact List.mem_cons_of_mem _ hlater
      · exact hlater

/-- A bare name of the text that is parsed is a bare name or stands for a reference. -/
lemma mem_bareNames_or {n : String}
    (h : n ∈ Lexeme.bareNames (marks.map (Mark.shape references))) :
    n ∈ bareNames marks ∨ ∃ r, .reference r ∈ marks ∧ n = standIn (references.idxOf r) := by
  induction marks with
  | nil => cases h
  | cons mark marks ih =>
    have hlater : n ∈ Lexeme.bareNames (marks.map (Mark.shape references)) →
        n ∈ bareNames marks ∨ ∃ r, .reference r ∈ mark :: marks ∧
          n = standIn (references.idxOf r) := by
      intro h
      rcases ih h with h | ⟨r, hr, rfl⟩
      · exact Or.inl h
      · exact Or.inr ⟨r, List.mem_cons_of_mem _ hr, rfl⟩
    cases mark with
    | own shape =>
      obtain ⟨kind, word⟩ := shape
      replace h : n ∈ if kind = .ident ∧
          Lexeme.opens (marks.map (Mark.shape references)) = false then _ else _ := h
      rw [opens_map_shape] at h
      unfold bareNames
      split_ifs at h ⊢ with hbare
      · rcases List.mem_cons.mp h with rfl | h
        · exact Or.inl List.mem_cons_self
        · exact (hlater h).imp_left (List.mem_cons_of_mem _)
      · exact hlater h
    | reference r =>
      replace h : n ∈ if _ then _ else _ := h
      split_ifs at h
      · rcases List.mem_cons.mp h with rfl | h
        · refine Or.inr ⟨r, List.mem_cons_self, ?_⟩
          exact String.ofList_toList
        · exact hlater h
      · exact hlater h

/-- The references among the marks of a text are references of the text. -/
lemma mem_pieces_of_mem_marksFrom {run : List Char} {later : List Piece} {r : Reference}
    (h : marksFrom run later = some marks) (hr : .reference r ∈ marks) :
    .reference r ∈ later := by
  induction later generalizing run marks with
  | nil =>
    obtain ⟨shapes, -, rfl⟩ := Option.map_eq_some_iff.mp h
    obtain ⟨shape, -, hshape⟩ := List.mem_map.mp hr
    cases hshape
  | cons piece later ih =>
    cases piece with
    | plain c => exact List.mem_cons_of_mem _ (ih h hr)
    | reference r' =>
      obtain ⟨before, -, hmarks⟩ := Option.bind_eq_some_iff.mp h
      obtain ⟨after, hafter, rfl⟩ := Option.map_eq_some_iff.mp hmarks
      rcases List.mem_append.mp hr with hr | hr
      · obtain ⟨shape, -, hshape⟩ := List.mem_map.mp hr
        cases hshape
      · rcases List.mem_cons.mp hr with hr | hr
        · cases hr
          exact List.mem_cons_self
        · exact List.mem_cons_of_mem _ (ih hafter hr)

/-- The references among the marks of a text are among its distinct references. -/
lemma mem_distinctReferences {r : Reference} (h : marks? text = some marks)
    (hr : .reference r ∈ marks) : r ∈ distinctReferences text := by
  unfold distinctReferences referencesOf
  rw [List.mem_eraseDups]
  exact List.mem_filterMap.mpr ⟨.reference r, mem_pieces_of_mem_marksFrom h hr, rfl⟩

/-- The names in the tree of a text are its bare names and identifiers that stand for references. -/
lemma isPart_name_substituted {tree : Expr} (hmarks : marks? text = some marks)
    (hparse : Expr.parse (substituted text) = .ok tree) :
    (∀ n ∈ bareNames marks, Expr.IsPart (.name n) tree) ∧
      ∀ n, Expr.IsPart (.name n) tree →
        n ∈ bareNames marks ∨ ∃ i < (distinctReferences text).length, n = standIn i := by
  obtain ⟨shapes, hshapes, hnames⟩ := Expr.Grammar.isPart_name_iff hparse
  rw [shapes?_substituted, hmarks] at hshapes
  obtain rfl := Option.some.inj hshapes
  constructor
  · exact fun n hn => (hnames n).mpr (mem_bareNames_of_mem hn)
  · intro n hn
    rcases mem_bareNames_or ((hnames n).mp hn) with hn | ⟨r, hr, rfl⟩
    · exact Or.inl hn
    · exact Or.inr ⟨_, List.idxOf_lt_length_of_mem (mem_distinctReferences hmarks hr), rfl⟩

/-- A text that cannot be scanned between its references is refused. -/
lemma refuses_of_marks?_eq_none {values : String → Option Float} (h : marks? text = none) :
    ∃ message, Refuses (substituted text) values message := by
  have hshapes : Lexeme.shapes? (substituted text).toList = none := by
    rw [shapes?_substituted, h]
    rfl
  obtain ⟨fault, hfault⟩ := Lexeme.shapes?_eq_none.mp hshapes
  have hparse : Expr.parse (substituted text) =
      .error ⟨.unexpectedChar fault.found, fault.pos⟩ := by
    unfold Expr.parse Lexeme.scan
    rw [hfault]
  exact ⟨_, .parse hparse⟩

/-- A text with a bare name that stands for no reference is refused. -/
lemma refuses_of_bareName {context : String → Option Quantity} {n : String}
    (hmarks : marks? text = some marks) (hn : n ∈ bareNames marks)
    (hstands : ∀ i < (distinctReferences text).length, n ≠ standIn i) :
    ∃ message, Refuses (substituted text)
      (standInValues (distinctReferences text) context) message := by
  cases hparse : Expr.parse (substituted text) with
  | error fault => exact ⟨_, Refuses.parse hparse⟩
  | ok tree =>
    have hpart := (isPart_name_substituted hmarks hparse).1 n hn
    exact ⟨_, Refuses.eval hparse
      ⟨_, hpart, Expr.IsFault.name (standInValues_eq_none hstands)⟩⟩

/-- A text that is refused has no value, and one warning if its references all have values. -/
lemma ofText_of_refused {context : String → Option Quantity}
    (hrefuses : ∃ message, Refuses (substituted text)
      (standInValues (distinctReferences text) context) message) :
    (ofText text context).value = none ∧ (Provides context text →
      ∃ message, (ofText text context).warnings = [syntaxWarning message]) := by
  obtain ⟨message, hrefuses⟩ := hrefuses
  by_cases hprovides : Provides context text
  · obtain ⟨message', -, hvalue, hwarnings⟩ := ofText_of_refuses hprovides hrefuses
    exact ⟨hvalue, fun _ => ⟨message', hwarnings⟩⟩
  · exact ⟨(ofText_of_missing hprovides).1, fun h => absurd h hprovides⟩

/-- What bare names do to a calculation.  A text that cannot be scanned beside its references, or
that has a bare name that stands for none of them, has no value, and its only warning is about the
syntax if its references all have values.  A text whose bare names are all spelled like identifiers
that stand for its references has the value of its tree, in which each of these names reads the
value of the reference. -/
theorem bareNames_read (text : String) (context : String → Option Quantity) :
    let references := distinctReferences text
    let values := standInValues references context
    let c := ofText text context
    (marks? text = none → c.value = none ∧
      (Provides context text → ∃ message, c.warnings = [syntaxWarning message])) ∧
    (∀ marks, marks? text = some marks →
      (∃ n ∈ bareNames marks, ∀ i < references.length, n ≠ standIn i) → c.value = none ∧
        (Provides context text → ∃ message, c.warnings = [syntaxWarning message])) ∧
    (∀ marks tree, marks? text = some marks → Provides context text →
      Expr.parse (substituted text) = .ok tree → tree.CallsFunctions →
      (∀ n ∈ bareNames marks, ∃ i < references.length, n = standIn i) →
      (∃ x, c.value = some x ∧ tree.HasValue values x) ∧
        ∀ n ∈ bareNames marks, Expr.IsPart (.name n) tree ∧
          ∃ r ∈ references, values n = (context r.text).map Quantity.value) := by
  intro references values c
  refine ⟨fun hnone => ofText_of_refused (refuses_of_marks?_eq_none hnone), ?_, ?_⟩
  · rintro marks hmarks ⟨n, hn, hstands⟩
    exact ofText_of_refused (refuses_of_bareName hmarks hn hstands)
  · intro marks tree hmarks hprovides hparse hcalls hbare
    have hnames := isPart_name_substituted hmarks hparse
    have hread : ∀ i < references.length,
        ∃ r ∈ references, values (standIn i) = (context r.text).map Quantity.value := by
      intro i hi
      exact ⟨references[i], List.getElem_mem hi,
        standInValues_standIn (List.getElem?_eq_getElem hi)⟩
    have hsome : ∀ n, Expr.IsPart (.name n) tree → (values n).isSome = true := by
      intro n hn
      obtain ⟨i, hi, rfl⟩ : ∃ i < references.length, n = standIn i :=
        (hnames.2 n hn).elim (hbare n) id
      obtain ⟨r, hr, hvalue⟩ := hread i hi
      rw [hvalue, Option.isSome_map]
      exact hprovides r hr
    refine ⟨?_, fun n hn => ⟨hnames.1 n hn, ?_⟩⟩
    · have hvalue := Expr.exists_hasValue_of_names hcalls hsome
      have hnot : ∀ message, ¬ Refuses (substituted text) values message := by
        rintro message (hfault | ⟨htree, hfault⟩)
        · cases hparse.symm.trans hfault
        · cases hparse.symm.trans htree
          exact Expr.exists_hasValue_iff.mp hvalue _ hfault
      obtain ⟨tree', x, htree', hx, hc, -⟩ := ofText_of_not_refuses hprovides hnot
      cases hparse.symm.trans htree'
      exact ⟨x, hc, hx⟩
    · obtain ⟨i, hi, rfl⟩ := hbare n hn
      exact hread i hi

/-- In `'a' + __ref0` the bare name reads the value of `'a'`. -/
theorem bareNames_read_captured :
    let context := fun reference => [("'a'", ({ value := 2.0 } : Quantity))].lookup reference
    ∃ x, (ofText "'a' + __ref0" context).value = some x ∧
      (Expr.binary .add (.name "__ref0") (.name "__ref0")).HasValue
        (standInValues [.path ['a']] context) x := by
  intro context
  have hreferences : distinctReferences "'a' + __ref0" = [.path ['a']] := by
    decide +kernel
  have hmarks : marks? "'a' + __ref0" =
      some [.reference (.path ['a']), .own (.plus, "+"), .own (.ident, "__ref0")] := by
    decide +kernel
  have hparse : Expr.parse (substituted "'a' + __ref0") =
      .ok (.binary .add (.name "__ref0") (.name "__ref0")) := by
    have hlexemes : Lexeme.scan (substituted "'a' + __ref0") =
        .ok [⟨.ident, "__ref0", 1⟩, ⟨.plus, "+", 9⟩, ⟨.ident, "__ref0", 11⟩] := by
      decide +kernel
    unfold Expr.parse
    rw [hlexemes]
    rfl
  have hprovides : Provides context "'a' + __ref0" := by
    unfold Provides
    rw [hreferences]
    intro r hr
    obtain rfl := List.mem_singleton.mp hr
    rfl
  have hcalls : (Expr.binary .add (.name "__ref0") (.name "__ref0")).CallsFunctions := by
    intro function arguments hpart
    cases hpart with
    | left _ _ hpart => cases hpart
    | right _ _ hpart => cases hpart
  obtain ⟨⟨x, hx, hvalue⟩, -⟩ := (bareNames_read "'a' + __ref0" context).2.2 _ _ hmarks hprovides
    hparse hcalls (by rw [hreferences]; decide)
  rw [hreferences] at hvalue
  exact ⟨x, hx, hvalue⟩

end Calculation

end DesignTokens

import DesignTokens.Expr.Parser
import Mathlib.Tactic.Lemma

/-!
# The grammar of calculations

The grammar that `Expr.parse` is meant to accept, over lexemes:

* an expression is a term, then any number of terms with `+` or `-` in front;
* a term is a signed operand, then any number of signed operands with `*` or `/` in front;
* a signed operand is a sign and a signed operand, or an atom;
* an atom is a number, a name, a call with arguments between commas, or an expression in
  parentheses.

A derivation is a value of `Grammar.Derivation`; it records every lexeme together with the reason
why it may stand where it stands.  `Derivation.yield` is the list of lexemes that it derives and
`Derivation.tree` the calculation that it stands for, in which the operators of one chain group to
the left.

The grammar is unambiguous (`Derivation.unique`): two derivations of one category with the same
yield are equal.  The proof reads the two derivations side by side, with what may follow a
derivation of each category as the invariant.
-/

namespace DesignTokens

namespace Expr

namespace Grammar

/-! ## Lexemes of the grammar -/

/-- The operator of a sum that a kind of lexemes stands for. -/
def sumOp? : LexKind → Option BinaryOp
  | .plus => some .add
  | .minus => some .sub
  | _ => none

/-- The operator of a product that a kind of lexemes stands for. -/
def productOp? : LexKind → Option BinaryOp
  | .star => some .mul
  | .slash => some .div
  | _ => none

/-- The sign that a kind of lexemes stands for. -/
def sign? : LexKind → Option UnaryOp
  | .plus => some .pos
  | .minus => some .neg
  | _ => none

/-! ## Derivations -/

/-- The categories of the grammar; the repeated parts of chains and of lists of arguments have
their own. -/
inductive Category where
  | expr
  | exprRest
  | term
  | termRest
  | signed
  | atom
  | arguments
  | argumentsRest

/-- The derivations of a category. -/
inductive Derivation : Category → Type
  | expr (first : Derivation .term) (rest : Derivation .exprRest) : Derivation .expr
  | exprEnd : Derivation .exprRest
  | exprMore (t : Lexeme) (op : BinaryOp) (ht : sumOp? t.kind = some op)
      (operand : Derivation .term) (rest : Derivation .exprRest) : Derivation .exprRest
  | term (first : Derivation .signed) (rest : Derivation .termRest) : Derivation .term
  | termEnd : Derivation .termRest
  | termMore (t : Lexeme) (op : BinaryOp) (ht : productOp? t.kind = some op)
      (operand : Derivation .signed) (rest : Derivation .termRest) : Derivation .termRest
  | sign (t : Lexeme) (op : UnaryOp) (ht : sign? t.kind = some op)
      (operand : Derivation .signed) : Derivation .signed
  | plain (operand : Derivation .atom) : Derivation .signed
  | number (t : Lexeme) (ht : t.kind = .number) (numeral : Decimal.Numeral)
      (hn : Decimal.Numeral.ofChars? t.text.toList = some numeral) : Derivation .atom
  | name (t : Lexeme) (ht : t.kind = .ident) : Derivation .atom
  | call (t : Lexeme) (ht : t.kind = .ident) (opening : Lexeme)
      (ho : opening.kind = .leftParen) (arguments : Derivation .arguments) (closing : Lexeme)
      (hc : closing.kind = .rightParen) : Derivation .atom
  | group (opening : Lexeme) (ho : opening.kind = .leftParen) (inner : Derivation .expr)
      (closing : Lexeme) (hc : closing.kind = .rightParen) : Derivation .atom
  | noArguments : Derivation .arguments
  | someArguments (first : Derivation .expr) (rest : Derivation .argumentsRest) :
      Derivation .arguments
  | argumentsEnd : Derivation .argumentsRest
  | argumentsMore (t : Lexeme) (ht : t.kind = .comma) (argument : Derivation .expr)
      (rest : Derivation .argumentsRest) : Derivation .argumentsRest

/-- What a derivation of a category stands for: the rest of a chain completes the calculation to
its left, and arguments are a list. -/
abbrev Category.Meaning : Category → Type
  | .expr | .term | .signed | .atom => Expr
  | .exprRest | .termRest => Expr → Expr
  | .arguments | .argumentsRest => List Expr

namespace Derivation

/-- The lexemes that a derivation derives. -/
def yield {c : Category} : Derivation c → List Lexeme
  | expr first rest => first.yield ++ rest.yield
  | exprEnd => []
  | exprMore t _ _ operand rest => t :: (operand.yield ++ rest.yield)
  | term first rest => first.yield ++ rest.yield
  | termEnd => []
  | termMore t _ _ operand rest => t :: (operand.yield ++ rest.yield)
  | sign t _ _ operand => t :: operand.yield
  | plain operand => operand.yield
  | number t _ _ _ => [t]
  | name t _ => [t]
  | call t _ opening _ arguments closing _ => t :: opening :: (arguments.yield ++ [closing])
  | group opening _ inner closing _ => opening :: (inner.yield ++ [closing])
  | noArguments => []
  | someArguments first rest => first.yield ++ rest.yield
  | argumentsEnd => []
  | argumentsMore t _ argument rest => t :: (argument.yield ++ rest.yield)

/-- The calculation, or the part of one, that a derivation stands for. -/
def tree {c : Category} : Derivation c → c.Meaning
  | expr first rest => rest.tree first.tree
  | exprEnd => fun left => left
  | exprMore _ op _ operand rest => fun left => rest.tree (.binary op left operand.tree)
  | term first rest => rest.tree first.tree
  | termEnd => fun left => left
  | termMore _ op _ operand rest => fun left => rest.tree (.binary op left operand.tree)
  | sign _ op _ operand => Expr.unary op operand.tree
  | plain operand => operand.tree
  | number _ _ numeral _ => Expr.number numeral.toFloat
  | name t _ => Expr.name t.text
  | call t _ _ _ arguments _ _ => Expr.call t.text arguments.tree
  | group _ _ inner _ _ => inner.tree
  | noArguments => []
  | someArguments first rest => first.tree :: rest.tree
  | argumentsEnd => []
  | argumentsMore _ _ argument rest => argument.tree :: rest.tree

end Derivation

/-! ## What may follow a derivation -/

/-- Whether a lexeme of a kind may stand right after a derivation of a category. -/
def Category.mayPrecede : Category → LexKind → Bool
  | .expr, k | .exprRest, k => k == .rightParen || k == .comma
  | .term, k | .termRest, k => k == .rightParen || k == .comma || (sumOp? k).isSome
  | .signed, k | .atom, k =>
    k == .rightParen || k == .comma || (sumOp? k).isSome || (productOp? k).isSome
  | .arguments, k | .argumentsRest, k => k == .rightParen

/-- Whether a list of lexemes may stand after a derivation of a category. -/
def Follows (c : Category) (rest : List Lexeme) : Prop :=
  ∀ t ∈ rest.head?, c.mayPrecede t.kind = true

/-- The end of the text may follow everything. -/
lemma follows_nil (c : Category) : Follows c [] := nofun

/-- A list may follow when its first lexeme may. -/
lemma follows_cons {c : Category} {t : Lexeme} {rest : List Lexeme} :
    Follows c (t :: rest) ↔ c.mayPrecede t.kind = true :=
  ⟨fun h => h t rfl, fun h _ ht => Option.some.inj ht ▸ h⟩

/-- What may follow one category may follow another one that lets more lexemes follow. -/
lemma Follows.mono {c c' : Category} {rest : List Lexeme} (h : Follows c rest)
    (hmono : ∀ k, c.mayPrecede k = true → c'.mayPrecede k = true) : Follows c' rest :=
  fun t ht => hmono t.kind (h t ht)

/-- An operator of a sum may stand after a term, but not after a sum. -/
lemma sumOp?_mayPrecede {k : LexKind} {op : BinaryOp} (h : sumOp? k = some op) :
    Category.mayPrecede .term k = true := by
  cases k <;> first | rfl | cases h

/-- An operator of a product may stand after a signed operand. -/
lemma productOp?_mayPrecede {k : LexKind} {op : BinaryOp} (h : productOp? k = some op) :
    Category.mayPrecede .signed k = true := by
  cases k <;> first | rfl | cases h

/-- After a term stands the rest of the sum and what follows the sum. -/
lemma follows_exprRest (D : Derivation .exprRest) {rest : List Lexeme}
    (h : Follows .exprRest rest) : Follows .term (D.yield ++ rest) := by
  cases D with
  | exprEnd => exact h.mono fun k => by cases k <;> decide
  | exprMore t op ht operand tail =>
    exact follows_cons.mpr (sumOp?_mayPrecede ht)

/-- After a signed operand stands the rest of the product and what follows the product. -/
lemma follows_termRest (D : Derivation .termRest) {rest : List Lexeme}
    (h : Follows .termRest rest) : Follows .signed (D.yield ++ rest) := by
  cases D with
  | termEnd => exact h.mono fun k => by cases k <;> decide
  | termMore t op ht operand tail =>
    exact follows_cons.mpr (productOp?_mayPrecede ht)

/-- After an argument stand the other arguments and what follows them. -/
lemma follows_argumentsRest (D : Derivation .argumentsRest) {rest : List Lexeme}
    (h : Follows .argumentsRest rest) : Follows .expr (D.yield ++ rest) := by
  cases D with
  | argumentsEnd => exact h.mono fun k => by cases k <;> decide
  | argumentsMore t ht argument tail =>
    refine follows_cons.mpr ?_
    rw [ht]
    rfl

/-! ## How a derivation begins -/

/-- Whether a derivation of a category may begin with a lexeme of a kind, for the categories that
derive no empty list. -/
def Category.mayBegin : Category → LexKind → Bool
  | .atom, k => k == .number || k == .ident || k == .leftParen
  | .expr, k | .term, k | .signed, k =>
    k == .number || k == .ident || k == .leftParen || (sign? k).isSome
  | .exprRest, _ | .termRest, _ | .arguments, _ | .argumentsRest, _ => false

/-- Whether no derivation of a category is empty. -/
def Category.isSolid : Category → Bool
  | .expr | .term | .signed | .atom => true
  | .exprRest | .termRest | .arguments | .argumentsRest => false

/-- A sign may begin a signed operand, and so may what begins an atom. -/
lemma mayBegin_signed {k : LexKind}
    (h : (sign? k).isSome = true ∨ Category.mayBegin .atom k = true) :
    Category.mayBegin .signed k = true := by
  cases k <;> first | rfl | exact absurd h (by decide)

/-- A derivation of a category that derives no empty list begins with a lexeme that may. -/
lemma Derivation.begins {c : Category} (D : Derivation c) (hc : c.isSolid = true) :
    ∃ t rest, D.yield = t :: rest ∧ c.mayBegin t.kind = true := by
  induction D with
  | expr first rest ihfirst _ =>
    obtain ⟨t, more, hyield, ht⟩ := ihfirst rfl
    exact ⟨t, more ++ rest.yield, by rw [yield, hyield]; rfl, ht⟩
  | term first rest ihfirst _ =>
    obtain ⟨t, more, hyield, ht⟩ := ihfirst rfl
    exact ⟨t, more ++ rest.yield, by rw [yield, hyield]; rfl, ht⟩
  | sign t op ht operand _ =>
    exact ⟨t, operand.yield, rfl, mayBegin_signed (Or.inl (by rw [ht]; rfl))⟩
  | plain operand ih =>
    obtain ⟨t, more, hyield, ht⟩ := ih rfl
    exact ⟨t, more, hyield, mayBegin_signed (Or.inr ht)⟩
  | number t ht => exact ⟨t, [], rfl, by rw [ht]; rfl⟩
  | name t ht => exact ⟨t, [], rfl, by rw [ht]; rfl⟩
  | call t ht => exact ⟨t, _, rfl, by rw [ht]; rfl⟩
  | group opening ho => exact ⟨opening, _, rfl, by rw [ho]; rfl⟩
  | exprEnd => cases hc
  | exprMore => cases hc
  | termEnd => cases hc
  | termMore => cases hc
  | noArguments => cases hc
  | someArguments => cases hc
  | argumentsEnd => cases hc
  | argumentsMore => cases hc

/-! ## Unambiguity -/

/-- An operator of a sum does not follow a sum. -/
lemma Follows.not_sumOp {t : Lexeme} {rest : List Lexeme} {op : BinaryOp}
    (h : Follows .exprRest (t :: rest)) (ht : sumOp? t.kind = some op) : False := by
  have hfollow := follows_cons.mp h
  revert ht hfollow
  cases t.kind <;> nofun

/-- An operator of a product does not follow a product. -/
lemma Follows.not_productOp {t : Lexeme} {rest : List Lexeme} {op : BinaryOp}
    (h : Follows .termRest (t :: rest)) (ht : productOp? t.kind = some op) : False := by
  have hfollow := follows_cons.mp h
  revert ht hfollow
  cases t.kind <;> nofun

/-- A comma does not follow the arguments of a call. -/
lemma Follows.not_comma {t : Lexeme} {rest : List Lexeme}
    (h : Follows .argumentsRest (t :: rest)) (ht : t.kind = .comma) : False := by
  have hfollow := follows_cons.mp h
  rw [ht] at hfollow
  cases hfollow

/-- An expression does not follow the arguments of a call. -/
lemma Follows.not_expr (D : Derivation .expr) {rest : List Lexeme}
    (h : Follows .arguments (D.yield ++ rest)) : False := by
  obtain ⟨t, more, hyield, ht⟩ := D.begins rfl
  rw [hyield] at h
  have hfollow := follows_cons.mp h
  revert ht hfollow
  cases t.kind <;> nofun

/-- An opening parenthesis does not follow an atom. -/
lemma Follows.not_leftParen {t : Lexeme} {rest : List Lexeme}
    (h : Follows .atom (t :: rest)) (ht : t.kind = .leftParen) : False := by
  have hfollow := follows_cons.mp h
  rw [ht] at hfollow
  cases hfollow

/-- An atom does not begin with a sign. -/
lemma Derivation.not_sign (D : Derivation .atom) {t : Lexeme} {rest rest' : List Lexeme}
    {op : UnaryOp} (h : D.yield ++ rest = t :: rest') (ht : sign? t.kind = some op) : False := by
  obtain ⟨t', more, hyield, hbegin⟩ := D.begins rfl
  rw [hyield] at h
  obtain rfl : t' = t := (List.cons.inj h).1
  revert ht hbegin
  cases t'.kind <;> nofun

/-- Two derivations of one category that begin the same text, each followed by what may follow
them, are equal. -/
theorem Derivation.unique_of_follows {c : Category} (D D' : Derivation c)
    {rest rest' : List Lexeme} (hf : Follows c rest) (hf' : Follows c rest')
    (h : D.yield ++ rest = D'.yield ++ rest') : D = D' ∧ rest = rest' := by
  induction D generalizing rest rest' with
  | expr first more ihfirst ihmore =>
    cases D' with
    | expr first' more' =>
      rw [yield, yield, List.append_assoc, List.append_assoc] at h
      obtain ⟨rfl, hmore⟩ :=
        ihfirst first' (follows_exprRest more hf) (follows_exprRest more' hf') h
      obtain ⟨rfl, hrest⟩ := ihmore more' hf hf' hmore
      exact ⟨rfl, hrest⟩
  | exprEnd =>
    cases D' with
    | exprEnd => exact ⟨rfl, h⟩
    | exprMore t op ht operand more =>
      rw [show rest = t :: (operand.yield ++ more.yield ++ rest') from h] at hf
      exact (hf.not_sumOp ht).elim
  | exprMore t op ht operand more ihoperand ihmore =>
    cases D' with
    | exprEnd =>
      rw [← show t :: (operand.yield ++ more.yield ++ rest) = rest' from h] at hf'
      exact (hf'.not_sumOp ht).elim
    | exprMore t' op' ht' operand' more' =>
      rw [yield, yield, List.cons_append, List.cons_append, List.append_assoc,
        List.append_assoc] at h
      obtain ⟨rfl, htail⟩ := List.cons.inj h
      rw [ht] at ht'
      cases ht'
      obtain ⟨rfl, hmore⟩ :=
        ihoperand operand' (follows_exprRest more hf) (follows_exprRest more' hf') htail
      obtain ⟨rfl, hrest⟩ := ihmore more' hf hf' hmore
      exact ⟨rfl, hrest⟩
  | term first more ihfirst ihmore =>
    cases D' with
    | term first' more' =>
      rw [yield, yield, List.append_assoc, List.append_assoc] at h
      obtain ⟨rfl, hmore⟩ :=
        ihfirst first' (follows_termRest more hf) (follows_termRest more' hf') h
      obtain ⟨rfl, hrest⟩ := ihmore more' hf hf' hmore
      exact ⟨rfl, hrest⟩
  | termEnd =>
    cases D' with
    | termEnd => exact ⟨rfl, h⟩
    | termMore t op ht operand more =>
      rw [show rest = t :: (operand.yield ++ more.yield ++ rest') from h] at hf
      exact (hf.not_productOp ht).elim
  | termMore t op ht operand more ihoperand ihmore =>
    cases D' with
    | termEnd =>
      rw [← show t :: (operand.yield ++ more.yield ++ rest) = rest' from h] at hf'
      exact (hf'.not_productOp ht).elim
    | termMore t' op' ht' operand' more' =>
      rw [yield, yield, List.cons_append, List.cons_append, List.append_assoc,
        List.append_assoc] at h
      obtain ⟨rfl, htail⟩ := List.cons.inj h
      rw [ht] at ht'
      cases ht'
      obtain ⟨rfl, hmore⟩ :=
        ihoperand operand' (follows_termRest more hf) (follows_termRest more' hf') htail
      obtain ⟨rfl, hrest⟩ := ihmore more' hf hf' hmore
      exact ⟨rfl, hrest⟩
  | sign t op ht operand ih =>
    cases D' with
    | sign t' op' ht' operand' =>
      obtain ⟨rfl, htail⟩ := List.cons.inj h
      rw [ht] at ht'
      cases ht'
      obtain ⟨rfl, hrest⟩ := ih operand' hf hf' htail
      exact ⟨rfl, hrest⟩
    | plain operand' => exact (operand'.not_sign h.symm ht).elim
  | plain operand ih =>
    cases D' with
    | sign t' op' ht' operand' => exact (operand.not_sign h ht').elim
    | plain operand' =>
      obtain ⟨rfl, hrest⟩ := ih operand' hf hf' h
      exact ⟨rfl, hrest⟩
  | number t ht numeral hn =>
    cases D' with
    | number t' ht' numeral' hn' =>
      obtain ⟨rfl, hrest⟩ := List.cons.inj h
      rw [hn] at hn'
      cases hn'
      exact ⟨rfl, hrest⟩
    | name t' ht' =>
      obtain ⟨rfl, hrest⟩ := List.cons.inj h
      cases ht.symm.trans ht'
    | call t' ht' =>
      obtain ⟨rfl, hrest⟩ := List.cons.inj h
      cases ht.symm.trans ht'
    | group t' ht' =>
      obtain ⟨rfl, hrest⟩ := List.cons.inj h
      cases ht.symm.trans ht'
  | name t ht =>
    cases D' with
    | number t' ht' =>
      obtain ⟨rfl, hrest⟩ := List.cons.inj h
      cases ht.symm.trans ht'
    | name t' ht' =>
      obtain ⟨rfl, hrest⟩ := List.cons.inj h
      exact ⟨rfl, hrest⟩
    | call t' ht' opening ho =>
      obtain ⟨rfl, hrest⟩ := List.cons.inj h
      rw [show rest = opening :: _ from hrest] at hf
      exact (hf.not_leftParen ho).elim
    | group t' ht' =>
      obtain ⟨rfl, hrest⟩ := List.cons.inj h
      cases ht.symm.trans ht'
  | call t ht opening ho arguments closing hc ih =>
    cases D' with
    | number t' ht' =>
      obtain ⟨rfl, hrest⟩ := List.cons.inj h
      cases ht.symm.trans ht'
    | name t' ht' =>
      obtain ⟨rfl, hrest⟩ := List.cons.inj h
      rw [show rest' = opening :: _ from hrest.symm] at hf'
      exact (hf'.not_leftParen ho).elim
    | call t' ht' opening' ho' arguments' closing' hc' =>
      obtain ⟨rfl, htail⟩ := List.cons.inj h
      obtain ⟨rfl, hinner⟩ := List.cons.inj htail
      have hclose : Follows .arguments ([closing] ++ rest) :=
        follows_cons.mpr (by rw [hc]; rfl)
      have hclose' : Follows .arguments ([closing'] ++ rest') :=
        follows_cons.mpr (by rw [hc']; rfl)
      obtain ⟨rfl, hend⟩ := ih arguments' hclose hclose'
        (by rw [← List.append_assoc, ← List.append_assoc]; exact hinner)
      obtain ⟨rfl, hrest⟩ := List.cons.inj hend
      exact ⟨rfl, hrest⟩
    | group t' ht' =>
      obtain ⟨rfl, hrest⟩ := List.cons.inj h
      cases ht.symm.trans ht'
  | group opening ho inner closing hc ih =>
    cases D' with
    | number t' ht' =>
      obtain ⟨rfl, hrest⟩ := List.cons.inj h
      cases ho.symm.trans ht'
    | name t' ht' =>
      obtain ⟨rfl, hrest⟩ := List.cons.inj h
      cases ho.symm.trans ht'
    | call t' ht' =>
      obtain ⟨rfl, hrest⟩ := List.cons.inj h
      cases ho.symm.trans ht'
    | group opening' ho' inner' closing' hc' =>
      obtain ⟨rfl, hinner⟩ := List.cons.inj h
      have hclose : Follows .expr ([closing] ++ rest) :=
        follows_cons.mpr (by rw [hc]; rfl)
      have hclose' : Follows .expr ([closing'] ++ rest') :=
        follows_cons.mpr (by rw [hc']; rfl)
      obtain ⟨rfl, hend⟩ := ih inner' hclose hclose'
        (by rw [← List.append_assoc, ← List.append_assoc]; exact hinner)
      obtain ⟨rfl, hrest⟩ := List.cons.inj hend
      exact ⟨rfl, hrest⟩
  | noArguments =>
    cases D' with
    | noArguments => exact ⟨rfl, h⟩
    | someArguments first more =>
      rw [show rest = first.yield ++ (more.yield ++ rest') from
        h.trans (List.append_assoc ..)] at hf
      exact (Follows.not_expr first hf).elim
  | someArguments first more ihfirst ihmore =>
    cases D' with
    | noArguments =>
      rw [show rest' = first.yield ++ (more.yield ++ rest) from
        h.symm.trans (List.append_assoc ..)] at hf'
      exact (Follows.not_expr first hf').elim
    | someArguments first' more' =>
      rw [yield, yield, List.append_assoc, List.append_assoc] at h
      obtain ⟨rfl, hmore⟩ :=
        ihfirst first' (follows_argumentsRest more hf) (follows_argumentsRest more' hf') h
      obtain ⟨rfl, hrest⟩ := ihmore more' hf hf' hmore
      exact ⟨rfl, hrest⟩
  | argumentsEnd =>
    cases D' with
    | argumentsEnd => exact ⟨rfl, h⟩
    | argumentsMore t ht argument more =>
      rw [show rest = t :: (argument.yield ++ more.yield ++ rest') from h] at hf
      exact (hf.not_comma ht).elim
  | argumentsMore t ht argument more ihargument ihmore =>
    cases D' with
    | argumentsEnd =>
      rw [← show t :: (argument.yield ++ more.yield ++ rest) = rest' from h] at hf'
      exact (hf'.not_comma ht).elim
    | argumentsMore t' ht' argument' more' =>
      rw [yield, yield, List.cons_append, List.cons_append, List.append_assoc,
        List.append_assoc] at h
      obtain ⟨rfl, htail⟩ := List.cons.inj h
      obtain ⟨rfl, hmore⟩ := ihargument argument' (follows_argumentsRest more hf)
        (follows_argumentsRest more' hf') htail
      obtain ⟨rfl, hrest⟩ := ihmore more' hf hf' hmore
      exact ⟨rfl, hrest⟩

/-- The grammar is unambiguous: a text has at most one derivation of a category. -/
theorem Derivation.unique {c : Category} {D D' : Derivation c} (h : D.yield = D'.yield) :
    D = D' :=
  (D.unique_of_follows D' (follows_nil c) (follows_nil c) (by rw [h])).1

end Grammar

end Expr

end DesignTokens

import DesignTokens.Proofs.Expr.Grammar

/-!
# The parser accepts what the grammar derives

The parser is a machine, so what it does with the lexemes of a derivation is said by the state that
it comes to: `ParseState.Reaches s ls s'` holds when the machine goes on after `ls` from `s` as it
would from `s'`, whatever follows.  An identifier at the end of `ls` needs a reservation, as an
opening parenthesis after it would make it a function.

For each category `Grammar.Completes` describes the state that the machine comes to.  A chain that
has been read is spread over the operands and signs that wait in the state, and the description says
that together they stand for the tree of the derivation.  An induction on the derivation shows that
the machine does come there.
-/

namespace DesignTokens

namespace Expr

open Grammar

namespace ParseState

variable {s s' s'' : ParseState} {t : Lexeme} {ls ls' : List Lexeme}

/-! ## Runs of the machine -/

/-- The result of the machine when a list of lexemes is left. -/
def outcome (s : ParseState) (ls : List Lexeme) (length : Nat) : Except ParseFault Expr :=
  match s.run ls with
  | .ok s => s.finish length
  | .error fault => .error fault

/-- A list that does not begin with an opening parenthesis. -/
def NotOpening (ls : List Lexeme) : Prop :=
  ∀ t ∈ ls.head?, t.kind ≠ .leftParen

/-- After some lexemes the machine goes on from one state as it does from another. -/
def Reaches (s : ParseState) (ls : List Lexeme) (s' : ParseState) : Prop :=
  ∀ rest length, NotOpening rest → s.outcome (ls ++ rest) length = s'.outcome rest length

/-- A run takes the first lexeme and then the others. -/
lemma run_cons (s : ParseState) (t : Lexeme) (ls : List Lexeme) :
    s.run (t :: ls) = (s.step t >>= fun next => next.run ls) := by
  rw [run]
  cases s.step t <;> rfl

/-- The result is what the machine finishes with after a run. -/
lemma outcome_eq (s : ParseState) (ls : List Lexeme) (length : Nat) :
    s.outcome ls length = (s.run ls >>= fun last => last.finish length) := by
  unfold outcome
  cases s.run ls <;> rfl

/-- The machine takes the first lexeme and goes on with the others. -/
lemma outcome_cons (h : s.step t = .ok s') (length : Nat) :
    s.outcome (t :: ls) length = s'.outcome ls length := by
  unfold outcome
  rw [run, h]

/-- Without lexemes the machine stays where it is. -/
lemma Reaches.refl (s : ParseState) : s.Reaches [] s := fun _ _ _ => rfl

/-- A run that begins with one lexeme. -/
lemma Reaches.cons (h : s.step t = .ok s') (h' : s'.Reaches ls s'') :
    s.Reaches (t :: ls) s'' := by
  intro rest length hrest
  rw [List.cons_append, outcome_cons h]
  exact h' rest length hrest

/-- One run after the other, when the second one does not begin with an opening parenthesis. -/
lemma Reaches.trans (h : s.Reaches ls s') (h' : s'.Reaches ls' s'')
    (hno : ∀ rest, NotOpening rest → NotOpening (ls' ++ rest)) : s.Reaches (ls ++ ls') s'' := by
  intro rest length hrest
  rw [List.append_assoc, h _ length (hno rest hrest)]
  exact h' rest length hrest

/-- An identifier is a name when no opening parenthesis follows. -/
lemma outcome_ident {word : String} (hphase : s.phase = .ident word) (hls : NotOpening ls)
    (length : Nat) :
    s.outcome ls length =
      ({ s with phase := .value (.name word) } : ParseState).outcome ls length := by
  unfold outcome
  cases ls with
  | nil =>
    show s.finish length = _
    unfold finish
    rw [hphase]
    rfl
  | cons t ls =>
    have hstep : s.step t = ({ s with phase := .value (.name word) } : ParseState).step t := by
      unfold step
      rw [hphase]
      exact if_neg (hls t rfl)
    rw [run, run, hstep]

/-- The machine waits for an operand. -/
def AwaitsOperand (s : ParseState) : Prop :=
  s.phase = .operand ∨ s.phase = .arguments

/-- Where an operand has to begin, a lexeme that does not close a parenthesis is taken as its
beginning. -/
lemma step_of_awaits (hs : s.AwaitsOperand) (ht : t.kind ≠ .rightParen) :
    s.step t = s.takeOperand t := by
  unfold step
  rcases hs with h | h
  · rw [h]
  · rw [h]
    show s.takeArgument t = s.takeOperand t
    unfold takeArgument
    split
    · next hkind _ => exact absurd hkind ht
    · rfl

/-- A sign where an operand has to begin. -/
lemma step_sign {op : UnaryOp} (hs : s.AwaitsOperand) (ht : sign? t.kind = some op) :
    s.step t = .ok { s with
      phase := .operand
      pending := ⟨s.pending.sum, s.pending.product, op :: s.pending.signs⟩ } := by
  have hkind : t.kind = .plus ∧ op = .pos ∨ t.kind = .minus ∧ op = .neg := by
    revert ht
    cases t.kind <;> intro ht <;> cases ht <;> simp
  have hne : t.kind ≠ .rightParen := by
    rcases hkind with ⟨h, _⟩ | ⟨h, _⟩ <;> rw [h] <;> decide
  rw [step_of_awaits hs hne]
  unfold takeOperand
  rcases hkind with ⟨h, rfl⟩ | ⟨h, rfl⟩ <;> rw [h]

/-- An operator of a sum after an operand. -/
lemma step_sumOp {e : Expr} {op : BinaryOp} (hs : s.phase = .value e)
    (ht : sumOp? t.kind = some op) : s.step t = .ok (s.addTo e op) := by
  unfold step
  rw [hs]
  revert ht
  unfold takeOperator sumOp?
  cases t.kind <;> intro ht <;> cases ht <;> rfl

/-- An operator of a product after an operand. -/
lemma step_productOp {e : Expr} {op : BinaryOp} (hs : s.phase = .value e)
    (ht : productOp? t.kind = some op) : s.step t = .ok (s.multiply e op) := by
  unfold step
  rw [hs]
  revert ht
  unfold takeOperator productOp?
  cases t.kind <;> intro ht <;> cases ht <;> rfl

/-- A parenthesis that closes after an operand. -/
lemma step_close {e : Expr} (hs : s.phase = .value e) (ht : t.kind = .rightParen) :
    s.step t = s.close e t := by
  unfold step
  rw [hs]
  show s.takeOperator e t = _
  unfold takeOperator
  rw [ht]

/-- A comma after an operand. -/
lemma step_comma {e : Expr} (hs : s.phase = .value e) (ht : t.kind = .comma) :
    s.step t = s.nextArgument e t := by
  unfold step
  rw [hs]
  show s.takeOperator e t = _
  unfold takeOperator
  rw [ht]

/-- A parenthesis that closes a group. -/
lemma close_group {e : Expr} {outer : Pending} {opened : List (Opener × Pending)}
    (hopened : s.opened = (.group, outer) :: opened) :
    s.close e t = .ok { phase := .value (s.pending.total e), pending := outer, opened } := by
  unfold close
  rw [hopened]

/-- A parenthesis that closes a call. -/
lemma close_call {e : Expr} {function : String} {arguments : List Expr} {outer : Pending}
    {opened : List (Opener × Pending)}
    (hopened : s.opened = (.call function arguments, outer) :: opened) :
    s.close e t = .ok { phase := .value (.call function (arguments ++ [s.pending.total e]))
                        pending := outer, opened } := by
  unfold close
  rw [hopened]

/-- A comma in a call. -/
lemma nextArgument_call {e : Expr} {function : String} {arguments : List Expr} {outer : Pending}
    {opened : List (Opener × Pending)}
    (hopened : s.opened = (.call function arguments, outer) :: opened) :
    s.nextArgument e t = .ok
      { phase := .operand, pending := {}
        opened := (.call function (arguments ++ [s.pending.total e]), outer) :: opened } := by
  unfold nextArgument
  rw [hopened]

end ParseState

namespace Grammar

open ParseState

/-! ## What waits for an operand -/

/-- Without signs an operand stands for itself. -/
lemma signed_of_no_signs {p : Pending} (h : p.signs = []) (e : Expr) : p.signed e = e := by
  unfold Pending.signed
  rw [h]
  rfl

/-- Without a product that waits for it an operand is a factor with its signs. -/
lemma factor_of_no_product {p : Pending} (h : p.product = none) (e : Expr) :
    p.factor e = p.signed e := by
  unfold Pending.factor
  rw [h]

/-! ## What the machine comes to -/

/-- The state to which lexemes of a category take the machine, given what they stand for. -/
def Completes : (c : Category) → List Lexeme → c.Meaning → Prop
  | .atom, ls, e => ∀ s : ParseState, s.AwaitsOperand → s.Reaches ls { s with phase := .value e }
  | .signed, ls, e => ∀ s : ParseState, s.AwaitsOperand → ∃ operand signs,
      (⟨s.pending.sum, s.pending.product, signs⟩ : Pending).signed operand =
        s.pending.signed e ∧
      s.Reaches ls { s with
        phase := .value operand, pending := ⟨s.pending.sum, s.pending.product, signs⟩ }
  | .termRest, ls, f => ∀ (s : ParseState) (e : Expr), s.phase = .value e → ∃ operand pending,
      pending.sum = s.pending.sum ∧ pending.factor operand = f (s.pending.factor e) ∧
      s.Reaches ls { s with phase := .value operand, pending }
  | .term, ls, e => ∀ s : ParseState, s.AwaitsOperand → s.pending.product = none →
      s.pending.signs = [] → ∃ operand pending,
      pending.sum = s.pending.sum ∧ pending.factor operand = e ∧
      s.Reaches ls { s with phase := .value operand, pending }
  | .exprRest, ls, f => ∀ (s : ParseState) (e : Expr), s.phase = .value e → ∃ operand pending,
      pending.total operand = f (s.pending.total e) ∧
      s.Reaches ls { s with phase := .value operand, pending }
  | .expr, ls, e => ∀ s : ParseState, s.AwaitsOperand → s.pending = {} → ∃ operand pending,
      pending.total operand = e ∧ s.Reaches ls { s with phase := .value operand, pending }
  | .argumentsRest, ls, es => ∀ (s : ParseState) (e : Expr) (function : String)
      (arguments : List Expr) (outer : Pending) (opened : List (Opener × Pending)),
      s.phase = .value e → s.opened = (.call function arguments, outer) :: opened →
      ∃ operand pending arguments',
      arguments' ++ [pending.total operand] = arguments ++ s.pending.total e :: es ∧
      s.Reaches ls { phase := .value operand, pending
                     opened := (.call function arguments', outer) :: opened }
  | .arguments, ls, es => ∀ (s : ParseState) (function : String) (outer : Pending)
      (opened : List (Opener × Pending)) (t : Lexeme), s.phase = .arguments → s.pending = {} →
      s.opened = (.call function [], outer) :: opened → t.kind = .rightParen →
      s.Reaches (ls ++ [t]) { phase := .value (.call function es), pending := outer, opened }

/-- Whether the derivations of a category continue something. -/
def Category.continues : Category → Bool
  | .exprRest | .termRest | .argumentsRest => true
  | .expr | .term | .signed | .atom | .arguments => false

/-- What continues a chain or a list of arguments does not begin with an opening parenthesis. -/
lemma Derivation.notOpening {c : Category} (D : Derivation c) (hc : c.continues = true)
    (rest : List Lexeme) (hrest : NotOpening rest) : NotOpening (D.yield ++ rest) := by
  cases D with
  | exprEnd => exact hrest
  | termEnd => exact hrest
  | argumentsEnd => exact hrest
  | exprMore t op ht =>
    intro u hu
    obtain rfl : t = u := Option.some.inj hu
    intro hkind
    rw [hkind] at ht
    cases ht
  | termMore t op ht =>
    intro u hu
    obtain rfl : t = u := Option.some.inj hu
    intro hkind
    rw [hkind] at ht
    cases ht
  | argumentsMore t ht =>
    intro u hu
    obtain rfl : t = u := Option.some.inj hu
    rw [ht]
    decide
  | _ => cases hc

/-- The lexemes of a derivation take the machine to the state of its tree. -/
theorem Derivation.completes {c : Category} (D : Derivation c) : Completes c D.yield D.tree := by
  induction D with
  | number t ht numeral hn =>
    intro s hs
    have hstep : s.step t = .ok { s with phase := .value (.number numeral.toFloat) } := by
      rw [step_of_awaits hs (by rw [ht]; decide)]
      unfold takeOperand
      rw [ht, hn]
      rfl
    exact Reaches.cons hstep (Reaches.refl _)
  | name t ht =>
    intro s hs
    have hstep : s.step t = .ok { s with phase := .ident t.text } := by
      rw [step_of_awaits hs (by rw [ht]; decide)]
      unfold takeOperand
      rw [ht]
    intro rest length hrest
    show s.outcome (t :: rest) length = _
    rw [outcome_cons hstep, outcome_ident rfl hrest]
    rfl
  | plain operand ih =>
    intro s hs
    exact ⟨operand.tree, s.pending.signs, rfl, ih s hs⟩
  | sign t op ht operand ih =>
    intro s hs
    have hstep := step_sign hs ht
    obtain ⟨e, signs, htree, hreach⟩ := ih
      { s with
        phase := .operand
        pending := ⟨s.pending.sum, s.pending.product, op :: s.pending.signs⟩ } (Or.inl rfl)
    exact ⟨e, signs, htree, Reaches.cons hstep hreach⟩
  | termEnd =>
    intro s e hs
    refine ⟨e, s.pending, rfl, rfl, ?_⟩
    rw [← hs]
    exact Reaches.refl s
  | termMore t op ht operand rest ihoperand ihrest =>
    intro s e hs
    have hstep := step_productOp hs ht
    obtain ⟨e₁, signs, htree, hreach⟩ := ihoperand (s.multiply e op) (Or.inl rfl)
    obtain ⟨e₂, pending, hsum, hfactor, hreach'⟩ := ihrest
      { s with
        phase := .value e₁
        pending := ⟨s.pending.sum, some (s.pending.factor e, op), signs⟩ } e₁ rfl
    refine ⟨e₂, pending, hsum, ?_,
      Reaches.cons hstep (hreach.trans hreach' (rest.notOpening rfl))⟩
    rw [hfactor]
    exact congrArg (fun e' => rest.tree (.binary op (s.pending.factor e) e')) htree
  | term first rest ihfirst ihrest =>
    intro s hs hproduct hsigns
    obtain ⟨e₁, signs, htree, hreach⟩ := ihfirst s hs
    obtain ⟨e₂, pending, hsum, hfactor, hreach'⟩ := ihrest
      { s with phase := .value e₁, pending := ⟨s.pending.sum, s.pending.product, signs⟩ } e₁ rfl
    refine ⟨e₂, pending, hsum, ?_, hreach.trans hreach' (rest.notOpening rfl)⟩
    have hfirst : (⟨s.pending.sum, s.pending.product, signs⟩ : Pending).factor e₁ = first.tree := by
      have hnone : (⟨s.pending.sum, s.pending.product, signs⟩ : Pending).product = none := hproduct
      rw [factor_of_no_product hnone, htree, signed_of_no_signs hsigns]
    rw [hfactor, hfirst]
    rfl
  | exprEnd =>
    intro s e hs
    refine ⟨e, s.pending, rfl, ?_⟩
    rw [← hs]
    exact Reaches.refl s
  | exprMore t op ht operand rest ihoperand ihrest =>
    intro s e hs
    have hstep := step_sumOp hs ht
    obtain ⟨e₁, pending₁, hsum, hfactor, hreach⟩ :=
      ihoperand (s.addTo e op) (Or.inl rfl) rfl rfl
    obtain ⟨e₂, pending₂, htotal, hreach'⟩ := ihrest
      { s.addTo e op with phase := .value e₁, pending := pending₁ } e₁ rfl
    refine ⟨e₂, pending₂, ?_, Reaches.cons hstep (hreach.trans hreach' (rest.notOpening rfl))⟩
    have hsum' : pending₁.total e₁ = .binary op (s.pending.total e) operand.tree := by
      unfold Pending.total
      rw [hsum, hfactor]
      rfl
    rw [htotal, hsum']
    rfl
  | expr first rest ihfirst ihrest =>
    intro s hs hpending
    obtain ⟨e₁, pending₁, hsum, hfactor, hreach⟩ :=
      ihfirst s hs (by rw [hpending]) (by rw [hpending])
    obtain ⟨e₂, pending₂, htotal, hreach'⟩ :=
      ihrest { s with phase := .value e₁, pending := pending₁ } e₁ rfl
    refine ⟨e₂, pending₂, ?_, hreach.trans hreach' (rest.notOpening rfl)⟩
    have hfirst : pending₁.total e₁ = first.tree := by
      unfold Pending.total
      rw [hsum, hpending]
      exact hfactor
    rw [htotal, hfirst]
    rfl
  | group opening ho inner closing hc ih =>
    intro s hs
    have hstep : s.step opening = .ok (s.openWith .group .operand) := by
      rw [step_of_awaits hs (by rw [ho]; decide)]
      unfold takeOperand
      rw [ho]
    obtain ⟨e, pending, htotal, hreach⟩ := ih (s.openWith .group .operand) (Or.inl rfl) rfl
    have hclose : ({ s.openWith .group .operand with phase := .value e, pending } :
        ParseState).step closing = .ok { s with phase := .value inner.tree } := by
      rw [step_close rfl hc, close_group rfl, htotal]
    refine Reaches.cons hstep (hreach.trans (Reaches.cons hclose (Reaches.refl _)) ?_)
    intro rest _ u hu
    obtain rfl : closing = u := Option.some.inj hu
    rw [hc]
    decide
  | call t ht opening ho arguments closing hc ih =>
    intro s hs
    have hstep : s.step t = .ok { s with phase := .ident t.text } := by
      rw [step_of_awaits hs (by rw [ht]; decide)]
      unfold takeOperand
      rw [ht]
    have hopen : ({ s with phase := .ident t.text } : ParseState).step opening =
        .ok (s.openWith (.call t.text []) .arguments) := if_pos ho
    exact Reaches.cons hstep (Reaches.cons hopen
      (ih (s.openWith (.call t.text []) .arguments) t.text s.pending s.opened closing rfl rfl rfl
        hc))
  | noArguments =>
    intro s function outer opened t hphase hpending hopened ht
    have hstep : s.step t =
        .ok { phase := .value (.call function []), pending := outer, opened } := by
      unfold step takeArgument
      rw [hphase, ht, hopened]
    exact Reaches.cons hstep (Reaches.refl _)
  | someArguments first rest ihfirst ihrest =>
    intro s function outer opened t hphase hpending hopened ht
    obtain ⟨e₁, pending₁, htotal, hreach⟩ := ihfirst s (Or.inr hphase) hpending
    obtain ⟨e₂, pending₂, arguments, hall, hreach'⟩ := ihrest
      { s with phase := .value e₁, pending := pending₁ } e₁ function [] outer opened rfl hopened
    have hclose : ({ phase := .value e₂, pending := pending₂
                     opened := (.call function arguments, outer) :: opened } : ParseState).step t =
        .ok { phase := .value (.call function (first.tree :: rest.tree)), pending := outer
              opened } := by
      rw [step_close rfl ht, close_call rfl, hall, htotal]
      rfl
    have hrun := hreach.trans hreach' (rest.notOpening rfl)
    refine hrun.trans (Reaches.cons hclose (Reaches.refl _)) ?_
    intro rest _ u hu
    obtain rfl : t = u := Option.some.inj hu
    rw [ht]
    decide
  | argumentsEnd =>
    intro s e function arguments outer opened hs hopened
    refine ⟨e, s.pending, arguments, rfl, ?_⟩
    rw [← hs, ← hopened]
    exact Reaches.refl s
  | argumentsMore t ht argument rest ihargument ihrest =>
    intro s e function arguments outer opened hs hopened
    have hstep : s.step t = .ok
        { phase := .operand, pending := {}
          opened := (.call function (arguments ++ [s.pending.total e]), outer) :: opened } := by
      rw [step_comma hs ht, nextArgument_call hopened]
    obtain ⟨e₁, pending₁, htotal, hreach⟩ := ihargument
      { phase := .operand, pending := {}
        opened := (.call function (arguments ++ [s.pending.total e]), outer) :: opened }
      (Or.inl rfl) rfl
    obtain ⟨e₂, pending₂, arguments', hall, hreach'⟩ := ihrest
      { phase := .value e₁, pending := pending₁
        opened := (.call function (arguments ++ [s.pending.total e]), outer) :: opened }
      e₁ function _ outer opened rfl rfl
    refine ⟨e₂, pending₂, arguments', ?_,
      Reaches.cons hstep (hreach.trans hreach' (rest.notOpening rfl))⟩
    rw [hall, htotal, List.append_assoc]
    rfl

/-- The parser gives the tree of every derivation of an expression. -/
theorem Derivation.accepted (D : Derivation .expr) (length : Nat) :
    ofLexemes D.yield length = .ok D.tree := by
  obtain ⟨e, pending, htotal, hreach⟩ := D.completes {} (Or.inl rfl) rfl
  have hrun := hreach [] length nofun
  rw [List.append_nil] at hrun
  show ParseState.outcome {} D.yield length = _
  rw [hrun, ← htotal]
  rfl

end Grammar

end Expr

end DesignTokens

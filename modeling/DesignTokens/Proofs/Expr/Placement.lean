import DesignTokens.Proofs.Expr.Parsing
import Mathlib.Data.List.Forall2

/-!
# The places of lexemes in calculations

What the parser accepts depends on the kinds of the lexemes and on the texts of the numbers
(`Grammar.Derivation.exists_of_similar`).  In what it accepts no two operands stand beside each other
and each opening parenthesis has a closing one after it (`Orderly`).  The last operand of a chain can
be taken off its end (`Grammar.Derivation.exists_last`), where other lexemes can be put.
-/

namespace DesignTokens

namespace Expr

/-! ## Order in what is accepted -/

/-- The kinds of lexemes that are operands. -/
def IsOperand (k : LexKind) : Prop :=
  k = .number ∨ k = .ident

/-- No two operands stand beside each other, and each opening parenthesis has a closing one somewhere
after it. -/
structure Orderly (kinds : List LexKind) : Prop where
  apart : ∀ before k k' after, kinds = before ++ k :: k' :: after → IsOperand k → ¬ IsOperand k'
  closes : ∀ before after, kinds = before ++ .leftParen :: after → .rightParen ∈ after

/-- The end of a list of lexemes is in order when the list is. -/
lemma Orderly.of_append {before kinds : List LexKind} (h : Orderly (before ++ kinds)) :
    Orderly kinds where
  apart before' k k' after hkinds :=
    h.apart (before ++ before') k k' after (by rw [hkinds, List.append_assoc])
  closes before' after hkinds :=
    h.closes (before ++ before') after (by rw [hkinds, List.append_assoc])

/-- The lexemes after the first one are in order when all are. -/
lemma Orderly.tail {k : LexKind} {kinds : List LexKind} (h : Orderly (k :: kinds)) :
    Orderly kinds :=
  of_append (show Orderly ([k] ++ kinds) from h)

/-- No operand stands right after an operand. -/
lemma Orderly.not_isOperand {k k' : LexKind} {kinds : List LexKind}
    (h : Orderly (k :: k' :: kinds)) (hk : IsOperand k) : ¬ IsOperand k' :=
  h.apart [] k k' kinds rfl hk

/-- A parenthesis that is opened is closed. -/
lemma Orderly.rightParen_mem {kinds : List LexKind} (h : Orderly (.leftParen :: kinds)) :
    .rightParen ∈ kinds :=
  h.closes [] kinds rfl

namespace ParseState

variable {s s' : ParseState} {t u : Lexeme} {ls : List Lexeme} {length : Nat} {e : Expr}

/-- A run that ends well begins with a step that does. -/
lemma exists_step_of_outcome (h : s.outcome (t :: ls) length = .ok e) :
    ∃ s', s.step t = .ok s' ∧ s'.outcome ls length = .ok e := by
  cases hstep : s.step t with
  | ok s' => exact ⟨s', rfl, (outcome_cons hstep length).symm.trans h⟩
  | error fault =>
    unfold outcome at h
    rw [run, hstep] at h
    cases h

/-- The machine has read an operand. -/
def HasOperand (s : ParseState) : Prop :=
  (∃ word, s.phase = .ident word) ∨ ∃ e, s.phase = .value e

/-- An operand does not follow an operand. -/
lemma not_step_of_hasOperand (hs : s.HasOperand) (ht : IsOperand t.kind) :
    s.step t ≠ .ok s' := by
  have hoperator : ∀ e, s.takeOperator e t ≠ .ok s' := by
    intro e
    unfold takeOperator
    rcases ht with ht | ht <;> rw [ht] <;> nofun
  unfold step
  rcases hs with ⟨word, hphase⟩ | ⟨e, hphase⟩
  · rw [hphase]
    dsimp only
    rw [if_neg (by rcases ht with ht | ht <;> rw [ht] <;> decide)]
    exact hoperator _
  · rw [hphase]
    exact hoperator e

/-- After an operand the machine has read one. -/
lemma hasOperand_of_step (ht : IsOperand t.kind) (h : s.step t = .ok s') : s'.HasOperand := by
  have hawaits : s.AwaitsOperand := by
    by_contra hnot
    refine not_step_of_hasOperand ?_ ht h
    unfold AwaitsOperand at hnot
    unfold HasOperand
    cases hphase : s.phase with
    | operand => exact absurd (Or.inl hphase) hnot
    | arguments => exact absurd (Or.inr hphase) hnot
    | ident word => exact Or.inl ⟨word, rfl⟩
    | value e => exact Or.inr ⟨e, rfl⟩
  rw [step_of_awaits hawaits (by rcases ht with ht | ht <;> rw [ht] <;> decide)] at h
  unfold takeOperand at h
  rcases ht with ht | ht <;> rw [ht] at h <;> cases h
  · exact Or.inr ⟨_, rfl⟩
  · exact Or.inl ⟨_, rfl⟩

/-- After a step that closes no parenthesis one is open if one was open before or has been opened. -/
lemma opened_of_step (ht : t.kind ≠ .rightParen) (h : s.step t = .ok s')
    (hs : s.opened ≠ [] ∨ t.kind = .leftParen) : s'.opened ≠ [] := by
  have hoperand : s.takeOperand t = .ok s' → s'.opened ≠ [] := by
    intro h
    unfold takeOperand at h
    split at h <;> rename_i hkind <;> cases h
    case h_5 => nofun
    all_goals exact hs.resolve_right (by rw [hkind]; decide)
  have hoperator : ∀ e, s.takeOperator e t = .ok s' → s'.opened ≠ [] := by
    intro e h
    unfold takeOperator nextArgument at h
    split at h <;> rename_i hkind
    case h_5 => exact absurd hkind ht
    case h_6 =>
      split at h <;> cases h
      nofun
    all_goals
      cases h
      try exact hs.resolve_right (by rw [hkind]; decide)
  unfold step at h
  split at h
  · exact hoperand h
  · unfold takeArgument at h
    split at h
    · next hkind _ => exact absurd hkind ht
    · exact hoperand h
  · split_ifs at h with hkind
    · cases h
      nofun
    · exact hoperator _ h
  · exact hoperator _ h

/-- A parenthesis that is open at some point is closed later on. -/
lemma rightParen_mem_of_outcome (h : s.outcome ls length = .ok e) (hs : s.opened ≠ []) :
    .rightParen ∈ ls.map Lexeme.kind := by
  induction ls generalizing s with
  | nil =>
    have hempty : s.opened.isEmpty = false := by
      cases hopened : s.opened with
      | nil => exact absurd hopened hs
      | cons => rfl
    replace h : s.finish length = .ok e := h
    unfold finish complete at h
    rw [hempty] at h
    split at h <;> cases h
  | cons t ls ih =>
    rw [List.map_cons, List.mem_cons]
    by_cases ht : t.kind = .rightParen
    · exact Or.inl ht.symm
    · obtain ⟨s', hstep, hrun⟩ := exists_step_of_outcome h
      exact Or.inr (ih hrun (opened_of_step ht hstep (Or.inl hs)))

/-- The lexemes of a run that ends well are in order. -/
lemma orderly_of_outcome (h : s.outcome ls length = .ok e) : Orderly (ls.map Lexeme.kind) := by
  induction ls generalizing s with
  | nil => exact ⟨fun before => by cases before <;> nofun, fun before => by cases before <;> nofun⟩
  | cons t ls ih =>
    obtain ⟨s', hstep, hrun⟩ := exists_step_of_outcome h
    have hlater := ih hrun
    constructor
    · intro before k k' after hkinds hk hk'
      cases before with
      | cons k'' before =>
        exact hlater.apart before k k' after (List.cons.inj hkinds).2 hk hk'
      | nil =>
        obtain ⟨rfl, hrest⟩ := List.cons.inj hkinds
        cases ls with
        | nil => cases hrest
        | cons u ls =>
          obtain ⟨rfl, -⟩ := List.cons.inj hrest
          obtain ⟨s'', hstep', -⟩ := exists_step_of_outcome hrun
          exact not_step_of_hasOperand (hasOperand_of_step hk hstep) hk' hstep'
    · intro before after hkinds
      cases before with
      | cons k'' before => exact hlater.closes before after (List.cons.inj hkinds).2
      | nil =>
        obtain ⟨hkind, rfl⟩ := List.cons.inj hkinds
        have hopened := opened_of_step (by rw [hkind]; decide) hstep (Or.inr hkind)
        exact rightParen_mem_of_outcome hrun hopened

end ParseState

namespace Grammar

namespace Derivation

/-- The lexemes of an expression are in order. -/
theorem orderly (D : Derivation .expr) : Orderly (D.yield.map Lexeme.kind) :=
  ParseState.orderly_of_outcome (s := {}) (D.accepted 0)

end Derivation

/-! ## What the grammar looks at -/

/-- Lexemes of one kind, with one text if they are numbers. -/
def Similar (t u : Lexeme) : Prop :=
  t.kind = u.kind ∧ (u.kind = .number → t.text = u.text)

/-- Lexemes that are similar to those of two derivations, one after the other. -/
lemma similar_append {ls a b : List Lexeme} (h : List.Forall₂ Similar ls (a ++ b)) :
    ∃ ls₁ ls₂, ls = ls₁ ++ ls₂ ∧ List.Forall₂ Similar ls₁ a ∧ List.Forall₂ Similar ls₂ b :=
  ⟨_, _, (List.take_append_drop a.length ls).symm, List.forall₂_take_append ls a b h,
    List.forall₂_drop_append ls a b h⟩

/-- Lexemes that are similar to those of a derivation have one as well. -/
theorem Derivation.exists_of_similar {c : Category} (D : Derivation c) {ls : List Lexeme}
    (h : List.Forall₂ Similar ls D.yield) : ∃ D' : Derivation c, D'.yield = ls := by
  induction D generalizing ls with
  | number t ht numeral hn =>
    rcases h with _ | ⟨⟨hkind, htext⟩, hnil⟩
    cases hnil
    exact ⟨.number _ (hkind.trans ht) numeral (by rw [htext ht]; exact hn), rfl⟩
  | name t ht =>
    rcases h with _ | ⟨⟨hkind, -⟩, hnil⟩
    cases hnil
    exact ⟨.name _ (hkind.trans ht), rfl⟩
  | plain operand ih =>
    obtain ⟨operand', rfl⟩ := ih h
    exact ⟨.plain operand', rfl⟩
  | sign t op ht operand ih =>
    rcases h with _ | ⟨⟨hkind, -⟩, h⟩
    obtain ⟨operand', rfl⟩ := ih h
    exact ⟨.sign _ op (by rw [hkind]; exact ht) operand', rfl⟩
  | termEnd =>
    cases h
    exact ⟨.termEnd, rfl⟩
  | exprEnd =>
    cases h
    exact ⟨.exprEnd, rfl⟩
  | argumentsEnd =>
    cases h
    exact ⟨.argumentsEnd, rfl⟩
  | noArguments =>
    cases h
    exact ⟨.noArguments, rfl⟩
  | termMore t op ht operand more ihoperand ihmore =>
    rcases h with _ | ⟨⟨hkind, -⟩, h⟩
    obtain ⟨ls₁, ls₂, rfl, h₁, h₂⟩ := similar_append h
    obtain ⟨operand', rfl⟩ := ihoperand h₁
    obtain ⟨more', rfl⟩ := ihmore h₂
    exact ⟨.termMore _ op (by rw [hkind]; exact ht) operand' more', rfl⟩
  | exprMore t op ht operand more ihoperand ihmore =>
    rcases h with _ | ⟨⟨hkind, -⟩, h⟩
    obtain ⟨ls₁, ls₂, rfl, h₁, h₂⟩ := similar_append h
    obtain ⟨operand', rfl⟩ := ihoperand h₁
    obtain ⟨more', rfl⟩ := ihmore h₂
    exact ⟨.exprMore _ op (by rw [hkind]; exact ht) operand' more', rfl⟩
  | argumentsMore t ht argument more ihargument ihmore =>
    rcases h with _ | ⟨⟨hkind, -⟩, h⟩
    obtain ⟨ls₁, ls₂, rfl, h₁, h₂⟩ := similar_append h
    obtain ⟨argument', rfl⟩ := ihargument h₁
    obtain ⟨more', rfl⟩ := ihmore h₂
    exact ⟨.argumentsMore _ (hkind.trans ht) argument' more', rfl⟩
  | term first more ihfirst ihmore =>
    obtain ⟨ls₁, ls₂, rfl, h₁, h₂⟩ := similar_append h
    obtain ⟨first', rfl⟩ := ihfirst h₁
    obtain ⟨more', rfl⟩ := ihmore h₂
    exact ⟨.term first' more', rfl⟩
  | expr first more ihfirst ihmore =>
    obtain ⟨ls₁, ls₂, rfl, h₁, h₂⟩ := similar_append h
    obtain ⟨first', rfl⟩ := ihfirst h₁
    obtain ⟨more', rfl⟩ := ihmore h₂
    exact ⟨.expr first' more', rfl⟩
  | someArguments first more ihfirst ihmore =>
    obtain ⟨ls₁, ls₂, rfl, h₁, h₂⟩ := similar_append h
    obtain ⟨first', rfl⟩ := ihfirst h₁
    obtain ⟨more', rfl⟩ := ihmore h₂
    exact ⟨.someArguments first' more', rfl⟩
  | group opening ho inner closing hc ih =>
    rcases h with _ | ⟨⟨hopening, -⟩, h⟩
    obtain ⟨ls₁, ls₂, rfl, h₁, h₂⟩ := similar_append h
    obtain ⟨inner', rfl⟩ := ih h₁
    rcases h₂ with _ | ⟨⟨hclosing, -⟩, hnil⟩
    cases hnil
    exact ⟨.group _ (hopening.trans ho) inner' _ (hclosing.trans hc), rfl⟩
  | call t ht opening ho arguments closing hc ih =>
    rcases h with _ | ⟨⟨hkind, -⟩, _ | ⟨⟨hopening, -⟩, h⟩⟩
    obtain ⟨ls₁, ls₂, rfl, h₁, h₂⟩ := similar_append h
    obtain ⟨arguments', rfl⟩ := ih h₁
    rcases h₂ with _ | ⟨⟨hclosing, -⟩, hnil⟩
    cases hnil
    exact ⟨.call _ (hkind.trans ht) _ (hopening.trans ho) arguments' _ (hclosing.trans hc), rfl⟩

/-! ## The last term of a sum -/

/-- A sum of several terms is a sum and a last term. -/
lemma Derivation.exists_last (first : Derivation .term) :
    (rest : Derivation .exprRest) → rest = .exprEnd ∨ rest ≠ .exprEnd ∧
      ∃ (D : Derivation .expr) (t : Lexeme) (op : BinaryOp) (T : Derivation .term),
        sumOp? t.kind = some op ∧ (expr first rest).yield = D.yield ++ t :: T.yield
  | .exprEnd => Or.inl rfl
  | .exprMore t op ht operand rest => by
    refine Or.inr ⟨nofun, ?_⟩
    rcases exists_last operand rest with rfl | ⟨-, D, t', op', T, ht', hyield⟩
    · refine ⟨.expr first .exprEnd, t, op, operand, ht, ?_⟩
      simp only [yield, List.append_nil]
    · cases D with
      | expr first' rest' =>
        refine ⟨.expr first (.exprMore t op ht first' rest'), t', op', T, ht', ?_⟩
        simp only [yield, List.append_assoc, List.cons_append] at hyield ⊢
        rw [hyield]

end Grammar

end Expr

end DesignTokens

import DesignTokens.Proofs.Expr.Acceptance
import DesignTokens.Proofs.Expr.Numerals

/-!
# The parser accepts exactly the grammar

The other half of the correctness of the parser.  A state of the machine remembers what it has read:
the lexemes of what waits in it, the parentheses that are open, and the operand it has read last are
all derived by the grammar (`StateRead`).  Every step keeps this invariant, so that a run that ends
well has read an expression, and the tree it returns is that of its derivation.

Together with acceptance and the unambiguity of the grammar this gives `parse_eq_ok_iff`: a text is
parsed to a tree exactly when its lexemes have a derivation with that tree, and the derivation is
the only one.
-/

namespace DesignTokens

namespace Expr

open Grammar

namespace Grammar

/-! ## Chains grow at the right end -/

/-- The rest of a product with one more operand at its end. -/
lemma termRest_snoc {t : Lexeme} {op : BinaryOp} (ht : productOp? t.kind = some op)
    (F : Derivation .signed) : (R : Derivation .termRest) →
    ∃ R' : Derivation .termRest, R'.yield = R.yield ++ t :: F.yield ∧
      ∀ left, R'.tree left = .binary op (R.tree left) F.tree
  | .termEnd => ⟨.termMore t op ht F .termEnd, by simp [Derivation.yield], fun _ => rfl⟩
  | .termMore t' op' ht' operand rest => by
    obtain ⟨R', hyield, htree⟩ := termRest_snoc ht F rest
    refine ⟨.termMore t' op' ht' operand R', ?_, fun left => htree _⟩
    simp only [Derivation.yield, hyield, List.append_assoc, List.cons_append]

/-- The rest of a sum with one more term at its end. -/
lemma exprRest_snoc {t : Lexeme} {op : BinaryOp} (ht : sumOp? t.kind = some op)
    (T : Derivation .term) : (R : Derivation .exprRest) →
    ∃ R' : Derivation .exprRest, R'.yield = R.yield ++ t :: T.yield ∧
      ∀ left, R'.tree left = .binary op (R.tree left) T.tree
  | .exprEnd => ⟨.exprMore t op ht T .exprEnd, by simp [Derivation.yield], fun _ => rfl⟩
  | .exprMore t' op' ht' operand rest => by
    obtain ⟨R', hyield, htree⟩ := exprRest_snoc ht T rest
    refine ⟨.exprMore t' op' ht' operand R', ?_, fun left => htree _⟩
    simp only [Derivation.yield, hyield, List.append_assoc, List.cons_append]

/-- A product with one more operand at its end. -/
lemma term_snoc (D : Derivation .term) {t : Lexeme} {op : BinaryOp}
    (ht : productOp? t.kind = some op) (F : Derivation .signed) :
    ∃ D' : Derivation .term, D'.yield = D.yield ++ t :: F.yield ∧
      D'.tree = .binary op D.tree F.tree := by
  cases D with
  | term first rest =>
    obtain ⟨R', hyield, htree⟩ := termRest_snoc ht F rest
    exact ⟨.term first R', by simp only [Derivation.yield, hyield, List.append_assoc],
      htree first.tree⟩

/-- A sum with one more term at its end. -/
lemma expr_snoc (D : Derivation .expr) {t : Lexeme} {op : BinaryOp}
    (ht : sumOp? t.kind = some op) (T : Derivation .term) :
    ∃ D' : Derivation .expr, D'.yield = D.yield ++ t :: T.yield ∧
      D'.tree = .binary op D.tree T.tree := by
  cases D with
  | expr first rest =>
    obtain ⟨R', hyield, htree⟩ := exprRest_snoc ht T rest
    exact ⟨.expr first R', by simp only [Derivation.yield, hyield, List.append_assoc],
      htree first.tree⟩

/-! ## What has been read of a level of parentheses -/

/-- Lexemes that are signs, the last one belonging to the innermost sign. -/
inductive SignsRead : List UnaryOp → List Lexeme → Prop
  | nil : SignsRead [] []
  | snoc {signs : List UnaryOp} {ls : List Lexeme} {t : Lexeme} {op : UnaryOp}
      (before : SignsRead signs ls) (ht : sign? t.kind = some op) :
      SignsRead (op :: signs) (ls ++ [t])

/-- Lexemes of the product that waits for an operand, with the operator at its end. -/
def ProductRead : Option (Expr × BinaryOp) → List Lexeme → Prop
  | none, ls => ls = []
  | some (left, op), ls => ∃ (D : Derivation .term) (t : Lexeme),
      productOp? t.kind = some op ∧ ls = D.yield ++ [t] ∧ D.tree = left

/-- Lexemes of the sum that waits for an operand, with the operator at its end. -/
def SumRead : Option (Expr × BinaryOp) → List Lexeme → Prop
  | none, ls => ls = []
  | some (left, op), ls => ∃ (D : Derivation .expr) (t : Lexeme),
      sumOp? t.kind = some op ∧ ls = D.yield ++ [t] ∧ D.tree = left

/-- Lexemes of all that waits for an operand inside one pair of parentheses. -/
def PendingRead (p : Pending) (ls : List Lexeme) : Prop :=
  ∃ sum product signs, ls = sum ++ (product ++ signs) ∧ SumRead p.sum sum ∧
    ProductRead p.product product ∧ SignsRead p.signs signs

/-- Nothing waits at the beginning. -/
lemma pendingRead_empty : PendingRead {} [] :=
  ⟨[], [], [], rfl, rfl, rfl, SignsRead.nil⟩

/-- Signs and an operand are a signed operand. -/
lemma SignsRead.signed {signs : List UnaryOp} {ls : List Lexeme} (h : SignsRead signs ls)
    (D : Derivation .signed) : ∃ D' : Derivation .signed, D'.yield = ls ++ D.yield ∧
      D'.tree = signs.foldl (fun e op => .unary op e) D.tree := by
  induction h generalizing D with
  | nil => exact ⟨D, rfl, rfl⟩
  | @snoc signs ls t op before ht ih =>
    obtain ⟨D', hyield, htree⟩ := ih (.sign t op ht D)
    refine ⟨D', ?_, htree⟩
    rw [hyield, List.append_assoc]
    rfl

/-- The product that waits and a signed operand are a product. -/
lemma ProductRead.factor {p : Pending} {ls : List Lexeme} (h : ProductRead p.product ls)
    {e : Expr} (F : Derivation .signed) (hF : F.tree = p.signed e) :
    ∃ D : Derivation .term, D.yield = ls ++ F.yield ∧ D.tree = p.factor e := by
  unfold Pending.factor
  cases hp : p.product with
  | none =>
    rw [hp] at h
    obtain rfl : ls = [] := h
    exact ⟨.term F .termEnd, List.append_nil _, hF⟩
  | some pair =>
    obtain ⟨left, op⟩ := pair
    rw [hp] at h
    obtain ⟨D, t, ht, rfl, rfl⟩ := h
    obtain ⟨D', hyield, htree⟩ := term_snoc D ht F
    refine ⟨D', by rw [hyield, List.append_assoc]; rfl, ?_⟩
    rw [htree, hF]

/-- The sum that waits and a product are a sum. -/
lemma SumRead.total {p : Pending} {ls : List Lexeme} (h : SumRead p.sum ls) {e : Expr}
    (T : Derivation .term) (hT : T.tree = p.factor e) :
    ∃ D : Derivation .expr, D.yield = ls ++ T.yield ∧ D.tree = p.total e := by
  unfold Pending.total
  cases hp : p.sum with
  | none =>
    rw [hp] at h
    obtain rfl : ls = [] := h
    exact ⟨.expr T .exprEnd, List.append_nil _, hT⟩
  | some pair =>
    obtain ⟨left, op⟩ := pair
    rw [hp] at h
    obtain ⟨D, t, ht, rfl, rfl⟩ := h
    obtain ⟨D', hyield, htree⟩ := expr_snoc D ht T
    refine ⟨D', by rw [hyield, List.append_assoc]; rfl, ?_⟩
    rw [htree, hT]

/-- All that waits and an operand are an expression. -/
lemma PendingRead.total {p : Pending} {ls : List Lexeme} (h : PendingRead p ls)
    (A : Derivation .atom) :
    ∃ D : Derivation .expr, D.yield = ls ++ A.yield ∧ D.tree = p.total A.tree := by
  obtain ⟨sum, product, signs, rfl, hsum, hproduct, hsigns⟩ := h
  obtain ⟨F, hFyield, hFtree⟩ := hsigns.signed (.plain A)
  obtain ⟨T, hTyield, hTtree⟩ := hproduct.factor F hFtree
  obtain ⟨D, hyield, htree⟩ := hsum.total T hTtree
  refine ⟨D, ?_, htree⟩
  rw [hyield, hTyield, hFyield]
  simp only [List.append_assoc]
  rfl

/-- After an operator of a sum the sum waits. -/
lemma PendingRead.addTo {p : Pending} {ls : List Lexeme} (h : PendingRead p ls)
    (A : Derivation .atom) {t : Lexeme} {op : BinaryOp} (ht : sumOp? t.kind = some op) :
    PendingRead { sum := some (p.total A.tree, op) } (ls ++ A.yield ++ [t]) := by
  obtain ⟨D, hyield, htree⟩ := h.total A
  refine ⟨ls ++ A.yield ++ [t], [], [], (List.append_nil _).symm, ?_, rfl, SignsRead.nil⟩
  exact ⟨D, t, ht, by rw [hyield], htree⟩

/-- After an operator of a product the product waits inside the sum. -/
lemma PendingRead.multiply {p : Pending} {ls : List Lexeme} (h : PendingRead p ls)
    (A : Derivation .atom) {t : Lexeme} {op : BinaryOp} (ht : productOp? t.kind = some op) :
    PendingRead ⟨p.sum, some (p.factor A.tree, op), []⟩ (ls ++ A.yield ++ [t]) := by
  obtain ⟨sum, product, signs, rfl, hsum, hproduct, hsigns⟩ := h
  obtain ⟨F, hFyield, hFtree⟩ := hsigns.signed (.plain A)
  obtain ⟨T, hTyield, hTtree⟩ := hproduct.factor F hFtree
  refine ⟨sum, T.yield ++ [t], [], ?_, hsum, ⟨T, t, ht, rfl, hTtree⟩, SignsRead.nil⟩
  rw [hTyield, hFyield]
  simp only [List.append_assoc, List.append_nil]
  rfl

/-- After a sign one more sign waits. -/
lemma PendingRead.sign {p : Pending} {ls : List Lexeme} (h : PendingRead p ls) {t : Lexeme}
    {op : UnaryOp} (ht : sign? t.kind = some op) :
    PendingRead ⟨p.sum, p.product, op :: p.signs⟩ (ls ++ [t]) := by
  obtain ⟨sum, product, signs, rfl, hsum, hproduct, hsigns⟩ := h
  refine ⟨sum, product, signs ++ [t], ?_, hsum, hproduct, hsigns.snoc ht⟩
  simp only [List.append_assoc]

/-! ## What has been read of the open parentheses -/

/-- Lexemes of arguments, each with the comma after it. -/
inductive ArgumentsRead : List Expr → List Lexeme → Prop
  | nil : ArgumentsRead [] []
  | snoc {arguments : List Expr} {ls : List Lexeme} {t : Lexeme}
      (before : ArgumentsRead arguments ls) (D : Derivation .expr) (ht : t.kind = .comma) :
      ArgumentsRead (arguments ++ [D.tree]) (ls ++ (D.yield ++ [t]))

/-- Arguments with their commas, one more argument and those after it are the arguments of a
call. -/
lemma ArgumentsRead.arguments {arguments : List Expr} {ls : List Lexeme}
    (h : ArgumentsRead arguments ls) (D : Derivation .expr) (R : Derivation .argumentsRest) :
    ∃ A : Derivation .arguments, A.yield = ls ++ (D.yield ++ R.yield) ∧
      A.tree = arguments ++ D.tree :: R.tree := by
  induction h generalizing D R with
  | nil => exact ⟨.someArguments D R, rfl, rfl⟩
  | @snoc arguments ls t before D' ht ih =>
    obtain ⟨A, hyield, htree⟩ := ih D' (.argumentsMore t ht D R)
    refine ⟨A, ?_, ?_⟩
    · rw [hyield]
      simp only [Derivation.yield, List.append_assoc, List.cons_append, List.nil_append]
    · rw [htree]
      simp only [Derivation.tree, List.append_assoc, List.cons_append, List.nil_append]

/-- Before the first argument of a call nothing has been read of its arguments. -/
lemma ArgumentsRead.eq_nil {ls : List Lexeme} (h : ArgumentsRead [] ls) : ls = [] := by
  generalize harguments : ([] : List Expr) = arguments at h
  cases h with
  | nil => rfl
  | snoc before D ht => exact absurd harguments.symm (List.append_ne_nil_of_right_ne_nil _ nofun)

/-- Lexemes of the open parentheses and of what waits around each of them. -/
inductive OpenedRead : List (Opener × Pending) → List Lexeme → Prop
  | nil : OpenedRead [] []
  | group {opened : List (Opener × Pending)} {p : Pending} {before ls : List Lexeme}
      {opening : Lexeme} (outer : OpenedRead opened before) (waits : PendingRead p ls)
      (ho : opening.kind = .leftParen) :
      OpenedRead ((.group, p) :: opened) (before ++ (ls ++ [opening]))
  | call {opened : List (Opener × Pending)} {p : Pending} {before ls read : List Lexeme}
      {t opening : Lexeme} {arguments : List Expr} (outer : OpenedRead opened before)
      (waits : PendingRead p ls) (ht : t.kind = .ident) (ho : opening.kind = .leftParen)
      (has : ArgumentsRead arguments read) :
      OpenedRead ((.call t.text arguments, p) :: opened)
        (before ++ (ls ++ t :: opening :: read))

/-- What a state of the machine has read. -/
def StateRead (s : ParseState) (ls : List Lexeme) : Prop :=
  match s.phase with
  | .operand => ∃ before waits, ls = before ++ waits ∧ OpenedRead s.opened before ∧
      PendingRead s.pending waits
  | .arguments => OpenedRead s.opened ls ∧ s.pending = {} ∧
      ∃ function outer opened, s.opened = (.call function [], outer) :: opened
  | .ident word => ∃ before waits t, ls = before ++ (waits ++ [t]) ∧
      OpenedRead s.opened before ∧ PendingRead s.pending waits ∧ t.kind = .ident ∧ t.text = word
  | .value e => ∃ before waits, ∃ A : Derivation .atom, ls = before ++ (waits ++ A.yield) ∧
      OpenedRead s.opened before ∧ PendingRead s.pending waits ∧ A.tree = e

end Grammar

namespace ParseState

variable {s s' : ParseState} {before waits ls : List Lexeme} {t : Lexeme}

/-! ## Every step keeps what has been read -/

/-- A lexeme whose number, if it is one, can be read. -/
def Readable (t : Lexeme) : Prop :=
  t.kind = .number → ∃ n, Decimal.Numeral.ofChars? t.text.toList = some n

/-- The lexeme where an operand has to begin is read. -/
lemma takeOperand_read (hopened : OpenedRead s.opened before)
    (hpending : PendingRead s.pending waits) (ht : Readable t) (h : s.takeOperand t = .ok s') :
    StateRead s' (before ++ (waits ++ [t])) := by
  unfold takeOperand at h
  cases hkind : t.kind with
  | number =>
    obtain ⟨n, hn⟩ := ht hkind
    rw [hkind, hn] at h
    cases h
    exact ⟨before, waits, .number t hkind n hn, rfl, hopened, hpending, rfl⟩
  | ident =>
    rw [hkind] at h
    cases h
    exact ⟨before, waits, t, rfl, hopened, hpending, hkind, rfl⟩
  | minus =>
    rw [hkind] at h
    cases h
    exact ⟨before, waits ++ [t], rfl, hopened, hpending.sign (by rw [hkind]; rfl)⟩
  | plus =>
    rw [hkind] at h
    cases h
    exact ⟨before, waits ++ [t], rfl, hopened, hpending.sign (by rw [hkind]; rfl)⟩
  | leftParen =>
    rw [hkind] at h
    cases h
    exact ⟨before ++ (waits ++ [t]), [], (List.append_nil _).symm,
      OpenedRead.group hopened hpending hkind, pendingRead_empty⟩
  | star => rw [hkind] at h; cases h
  | slash => rw [hkind] at h; cases h
  | rightParen => rw [hkind] at h; cases h
  | comma => rw [hkind] at h; cases h

/-- A parenthesis that closes after an operand is read. -/
lemma close_read (hopened : OpenedRead s.opened before) (hpending : PendingRead s.pending waits)
    (A : Derivation .atom) (ht : t.kind = .rightParen) (h : s.close A.tree t = .ok s') :
    StateRead s' (before ++ (waits ++ A.yield ++ [t])) := by
  obtain ⟨D, hyield, htree⟩ := hpending.total A
  unfold close at h
  cases hstack : s.opened with
  | nil =>
    rw [hstack] at h
    cases h
  | cons frame outside =>
    rw [hstack] at h hopened
    cases hopened with
    | @group _ p outside' inside opening houter hwaits ho =>
      cases h
      refine ⟨outside', inside, .group opening ho D t ht, ?_, houter, hwaits, htree⟩
      simp only [Derivation.yield, hyield, List.append_assoc, List.cons_append, List.nil_append]
    | @call _ p outside' inside read f opening arguments houter hwaits hf ho hread =>
      cases h
      obtain ⟨B, hByield, hBtree⟩ := hread.arguments D .argumentsEnd
      refine ⟨outside', inside, .call f hf opening ho B t ht, ?_, houter, hwaits, ?_⟩
      · simp only [Derivation.yield, hByield, hyield, List.append_assoc, List.cons_append,
          List.append_nil]
      · show Expr.call f.text B.tree = _
        rw [hBtree, htree]
        rfl

/-- A comma after an operand is read. -/
lemma nextArgument_read (hopened : OpenedRead s.opened before)
    (hpending : PendingRead s.pending waits) (A : Derivation .atom) (ht : t.kind = .comma)
    (h : s.nextArgument A.tree t = .ok s') :
    StateRead s' (before ++ (waits ++ A.yield ++ [t])) := by
  obtain ⟨D, hyield, htree⟩ := hpending.total A
  unfold nextArgument at h
  cases hstack : s.opened with
  | nil =>
    rw [hstack] at h
    cases h
  | cons frame outside =>
    rw [hstack] at h hopened
    cases hopened with
    | group => cases h
    | @call _ p outside' inside read f opening arguments houter hwaits hf ho hread =>
      cases h
      have hread' := OpenedRead.call houter hwaits hf ho (hread.snoc D ht)
      rw [htree] at hread'
      refine ⟨_, [], ?_, hread', pendingRead_empty⟩
      rw [hyield]
      simp only [List.append_assoc, List.cons_append, List.append_nil]

/-- The lexeme after a complete operand is read. -/
lemma takeOperator_read (hopened : OpenedRead s.opened before)
    (hpending : PendingRead s.pending waits) (A : Derivation .atom)
    (h : s.takeOperator A.tree t = .ok s') :
    StateRead s' (before ++ (waits ++ A.yield ++ [t])) := by
  unfold takeOperator at h
  cases hkind : t.kind with
  | plus =>
    rw [hkind] at h
    cases h
    exact ⟨before, _, rfl, hopened, hpending.addTo A (by rw [hkind]; rfl)⟩
  | minus =>
    rw [hkind] at h
    cases h
    exact ⟨before, _, rfl, hopened, hpending.addTo A (by rw [hkind]; rfl)⟩
  | star =>
    rw [hkind] at h
    cases h
    exact ⟨before, _, rfl, hopened, hpending.multiply A (by rw [hkind]; rfl)⟩
  | slash =>
    rw [hkind] at h
    cases h
    exact ⟨before, _, rfl, hopened, hpending.multiply A (by rw [hkind]; rfl)⟩
  | rightParen =>
    rw [hkind] at h
    exact close_read hopened hpending A hkind h
  | comma =>
    rw [hkind] at h
    exact nextArgument_read hopened hpending A hkind h
  | number => rw [hkind] at h; cases h
  | ident => rw [hkind] at h; cases h
  | leftParen => rw [hkind] at h; cases h

/-- The lexeme after the parenthesis of a call is read. -/
lemma takeArgument_read {function : String} {outer : Pending}
    {outside : List (Opener × Pending)} (hopened : OpenedRead s.opened ls)
    (hpending : s.pending = {}) (hstack : s.opened = (.call function [], outer) :: outside)
    (ht : Readable t) (h : s.takeArgument t = .ok s') : StateRead s' (ls ++ [t]) := by
  unfold takeArgument at h
  by_cases hclose : t.kind = .rightParen
  · rw [hclose, hstack] at h
    cases h
    rw [hstack] at hopened
    cases hopened with
    | @call _ p outside' inside read f opening arguments houter hwaits hf ho hread =>
      obtain rfl := hread.eq_nil
      refine ⟨outside', inside, .call f hf opening ho .noArguments t hclose, ?_, houter, hwaits,
        rfl⟩
      simp only [Derivation.yield, List.append_assoc, List.cons_append, List.nil_append]
  · have hoperand : s.takeOperand t = .ok s' := by
      rw [← h]
      split
      · next hkind _ => exact absurd hkind hclose
      · rfl
    exact takeOperand_read hopened (hpending ▸ pendingRead_empty) ht hoperand

/-- Every step reads its lexeme. -/
lemma step_read (hs : StateRead s ls) (ht : Readable t) (h : s.step t = .ok s') :
    StateRead s' (ls ++ [t]) := by
  unfold step at h
  unfold StateRead at hs
  cases hphase : s.phase with
  | operand =>
    rw [hphase] at h hs
    obtain ⟨before, waits, rfl, hopened, hpending⟩ := hs
    rw [List.append_assoc]
    exact takeOperand_read hopened hpending ht h
  | arguments =>
    rw [hphase] at h hs
    obtain ⟨hopened, hpending, function, outer, outside, hstack⟩ := hs
    exact takeArgument_read hopened hpending hstack ht h
  | ident word =>
    rw [hphase] at h hs
    obtain ⟨before, waits, f, rfl, hopened, hpending, hf, rfl⟩ := hs
    rw [List.append_assoc]
    by_cases hparen : t.kind = .leftParen
    · have hs' : s.openWith (.call f.text []) .arguments = s' :=
        Except.ok.inj ((if_pos hparen).symm.trans h)
      rw [← hs', List.append_assoc]
      exact ⟨OpenedRead.call hopened hpending hf hparen ArgumentsRead.nil, rfl, _, _, _, rfl⟩
    · have hstep : s.takeOperator (.name f.text) t = .ok s' := (if_neg hparen).symm.trans h
      exact takeOperator_read hopened hpending (.name f hf) hstep
  | value e =>
    rw [hphase] at h hs
    obtain ⟨before, waits, A, rfl, hopened, hpending, rfl⟩ := hs
    rw [List.append_assoc]
    exact takeOperator_read hopened hpending A h

/-- A run reads its lexemes. -/
lemma run_read {more : List Lexeme} (hs : StateRead s ls) (hmore : ∀ t ∈ more, Readable t)
    (h : s.run more = .ok s') : StateRead s' (ls ++ more) := by
  induction more generalizing s ls with
  | nil =>
    cases h
    rwa [List.append_nil]
  | cons t more ih =>
    unfold run at h
    cases hstep : s.step t with
    | error fault =>
      rw [hstep] at h
      cases h
    | ok next =>
      rw [hstep] at h
      have hnext := step_read hs (hmore t (List.mem_cons_self ..)) hstep
      have hall := ih hnext (fun u hu => hmore u (List.mem_cons_of_mem _ hu)) h
      rwa [List.append_assoc] at hall

/-- At the end an expression has been read, and its tree is the result. -/
lemma finish_read {length : Nat} {e : Expr} (hs : StateRead s ls) (h : s.finish length = .ok e) :
    ∃ D : Derivation .expr, D.yield = ls ∧ D.tree = e := by
  have hcomplete : ∀ {before waits : List Lexeme} (A : Derivation .atom),
      OpenedRead s.opened before → PendingRead s.pending waits →
      s.complete length A.tree = .ok e →
      ∃ D : Derivation .expr, D.yield = before ++ (waits ++ A.yield) ∧ D.tree = e := by
    intro before waits A hopened hpending hend
    obtain ⟨D, hyield, htree⟩ := hpending.total A
    unfold complete at hend
    cases hstack : s.opened with
    | nil =>
      rw [hstack] at hend hopened
      cases hopened
      exact ⟨D, by rw [hyield, List.nil_append], htree.trans (Except.ok.inj hend)⟩
    | cons frame outside =>
      rw [hstack] at hend
      cases hend
  unfold finish at h
  unfold StateRead at hs
  cases hphase : s.phase with
  | operand =>
    rw [hphase] at h
    cases h
  | arguments =>
    rw [hphase] at h
    cases h
  | ident word =>
    rw [hphase] at h hs
    obtain ⟨before, waits, t, rfl, hopened, hpending, ht, rfl⟩ := hs
    exact hcomplete (.name t ht) hopened hpending h
  | value e' =>
    rw [hphase] at h hs
    obtain ⟨before, waits, A, rfl, hopened, hpending, rfl⟩ := hs
    exact hcomplete A hopened hpending h

end ParseState

/-! ## The parser and the grammar -/

/-- What the parser accepts is derived by the grammar. -/
theorem ofLexemes_derived {ls : List Lexeme} {length : Nat} {e : Expr}
    (hls : ∀ t ∈ ls, ParseState.Readable t) (h : ofLexemes ls length = .ok e) :
    ∃ D : Derivation .expr, D.yield = ls ∧ D.tree = e := by
  unfold ofLexemes at h
  cases hrun : ParseState.run {} ls with
  | error fault =>
    rw [hrun] at h
    cases h
  | ok s =>
    rw [hrun] at h
    have hstart : StateRead {} [] := ⟨[], [], rfl, OpenedRead.nil, pendingRead_empty⟩
    have hread := ParseState.run_read hstart hls hrun
    exact ParseState.finish_read hread h

/-- A text has a tree exactly when it can be scanned and its lexemes have a derivation with that
tree. -/
lemma parse_eq_ok {source : String} {e : Expr} :
    parse source = .ok e ↔ ∃ ls, Lexeme.scan source = .ok ls ∧
      ∃ D : Derivation .expr, D.yield = ls ∧ D.tree = e := by
  unfold parse
  cases hscan : Lexeme.scan source with
  | error fault =>
    constructor
    · nofun
    · rintro ⟨ls, hls, _⟩
      cases hls
  | ok ls =>
    have hreadable : ∀ t ∈ ls, ParseState.Readable t := Lexeme.scanFrom_number hscan
    cases ls with
    | nil =>
      constructor
      · nofun
      · rintro ⟨ls, hls, D, hyield, _⟩
        obtain ⟨t, more, hcons, _⟩ := D.begins rfl
        cases hls
        cases hyield.symm.trans hcons
    | cons t more =>
      constructor
      · intro h
        exact ⟨t :: more, rfl, ofLexemes_derived hreadable h⟩
      · rintro ⟨ls, hls, D, hyield, rfl⟩
        cases hls
        show ofLexemes (t :: more) source.length = _
        rw [← hyield]
        exact D.accepted source.length

/-- The parser accepts exactly the grammar: a text has a tree if and only if it can be scanned and
its lexemes have a derivation with that tree, there is no other derivation of these lexemes, and
every other text is a parse fault. -/
theorem parse_eq_ok_iff_unique_derivation (source : String) :
    (∀ e, parse source = .ok e ↔ ∃ ls, Lexeme.scan source = .ok ls ∧
      ∃ D : Derivation .expr, (D.yield = ls ∧ D.tree = e) ∧
        ∀ D' : Derivation .expr, D'.yield = ls → D' = D) ∧
    ((∃ fault : ParseFault, parse source = .error fault) ↔
      ¬ ∃ ls, Lexeme.scan source = .ok ls ∧ ∃ D : Derivation .expr, D.yield = ls) := by
  constructor
  · intro e
    rw [parse_eq_ok]
    constructor
    · rintro ⟨ls, hls, D, hyield, htree⟩
      exact ⟨ls, hls, D, ⟨hyield, htree⟩, fun D' hD' => Derivation.unique (hD'.trans hyield.symm)⟩
    · rintro ⟨ls, hls, D, ⟨hyield, htree⟩, _⟩
      exact ⟨ls, hls, D, hyield, htree⟩
  · constructor
    · rintro ⟨fault, hfault⟩ ⟨ls, hls, D, hyield⟩
      have htree : parse source = .ok D.tree := parse_eq_ok.mpr ⟨ls, hls, D, hyield, rfl⟩
      cases hfault.symm.trans htree
    · intro hnone
      cases hparse : parse source with
      | error fault => exact ⟨fault, rfl⟩
      | ok e =>
        obtain ⟨ls, hls, D, hyield, _⟩ := parse_eq_ok.mp hparse
        exact absurd ⟨ls, hls, D, hyield⟩ hnone

end Expr

end DesignTokens

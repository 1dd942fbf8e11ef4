import DesignTokens.Proofs.Expr.Parsing
import DesignTokens.Proofs.Expr.Spacing
import DesignTokens.Proofs.Outcome
import DesignTokens.Text.Scan

/-!
# Where faults of calculations are noticed

A fault is noticed as early as it can be.  What the machine of the parser has read can always be
completed to an expression (`Grammar.StateRead.exists_derivation`): an operand is put where one has
to follow, and the open parentheses are closed.  A lexeme that the machine refuses cannot stand in
an expression after what it has read, because the machine takes every expression.  So the lexemes
before a fault begin a sentence of the grammar and those up to the fault do not
(`fault_at_first_violation`); the end of the text counts as the last terminal of a sentence.

The scanner is stuck at the only place that its walk over the text comes to where neither white
space nor a lexeme stands.
-/

namespace DesignTokens

open Text (isSpace)

namespace Lexeme

variable {pos : ℕ} {cs rest rest' : List Char} {ls ls' : List Lexeme}

/-! ## The place where the scanner is stuck -/

/-- A walk comes to what is left of the text. -/
lemma Scans.suffix (h : Scans pos cs ls rest) : rest <:+ cs := by
  induction h with
  | stop => exact List.suffix_rfl
  | space hc h ih => exact ih.trans (List.suffix_cons _ _)
  | lexeme ht h ih => exact ih.trans (List.suffix_append _ _)

/-- The scanner is stuck where neither white space nor a lexeme stands. -/
lemma Stuck.scanFrom_eq (h : Stuck rest) (pos : ℕ) :
    ∃ c, scanFrom pos rest = .error ⟨c, pos⟩ := by
  obtain ⟨⟨c, later, rfl, hspace⟩, hnone⟩ := h
  have hbegin : begin? c later = none := by
    cases hbegin : begin? c later with
    | none => rfl
    | some found =>
      obtain ⟨kind, more⟩ := found
      have hbegins : c :: later.take more <+: c :: later :=
        List.cons_prefix_cons.mpr ⟨rfl, List.take_prefix more later⟩
      exact absurd (spells_of_begin? hbegin) (hnone kind _ hbegins)
  refine ⟨c, ?_⟩
  rw [scanFrom, if_neg (by simp [hspace]), hbegin]

/-- A walk is stuck at one place at most. -/
lemma Scans.eq_of_stuck (h : Scans pos cs ls rest) (hrest : Stuck rest)
    (h' : Scans pos cs ls' rest') (hrest' : Stuck rest') : rest' = rest := by
  have hle := h.suffix.length_le
  have hle' := h'.suffix.length_le
  obtain ⟨c, hc⟩ := hrest.scanFrom_eq (pos + (cs.length - rest.length))
  obtain ⟨c', hc'⟩ := hrest'.scanFrom_eq (pos + (cs.length - rest'.length))
  have hscan := h.scanFrom_eq (pos + (cs.length - rest.length)) (by omega)
  have hscan' := h'.scanFrom_eq (pos + (cs.length - rest'.length)) (by omega)
  rw [hscan, hc, hc'] at hscan'
  have hpos := congrArg LexFault.pos (Except.error.inj hscan')
  dsimp only at hpos
  exact (List.suffix_of_suffix_length_le h'.suffix h.suffix (by omega)).eq_of_length (by omega)

/-- A text without lexemes is blank. -/
lemma isBlank_of_scan_eq_nil {source : String} (h : scan source = .ok []) :
    Text.isBlank source = true := by
  refine List.all_eq_true.mpr fun c hc => ?_
  obtain ⟨i, hi⟩ := List.mem_iff_getElem?.mp hc
  exact ((scans_of_scanFrom h).isSpace_iff rfl hi).mpr (List.forall_mem_nil _)

end Lexeme

namespace Expr

open Grammar Lexeme

namespace Grammar

/-! ## What has been read can be completed -/

/-- An operand that can be put wherever one has to follow. -/
def zero : Derivation .atom :=
  .number ⟨.number, "0", 0⟩ rfl ⟨['0'], [], 0⟩ rfl

/-- A parenthesis that closes. -/
def closing : Lexeme :=
  ⟨.rightParen, ")", 0⟩

/-- After an expression all open parentheses can be closed. -/
lemma OpenedRead.exists_derivation {opened : List (Opener × Pending)} {ls : List Lexeme}
    (h : OpenedRead opened ls) (D : Derivation .expr) :
    ∃ D' : Derivation .expr, ls ++ D.yield <+: D'.yield := by
  induction h generalizing D with
  | nil => exact ⟨D, List.prefix_rfl⟩
  | @group opened p before ls opening outer waits ho ih =>
    obtain ⟨E, hyield, -⟩ := waits.total (.group opening ho D closing rfl)
    obtain ⟨D', hbegins⟩ := ih E
    refine ⟨D', List.IsPrefix.trans ?_ hbegins⟩
    rw [hyield]
    simp only [Derivation.yield, List.append_assoc, List.cons_append, List.nil_append,
      List.prefix_append_right_inj, List.cons_prefix_cons, true_and, List.prefix_append]
  | @call opened p before ls read t opening arguments outer waits ht ho has ih =>
    obtain ⟨A, hA, -⟩ := has.arguments D .argumentsEnd
    obtain ⟨E, hyield, -⟩ := waits.total (.call t ht opening ho A closing rfl)
    obtain ⟨D', hbegins⟩ := ih E
    refine ⟨D', List.IsPrefix.trans ?_ hbegins⟩
    rw [hyield]
    simp only [Derivation.yield, hA, List.append_assoc, List.cons_append, List.nil_append,
      List.prefix_append_right_inj, List.cons_prefix_cons, true_and, List.prefix_append]

/-- After an operand, what has been read can be completed. -/
lemma exists_derivation_of_atom {s : ParseState} {before waits : List Lexeme}
    (hopened : OpenedRead s.opened before) (hpending : PendingRead s.pending waits)
    (A : Derivation .atom) :
    ∃ D : Derivation .expr, before ++ (waits ++ A.yield) <+: D.yield := by
  obtain ⟨E, hyield, -⟩ := hpending.total A
  obtain ⟨D, hbegins⟩ := hopened.exists_derivation E
  rw [hyield] at hbegins
  exact ⟨D, hbegins⟩

/-- What the machine has read begins an expression. -/
theorem StateRead.exists_derivation {s : ParseState} {ls : List Lexeme} (h : StateRead s ls) :
    ∃ D : Derivation .expr, ls <+: D.yield := by
  unfold StateRead at h
  cases hphase : s.phase with
  | operand =>
    rw [hphase] at h
    obtain ⟨before, waits, rfl, hopened, hpending⟩ := h
    obtain ⟨D, hbegins⟩ := exists_derivation_of_atom hopened hpending zero
    rw [← List.append_assoc] at hbegins
    exact ⟨D, (List.prefix_append _ _).trans hbegins⟩
  | arguments =>
    rw [hphase] at h
    obtain ⟨D, hbegins⟩ := h.1.exists_derivation (.expr (.term (.plain zero) .termEnd) .exprEnd)
    exact ⟨D, (List.prefix_append _ _).trans hbegins⟩
  | ident word =>
    rw [hphase] at h
    obtain ⟨before, waits, t, rfl, hopened, hpending, ht, -⟩ := h
    exact exists_derivation_of_atom hopened hpending (.name t ht)
  | value e =>
    rw [hphase] at h
    obtain ⟨before, waits, A, rfl, hopened, hpending, -⟩ := h
    exact exists_derivation_of_atom hopened hpending A

/-! ## Sentences and their beginnings -/

/-- A sentence of the grammar: the lexemes of an expression, and the end. -/
def IsSentence (ts : List Terminal) : Prop :=
  ∃ (D : Derivation .expr) (length : ℕ), ts = Terminal.ofLexemes D.yield length

/-- Terminals with which a sentence begins. -/
def Viable (ts : List Terminal) : Prop :=
  ∃ sentence, IsSentence sentence ∧ ts <+: sentence

/-- A position at which it is first seen that terminals are not a sentence: that of a terminal with
a sentence for all that stands before it, but with none for this terminal as well. -/
def IsFirstViolation (ts : List Terminal) (pos : ℕ) : Prop :=
  ∃ i t, ts[i]? = some t ∧ t.pos = pos ∧ ∀ j, Viable (ts.take j) ↔ j ≤ i

lemma Viable.of_prefix {ts ts' : List Terminal} (h : Viable ts) (hts : ts' <+: ts) :
    Viable ts' := by
  obtain ⟨sentence, hsentence, hbegins⟩ := h
  exact ⟨sentence, hsentence, hts.trans hbegins⟩

/-- Terminals are seen not to be a sentence where the first one stands that no sentence has after
the ones before. -/
lemma isFirstViolation_of_split {before after : List Terminal} {t : Terminal}
    (h : Viable before) (h' : ¬ Viable (before ++ [t])) :
    IsFirstViolation (before ++ t :: after) t.pos := by
  have htake : (before ++ t :: after).take before.length = before := List.take_left
  have htake' : (before ++ t :: after).take (before.length + 1) = before ++ [t] := by
    rw [List.take_length_add_append, List.take_succ_cons, List.take_zero]
  refine ⟨before.length, t, ?_, rfl, fun j => ⟨fun hj => ?_, fun hj => ?_⟩⟩
  · rw [List.getElem?_append_right (le_refl _), Nat.sub_self]
    rfl
  · by_contra hlt
    exact h' (hj.of_prefix (htake' ▸ List.take_prefix_take_left (by omega)))
  · rw [← htake] at h
    exact h.of_prefix (List.take_prefix_take_left hj)

lemma lexeme_injective : Function.Injective Terminal.lexeme :=
  fun _ _ h => Terminal.lexeme.inj h

/-- Lexemes begin a sentence when they begin an expression. -/
lemma viable_lexemes {ls : List Lexeme} :
    Viable (ls.map .lexeme) ↔ ∃ D : Derivation .expr, ls <+: D.yield := by
  constructor
  · rintro ⟨-, ⟨D, length, rfl⟩, hbegins⟩
    rcases List.prefix_concat_iff.mp hbegins with heq | hbegins
    · have hmem : Terminal.finish length ∈ ls.map Terminal.lexeme := by simp [heq]
      simp at hmem
    · obtain ⟨ls', hls', heq⟩ := List.prefix_map_iff.mp hbegins
      obtain rfl := List.map_injective_iff.mpr lexeme_injective heq
      exact ⟨D, hls'⟩
  · rintro ⟨D, hbegins⟩
    exact ⟨_, ⟨D, 0, rfl⟩, (hbegins.map _).trans (List.prefix_append _ _)⟩

/-- Lexemes and the end are a sentence when the lexemes are an expression. -/
lemma viable_ofLexemes {ls : List Lexeme} {length : ℕ} :
    Viable (Terminal.ofLexemes ls length) ↔ ∃ D : Derivation .expr, D.yield = ls := by
  constructor
  · rintro ⟨-, ⟨D, length', rfl⟩, hbegins⟩
    rcases List.prefix_concat_iff.mp hbegins with heq | hbegins
    · have hlexemes := List.append_inj_left' heq rfl
      exact ⟨D, (List.map_injective_iff.mpr lexeme_injective hlexemes).symm⟩
    · have hmem : Terminal.finish length ∈ D.yield.map Terminal.lexeme :=
        hbegins.subset (List.mem_append_right _ (List.mem_singleton_self _))
      simp at hmem
  · rintro ⟨D, rfl⟩
    exact ⟨_, ⟨D, length, rfl⟩, List.prefix_rfl⟩

end Grammar

/-! ## Faults of the machine -/

namespace ParseState

variable {s s' : ParseState} {t : Lexeme} {ls : List Lexeme} {fault : ParseFault}

lemma pos_misplaced (s : ParseState) (t : Lexeme) : (s.misplaced t).pos = t.pos := by
  unfold misplaced
  split_ifs <;> rfl

/-- A lexeme with which no operand begins is where the fault is noticed. -/
lemma pos_of_takeOperand (h : s.takeOperand t = .error fault) : fault.pos = t.pos := by
  unfold takeOperand at h
  split at h <;> cases h <;> rfl

/-- A lexeme that may not follow an operand is where the fault is noticed. -/
lemma pos_of_takeOperator {e : Expr} (h : s.takeOperator e t = .error fault) :
    fault.pos = t.pos := by
  have hmisplaced : ∀ {f : ParseFault}, .error (s.misplaced t) = Except.error (α := ParseState) f →
      f.pos = t.pos := fun h => Except.error.inj h ▸ s.pos_misplaced t
  unfold takeOperator at h
  cases hkind : t.kind with
  | rightParen =>
    rw [hkind] at h
    unfold close at h
    rcases hopened : s.opened with _ | ⟨⟨_ | _, outer⟩, opened⟩ <;> rw [hopened] at h
    · exact hmisplaced h
    · cases h
    · cases h
  | comma =>
    rw [hkind] at h
    unfold nextArgument at h
    rcases hopened : s.opened with _ | ⟨⟨_ | _, outer⟩, opened⟩ <;> rw [hopened] at h
    · exact hmisplaced h
    · exact hmisplaced h
    · cases h
  | number => rw [hkind] at h; exact hmisplaced h
  | ident => rw [hkind] at h; exact hmisplaced h
  | leftParen => rw [hkind] at h; exact hmisplaced h
  | plus => rw [hkind] at h; cases h
  | minus => rw [hkind] at h; cases h
  | star => rw [hkind] at h; cases h
  | slash => rw [hkind] at h; cases h

/-- The fault of a step is noticed at its lexeme. -/
lemma pos_of_step (h : s.step t = .error fault) : fault.pos = t.pos := by
  unfold step at h
  cases hphase : s.phase with
  | operand =>
    rw [hphase] at h
    exact pos_of_takeOperand h
  | arguments =>
    rw [hphase] at h
    dsimp only at h
    unfold takeArgument at h
    split at h
    · cases h
    · exact pos_of_takeOperand h
  | ident word =>
    rw [hphase] at h
    dsimp only at h
    split_ifs at h
    exact pos_of_takeOperator h
  | value e =>
    rw [hphase] at h
    exact pos_of_takeOperator h

/-- A fault at the end of a text is noticed there. -/
lemma pos_of_finish {length : ℕ} (h : s.finish length = .error fault) : fault.pos = length := by
  have hcomplete : ∀ {e : Expr}, s.complete length e = .error fault → fault.pos = length := by
    intro e h
    unfold complete at h
    split_ifs at h
    cases h
    rfl
  unfold finish at h
  cases hphase : s.phase with
  | operand =>
    rw [hphase] at h
    cases h
    rfl
  | arguments =>
    rw [hphase] at h
    cases h
    rfl
  | ident word =>
    rw [hphase] at h
    exact hcomplete h
  | value e =>
    rw [hphase] at h
    exact hcomplete h

/-- A run over two lists is one over the first and then one over the second. -/
lemma run_append (s : ParseState) (ls later : List Lexeme) :
    s.run (ls ++ later) = (s.run ls >>= fun next => next.run later) := by
  induction ls generalizing s with
  | nil => rfl
  | cons t ls ih =>
    rw [List.cons_append, run_cons, run_cons, bind_assoc]
    exact bind_congr fun next => ih next

/-- A run with a fault has taken the lexemes before the one that it is noticed at. -/
lemma exists_of_run (h : s.run ls = .error fault) :
    ∃ before t after s', ls = before ++ t :: after ∧ s.run before = .ok s' ∧
      s'.step t = .error fault := by
  induction ls generalizing s with
  | nil => cases h
  | cons t ls ih =>
    rw [run_cons] at h
    rcases of_bind_eq_error h with hstep | ⟨next, hstep, hlater⟩
    · exact ⟨[], t, ls, s, rfl, rfl, hstep⟩
    · obtain ⟨before, u, after, s', rfl, hrun, hfault⟩ := ih hlater
      refine ⟨t :: before, u, after, s', rfl, ?_, hfault⟩
      rw [run_cons, bind_of_ok hstep]
      exact hrun

/-- A lexeme that the machine refuses does not stand in an expression after what it has read. -/
lemma not_prefix_of_step {before : List Lexeme} (hrun : ParseState.run {} before = .ok s)
    (hstep : s.step t = .error fault) (D : Derivation .expr) :
    ¬ before ++ [t] <+: D.yield := by
  rintro ⟨after, hyield⟩
  obtain ⟨last, hlast, -⟩ := bind_eq_ok.mp ((outcome_eq {} D.yield 0).symm.trans (D.accepted 0))
  rw [← hyield, List.append_assoc, run_append, bind_of_ok hrun, List.singleton_append, run_cons,
    hstep] at hlast
  cases hlast

end ParseState

/-! ## Faults are noticed at the first violation -/

/-- The fault of lexemes that can be scanned is noticed at their first violation of the grammar. -/
lemma isFirstViolation_of_ofLexemes {ls : List Lexeme} {length : ℕ} {fault : ParseFault}
    (hls : ∀ t ∈ ls, ParseState.Readable t) (h : ofLexemes ls length = .error fault) :
    IsFirstViolation (Terminal.ofLexemes ls length) fault.pos := by
  have hstart : StateRead {} [] := ⟨[], [], rfl, OpenedRead.nil, pendingRead_empty⟩
  rcases of_bind_eq_error ((ParseState.outcome_eq {} ls length).symm.trans h) with
    hrun | ⟨s, hrun, hfinish⟩
  · -- A lexeme is refused.
    obtain ⟨before, t, after, s, rfl, hbefore, hstep⟩ := ParseState.exists_of_run hrun
    have hread := ParseState.run_read hstart
      (fun u hu => hls u (List.mem_append_left _ hu)) hbefore
    have hsplit : Terminal.ofLexemes (before ++ t :: after) length =
        before.map .lexeme ++ .lexeme t :: Terminal.ofLexemes after length := by
      simp [Terminal.ofLexemes]
    rw [ParseState.pos_of_step hstep, hsplit]
    refine isFirstViolation_of_split (t := .lexeme t) (viable_lexemes.mpr hread.exists_derivation)
      fun hviable => ?_
    have hmap : before.map Terminal.lexeme ++ [.lexeme t] =
        (before ++ [t]).map Terminal.lexeme := by simp
    rw [hmap] at hviable
    obtain ⟨D, hbegins⟩ := viable_lexemes.mp hviable
    exact ParseState.not_prefix_of_step hbefore hstep D hbegins
  · -- Something is missing at the end.
    rw [ParseState.pos_of_finish hfinish]
    have hread := ParseState.run_read hstart hls hrun
    refine isFirstViolation_of_split (t := .finish length)
      (viable_lexemes.mpr hread.exists_derivation) fun hviable => ?_
    obtain ⟨D, rfl⟩ := viable_ofLexemes.mp hviable
    cases (D.accepted length).symm.trans h

/-- Faults are noticed at the earliest possible place.  The fault of a text that can be scanned and
is not blank has the position of the first terminal, the end included, such that the terminals
before it begin a sentence of the grammar and those up to it do not.  The fault of a text that
cannot be scanned has the index of the only place that a walk over white space and longest lexemes
comes to where neither white space nor a lexeme stands. -/
theorem fault_at_first_violation (source : String) :
    (∀ ts fault, Terminal.scan source = .ok ts → Text.isBlank source = false →
      parse source = .error fault → IsFirstViolation ts fault.pos) ∧
    ∀ lexFault, Terminal.scan source = .error lexFault →
      ∃ fault before ls rest, parse source = .error fault ∧ fault.pos = before.length ∧
        source.toList = before ++ rest ∧ Scans 0 source.toList ls rest ∧ Stuck rest ∧
        ∀ ls' rest', Scans 0 source.toList ls' rest' → Stuck rest' → rest' = rest := by
  cases hscan : Lexeme.scan source with
  | ok ls =>
    have hterminals : Terminal.scan source = .ok (Terminal.ofLexemes ls source.length) := by
      unfold Terminal.scan
      rw [hscan]
      rfl
    refine ⟨fun ts fault hts hblank hparse => ?_, fun lexFault hfault => ?_⟩
    · obtain rfl := Except.ok.inj (hterminals.symm.trans hts)
      unfold parse at hparse
      rw [hscan] at hparse
      cases ls with
      | nil => cases hblank.symm.trans (isBlank_of_scan_eq_nil hscan)
      | cons t ls => exact isFirstViolation_of_ofLexemes (scanFrom_number hscan) hparse
    · cases hterminals.symm.trans hfault
  | error fault =>
    have hterminals : Terminal.scan source = .error fault := by
      unfold Terminal.scan
      rw [hscan]
      rfl
    refine ⟨fun ts fault' hts => ?_, fun lexFault hfault => ?_⟩
    · cases hterminals.symm.trans hts
    · obtain ⟨before, ls, rest, hsplit, hpos, hwalk, hstuck⟩ := exists_scans_of_scanFrom hscan
      refine ⟨⟨.unexpectedChar fault.found, fault.pos⟩, before, ls, rest, ?_, ?_, hsplit, hwalk,
        hstuck, fun ls' rest' hwalk' hstuck' => hwalk.eq_of_stuck hstuck hwalk' hstuck'⟩
      · unfold parse
        rw [hscan]
      · rw [hpos, Nat.zero_add]

/-- In `f(1 2` nothing is wrong before `2`: neither an operator nor a comma nor the parenthesis that
closes stands there.  In `1 $2` the scanner is stuck at the sign between the numbers. -/
theorem fault_at_first_violation_unclosed :
    Terminal.scan "f(1 2" = .ok [.lexeme ⟨.ident, "f", 0⟩, .lexeme ⟨.leftParen, "(", 1⟩,
        .lexeme ⟨.number, "1", 2⟩, .lexeme ⟨.number, "2", 4⟩, .finish 5] ∧
      Text.isBlank "f(1 2" = false ∧
      parse "f(1 2" = .error ⟨.unclosed (some "2"), 4⟩ ∧
      IsFirstViolation [.lexeme ⟨.ident, "f", 0⟩, .lexeme ⟨.leftParen, "(", 1⟩,
        .lexeme ⟨.number, "1", 2⟩, .lexeme ⟨.number, "2", 4⟩, .finish 5] 4 ∧
      Terminal.scan "1 $2" = .error ⟨'$', 2⟩ ∧
      ∃ ls, Scans 0 "1 $2".toList ls ['$', '2'] ∧ Stuck ['$', '2'] := by
  have hterminals : Terminal.scan "f(1 2" = .ok [.lexeme ⟨.ident, "f", 0⟩,
      .lexeme ⟨.leftParen, "(", 1⟩, .lexeme ⟨.number, "1", 2⟩, .lexeme ⟨.number, "2", 4⟩,
      .finish 5] := by
    decide +kernel
  have hblank : Text.isBlank "f(1 2" = false := by
    decide +kernel
  have hparse : parse "f(1 2" = .error ⟨.unclosed (some "2"), 4⟩ := by
    have hlexemes : Lexeme.scan "f(1 2" = .ok [⟨.ident, "f", 0⟩, ⟨.leftParen, "(", 1⟩,
        ⟨.number, "1", 2⟩, ⟨.number, "2", 4⟩] := by
      decide +kernel
    unfold parse
    rw [hlexemes]
    rfl
  have hstops : Terminal.scan "1 $2" = .error ⟨'$', 2⟩ := by
    decide +kernel
  obtain ⟨fault, before, ls, rest, hfault, hpos, hsplit, hwalk, hstuck, -⟩ :=
    (fault_at_first_violation "1 $2").2 _ hstops
  have hsign : parse "1 $2" = .error ⟨.unexpectedChar '$', 2⟩ := by
    have hlexemes : Lexeme.scan "1 $2" = .error ⟨'$', 2⟩ := by
      decide +kernel
    unfold parse
    rw [hlexemes]
  have hlength : before.length = 2 := by
    rw [← hpos, ← Except.error.inj (hsign.symm.trans hfault)]
  have hrest : rest = "1 $2".toList.drop 2 := by
    rw [hsplit, ← hlength, List.drop_left]
  rw [hrest] at hwalk hstuck
  exact ⟨hterminals, hblank, hparse,
    (fault_at_first_violation "f(1 2").1 _ _ hterminals hblank hparse, hstops, ls, hwalk, hstuck⟩

end Expr

end DesignTokens

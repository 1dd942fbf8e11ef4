import DesignTokens.Expr.Eval
import Mathlib.Data.Nat.Notation
import Mathlib.Tactic.Lemma
import Mathlib.Tactic.SplitIfs

/-!
# What a calculation comes to

The value of a calculation over the values of its names, as a relation: `Expr.HasValue values e x`
has a rule for each kind of calculation and leaves out how the evaluation runs.  A calculation may
instead have a fault somewhere: a name without a value, a call of a function that does not exist, or
one with a wrong number of arguments (`Expr.HasFault`).  It may divide by zero somewhere
(`Expr.DividesByZero`), which does not take its value away.

The evaluation agrees with all three.  It comes to a value exactly when the calculation has that
value (`Expr.exists_eval_iff`), it ends in a fault of the calculation if there is one
(`Expr.hasFault_of_eval`, `Expr.exists_eval_error`), and it remembers a division by zero exactly when
there is one, also where the result is thrown away later on (`Expr.dividedByZero_iff`).
-/

namespace DesignTokens

namespace CalcFunction

/-- A call with a number of arguments is one of a function. -/
def IsCalled (name : String) (count : ℕ) (f : CalcFunction) : Prop :=
  ofName? name = some f ∧ ∀ expected ∈ f.arity, expected = count

/-- Why a call with a number of arguments is not one of any function. -/
inductive Refuses (name : String) (count : ℕ) : EvalFault → Prop
  | unknown (h : ofName? name = none) : Refuses name count (.unknownFunction name)
  | count {f : CalcFunction} {expected : ℕ} (h : ofName? name = some f)
      (harity : f.arity = some expected) (hcount : expected ≠ count) :
      Refuses name count (.wrongCount name expected count)

/-- The function of a call. -/
lemma forCall_eq_ok {name : String} {count : ℕ} {f : CalcFunction} :
    forCall name count = .ok f ↔ IsCalled name count f := by
  unfold forCall IsCalled
  cases hname : ofName? name with
  | none => simp
  | some g =>
    cases harity : g.arity with
    | none =>
      simp only [harity, Except.ok.injEq, Option.some.injEq]
      constructor
      · rintro rfl
        simp [harity]
      · exact And.left
    | some expected =>
      simp only [harity, Option.some.injEq]
      split_ifs with hcount
      · simp only [Except.ok.injEq]
        constructor
        · rintro rfl
          simp [harity, hcount]
        · exact And.left
      · constructor
        · nofun
        · rintro ⟨rfl, hexpected⟩
          exact absurd (hexpected expected harity) hcount

/-- The fault of a call. -/
lemma forCall_eq_error {name : String} {count : ℕ} {fault : EvalFault} :
    forCall name count = .error fault ↔ Refuses name count fault := by
  unfold forCall
  constructor
  · intro h
    split at h
    · next hname =>
      cases h
      exact Refuses.unknown hname
    · next f hname =>
      split at h
      · next expected harity =>
        split_ifs at h with hcount
        cases h
        exact Refuses.count hname harity hcount
      · cases h
  · rintro (hname | ⟨hname, harity, hcount⟩)
    · rw [hname]
    · rw [hname]
      dsimp only
      rw [harity]
      exact if_neg hcount

end CalcFunction

namespace Expr

/-! ## Parts, values and faults -/

/-- The parts of a calculation: itself, and the parts of its operands or arguments. -/
inductive IsPart : Expr → Expr → Prop
  | self (e : Expr) : IsPart e e
  | operand {part e : Expr} (op : UnaryOp) (h : IsPart part e) : IsPart part (.unary op e)
  | left {part l : Expr} (op : BinaryOp) (r : Expr) (h : IsPart part l) :
      IsPart part (.binary op l r)
  | right {part r : Expr} (op : BinaryOp) (l : Expr) (h : IsPart part r) :
      IsPart part (.binary op l r)
  | argument {part e : Expr} {arguments : List Expr} (function : String) (he : e ∈ arguments)
      (h : IsPart part e) : IsPart part (.call function arguments)

mutual

/-- The value of a calculation. -/
inductive HasValue (values : String → Option Float) : Expr → Float → Prop
  | number (x : Float) : HasValue values (.number x) x
  | name {n : String} {x : Float} (h : values n = some x) : HasValue values (.name n) x
  | unary {e : Expr} {x : Float} (op : UnaryOp) (h : HasValue values e x) :
      HasValue values (.unary op e) (applyUnary op x)
  | binary {l r : Expr} {x y : Float} (op : BinaryOp) (hl : HasValue values l x)
      (hr : HasValue values r y) : HasValue values (.binary op l r) (applyBinary op x y)
  | call {function : String} {arguments : List Expr} {xs : List Float} {f : CalcFunction}
      (hf : CalcFunction.IsCalled function arguments.length f)
      (h : HaveValues values arguments xs) : HasValue values (.call function arguments) (f.apply xs)

/-- The values of several calculations. -/
inductive HaveValues (values : String → Option Float) : List Expr → List Float → Prop
  | nil : HaveValues values [] []
  | cons {e : Expr} {x : Float} {es : List Expr} {xs : List Float} (h : HasValue values e x)
      (hs : HaveValues values es xs) : HaveValues values (e :: es) (x :: xs)

end

/-- A calculation that has no value for a reason of its own. -/
inductive IsFault (values : String → Option Float) : Expr → EvalFault → Prop
  | name {n : String} (h : values n = none) : IsFault values (.name n) (.undefined n)
  | call {function : String} {arguments : List Expr} {fault : EvalFault}
      (h : CalcFunction.Refuses function arguments.length fault) :
      IsFault values (.call function arguments) fault

/-- A part of a calculation has a fault. -/
def HasFault (values : String → Option Float) (e : Expr) (fault : EvalFault) : Prop :=
  ∃ part, IsPart part e ∧ IsFault values part fault

/-- A part of a calculation is a division whose divisor has the value zero. -/
def DividesByZero (values : String → Option Float) (e : Expr) : Prop :=
  ∃ l r y, IsPart (.binary .div l r) e ∧ HasValue values r y ∧ (y == 0.0) = true

variable {values : String → Option Float} {e l r : Expr} {fault : EvalFault}

/-! ## The evaluation comes to the value -/

mutual

/-- What the evaluation comes to is the value. -/
theorem hasValue_of_eval {o : Outcome} {e : Expr} (h : eval values e = .ok o) :
    HasValue values e o.value := by
  cases e with
  | number x =>
    cases h
    exact HasValue.number x
  | name n =>
    rw [eval] at h
    split at h
    · next x hx =>
      cases h
      exact HasValue.name hx
    · cases h
  | unary op e =>
    rw [eval] at h
    split at h
    · next x hx =>
      cases h
      exact HasValue.unary op (hasValue_of_eval hx)
    · cases h
  | binary op l r =>
    rw [eval] at h
    split at h
    · cases h
    · next x hx =>
      split at h
      · cases h
      · next y hy =>
        cases h
        exact HasValue.binary op (hasValue_of_eval hx) (hasValue_of_eval hy)
  | call function arguments =>
    rw [eval] at h
    split at h
    · cases h
    · next f hf =>
      split at h
      · cases h
      · next outcomes hall =>
        cases h
        exact HasValue.call (CalcFunction.forCall_eq_ok.mp hf) (haveValues_of_evalAll hall)

/-- What the evaluation of several calculations comes to are their values. -/
theorem haveValues_of_evalAll {os : List Outcome} {es : List Expr}
    (h : evalAll values es = .ok os) : HaveValues values es (os.map (·.value)) := by
  cases es with
  | nil =>
    cases h
    exact HaveValues.nil
  | cons e es =>
    rw [evalAll] at h
    split at h
    · cases h
    · next x hx =>
      split at h
      · cases h
      · next xs hxs =>
        cases h
        exact HaveValues.cons (hasValue_of_eval hx) (haveValues_of_evalAll hxs)

end

mutual

/-- The evaluation comes to the value that a calculation has. -/
theorem exists_eval_of_hasValue {e : Expr} {x : Float} (h : HasValue values e x) :
    ∃ o, eval values e = .ok o ∧ o.value = x := by
  cases h with
  | number x => exact ⟨_, by rw [eval], rfl⟩
  | name hn => exact ⟨_, by rw [eval, hn], rfl⟩
  | unary op h =>
    obtain ⟨o, ho, rfl⟩ := exists_eval_of_hasValue h
    exact ⟨_, by rw [eval, ho], rfl⟩
  | binary op hl hr =>
    obtain ⟨o, ho, rfl⟩ := exists_eval_of_hasValue hl
    obtain ⟨o', ho', rfl⟩ := exists_eval_of_hasValue hr
    exact ⟨_, by rw [eval, ho, ho'], rfl⟩
  | call hf h =>
    obtain ⟨os, hos, rfl⟩ := exists_evalAll_of_haveValues h
    exact ⟨_, by rw [eval, CalcFunction.forCall_eq_ok.mpr hf, hos], rfl⟩

/-- The evaluation comes to the values that several calculations have. -/
theorem exists_evalAll_of_haveValues {es : List Expr} {xs : List Float}
    (h : HaveValues values es xs) : ∃ os, evalAll values es = .ok os ∧ os.map (·.value) = xs := by
  cases h with
  | nil => exact ⟨[], rfl, rfl⟩
  | cons h hs =>
    obtain ⟨o, ho, rfl⟩ := exists_eval_of_hasValue h
    obtain ⟨os, hos, rfl⟩ := exists_evalAll_of_haveValues hs
    exact ⟨o :: os, by rw [evalAll, ho, hos], rfl⟩

end

/-- The evaluation comes to a value exactly when the calculation has it. -/
lemma exists_eval_iff {x : Float} :
    (∃ o, eval values e = .ok o ∧ o.value = x) ↔ HasValue values e x := by
  constructor
  · rintro ⟨o, ho, rfl⟩
    exact hasValue_of_eval ho
  · exact exists_eval_of_hasValue

/-- A calculation has one value at most. -/
lemma HasValue.unique {x y : Float} (hx : HasValue values e x) (hy : HasValue values e y) :
    x = y := by
  obtain ⟨o, ho, rfl⟩ := exists_eval_of_hasValue hx
  obtain ⟨o', ho', rfl⟩ := exists_eval_of_hasValue hy
  cases ho.symm.trans ho'
  rfl

/-! ## The evaluation meets the faults -/

mutual

/-- The evaluation ends in a fault of the calculation. -/
theorem hasFault_of_eval {e : Expr} {fault : EvalFault} (h : eval values e = .error fault) :
    HasFault values e fault := by
  cases e with
  | number x => cases h
  | name n =>
    rw [eval] at h
    split at h
    · cases h
    · next hn =>
      cases h
      exact ⟨_, IsPart.self _, IsFault.name hn⟩
  | unary op e =>
    rw [eval] at h
    split at h
    · cases h
    · next hfault =>
      cases h
      obtain ⟨part, hpart, hfault⟩ := hasFault_of_eval hfault
      exact ⟨part, hpart.operand op, hfault⟩
  | binary op l r =>
    rw [eval] at h
    split at h
    · next hfault =>
      cases h
      obtain ⟨part, hpart, hfault⟩ := hasFault_of_eval hfault
      exact ⟨part, hpart.left op r, hfault⟩
    · split at h
      · next hfault =>
        cases h
        obtain ⟨part, hpart, hfault⟩ := hasFault_of_eval hfault
        exact ⟨part, hpart.right op l, hfault⟩
      · cases h
  | call function arguments =>
    rw [eval] at h
    split at h
    · next hfault =>
      cases h
      exact ⟨_, IsPart.self _, IsFault.call (CalcFunction.forCall_eq_error.mp hfault)⟩
    · split at h
      · next hfault =>
        cases h
        obtain ⟨e, he, part, hpart, hfault⟩ := exists_hasFault_of_evalAll hfault
        exact ⟨part, hpart.argument function he, hfault⟩
      · cases h

/-- The evaluation of several calculations ends in a fault of one of them. -/
theorem exists_hasFault_of_evalAll {es : List Expr} {fault : EvalFault}
    (h : evalAll values es = .error fault) : ∃ e ∈ es, HasFault values e fault := by
  cases es with
  | nil => cases h
  | cons e es =>
    rw [evalAll] at h
    split at h
    · next hfault =>
      cases h
      exact ⟨e, List.mem_cons_self, hasFault_of_eval hfault⟩
    · split at h
      · next hfault =>
        cases h
        obtain ⟨e', he', hfault⟩ := exists_hasFault_of_evalAll hfault
        exact ⟨e', List.mem_cons_of_mem e he', hfault⟩
      · cases h

end

/-- Of several calculations with values each has one. -/
lemma HaveValues.exists_of_mem {es : List Expr} {xs : List Float} (h : HaveValues values es xs)
    (he : e ∈ es) : ∃ x ∈ xs, HasValue values e x := by
  induction es generalizing xs with
  | nil => cases he
  | cons head es ih =>
    cases h with
    | cons h hs =>
      rcases List.mem_cons.mp he with rfl | he
      · exact ⟨_, List.mem_cons_self, h⟩
      · obtain ⟨x, hx, hvalue⟩ := ih hs he
        exact ⟨x, List.mem_cons_of_mem _ hx, hvalue⟩

/-- The parts of a calculation with a value have values. -/
lemma IsPart.exists_hasValue {part : Expr} (h : IsPart part e) {x : Float}
    (hx : HasValue values e x) : ∃ y, HasValue values part y := by
  induction h generalizing x with
  | self => exact ⟨x, hx⟩
  | operand op _ ih =>
    cases hx with
    | unary _ hx => exact ih hx
  | left op r _ ih =>
    cases hx with
    | binary _ hl _ => exact ih hl
  | right op l _ ih =>
    cases hx with
    | binary _ _ hr => exact ih hr
  | argument function he _ ih =>
    cases hx with
    | call _ hs =>
      obtain ⟨y, _, hy⟩ := hs.exists_of_mem he
      exact ih hy

/-- A calculation with a fault of its own has no value. -/
lemma IsFault.not_hasValue (h : IsFault values e fault) {x : Float} : ¬ HasValue values e x := by
  intro hx
  cases h with
  | name hn =>
    cases hx with
    | name hx => cases hn.symm.trans hx
  | call hrefuses =>
    cases hx with
    | call hf _ =>
      cases (CalcFunction.forCall_eq_error.mpr hrefuses).symm.trans
        (CalcFunction.forCall_eq_ok.mpr hf)

/-- A calculation has a value exactly when it has no fault. -/
lemma exists_hasValue_iff :
    (∃ x, HasValue values e x) ↔ ∀ fault, ¬ HasFault values e fault := by
  constructor
  · rintro ⟨x, hx⟩ fault ⟨part, hpart, hfault⟩
    obtain ⟨y, hy⟩ := hpart.exists_hasValue hx
    exact hfault.not_hasValue hy
  · intro hnone
    cases heval : eval values e with
    | ok o => exact ⟨o.value, hasValue_of_eval heval⟩
    | error fault => exact absurd (hasFault_of_eval heval) (hnone fault)

/-- The evaluation of a calculation with a fault ends in one. -/
lemma exists_eval_error (h : HasFault values e fault) :
    ∃ fault', eval values e = .error fault' ∧ HasFault values e fault' := by
  cases heval : eval values e with
  | ok o => exact absurd h (exists_hasValue_iff.mp ⟨o.value, hasValue_of_eval heval⟩ fault)
  | error fault' => exact ⟨fault', rfl, hasFault_of_eval heval⟩

/-! ## The evaluation remembers divisions by zero -/

/-- A sign divides by zero where its operand does. -/
lemma dividesByZero_unary {op : UnaryOp} :
    DividesByZero values (.unary op e) ↔ DividesByZero values e := by
  constructor
  · rintro ⟨l, r, y, hpart, hy⟩
    cases hpart with
    | operand _ hpart => exact ⟨l, r, y, hpart, hy⟩
  · rintro ⟨l, r, y, hpart, hy⟩
    exact ⟨l, r, y, hpart.operand op, hy⟩

/-- An operator divides by zero where an operand does, or itself. -/
lemma dividesByZero_binary {op : BinaryOp} {y : Float} (hy : HasValue values r y) :
    DividesByZero values (.binary op l r) ↔
      DividesByZero values l ∨ DividesByZero values r ∨ op = .div ∧ (y == 0.0) = true := by
  constructor
  · rintro ⟨l', r', y', hpart, hy', hzero⟩
    cases hpart with
    | self => exact Or.inr (Or.inr ⟨rfl, hy.unique hy' ▸ hzero⟩)
    | left _ _ hpart => exact Or.inl ⟨l', r', y', hpart, hy', hzero⟩
    | right _ _ hpart => exact Or.inr (Or.inl ⟨l', r', y', hpart, hy', hzero⟩)
  · rintro (⟨l', r', y', hpart, hy'⟩ | ⟨l', r', y', hpart, hy'⟩ | ⟨rfl, hzero⟩)
    · exact ⟨l', r', y', hpart.left op r, hy'⟩
    · exact ⟨l', r', y', hpart.right op l, hy'⟩
    · exact ⟨l, r, y, IsPart.self _, hy, hzero⟩

/-- A call divides by zero where an argument does. -/
lemma dividesByZero_call {function : String} {arguments : List Expr} :
    DividesByZero values (.call function arguments) ↔
      ∃ e ∈ arguments, DividesByZero values e := by
  constructor
  · rintro ⟨l, r, y, hpart, hy⟩
    cases hpart with
    | argument _ he hpart => exact ⟨_, he, l, r, y, hpart, hy⟩
  · rintro ⟨e, he, l, r, y, hpart, hy⟩
    exact ⟨l, r, y, hpart.argument function he, hy⟩

mutual

/-- The evaluation remembers a division by zero exactly when there is one. -/
theorem dividedByZero_iff {e : Expr} {o : Outcome} (h : eval values e = .ok o) :
    o.dividedByZero = true ↔ DividesByZero values e := by
  cases e with
  | number x =>
    cases h
    exact ⟨nofun, fun ⟨_, _, _, hpart, _⟩ => nomatch hpart⟩
  | name n =>
    have hfalse : o.dividedByZero = false := by
      rw [eval] at h
      split at h <;> cases h
      rfl
    rw [hfalse]
    exact ⟨nofun, fun ⟨_, _, _, hpart, _⟩ => nomatch hpart⟩
  | unary op e =>
    rw [eval] at h
    split at h
    · next x hx =>
      cases h
      rw [dividesByZero_unary, ← dividedByZero_iff hx]
    · cases h
  | binary op l r =>
    rw [eval] at h
    split at h
    · cases h
    · next x hx =>
      split at h
      · cases h
      · next y hy =>
        cases h
        rw [dividesByZero_binary (hasValue_of_eval hy), ← dividedByZero_iff hx,
          ← dividedByZero_iff hy]
        simp [or_assoc]
  | call function arguments =>
    rw [eval] at h
    split at h
    · cases h
    · split at h
      · cases h
      · next outcomes hall =>
        cases h
        rw [dividesByZero_call]
        exact any_dividedByZero_iff hall

/-- The evaluation of several calculations remembers the divisions by zero of all of them. -/
theorem any_dividedByZero_iff {es : List Expr} {os : List Outcome}
    (h : evalAll values es = .ok os) :
    os.any (·.dividedByZero) = true ↔ ∃ e ∈ es, DividesByZero values e := by
  cases es with
  | nil =>
    cases h
    simp
  | cons e es =>
    rw [evalAll] at h
    split at h
    · cases h
    · next x hx =>
      split at h
      · cases h
      · next xs hxs =>
        cases h
        rw [List.any_cons, Bool.or_eq_true, dividedByZero_iff hx, any_dividedByZero_iff hxs]
        simp

end

end Expr

end DesignTokens

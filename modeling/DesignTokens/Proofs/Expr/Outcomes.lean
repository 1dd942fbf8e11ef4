import DesignTokens.Expr.Calculation
import DesignTokens.Proofs.Expr.Evaluation
import Mathlib.Data.List.Basic

/-!
# The outcomes of calculations over references

A calculation over references has one of three outcomes.  References without a value take its value
away, and there is one warning for each of them.  With a value for each reference, a text without a
tree, or with a tree that has a fault, has one warning about the syntax and no value.  Otherwise the
calculation has the value of its tree, with a warning if it divides by zero somewhere
(`Calculation.outcomes_of_text`).

The tree is that of the text with identifiers in place of references, and each of these identifiers
has the value of its reference (`Calculation.standInValues_standIn`); other names have no value.
-/

namespace DesignTokens

namespace Calculation

/-! ## The identifiers that stand for references -/

/-- Each reference has an identifier of its own. -/
lemma standIn_injective : Function.Injective standIn := by
  intro i j h
  have hrepr : Nat.repr i = Nat.repr j := (String.append_right_inj _).mp h
  have hdigits : Nat.toDigits 10 i = Nat.toDigits 10 j := by
    rw [← Nat.toList_repr, ← Nat.toList_repr, hrepr]
  have hread : ∀ n, Nat.ofDigitChars 10 (Nat.toDigits 10 n) 0 = n :=
    fun n => Nat.ofDigitChars_toDigits (by decide) (by decide)
  rw [← hread i, ← hread j, hdigits]

variable {references : List Reference} {context : String → Option Quantity}

/-- The reference that an identifier stands for is found by its index. -/
lemma find?_standIn {i : ℕ} {r : Reference} (h : references[i]? = some r) :
    (references.zipIdx.find? fun e => standIn e.2 == standIn i) = some (r, i) := by
  have hmem : (r, i) ∈ references.zipIdx := List.mk_mem_zipIdx_iff_getElem?.mpr h
  cases hfind : references.zipIdx.find? fun e => standIn e.2 == standIn i with
  | none =>
    have hne := List.find?_eq_none.mp hfind (r, i) hmem
    exact absurd (beq_self_eq_true (standIn i)) hne
  | some e =>
    obtain ⟨r', j⟩ := e
    have hname := List.find?_some hfind
    obtain rfl : j = i := standIn_injective (beq_iff_eq.mp hname)
    have hr' := List.mk_mem_zipIdx_iff_getElem?.mp (List.mem_of_find?_eq_some hfind)
    cases hr'.symm.trans h
    rfl

/-- The identifier of a reference has the value of the reference. -/
lemma standInValues_standIn {i : ℕ} {r : Reference} (h : references[i]? = some r) :
    standInValues references context (standIn i) = (context r.text).map (·.value) := by
  unfold standInValues
  rw [find?_standIn h]

/-- Other names have no value. -/
lemma standInValues_eq_none {name : String} (h : ∀ i < references.length, name ≠ standIn i) :
    standInValues references context name = none := by
  unfold standInValues
  split
  · next r i hfind =>
    have hname := List.find?_some hfind
    have hlt := (List.mem_zipIdx' (List.mem_of_find?_eq_some hfind)).1
    exact absurd (beq_iff_eq.mp hname).symm (h i hlt)
  · rfl

/-! ## The three outcomes -/

/-- Every reference of a text has a value. -/
def Provides (context : String → Option Quantity) (text : String) : Prop :=
  ∀ r ∈ distinctReferences text, (context r.text).isSome = true

/-- Why a text whose references all have values has no value itself: it has no tree, or its tree has
a fault. -/
inductive Refuses (text : String) (values : String → Option Float) : String → Prop
  | parse {fault : ParseFault} (h : Expr.parse text = .error fault) :
      Refuses text values fault.message
  | eval {tree : Expr} {fault : EvalFault} (h : Expr.parse text = .ok tree)
      (hfault : tree.HasFault values fault) : Refuses text values fault.message

variable {text message : String} {values : String → Option Float}

/-- A computation that fails has been refused. -/
lemma refuses_of_compute (h : compute text values = .error message) :
    Refuses text values message := by
  unfold compute at h
  split at h
  · next hparse =>
    cases h
    exact Refuses.parse hparse
  · next tree hparse =>
    split at h
    · next hfault =>
      cases h
      exact Refuses.eval hparse (Expr.hasFault_of_eval hfault)
    · cases h

/-- What is computed is the outcome of the tree. -/
lemma exists_of_compute {o : Expr.Outcome} (h : compute text values = .ok o) :
    ∃ tree, Expr.parse text = .ok tree ∧ tree.eval values = .ok o := by
  unfold compute at h
  split at h
  · cases h
  · next tree hparse =>
    split at h
    · cases h
    · next outcome heval =>
      cases h
      exact ⟨tree, hparse, heval⟩

/-- What has been computed has not been refused. -/
lemma not_refuses_of_compute {o : Expr.Outcome} (h : compute text values = .ok o) :
    ¬ Refuses text values message := by
  obtain ⟨tree, hparse, heval⟩ := exists_of_compute h
  intro hrefuses
  cases hrefuses with
  | parse hfault => cases hparse.symm.trans hfault
  | @eval tree' fault htree hfault =>
    cases hparse.symm.trans htree
    exact Expr.exists_hasValue_iff.mp ⟨o.value, Expr.hasValue_of_eval heval⟩ fault hfault

/-- A calculation with references that have no values. -/
lemma ofText_of_missing (h : ¬ Provides context text) :
    (ofText text context).value = none ∧
      (ofText text context).warnings =
        ((distinctReferences text).filter fun r => (context r.text).isNone).map notFound := by
  have hsome : ((distinctReferences text).filter fun r => (context r.text).isNone) ≠ [] := by
    intro hnil
    refine h fun r hr => ?_
    have hnone := List.filter_eq_nil_iff.mp hnil r hr
    rwa [Option.isNone_eq_false_iff.symm, ← Bool.not_eq_true]
  unfold ofText
  dsimp only
  rw [if_pos (by simpa using hsome)]
  exact ⟨rfl, rfl⟩

/-- A calculation with a value for each reference is what is computed. -/
lemma ofText_of_provides (h : Provides context text) :
    ofText text context =
      match compute (substituted text) (standInValues (distinctReferences text) context) with
      | .error message =>
        { value := none
          unit := commonUnit ((distinctReferences text).filterMap fun r => context r.text)
          warnings := [syntaxWarning message] }
      | .ok outcome =>
        { value := some outcome.value
          unit := commonUnit ((distinctReferences text).filterMap fun r => context r.text)
          warnings := if outcome.dividedByZero then ["Division by zero"] else [] } := by
  have hnil : ((distinctReferences text).filter fun r => (context r.text).isNone) = [] := by
    refine List.filter_eq_nil_iff.mpr fun r hr => ?_
    rw [Bool.not_eq_true, Option.isNone_eq_false_iff]
    exact h r hr
  unfold ofText
  exact if_neg (by rw [hnil]; decide)

/-- A calculation that is refused has one warning. -/
lemma ofText_of_refuses (h : Provides context text)
    (hrefuses : Refuses (substituted text) (standInValues (distinctReferences text) context)
      message) :
    ∃ message', Refuses (substituted text) (standInValues (distinctReferences text) context)
      message' ∧ (ofText text context).value = none ∧
        (ofText text context).warnings = [syntaxWarning message'] := by
  rw [ofText_of_provides h]
  cases hcompute : compute (substituted text)
      (standInValues (distinctReferences text) context) with
  | ok o => exact absurd hrefuses (not_refuses_of_compute hcompute)
  | error message' => exact ⟨message', refuses_of_compute hcompute, rfl, rfl⟩

/-- A calculation that is not refused has the value of its tree. -/
lemma ofText_of_not_refuses (h : Provides context text)
    (hnot : ∀ message, ¬ Refuses (substituted text)
      (standInValues (distinctReferences text) context) message) :
    ∃ tree x, Expr.parse (substituted text) = .ok tree ∧
      tree.HasValue (standInValues (distinctReferences text) context) x ∧
      (ofText text context).value = some x ∧
      (tree.DividesByZero (standInValues (distinctReferences text) context) →
        (ofText text context).warnings = ["Division by zero"]) ∧
      (¬ tree.DividesByZero (standInValues (distinctReferences text) context) →
        (ofText text context).warnings = []) := by
  rw [ofText_of_provides h]
  cases hcompute : compute (substituted text)
      (standInValues (distinctReferences text) context) with
  | error message => exact absurd (refuses_of_compute hcompute) (hnot message)
  | ok o =>
    obtain ⟨tree, hparse, heval⟩ := exists_of_compute hcompute
    refine ⟨tree, o.value, hparse, Expr.hasValue_of_eval heval, rfl, ?_, ?_⟩
    · intro hzero
      exact if_pos ((Expr.dividedByZero_iff heval).mpr hzero)
    · intro hzero
      exact if_neg (mt (Expr.dividedByZero_iff heval).mp hzero)

/-- The unit of a calculation is that of the first reference with a value that is not in pixels. -/
lemma unit_ofText (text : String) (context : String → Option Quantity) :
    (ofText text context).unit =
      ((((distinctReferences text).filterMap fun r => context r.text).find?
        fun q => q.unit ≠ .px).map Quantity.unit).getD .px := by
  unfold ofText
  dsimp only
  split_ifs
  · rfl
  · split <;> rfl

/-- A calculation has exactly three outcomes.  With references that have no values it has no value
and one warning for each of them, in order.  With values for all references, each read through its
identifier, it is refused or it has the value of its tree: a text that is refused has no value and
one warning, and any other text has a tree, the value of this tree and a warning exactly if the tree
divides by zero.  The unit is that of the first reference with a value that is not in pixels. -/
theorem outcomes_of_text (text : String) (context : String → Option Quantity) :
    let references := distinctReferences text
    let values := standInValues references context
    let c := ofText text context
    (¬ Provides context text → c.value = none ∧
      c.warnings = (references.filter fun r => (context r.text).isNone).map notFound) ∧
    (Provides context text → (∃ message, Refuses (substituted text) values message) →
      c.value = none ∧
        ∃ message, Refuses (substituted text) values message ∧
          c.warnings = [syntaxWarning message]) ∧
    (Provides context text → (¬ ∃ message, Refuses (substituted text) values message) →
      ∃ tree x, Expr.parse (substituted text) = .ok tree ∧ tree.HasValue values x ∧
        c.value = some x ∧
        (tree.DividesByZero values → c.warnings = ["Division by zero"]) ∧
        (¬ tree.DividesByZero values → c.warnings = [])) ∧
    (∀ i r, references[i]? = some r →
      values (standIn i) = (context r.text).map Quantity.value) ∧
    (∀ name, (∀ i < references.length, name ≠ standIn i) → values name = none) ∧
    c.unit = (((references.filterMap fun r => context r.text).find?
      fun q => q.unit ≠ .px).map Quantity.unit).getD .px := by
  intro references values c
  refine ⟨ofText_of_missing, ?_, ?_, ?_, ?_, unit_ofText text context⟩
  · rintro hprovides ⟨message, hrefuses⟩
    obtain ⟨message', hrefuses', hvalue, hwarnings⟩ := ofText_of_refuses hprovides hrefuses
    exact ⟨hvalue, message', hrefuses', hwarnings⟩
  · intro hprovides hnot
    exact ofText_of_not_refuses hprovides fun message hrefuses => hnot ⟨message, hrefuses⟩
  · intro i r hr
    exact standInValues_standIn hr
  · intro name hname
    exact standInValues_eq_none hname

end Calculation

end DesignTokens

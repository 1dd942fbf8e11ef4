import DesignTokens.Proofs.Export.ScssReferences
import Mathlib.Data.List.Infix

/-!
# Calls in values for SCSS

A reference to a custom property is written as a call, with a name and perhaps a fallback value in
its parentheses.  In a value for SCSS the first call becomes the variable of its name, the fallback
value is dropped together with the parentheses in it, and what follows the call is treated in the
same way.  A call that is never closed takes the rest of the value.

Whether parentheses are balanced is said by counting them.  `ScssValue.StaysOpen` carries the
induction: skipping what leaves a parenthesis open changes nothing but the number of the open ones
(`ScssValue.afterClosing_append`).  Every value without calls is kept, and every other value is of
one of the two forms (`ScssValue.calls_rewritten`).
-/

namespace DesignTokens

namespace ScssValue

variable {c : Char} {cs f : List Char} {depth : ℕ}

/-! ## Parentheses that stay open -/

/-- No beginning of a text closes more parentheses than it opens, unless they are among those that
are open around it. -/
def StaysOpen (depth : ℕ) (cs : List Char) : Prop :=
  ∀ before ∈ cs.inits, before.count ')' ≤ before.count '(' + depth

instance (depth : ℕ) (cs : List Char) : Decidable (StaysOpen depth cs) :=
  inferInstanceAs (Decidable (∀ before ∈ cs.inits, before.count ')' ≤ before.count '(' + depth))

/-- Every parenthesis of a text is closed in it, and it closes no others. -/
structure Balanced (cs : List Char) : Prop where
  staysOpen : StaysOpen 0 cs
  closed : cs.count '(' = cs.count ')'

instance (cs : List Char) : Decidable (Balanced cs) :=
  decidable_of_iff (StaysOpen 0 cs ∧ cs.count '(' = cs.count ')')
    ⟨fun h => ⟨h.1, h.2⟩, fun h => ⟨h.staysOpen, h.closed⟩⟩

lemma staysOpen_nil (depth : ℕ) : StaysOpen depth [] := by
  intro before hbefore
  obtain rfl := List.mem_singleton.mp hbefore
  exact Nat.zero_le _

/-- The beginnings of a text are the empty one and those that have its first character. -/
lemma staysOpen_cons :
    StaysOpen depth (c :: cs) ↔
      ∀ before ∈ cs.inits, (c :: before).count ')' ≤ (c :: before).count '(' + depth := by
  unfold StaysOpen
  rw [List.inits_cons, List.forall_mem_cons, List.forall_mem_map]
  exact and_iff_right (Nat.zero_le _)

/-- A parenthesis that opens is one more that is open around what follows. -/
lemma staysOpen_opening : StaysOpen depth ('(' :: cs) ↔ StaysOpen (depth + 1) cs := by
  rw [staysOpen_cons]
  refine forall₂_congr fun before _ => ?_
  rw [List.count_cons_of_ne (by decide), List.count_cons_self]
  omega

/-- A parenthesis that closes is one of those that are open. -/
lemma staysOpen_closing :
    StaysOpen depth (')' :: cs) ↔ ∃ outer, depth = outer + 1 ∧ StaysOpen outer cs := by
  rw [staysOpen_cons]
  have hcount : ∀ before : List Char, (')' :: before).count ')' = before.count ')' + 1 ∧
      (')' :: before).count '(' = before.count '(' := fun before =>
    ⟨List.count_cons_self, List.count_cons_of_ne (by decide)⟩
  constructor
  · intro h
    have hdepth := h [] (by simp)
    obtain ⟨outer, rfl⟩ : ∃ outer, depth = outer + 1 :=
      Nat.exists_eq_add_one_of_ne_zero (by rintro rfl; exact absurd hdepth (by decide))
    refine ⟨outer, rfl, fun before hbefore => ?_⟩
    have hle := h before hbefore
    rw [(hcount before).1, (hcount before).2] at hle
    omega
  · rintro ⟨outer, rfl, h⟩ before hbefore
    have hle := h before hbefore
    rw [(hcount before).1, (hcount before).2]
    omega

/-- Other characters open and close nothing. -/
lemma staysOpen_other (hopening : c ≠ '(') (hclosing : c ≠ ')') :
    StaysOpen depth (c :: cs) ↔ StaysOpen depth cs := by
  rw [staysOpen_cons]
  refine forall₂_congr fun before _ => ?_
  rw [List.count_cons_of_ne hopening, List.count_cons_of_ne hclosing]

/-- A text that leaves a parenthesis open is skipped, and the number of the open ones changes by
those that it opens and closes. -/
theorem afterClosing_append (h : StaysOpen depth f) (rest : List Char) (depth' : ℕ)
    (hdepth : depth + f.count '(' = depth' + f.count ')') :
    afterClosing (depth + 1) (f ++ rest) = afterClosing (depth' + 1) rest := by
  induction f generalizing depth with
  | nil =>
    obtain rfl : depth = depth' := hdepth
    rfl
  | cons c f ih =>
    rw [List.cons_append, afterClosing]
    by_cases hopening : c = '('
    · subst hopening
      rw [List.count_cons_self, List.count_cons_of_ne (by decide)] at hdepth
      rw [if_pos rfl]
      exact ih (staysOpen_opening.mp h) (by omega)
    · by_cases hclosing : c = ')'
      · subst hclosing
        obtain ⟨outer, rfl, hf⟩ := staysOpen_closing.mp h
        rw [List.count_cons_self, List.count_cons_of_ne (by decide)] at hdepth
        rw [if_neg hopening, if_pos rfl]
        exact ih hf (by omega)
      · rw [List.count_cons_of_ne hopening, List.count_cons_of_ne hclosing] at hdepth
        rw [if_neg hopening, if_neg hclosing]
        exact ih ((staysOpen_other hopening hclosing).mp h) hdepth

/-- Balanced parentheses in front of the one that closes a call are skipped. -/
lemma Balanced.afterClosing_eq (h : Balanced f) (rest : List Char) :
    afterClosing 1 (f ++ ')' :: rest) = rest := by
  rw [afterClosing_append h.staysOpen _ 0 (congrArg (0 + ·) h.closed), afterClosing_closing]

/-- Nothing is left where a call is never closed. -/
lemma StaysOpen.afterClosing_eq (h : StaysOpen 0 f) : afterClosing 1 f = [] := by
  have hle : f.count ')' ≤ f.count '(' := h f ((List.mem_inits f f).mpr List.prefix_rfl)
  have hskip := afterClosing_append h [] (f.count '(' - f.count ')') (by omega)
  rwa [List.append_nil] at hskip

/-- A text leaves a parenthesis open, or it closes it at some place. -/
theorem staysOpen_or_closes (depth : ℕ) (cs : List Char) :
    StaysOpen depth cs ∨ ∃ f rest, cs = f ++ ')' :: rest ∧ StaysOpen depth f ∧
      depth + f.count '(' = f.count ')' := by
  induction cs generalizing depth with
  | nil => exact Or.inl (staysOpen_nil depth)
  | cons c cs ih =>
    by_cases hopening : c = '('
    · subst hopening
      rcases ih (depth + 1) with h | ⟨f, rest, rfl, hf, hcount⟩
      · exact Or.inl (staysOpen_opening.mpr h)
      · refine Or.inr ⟨'(' :: f, rest, rfl, staysOpen_opening.mpr hf, ?_⟩
        rw [List.count_cons_self, List.count_cons_of_ne (by decide)]
        omega
    · by_cases hclosing : c = ')'
      · subst hclosing
        cases depth with
        | zero => exact Or.inr ⟨[], cs, rfl, staysOpen_nil 0, rfl⟩
        | succ outer =>
          rcases ih outer with h | ⟨f, rest, rfl, hf, hcount⟩
          · exact Or.inl (staysOpen_closing.mpr ⟨outer, rfl, h⟩)
          · refine Or.inr ⟨')' :: f, rest, rfl, staysOpen_closing.mpr ⟨outer, rfl, hf⟩, ?_⟩
            rw [List.count_cons_self, List.count_cons_of_ne (by decide)]
            omega
      · rcases ih depth with h | ⟨f, rest, rfl, hf, hcount⟩
        · exact Or.inl ((staysOpen_other hopening hclosing).mpr h)
        · refine Or.inr ⟨c :: f, rest, rfl, (staysOpen_other hopening hclosing).mpr hf, ?_⟩
          rw [List.count_cons_of_ne hopening, List.count_cons_of_ne hclosing]
          exact hcount

/-! ## The first call -/

/-- Between a text and a name a call begins, and none begins before. -/
def IsFirstCall (a n : List Char) : Prop :=
  ∀ i < a.length, ¬ opening <+: (a ++ (opening ++ n)).drop i

instance (a n : List Char) : Decidable (IsFirstCall a n) :=
  inferInstanceAs (Decidable (∀ i < a.length, ¬ opening <+: (a ++ (opening ++ n)).drop i))

/-- What stands before the place where the first call can begin is kept. -/
lemma withVariables_append {a : List Char} (rest : List Char)
    (h : ∀ i < a.length, ¬ opening <+: (a ++ rest).drop i) :
    withVariables (a ++ rest) = a ++ withVariables rest := by
  induction a with
  | nil => rfl
  | cons c a ih =>
    have hnone : ¬ opening.isPrefixOf (c :: (a ++ rest)) = true := fun hopening =>
      h 0 (Nat.zero_lt_succ _) (List.isPrefixOf_iff_prefix.mp hopening)
    rw [List.cons_append, withVariables, if_neg hnone,
      ih fun i hi => h (i + 1) (Nat.succ_lt_succ hi)]
    rfl

/-- Whether a call is the first one does not depend on what follows its opening. -/
lemma IsFirstCall.of_isFirstCall {a n : List Char} (h : IsFirstCall a n) (rest : List Char) :
    IsFirstCall a rest := by
  intro i hi hopening
  have hdrop : ∀ tail, (a ++ (opening ++ tail)).drop i = (a.drop i ++ opening) ++ tail := by
    intro tail
    rw [List.drop_append_of_le_length hi.le, List.append_assoc]
  rw [hdrop] at hopening
  have hbegins : opening <+: a.drop i ++ opening :=
    List.prefix_of_prefix_length_le hopening (List.prefix_append _ _) (by simp)
  exact h i hi (hdrop n ▸ hbegins.trans (List.prefix_append _ _))

/-- A value with a call has a first one. -/
lemma exists_isFirstCall (h : opening <:+: cs) :
    ∃ a tail, cs = a ++ (opening ++ tail) ∧ IsFirstCall a tail := by
  classical
  have hexists : ∃ i, opening <+: cs.drop i := by
    obtain ⟨before, after, rfl⟩ := h
    refine ⟨before.length, ?_⟩
    rw [List.append_assoc, List.drop_left]
    exact List.prefix_append _ _
  obtain ⟨tail, htail⟩ := Nat.find_spec hexists
  have hsplit : cs = cs.take (Nat.find hexists) ++ (opening ++ tail) := by
    rw [htail, List.take_append_drop]
  refine ⟨_, tail, hsplit, fun i hi => ?_⟩
  rw [← hsplit]
  exact Nat.find_min hexists (hi.trans_le (List.length_take_le _ _))

/-- The first call becomes a variable, and what stands behind the call is treated in the same way.
-/
lemma withVariables_firstCall {a n tail : List Char} (hfirst : IsFirstCall a n)
    (hn : ∀ c ∈ n, isNameChar c = true) (htail : ∀ c ∈ tail.head?, isNameChar c = false) :
    withVariables (a ++ (opening ++ (n ++ tail))) =
      a ++ ('$' :: n ++ withVariables (afterClosing 1 tail)) := by
  rw [withVariables_append _ (hfirst.of_isFirstCall (n ++ tail)), withVariables_opening,
    takeWhile_run hn htail, dropWhile_run hn htail]

/-! ## Calls and variables -/

/-- What a call consists of behind its opening: a name, and what stands between the name and the
parenthesis that closes the call. -/
structure IsCall (n f : List Char) : Prop where
  name : ∀ c ∈ n, isNameChar c = true
  fallback : ∀ c ∈ f.head?, isNameChar c = false

/-- The name of a call ends where its fallback value begins, or where the call is closed. -/
lemma IsCall.head_closed {n : List Char} (h : IsCall n f) (rest : List Char) :
    ∀ c ∈ (f ++ ')' :: rest).head?, isNameChar c = false := by
  intro c hc
  cases f with
  | nil =>
    obtain rfl := Option.some.inj hc
    decide
  | cons d later => exact h.fallback c hc

/-- Behind every opening there is a call, which is closed at some place or never. -/
lemma exists_isCall (tail : List Char) :
    ∃ n f, IsCall n f ∧
      ((∃ b, Balanced f ∧ tail = n ++ (f ++ ')' :: b)) ∨ (StaysOpen 0 f ∧ tail = n ++ f)) := by
  have hsplit := (tail.takeWhile_append_dropWhile (p := isNameChar)).symm
  have hname : ∀ c ∈ tail.takeWhile isNameChar, isNameChar c = true :=
    fun c hc => List.mem_takeWhile_imp hc
  have hhead : ∀ c ∈ (tail.dropWhile isNameChar).head?, isNameChar c = false := by
    intro c hc
    have hnot := List.head?_dropWhile_not isNameChar tail
    rwa [Option.mem_def.mp hc] at hnot
  rcases staysOpen_or_closes 0 (tail.dropWhile isNameChar) with h | ⟨f, b, hf, hopen, hcount⟩
  · exact ⟨_, _, ⟨hname, hhead⟩, Or.inr ⟨h, hsplit⟩⟩
  · rw [hf] at hsplit hhead
    refine ⟨_, f, ⟨hname, fun c hc => hhead c ?_⟩, Or.inl ⟨b, ⟨hopen, ?_⟩, hsplit⟩⟩
    · rw [List.head?_append, Option.mem_def.mp hc]
      rfl
    · rw [← hcount, Nat.zero_add]

/-- Calls become variables.  A value without calls is kept.  Where the first call of a value has a
name, then nothing or a text that begins with no character of names and has balanced parentheses,
and then the parenthesis that closes it, the call becomes the variable of the name and what follows
is treated in the same way; a call that is never closed becomes the variable of its name, and
nothing is left behind it.  Every value with calls is of one of these forms, so that after as many
steps as there are calls the value is written to its end. -/
theorem calls_rewritten :
    (∀ value : String, ¬ opening <:+: value.toList → ofCss value = value) ∧
    (∀ a n f : String, IsFirstCall a.toList n.toList → IsCall n.toList f.toList →
      (∀ b : String, Balanced f.toList →
        ofCss (a ++ "var(--" ++ n ++ f ++ ")" ++ b) = a ++ "$" ++ n ++ ofCss b) ∧
      (StaysOpen 0 f.toList → ofCss (a ++ "var(--" ++ n ++ f) = a ++ "$" ++ n)) ∧
    ∀ value : String, opening <:+: value.toList →
      ∃ a n f : String, IsFirstCall a.toList n.toList ∧ IsCall n.toList f.toList ∧
        ((∃ b, Balanced f.toList ∧ value = a ++ "var(--" ++ n ++ f ++ ")" ++ b) ∨
          (StaysOpen 0 f.toList ∧ value = a ++ "var(--" ++ n ++ f)) := by
  have hopening : "var(--".toList = opening := rfl
  refine ⟨fun value h => ?_, fun a n f hfirst hcall => ⟨fun b hf => ?_, fun hf => ?_⟩,
    fun value h => ?_⟩
  · unfold ofCss
    rw [withVariables_of_no_opening h, String.ofList_toList]
  · have hwritten := withVariables_firstCall hfirst hcall.name (hcall.head_closed b.toList)
    rw [hf.afterClosing_eq] at hwritten
    unfold ofCss
    rw [← String.toList_inj]
    simp only [String.toList_append, String.toList_ofList, hopening, List.append_assoc]
    exact hwritten
  · have hwritten := withVariables_firstCall hfirst hcall.name hcall.fallback
    rw [hf.afterClosing_eq, withVariables, List.append_nil] at hwritten
    unfold ofCss
    rw [← String.toList_inj]
    simp only [String.toList_append, String.toList_ofList, hopening, List.append_assoc]
    exact hwritten
  · obtain ⟨a, tail, hvalue, hfirst⟩ := exists_isFirstCall h
    obtain ⟨n, f, hcall, hform⟩ := exists_isCall tail
    refine ⟨String.ofList a, String.ofList n, String.ofList f, ?_, ?_, ?_⟩
    · rw [String.toList_ofList, String.toList_ofList]
      exact hfirst.of_isFirstCall n
    · rw [String.toList_ofList, String.toList_ofList]
      exact hcall
    · rw [String.toList_ofList]
      rcases hform with ⟨b, hf, rfl⟩ | ⟨hf, rfl⟩
      · refine Or.inl ⟨String.ofList b, hf, ?_⟩
        rw [← String.toList_inj, hvalue]
        simp only [String.toList_append, String.toList_ofList, hopening, List.append_assoc]
        rfl
      · refine Or.inr ⟨hf, ?_⟩
        rw [← String.toList_inj, hvalue]
        simp only [String.toList_append, String.toList_ofList, hopening, List.append_assoc]

/-- A call whose fallback value has nested parentheses, and a call that is never closed. -/
theorem calls_rewritten_nested :
    ofCss ("calc(" ++ "var(--" ++ "a-1" ++ ", rgb(0, (1))" ++ ")" ++ " * var(--b, (2)") =
      "calc(" ++ "$" ++ "a-1" ++ ofCss " * var(--b, (2)" ∧
    ofCss (" * " ++ "var(--" ++ "b" ++ ", (2)") = " * " ++ "$" ++ "b" :=
  ⟨(calls_rewritten.2.1 "calc(" "a-1" ", rgb(0, (1))" (by decide)
      ⟨List.all_eq_true.mp (by decide), by rintro _ ⟨⟩; decide⟩).1 " * var(--b, (2)" (by decide),
    (calls_rewritten.2.1 " * " "b" ", (2)" (by decide)
      ⟨List.all_eq_true.mp (by decide), by rintro _ ⟨⟩; decide⟩).2 (by decide)⟩

end ScssValue

end DesignTokens

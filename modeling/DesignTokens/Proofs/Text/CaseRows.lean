import DesignTokens.Text.Case
import Mathlib.Data.Nat.Notation
import Mathlib.Tactic.Common

/-!
# Characters that have no case

A change of case replaces a letter by what the rows of a table say, ASCII letters being one more row
(`CaseRows.Turns`).  Where a class of characters is apart from all rows, its characters stay as they
are and no other character turns into one of them (`caseless_of_isApart`).  So a text of such a
class is one after any change of case, and no other text becomes one (`KeepsText`).
-/

namespace DesignTokens.Text

/-- The rows of a change of case: letters that are moved, and letters that become several. -/
structure CaseRows where
  shifts : List Shift
  expansions : List (ℕ × List ℕ)

namespace CaseRows

/-- The rows of lowering; a capital sigma has a second form for the end of a word. -/
def lower : CaseRows :=
  ⟨⟨0x41, 0x5A, 1, 32⟩ :: lowerShifts, [(0x130, [0x69, 0x307]), (0x3A3, [0x3C2])]⟩

/-- The rows of raising. -/
def upper : CaseRows :=
  ⟨⟨0x61, 0x7A, 1, -32⟩ :: upperShifts, upperExpansions⟩

/-- The rows of folding, which falls back on lowering. -/
def fold : CaseRows :=
  ⟨foldShifts ++ lower.shifts, foldExpansions ++ lower.expansions⟩

/-- The rows of all changes of case. -/
def every : CaseRows :=
  ⟨fold.shifts ++ upper.shifts, fold.expansions ++ upper.expansions⟩

/-- A character turns into others: it stays, or some row says so. -/
inductive Turns (rows : CaseRows) (c : Char) : List Char → Prop
  | same : Turns rows c [c]
  | shift {s : Shift} (hs : s ∈ rows.shifts) (hfirst : s.first ≤ c.toNat)
      (hlast : c.toNat ≤ s.last) : Turns rows c [ofCode (c.toNat + s.offset).toNat]
  | expansion {codes : List ℕ} (hcodes : (c.toNat, codes) ∈ rows.expansions) :
      Turns rows c (codes.map ofCode)

variable {rows rows' : CaseRows} {c : Char} {cs : List Char}

lemma Turns.mono (h : Turns rows c cs) (hshifts : rows.shifts ⊆ rows'.shifts)
    (hexpansions : rows.expansions ⊆ rows'.expansions) : Turns rows' c cs := by
  cases h with
  | same => exact .same
  | shift hs hfirst hlast => exact .shift (hshifts hs) hfirst hlast
  | expansion hcodes => exact .expansion (hexpansions hcodes)

/-! ## The changes of case go by their rows -/

/-- A letter that a shift of the table moves goes by its row. -/
lemma turns_of_shifted? {shifts : List Shift} {n : ℕ} (h : shifted? shifts c.toNat = some n)
    (hrows : shifts ⊆ rows.shifts) : Turns rows c [ofCode n] := by
  unfold shifted? at h
  obtain ⟨s, hs, rfl⟩ := Option.map_eq_some_iff.mp h
  have hmoves := List.find?_some hs
  unfold Shift.moves at hmoves
  simp only [Bool.and_eq_true, decide_eq_true_eq] at hmoves
  exact .shift (hrows (List.mem_of_find?_eq_some hs)) hmoves.1.1 hmoves.1.2

/-- A letter of a table of shifts, or any other character, goes by the rows. -/
lemma turns_shifted? {shifts : List Shift} (hrows : shifts ⊆ rows.shifts) :
    Turns rows c [(shifted? shifts c.toNat).elim c ofCode] := by
  cases h : shifted? shifts c.toNat with
  | none => exact .same
  | some n => exact turns_of_shifted? h hrows

lemma mem_of_lookup {table : List (ℕ × List ℕ)} {n : ℕ} {codes : List ℕ}
    (h : table.lookup n = some codes) : (n, codes) ∈ table := by
  obtain ⟨before, after, rfl, _⟩ := List.lookup_eq_some_iff.mp h
  exact List.mem_append_right _ List.mem_cons_self

/-- The capital letters of ASCII are lowered as their row says. -/
lemma toLower_of_isAscii (h : isAscii c = true) :
    c.toLower = if 0x41 ≤ c.toNat ∧ c.toNat ≤ 0x5A then ofCode (c.toNat + 32) else c := by
  have hall : ∀ n < 0x80, (Char.ofNat n).toLower =
      if 0x41 ≤ n ∧ n ≤ 0x5A then ofCode (n + 32) else Char.ofNat n := by decide +kernel
  simpa using hall c.toNat (of_decide_eq_true h)

/-- The small letters of ASCII are raised as their row says. -/
lemma toUpper_of_isAscii (h : isAscii c = true) :
    c.toUpper = if 0x61 ≤ c.toNat ∧ c.toNat ≤ 0x7A then ofCode (c.toNat - 32) else c := by
  have hall : ∀ n < 0x80, (Char.ofNat n).toUpper =
      if 0x61 ≤ n ∧ n ≤ 0x7A then ofCode (n - 32) else Char.ofNat n := by decide +kernel
  simpa using hall c.toNat (of_decide_eq_true h)

lemma turns_toLower (h : isAscii c = true) : Turns lower c [c.toLower] := by
  rw [toLower_of_isAscii h]
  split_ifs with hcapital
  · have hrow : (⟨0x41, 0x5A, 1, 32⟩ : Shift) ∈ lower.shifts := List.mem_cons_self
    exact .shift hrow hcapital.1 hcapital.2
  · exact .same

lemma turns_toUpper (h : isAscii c = true) : Turns upper c [c.toUpper] := by
  rw [toUpper_of_isAscii h]
  split_ifs with hsmall
  · have hcode : ((c.toNat : Int) + -32).toNat = c.toNat - 32 := by omega
    have hrow : (⟨0x61, 0x7A, 1, -32⟩ : Shift) ∈ upper.shifts := List.mem_cons_self
    rw [← hcode]
    exact .shift hrow hsmall.1 hsmall.2
  · exact .same

theorem turns_lowerChar (c : Char) : Turns lower c (lowerChar c) := by
  unfold lowerChar
  split_ifs with hascii hdotted
  · exact turns_toLower hascii
  · have hrow : (c.toNat, [0x69, 0x307]) ∈ lower.expansions := by
      rw [hdotted]
      exact List.mem_cons_self
    exact .expansion hrow
  · exact turns_shifted? (List.subset_cons_self _ _)

theorem turns_upperChar (c : Char) : Turns upper c (upperChar c) := by
  unfold upperChar
  split_ifs with hascii
  · exact turns_toUpper hascii
  · cases hcodes : upperExpansions.lookup c.toNat with
    | some codes => exact .expansion (mem_of_lookup hcodes)
    | none => exact turns_shifted? (List.subset_cons_self _ _)

theorem turns_foldChar (c : Char) : Turns fold c (foldChar c) := by
  have hlower : ∀ {cs}, Turns lower c cs → Turns fold c cs := fun h =>
    h.mono (List.subset_append_right _ _) (List.subset_append_right _ _)
  unfold foldChar
  split_ifs with hascii
  · exact hlower (turns_toLower hascii)
  · cases hcodes : foldExpansions.lookup c.toNat with
    | some codes => exact .expansion (List.mem_append_left _ (mem_of_lookup hcodes))
    | none =>
      cases hshift : shifted? foldShifts c.toNat with
      | some n => exact turns_of_shifted? hshift (List.subset_append_left _ _)
      | none => exact hlower (turns_lowerChar c)

end CaseRows

/-! ## Classes that are apart from the rows -/

/-- Two spans have no code point in common. -/
def Span.isApart (s t : Span) : Bool :=
  Nat.blt s.last t.first || Nat.blt t.last s.first

/-- Where the code points of a shift go. -/
def Shift.target (s : Shift) : Span :=
  ⟨(s.first + s.offset).toNat, (s.last + s.offset).toNat⟩

/-- No row moves a code point of the spans, and none moves one there. -/
def CaseRows.isApart (rows : CaseRows) (spans : List Span) : Bool :=
  (rows.shifts.all fun s => spans.all fun t => t.isApart ⟨s.first, s.last⟩ && t.isApart s.target) &&
    rows.expansions.all fun (n, codes) =>
      !codes.isEmpty && (n :: codes).all fun code => !inSpans spans code

/-- What a character turns into is of a class exactly if the character is, and a character of the
class stays. -/
structure Keeps (p : Char → Bool) (c : Char) (cs : List Char) : Prop where
  ne_nil : cs ≠ []
  same : ∀ d ∈ cs, p d = p c
  stays : p c = true → cs = [c]

/-- Each character of a text is replaced by what it turns into, where a class is kept. -/
inductive KeepsText (p : Char → Bool) : List Char → List Char → Prop
  | nil : KeepsText p [] []
  | cons {c : Char} {piece cs ds : List Char} (hfirst : Keeps p c piece)
      (hrest : KeepsText p cs ds) : KeepsText p (c :: cs) (piece ++ ds)

section texts

variable {p q : Char → Bool} {c : Char} {piece cs ds cs' ds' : List Char}

/-- A piece is of a class as a whole if its character is. -/
lemma Keeps.all_eq (h : Keeps p c piece) : piece.all p = p c := by
  obtain ⟨d, rest, rfl⟩ := List.exists_cons_of_ne_nil h.ne_nil
  cases hc : p c with
  | true => exact List.all_eq_true.mpr fun e he => (h.same e he).trans hc
  | false => rw [List.all_cons, h.same d List.mem_cons_self, hc, Bool.false_and]

/-- A piece has characters of a class if its character is of the class. -/
lemma Keeps.any_eq (h : Keeps p c piece) : piece.any p = p c := by
  obtain ⟨d, rest, rfl⟩ := List.exists_cons_of_ne_nil h.ne_nil
  cases hc : p c with
  | true => rw [List.any_cons, h.same d List.mem_cons_self, hc, Bool.true_or]
  | false =>
    refine List.any_eq_false.mpr fun e he => ?_
    rw [h.same e he, hc]
    exact Bool.false_ne_true

lemma Keeps.or (hp : Keeps p c piece) (hq : Keeps q c piece) :
    Keeps (fun d => p d || q d) c piece := by
  refine ⟨hp.ne_nil, fun d hd => by rw [hp.same d hd, hq.same d hd], fun h => ?_⟩
  exact (Bool.or_eq_true_iff.mp h).elim hp.stays hq.stays

/-- A text is of a class exactly if it is after a change of case. -/
lemma KeepsText.all_eq (h : KeepsText p cs ds) : ds.all p = cs.all p := by
  induction h with
  | nil => rfl
  | cons hfirst _ ih => rw [List.all_append, List.all_cons, hfirst.all_eq, ih]

/-- A text has characters of a class exactly if it has some after a change of case. -/
lemma KeepsText.any_eq (h : KeepsText p cs ds) : ds.any p = cs.any p := by
  induction h with
  | nil => rfl
  | cons hfirst _ ih => rw [List.any_append, List.any_cons, hfirst.any_eq, ih]

/-- A text of a class stays. -/
lemma KeepsText.eq_of_all (h : KeepsText p cs ds) (hall : cs.all p = true) : ds = cs := by
  induction h with
  | nil => rfl
  | cons hfirst _ ih =>
    rw [List.all_cons, Bool.and_eq_true] at hall
    rw [hfirst.stays hall.1, ih hall.2, List.singleton_append]

lemma KeepsText.append (h : KeepsText p cs ds) (h' : KeepsText p cs' ds') :
    KeepsText p (cs ++ cs') (ds ++ ds') := by
  induction h with
  | nil => exact h'
  | cons hfirst _ ih =>
    rw [List.append_assoc]
    exact .cons hfirst ih

lemma keepsText_flatMap {f : Char → List Char} (h : ∀ c, Keeps p c (f c)) (cs : List Char) :
    KeepsText p cs (cs.flatMap f) := by
  induction cs with
  | nil => exact .nil
  | cons c rest ih =>
    rw [List.flatMap_cons]
    exact .cons (h c) ih

end texts

/-- Every change of case keeps a class. -/
def Caseless (p : Char → Bool) : Prop :=
  ∀ ⦃c cs⦄, CaseRows.every.Turns c cs → Keeps p c cs

namespace CaseRows

variable {rows : CaseRows} {spans : List Span} {c : Char} {cs : List Char}

lemma inSpans_of_isApart {s : Shift} {n : ℕ}
    (h : spans.all (fun t => t.isApart ⟨s.first, s.last⟩ && t.isApart s.target) = true)
    (hfirst : s.first ≤ n) (hlast : n ≤ s.last) :
    inSpans spans n = false ∧ inSpans spans (n + s.offset).toNat = false := by
  unfold inSpans
  rw [List.all_eq_true] at h
  constructor
  · refine List.any_eq_false.mpr fun t ht hholds => ?_
    have hrow := h t ht
    simp only [Span.holds, Span.isApart, Bool.and_eq_true, Bool.or_eq_true, Nat.blt_eq,
      decide_eq_true_eq] at hholds hrow
    omega
  · refine List.any_eq_false.mpr fun t ht hholds => ?_
    have hrow := h t ht
    simp only [Span.holds, Span.isApart, Shift.target, Bool.and_eq_true, Bool.or_eq_true,
      Nat.blt_eq, decide_eq_true_eq] at hholds hrow
    omega

/-- A code that is no code point stands for the first character, so that only this one has to be
outside of the spans as well. -/
lemma inSpans_ofCode {n : ℕ} (hzero : inSpans spans 0 = false) (h : inSpans spans n = false) :
    inSpans spans (ofCode n).toNat = false := by
  unfold ofCode Char.ofNat
  by_cases hvalid : n.isValidChar
  · rw [dif_pos hvalid]
    exact h
  · rw [dif_neg hvalid]
    exact hzero

/-- A class that is apart from the rows is kept by them. -/
theorem Turns.keeps (h : Turns rows c cs) (hrows : rows.isApart spans = true)
    (hzero : inSpans spans 0 = false) : Keeps (fun d => inSpans spans d.toNat) c cs := by
  unfold isApart at hrows
  rw [Bool.and_eq_true, List.all_eq_true, List.all_eq_true] at hrows
  cases h with
  | same => exact ⟨List.cons_ne_nil _ _, fun d hd => by rw [List.mem_singleton.mp hd], fun _ => rfl⟩
  | @shift s hs hfirst hlast =>
    obtain ⟨hbefore, hafter⟩ := inSpans_of_isApart (hrows.1 s hs) hfirst hlast
    refine ⟨List.cons_ne_nil _ _, fun d hd => ?_, fun hin => ?_⟩
    · rw [List.mem_singleton.mp hd, hbefore]
      exact inSpans_ofCode hzero hafter
    · rw [hbefore] at hin
      cases hin
  | @expansion codes hcodes =>
    have hrow := hrows.2 _ hcodes
    rw [Bool.and_eq_true, List.all_eq_true] at hrow
    have hout : ∀ n ∈ c.toNat :: codes, inSpans spans n = false := fun n hn =>
      by simpa using hrow.2 n hn
    have hbefore := hout _ List.mem_cons_self
    refine ⟨fun hnil => ?_, fun d hd => ?_, fun hin => ?_⟩
    · rw [List.map_eq_nil_iff.mp hnil] at hrow
      exact Bool.noConfusion hrow.1
    · obtain ⟨n, hn, rfl⟩ := List.mem_map.mp hd
      rw [hbefore]
      exact inSpans_ofCode hzero (hout n (List.mem_cons_of_mem _ hn))
    · rw [hbefore] at hin
      cases hin

end CaseRows

/-- The code points of spans that are apart from all rows have no case. -/
theorem caseless_of_isApart {spans : List Span} (hrows : CaseRows.every.isApart spans = true)
    (hzero : inSpans spans 0 = false) : Caseless fun d => inSpans spans d.toNat :=
  fun _ _ h => h.keeps hrows hzero

namespace Caseless

variable {p q : Char → Bool}

lemma or (hp : Caseless p) (hq : Caseless q) : Caseless fun d => p d || q d :=
  fun _ _ h => (hp h).or (hq h)

lemma keeps_foldChar (h : Caseless p) (c : Char) : Keeps p c (foldChar c) :=
  h ((CaseRows.turns_foldChar c).mono (List.subset_append_left _ _)
    (List.subset_append_left _ _))

lemma keeps_upperChar (h : Caseless p) (c : Char) : Keeps p c (upperChar c) :=
  h ((CaseRows.turns_upperChar c).mono (List.subset_append_right _ _)
    (List.subset_append_right _ _))

lemma keepsText_upper (h : Caseless p) (s : String) : KeepsText p s.toList (upper s).toList := by
  unfold upper
  rw [String.toList_ofList]
  exact keepsText_flatMap h.keeps_upperChar _

/-- What a letter is lowered to, also at the end of a word, is what its rows say. -/
lemma keepsText_lowerAfter (h : Caseless p) (before cs : List Char) :
    KeepsText p cs (lowerAfter before cs) := by
  have hlower : ∀ {c cs}, CaseRows.lower.Turns c cs → Keeps p c cs := fun hturns =>
    h (hturns.mono (fun _ hs => List.mem_append_left _ (List.mem_append_right _ hs))
      fun _ hs => List.mem_append_left _ (List.mem_append_right _ hs))
  induction cs generalizing before with
  | nil => exact .nil
  | cons c rest ih =>
    rw [lowerAfter]
    refine .cons (hlower ?_) (ih _)
    split_ifs with hsigma hfinal
    · have hrow : (c.toNat, [0x3C2]) ∈ CaseRows.lower.expansions := by
        rw [hsigma]
        decide
      exact .expansion hrow
    · have hrow : (⟨0x3A3, 0x3AB, 1, 32⟩ : Shift) ∈ CaseRows.lower.shifts := by decide
      have hshifted := CaseRows.Turns.shift hrow (Nat.le_of_eq hsigma.symm) (by rw [hsigma]; decide)
      rwa [hsigma] at hshifted
    · exact CaseRows.turns_lowerChar c

lemma keepsText_lower (h : Caseless p) (s : String) : KeepsText p s.toList (lower s).toList := by
  unfold lower
  rw [String.toList_ofList]
  exact h.keepsText_lowerAfter [] _

end Caseless

/-! ## Decimal digits -/

/-- The decimal digits, those of ASCII first. -/
def digitSpans : List Span := ⟨0x30, 0x39⟩ :: decimalSpans

lemma isDecimal_eq_inSpans (c : Char) : isDecimal c = inSpans digitSpans c.toNat := by
  have hbeyond : ∀ t ∈ decimalSpans, 0x80 ≤ t.first := by decide
  have hdigit : c.isDigit = Span.holds ⟨0x30, 0x39⟩ c.toNat := rfl
  unfold isDecimal inSpans digitSpans
  rw [List.any_cons, ← hdigit]
  split_ifs with hascii
  · have hnone : decimalSpans.any (·.holds c.toNat) = false := by
      refine List.any_eq_false.mpr fun t ht hholds => ?_
      have hfirst := hbeyond t ht
      have hn : c.toNat < 0x80 := of_decide_eq_true hascii
      simp only [Span.holds, Bool.and_eq_true, decide_eq_true_eq] at hholds
      omega
    rw [hnone, Bool.or_false]
  · have hno : c.isDigit = false := by
      have hn : ¬ c.toNat < 0x80 := fun h => hascii (decide_eq_true h)
      rw [hdigit]
      simp only [Span.holds, Bool.and_eq_false_iff, decide_eq_false_iff_not]
      omega
    rw [hno, Bool.false_or]

/-- Decimal digits have no case. -/
theorem caseless_isDecimal : Caseless isDecimal := by
  rw [funext isDecimal_eq_inSpans]
  exact caseless_of_isApart (by decide +kernel) (by decide)

/-! ## White space -/

/-- The code points that are white space. -/
def spaceSpans : List Span :=
  [⟨0x09, 0x0D⟩, ⟨0x1C, 0x20⟩, ⟨0x85, 0x85⟩, ⟨0xA0, 0xA0⟩, ⟨0x1680, 0x1680⟩, ⟨0x2000, 0x200A⟩,
    ⟨0x2028, 0x2029⟩, ⟨0x202F, 0x202F⟩, ⟨0x205F, 0x205F⟩, ⟨0x3000, 0x3000⟩]

lemma isSpace_eq_inSpans (c : Char) : isSpace c = inSpans spaceSpans c.toNat := by
  unfold isSpace inSpans spaceSpans Span.holds
  rw [Bool.eq_iff_iff]
  simp only [List.any_cons, List.any_nil, Bool.or_eq_true, Bool.and_eq_true, decide_eq_true_eq,
    beq_iff_eq, Bool.or_false]
  omega

/-- White space has no case. -/
theorem caseless_isSpace : Caseless isSpace := by
  rw [funext isSpace_eq_inSpans]
  exact caseless_of_isApart (by decide +kernel) (by decide)

end DesignTokens.Text

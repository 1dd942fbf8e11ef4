import DesignTokens.Decimal.Text
import DesignTokens.Proofs.Decimal.ShortestDigits
import DesignTokens.Proofs.Text.Digits
import Mathlib.Data.List.TakeWhile

/-!
# Numerals of floating-point numbers

The text of a number is a numeral: digits without a zero in front, a fraction, an exponent
(`Spelling`).  It is laid out from the shortest digits without any change of their value
(`exists_spelling_render`), so that the numeral is read as the number that it was written for
(`exists_spelling_magnitudeText`).
-/

namespace DesignTokens.Decimal

/-! ## Values of digits -/

lemma isDigit_of_mem_digitsOf {n : ℕ} {c : Char} (hc : c ∈ digitsOf n) : c.isDigit = true :=
  Nat.isDigit_of_mem_toDigits (by decide) (by decide) hc

lemma isDecimal_of_mem_digitsOf {n : ℕ} {c : Char} (hc : c ∈ digitsOf n) :
    Text.isDecimal c = true :=
  Text.isDecimal_of_isDigit (isDigit_of_mem_digitsOf hc)

/-- The number that digits spell after others. -/
lemma natOfDigits_append (a b : List Char) :
    natOfDigits (a ++ b) = natOfDigits a * 10 ^ b.length + natOfDigits b := by
  have hstart : ∀ (n : ℕ) (cs : List Char),
      cs.foldl (fun n c => 10 * n + Text.decimalValue c) n =
        n * 10 ^ cs.length + natOfDigits cs := by
    intro n cs
    induction cs generalizing n with
    | nil => rw [List.foldl_nil, List.length_nil, Nat.pow_zero, Nat.mul_one]; rfl
    | cons c rest ih =>
      have hrest : natOfDigits (c :: rest) =
          Text.decimalValue c * 10 ^ rest.length + natOfDigits rest := by
        unfold natOfDigits
        rw [List.foldl_cons, ih, Nat.mul_zero, Nat.zero_add]
        rfl
      rw [List.foldl_cons, ih, hrest, List.length_cons]
      ring
  unfold natOfDigits
  rw [List.foldl_append]
  exact hstart _ b

/-- Zeros spell nothing. -/
lemma natOfDigits_replicate_zero (k : ℕ) : natOfDigits (List.replicate k '0') = 0 := by
  induction k with
  | zero => rfl
  | succ k ih =>
    have hsplit : List.replicate (k + 1) '0' = ['0'] ++ List.replicate k '0' := rfl
    have hzero : natOfDigits ['0'] = 0 := by decide
    rw [hsplit, natOfDigits_append, ih, hzero, Nat.zero_mul]

/-- The digits of a number spell it. -/
lemma natOfDigits_digitsOf (n : ℕ) : natOfDigits (digitsOf n) = n := by
  have hsame : ∀ (init : ℕ) (cs : List Char), (∀ c ∈ cs, c.isDigit = true) →
      cs.foldl (fun n c => 10 * n + Text.decimalValue c) init = Nat.ofDigitChars 10 cs init := by
    intro init cs hcs
    unfold Nat.ofDigitChars
    refine List.foldl_ext _ _ _ fun n c hc => ?_
    rw [Text.decimalValue_of_isDigit (hcs c hc)]
  unfold natOfDigits
  rw [hsame 0 _ fun _ => isDigit_of_mem_digitsOf]
  exact Nat.ofDigitChars_ten_toDigits

/-- Digits spell less than the power of ten that has one digit more. -/
lemma natOfDigits_lt {digits : List Char} (h : ∀ c ∈ digits, c.isDigit = true) :
    natOfDigits digits < 10 ^ digits.length := by
  induction digits with
  | nil => exact Nat.one_pos
  | cons c rest ih =>
    have hc := h c List.mem_cons_self
    have hvalue : natOfDigits [c] ≤ 9 := by
      have hrange := Text.toNat_of_isDigit hc
      have hone : natOfDigits [c] = c.toNat - '0'.toNat := by
        rw [← Text.decimalValue_of_isDigit hc]
        exact Nat.zero_add _
      have hzero : '0'.toNat = 48 := rfl
      omega
    have hrest := ih fun d hd => h d (List.mem_cons_of_mem _ hd)
    rw [← List.singleton_append, natOfDigits_append, List.singleton_append, List.length_cons,
      Nat.pow_succ]
    calc natOfDigits [c] * 10 ^ rest.length + natOfDigits rest
      _ < natOfDigits [c] * 10 ^ rest.length + 10 ^ rest.length := Nat.add_lt_add_left hrest _
      _ = (natOfDigits [c] + 1) * 10 ^ rest.length := (Nat.succ_mul _ _).symm
      _ ≤ 10 * 10 ^ rest.length := Nat.mul_le_mul_right _ (Nat.succ_le_succ hvalue)
      _ = 10 ^ rest.length * 10 := Nat.mul_comm _ _

/-! ## Trailing zeros -/

/-- Digits are those without the zeros at their end, and these zeros. -/
lemma dropTrailingZeros_append (digits : List Char) :
    ∃ k, digits = dropTrailingZeros digits ++ List.replicate k '0' := by
  have hzeros : digits.reverse.takeWhile (· == '0') =
      List.replicate (digits.reverse.takeWhile (· == '0')).length '0' :=
    List.eq_replicate_of_mem fun _ hc => beq_iff_eq.mp (List.mem_takeWhile_imp (p := (· == '0')) hc)
  refine ⟨(digits.reverse.takeWhile (· == '0')).length, ?_⟩
  have hsplit := congrArg List.reverse (List.takeWhile_append_dropWhile (p := (· == '0'))
    (l := digits.reverse))
  rw [List.reverse_append, List.reverse_reverse, hzeros, List.reverse_replicate] at hsplit
  exact hsplit.symm

lemma dropTrailingZeros_subset (digits : List Char) : dropTrailingZeros digits ⊆ digits := by
  obtain ⟨zeros, hsplit⟩ := dropTrailingZeros_append digits
  conv_rhs => rw [hsplit]
  exact List.subset_append_left _ _

/-- The digits that are kept do not end in a zero. -/
lemma getLast?_dropTrailingZeros (digits : List Char) :
    (dropTrailingZeros digits).getLast? ≠ some '0' := by
  unfold dropTrailingZeros
  rw [List.getLast?_reverse]
  intro hlast
  have hnot := List.head?_dropWhile_not (· == '0') digits.reverse
  rw [hlast] at hnot
  exact absurd hnot (by decide)

/-- The zeros at the end of a fraction do not count. -/
lemma value_dropTrailingZeros (whole fraction : List Char) :
    (natOfDigits (whole ++ dropTrailingZeros fraction) : ℚ) /
        10 ^ (dropTrailingZeros fraction).length =
      natOfDigits (whole ++ fraction) / 10 ^ fraction.length := by
  obtain ⟨zeros, hsplit⟩ := dropTrailingZeros_append fraction
  conv_rhs => rw [hsplit]
  rw [← List.append_assoc, natOfDigits_append _ (List.replicate zeros '0'),
    natOfDigits_replicate_zero, List.length_append, List.length_replicate, Nat.add_zero,
    pow_add]
  push_cast
  field_simp

/-- The first digit of a positive number is not zero. -/
lemma exists_digitsOf_cons {n : ℕ} (hn : 0 < n) : ∃ c rest, digitsOf n = c :: rest ∧ c ≠ '0' := by
  induction n using Nat.strong_induction_on with
  | _ n ih =>
    unfold digitsOf at ih ⊢
    rw [Nat.toDigits_eq_if (by decide)]
    split_ifs with hsmall
    · exact ⟨_, [], rfl, fun hzero => hn.ne' (Nat.digitChar_eq_zero.mp hzero)⟩
    · obtain ⟨c, rest, hdigits, hc⟩ := ih (n / 10) (by omega) (by omega)
      rw [hdigits]
      exact ⟨c, _, rfl, hc⟩

/-- The digits of a positive number without the zeros at their end begin with a digit other than
zero, and spell the number up to a power of ten. -/
lemma exists_dropTrailingZeros {n : ℕ} (hn : 0 < n) :
    ∃ c rest k, dropTrailingZeros (digitsOf n) = c :: rest ∧ c ≠ '0' ∧
      (∀ d ∈ c :: rest, d.isDigit = true) ∧ (digitsOf n).length = rest.length + 1 + k ∧
      n = natOfDigits (c :: rest) * 10 ^ k := by
  obtain ⟨c, rest, hdigits, hc⟩ := exists_digitsOf_cons hn
  obtain ⟨k, hsplit⟩ := dropTrailingZeros_append (digitsOf n)
  have hall : ∀ d ∈ digitsOf n, d.isDigit = true := fun _ => isDigit_of_mem_digitsOf
  have hvalue := natOfDigits_digitsOf n
  cases hdropped : dropTrailingZeros (digitsOf n) with
  | nil =>
    rw [hdropped, List.nil_append, hdigits] at hsplit
    have hzero : c = '0' := List.eq_of_mem_replicate (hsplit ▸ List.mem_cons_self)
    exact absurd hzero hc
  | cons d kept =>
    rw [hdropped] at hsplit
    have hfirst : d = c := by
      rw [hdigits] at hsplit
      exact (List.cons.inj hsplit).1.symm
    refine ⟨d, kept, k, rfl, hfirst ▸ hc, fun e he => ?_, ?_, ?_⟩
    · refine hall e ?_
      rw [hsplit]
      exact List.mem_append_left _ he
    · rw [hsplit, List.length_append, List.length_replicate, List.length_cons]
    · rw [hsplit, natOfDigits_append, natOfDigits_replicate_zero, List.length_replicate,
        Nat.add_zero] at hvalue
      exact hvalue.symm

/-! ## Numerals with a fraction or an exponent -/

/-- A numeral with a fraction, an exponent or both: its digits before the point, which have no zero
in front, the digits behind it, and its exponent. -/
structure Spelling where
  whole : List Char
  fraction : Option (List Char)
  exponent : Option ℤ
  isDigit_whole : ∀ c ∈ whole, c.isDigit = true
  leading : whole = ['0'] ∨ ∃ c rest, whole = c :: rest ∧ c ≠ '0'
  isDigit_fraction : ∀ digits, fraction = some digits → digits ≠ [] ∧ ∀ c ∈ digits, c.isDigit = true
  isFloat : fraction ≠ none ∨ exponent ≠ none

namespace Spelling

/-- The parts of the numeral as they are read. -/
def numeral (n : Spelling) : Numeral :=
  ⟨n.whole, n.fraction.getD [], n.exponent.getD 0⟩

/-- The text of the numeral. -/
def chars (n : Spelling) : List Char :=
  n.whole ++ ((n.fraction.map ('.' :: ·)).getD [] ++
    (n.exponent.map fun e => 'e' :: exponentText 2 e).getD [])

/-- The value of the numeral. -/
def value (n : Spelling) : ℚ :=
  n.numeral.digits * 10 ^ n.numeral.power

/-- The numeral of digits before and behind the point. -/
def positional (c : Char) (rest fraction : List Char) (hc : c ≠ '0' ∨ rest = [])
    (hwhole : ∀ d ∈ c :: rest, d.isDigit = true) (hne : fraction ≠ [])
    (hfraction : ∀ d ∈ fraction, d.isDigit = true) : Spelling where
  whole := c :: rest
  fraction := some fraction
  exponent := none
  isDigit_whole := hwhole
  leading := by
    by_cases hzero : c = '0'
    · exact Or.inl (congrArg₂ List.cons hzero (hc.resolve_left fun h => h hzero))
    · exact Or.inr ⟨c, rest, rfl, hzero⟩
  isDigit_fraction := fun _ h => Option.some.inj h ▸ ⟨hne, hfraction⟩
  isFloat := Or.inl (Option.some_ne_none _)

/-- The numeral of one digit before the point, perhaps others behind it, and an exponent. -/
def scientific (c : Char) (rest : List Char) (e : ℤ) (hc : c ≠ '0')
    (hdigits : ∀ d ∈ c :: rest, d.isDigit = true) : Spelling where
  whole := [c]
  fraction := if rest = [] then none else some rest
  exponent := some e
  isDigit_whole := fun d hd => hdigits d (List.mem_singleton.mp hd ▸ List.mem_cons_self)
  leading := Or.inr ⟨c, [], rfl, hc⟩
  isDigit_fraction := by
    intro digits h
    split_ifs at h with hnone
    exact Option.some.inj h ▸ ⟨hnone, fun d hd => hdigits d (List.mem_cons_of_mem _ hd)⟩
  isFloat := Or.inr (Option.some_ne_none _)

end Spelling

/-! ## Layout -/

/-- A zero is laid out as a numeral of the value zero. -/
lemma exists_spelling_zero (p : ℤ) :
    ∃ n : Spelling, Layout.standard.render ⟨0, p⟩ = n.chars ∧ n.numeral.digits = 0 :=
  ⟨.positional '0' [] ['0'] (Or.inr rfl) (List.forall_mem_singleton.mpr rfl) (List.cons_ne_nil _ _)
    (List.forall_mem_singleton.mpr rfl), rfl, by decide⟩

section layout

variable {c : Char} {rest : List Char}

/-- Digits behind a point and some zeros. -/
lemma exists_spelling_fraction (hdigits : ∀ d ∈ c :: rest, d.isDigit = true) (zeros : ℕ) :
    ∃ n : Spelling, '0' :: '.' :: List.replicate zeros '0' ++ c :: rest = n.chars ∧
      n.value = natOfDigits (c :: rest) * 10 ^ (-(zeros : ℤ) - 1 - rest.length) := by
  have hfraction : ∀ d ∈ List.replicate zeros '0' ++ c :: rest, d.isDigit = true := by
    intro d hd
    rcases List.mem_append.mp hd with hzero | hdigit
    · rw [List.eq_of_mem_replicate hzero]
      decide
    · exact hdigits d hdigit
  have hne : List.replicate zeros '0' ++ c :: rest ≠ [] :=
    List.append_ne_nil_of_right_ne_nil _ (List.cons_ne_nil _ _)
  refine ⟨.positional '0' [] _ (Or.inr rfl) (List.forall_mem_singleton.mpr rfl) hne hfraction,
    ?_, ?_⟩
  · unfold Spelling.positional Spelling.chars
    simp
  · have hvalue : natOfDigits (['0'] ++ (List.replicate zeros '0' ++ c :: rest)) =
        natOfDigits (c :: rest) := by
      have hzero : natOfDigits ['0'] = 0 := by decide
      rw [natOfDigits_append, natOfDigits_append, natOfDigits_replicate_zero, hzero, Nat.zero_mul,
        Nat.zero_mul, Nat.zero_add, Nat.zero_add]
    have hpower : (0 : ℤ) - (List.replicate zeros '0' ++ c :: rest).length =
        -(zeros : ℤ) - 1 - rest.length := by
      rw [List.length_append, List.length_replicate, List.length_cons]
      push_cast
      ring
    show (natOfDigits (['0'] ++ (List.replicate zeros '0' ++ c :: rest)) *
      10 ^ ((0 : ℤ) - (List.replicate zeros '0' ++ c :: rest).length) : ℚ) = _
    rw [hvalue, hpower]

/-- Digits that all stand before the point. -/
lemma exists_spelling_whole (hc : c ≠ '0') (hdigits : ∀ d ∈ c :: rest, d.isDigit = true)
    (zeros : ℕ) :
    ∃ n : Spelling, c :: rest ++ List.replicate zeros '0' ++ ['.', '0'] = n.chars ∧
      n.value = natOfDigits (c :: rest) * 10 ^ (zeros : ℤ) := by
  have hwhole : ∀ d ∈ c :: (rest ++ List.replicate zeros '0'), d.isDigit = true := by
    intro d hd
    rcases List.mem_append.mp (List.cons_append ▸ hd) with hdigit | hzero
    · exact hdigits d hdigit
    · rw [List.eq_of_mem_replicate hzero]
      decide
  refine ⟨.positional c _ ['0'] (Or.inl hc) hwhole (List.cons_ne_nil _ _)
    (List.forall_mem_singleton.mpr rfl), ?_, ?_⟩
  · unfold Spelling.positional Spelling.chars
    simp
  · have hvalue : natOfDigits (c :: rest ++ List.replicate zeros '0' ++ ['0']) =
        natOfDigits (c :: rest) * 10 ^ (zeros + 1) := by
      have hzeros : List.replicate zeros '0' ++ ['0'] = List.replicate (zeros + 1) '0' :=
        List.replicate_succ'.symm
      rw [List.append_assoc, hzeros, natOfDigits_append, natOfDigits_replicate_zero,
        List.length_replicate, Nat.add_zero]
    show (natOfDigits (c :: rest ++ List.replicate zeros '0' ++ ['0']) * 10 ^ ((0 : ℤ) - 1) : ℚ) = _
    rw [hvalue]
    push_cast
    rw [mul_assoc, ← zpow_natCast, ← zpow_add₀ (by norm_num)]
    congr 2
    push_cast
    ring

/-- Digits with the point between them. -/
lemma exists_spelling_inside (hc : c ≠ '0') (hdigits : ∀ d ∈ c :: rest, d.isDigit = true) {j : ℕ}
    (hj : j < rest.length) :
    ∃ n : Spelling, c :: rest.take j ++ '.' :: rest.drop j = n.chars ∧
      n.value = natOfDigits (c :: rest) * 10 ^ ((j : ℤ) - rest.length) := by
  have hwhole : ∀ d ∈ c :: rest.take j, d.isDigit = true := by
    intro d hd
    refine hdigits d ?_
    rcases List.mem_cons.mp hd with rfl | htaken
    · exact List.mem_cons_self
    · exact List.mem_cons_of_mem _ (List.mem_of_mem_take htaken)
  have hfraction : ∀ d ∈ rest.drop j, d.isDigit = true :=
    fun d hd => hdigits d (List.mem_cons_of_mem _ (List.mem_of_mem_drop hd))
  have hne : rest.drop j ≠ [] := fun hnil => by
    have hlength := List.drop_eq_nil_iff.mp hnil
    omega
  refine ⟨.positional c _ _ (Or.inl hc) hwhole hne hfraction, ?_, ?_⟩
  · unfold Spelling.positional Spelling.chars
    simp
  · have hjoined : c :: rest.take j ++ rest.drop j = c :: rest := by
      rw [List.cons_append, List.take_append_drop]
    have hpower : (0 : ℤ) - (rest.drop j).length = (j : ℤ) - rest.length := by
      rw [List.length_drop]
      omega
    show (natOfDigits (c :: rest.take j ++ rest.drop j) *
      10 ^ ((0 : ℤ) - (rest.drop j).length) : ℚ) = _
    rw [hjoined, hpower]

/-- Digits with an exponent. -/
lemma exists_spelling_exponent (hc : c ≠ '0') (hdigits : ∀ d ∈ c :: rest, d.isDigit = true)
    (e : ℤ) :
    ∃ n : Spelling,
      [c] ++ (if (c :: rest).length = 1 then [] else '.' :: rest) ++ 'e' :: exponentText 2 e =
        n.chars ∧
      n.value = natOfDigits (c :: rest) * 10 ^ (e - rest.length) := by
  refine ⟨.scientific c rest e hc hdigits, ?_, ?_⟩
  · unfold Spelling.scientific Spelling.chars
    cases rest with
    | nil => rfl
    | cons d more => simp
  · unfold Spelling.value Numeral.digits Numeral.power Spelling.numeral Spelling.scientific
    cases rest with
    | nil => rfl
    | cons d more => rfl

end layout

/-- Digits are laid out as a numeral of the same value. -/
theorem exists_spelling_render {s : Scientific} (hs : 0 < s.digits) :
    ∃ n : Spelling, Layout.standard.render s = n.chars ∧
      n.value = s.digits * 10 ^ s.power := by
  obtain ⟨c, rest, k, hdropped, hc, hdigits, hlength, hvalue⟩ := exists_dropTrailingZeros hs
  obtain ⟨leading, hleading⟩ : ∃ leading, s.power + (digitsOf s.digits).length - 1 = leading :=
    ⟨_, rfl⟩
  -- the value in terms of the digits that are kept
  have hkept : (s.digits * 10 ^ s.power : ℚ) =
      natOfDigits (c :: rest) * 10 ^ (leading - rest.length) := by
    have hpower : leading - rest.length = k + s.power := by omega
    rw [hpower, zpow_add₀ (by norm_num), zpow_natCast, ← mul_assoc]
    conv_lhs => rw [hvalue]
    push_cast
    ring
  rw [hkept]
  unfold Layout.render
  dsimp only
  rw [if_neg hs.ne', if_neg hs.ne', hdropped, hleading]
  by_cases hpositional : Layout.standard.positionalFrom ≤ leading ∧
      leading < Layout.standard.exponentFrom
  · rw [if_pos hpositional]
    by_cases hsmall : leading < 0
    · rw [if_pos hsmall]
      have hpower : leading - rest.length = -((-leading - 1).toNat : ℤ) - 1 - rest.length := by
        omega
      rw [hpower]
      exact exists_spelling_fraction hdigits _
    · rw [if_neg hsmall]
      obtain ⟨j, rfl⟩ : ∃ j : ℕ, leading = j := ⟨leading.toNat, by omega⟩
      rw [Int.toNat_natCast, List.take_succ_cons, List.drop_succ_cons, List.length_cons,
        Nat.add_sub_add_right]
      rcases Nat.lt_or_ge j rest.length with hinside | hwhole
      · have hnone : (rest.drop j).isEmpty = false := by
          rw [List.isEmpty_eq_false_iff]
          intro hnil
          have hlength := List.drop_eq_nil_iff.mp hnil
          omega
        have hzeros : j - rest.length = 0 := by omega
        rw [hnone, hzeros, List.replicate_zero, List.append_nil]
        exact exists_spelling_inside hc hdigits hinside
      · have hall : (rest.drop j).isEmpty = true :=
          List.isEmpty_iff.mpr (List.drop_eq_nil_iff.mpr hwhole)
        have hpower : (j : ℤ) - rest.length = (j - rest.length : ℕ) := by omega
        rw [hall, List.take_of_length_le hwhole, hpower]
        exact exists_spelling_whole hc hdigits _
  · rw [if_neg hpositional]
    exact exists_spelling_exponent hc hdigits leading

/-! ## Texts of numbers -/

open Binary64 Float.Model Float.Model.UnpackedFloat

/-- A finite number is a zero, or it has a mantissa and an exponent in the form of the format. -/
lemma unpack_of_finite {x : Float} {negative : Bool} {m : ℕ} {e : ℤ}
    (h : Exact.ofFloat x = .finite negative m e) :
    (m = 0 ∧ x.toModel.unpack = .zero (if negative then .negative else .positive)) ∨
      ∃ hm : HasForm m e,
        x.toModel.unpack = .finite (if negative then .negative else .positive) m e hm.1 := by
  have hcanonical := isCanonical_unpack x
  rw [ofFloat_eq_exact] at h
  cases hx : x.toModel.unpack with
  | infinity s =>
    rw [hx] at h
    cases h
  | notANumber =>
    rw [hx] at h
    cases h
  | zero s =>
    rw [hx] at h
    cases h
    exact Or.inl ⟨rfl, by cases s <;> rfl⟩
  | finite s m' e' hm =>
    rw [hx] at h hcanonical
    cases h
    exact Or.inr ⟨⟨hm, hcanonical⟩, by cases s <;> rfl⟩

/-- There is one value that is no number. -/
lemma eq_of_nan {x : Float} (h : Exact.ofFloat x = .nan) : 0.0 / 0.0 = x := by
  refine unpack_injective ?_
  rw [ofFloat_eq_exact] at h
  cases hx : x.toModel.unpack with
  | notANumber => rfl
  | infinity s | zero s | finite s m e hm =>
    rw [hx] at h
    cases h

/-- There is one infinite value for each sign. -/
lemma eq_of_infinite {x : Float} {negative : Bool} (h : Exact.ofFloat x = .infinite negative) :
    (if negative then -(1.0 / 0.0) else 1.0 / 0.0) = x := by
  refine unpack_injective ?_
  rw [ofFloat_eq_exact] at h
  cases hx : x.toModel.unpack with
  | infinity s =>
    rw [hx] at h
    cases h
    cases s <;> rfl
  | notANumber | zero s | finite s m e hm =>
    rw [hx] at h
    cases h

/-- The text of the magnitude of a number is a numeral that is read as the number up to its sign. -/
theorem exists_spelling_magnitudeText {x : Float} {negative : Bool} {m : ℕ} {e : ℤ}
    (h : Exact.ofFloat x = .finite negative m e) :
    ∃ n : Spelling, magnitudeText m e = n.chars ∧
      (if negative then -n.numeral.toFloat else n.numeral.toFloat) = x := by
  unfold magnitudeText
  rcases unpack_of_finite h with ⟨rfl, hx⟩ | ⟨hm, hx⟩
  · rw [if_pos rfl]
    obtain ⟨n, hchars, hdigits⟩ := exists_spelling_zero 0
    have hzero : n.numeral.toFloat = 0.0 := by
      unfold Numeral.toFloat toFloat
      rw [if_pos hdigits]
    refine ⟨n, hchars, unpack_injective ?_⟩
    rw [hzero, hx]
    cases negative <;> rfl
  · rw [if_neg hm.1.ne']
    have hrounds := roundsTo_shortest hm
    obtain ⟨n, hchars, hvalue⟩ := exists_spelling_render (digits_pos_of_roundsTo hm hrounds)
    obtain ⟨y, hy⟩ : ∃ y : Float, y.toModel.unpack = .finite .positive m e hm.1 :=
      ⟨.ofModel (.pack (.finite .positive m e hm.1)), hm.unpack_pack .positive⟩
    have hread : n.numeral.toFloat = y := by
      rw [← hvalue] at hrounds
      exact toFloat_of_roundsTo hm hy hrounds
    refine ⟨n, hchars, ?_⟩
    rw [hread]
    cases negative with
    | false => exact unpack_injective (hy.trans hx.symm)
    | true =>
      refine ofModel_pack (hx.trans ?_)
      rw [hy]
      rfl

end DesignTokens.Decimal

import DesignTokens.Proofs.Decimal.Numerals
import Mathlib.Tactic.Linarith

/-!
# Fixed decimal places

A quotient is rounded to the nearest whole number, of two nearest ones to the even one
(`isNearestEven_roundDiv`).  With a point placed among its digits, a whole number spells a decimal
whose digits before the point are those of its integer part (`exists_placePoint`).
-/

namespace DesignTokens.Decimal

/-! ## Rounding to the nearest whole number -/

/-- A whole number is nearest to a rational one, and it is even if another one is just as near. -/
def IsNearestEven (n : ℤ) (y : ℚ) : Prop :=
  |y - n| ≤ 1 / 2 ∧ (|y - n| = 1 / 2 → Even n)

/-- A rational number is rounded to some decimal places, an exact half to the even neighbour. -/
def IsRoundedTo (places : ℕ) (y r : ℚ) : Prop :=
  ∃ n : ℤ, IsNearestEven n (y * 10 ^ places) ∧ r = n / 10 ^ places

lemma IsNearestEven.neg {n : ℤ} {y : ℚ} (h : IsNearestEven n y) : IsNearestEven (-n) (-y) := by
  have hdistance : |-y - ((-n : ℤ) : ℚ)| = |y - n| := by
    rw [Int.cast_neg, neg_sub_neg, abs_sub_comm]
  unfold IsNearestEven
  rw [hdistance, even_neg]
  exact h

lemma isNearestEven_self (n : ℤ) : IsNearestEven n n := by
  unfold IsNearestEven
  rw [sub_self, abs_zero]
  exact ⟨by norm_num, fun h => absurd h (by norm_num)⟩

lemma IsRoundedTo.neg {places : ℕ} {y r : ℚ} (h : IsRoundedTo places y r) :
    IsRoundedTo places (-y) (-r) := by
  obtain ⟨n, hn, rfl⟩ := h
  refine ⟨-n, ?_, ?_⟩
  · rw [neg_mul]
    exact hn.neg
  · rw [Int.cast_neg, neg_div]

/-- Two different whole numbers are not both nearest. -/
lemma IsNearestEven.not_lt {m n : ℤ} {y : ℚ} (hm : IsNearestEven m y) (hn : IsNearestEven n y) :
    ¬ m < n := by
  intro hlt
  have hgap : (m + 1 : ℚ) ≤ n := by exact_mod_cast hlt
  obtain ⟨_, hupper⟩ := abs_le.mp hm.1
  obtain ⟨hlower, _⟩ := abs_le.mp hn.1
  -- the rational number is just between the two
  have hnext : n = m + 1 := by
    have hle : (n : ℚ) ≤ (m + 1 : ℤ) := by
      push_cast
      linarith
    exact le_antisymm (by exact_mod_cast hle) hlt
  have hy : y - m = 1 / 2 := by linarith
  have hy' : y - n = -(1 / 2) := by
    rw [hnext]
    push_cast
    linarith
  have heven := hm.2 (by rw [hy, abs_of_pos (by norm_num)])
  have heven' := hn.2 (by rw [hy', abs_neg, abs_of_pos (by norm_num)])
  rw [hnext, Int.even_add_one] at heven'
  exact heven' heven

/-- There is only one number to which a rational number is rounded. -/
lemma IsRoundedTo.unique {places : ℕ} {y r r' : ℚ} (h : IsRoundedTo places y r)
    (h' : IsRoundedTo places y r') : r = r' := by
  obtain ⟨n, hn, rfl⟩ := h
  obtain ⟨n', hn', rfl⟩ := h'
  rw [le_antisymm (not_lt.mp (hn'.not_lt hn)) (not_lt.mp (hn.not_lt hn'))]

/-- A number that has no more decimal places is not rounded. -/
lemma isRoundedTo_self {places : ℕ} {y : ℚ} {n : ℤ} (h : y * 10 ^ places = n) :
    IsRoundedTo places y y := by
  refine ⟨n, ?_, ?_⟩
  · rw [h]
    exact isNearestEven_self n
  · rw [← h, mul_div_assoc, div_self (by positivity), mul_one]

/-- A whole quotient is not rounded. -/
lemma roundDiv_mul (n : ℕ) {den : ℕ} (hden : 0 < den) : roundDiv (n * den) den = n := by
  unfold roundDiv
  simp [hden]

/-- A quotient just between two whole numbers is rounded to the even one. -/
lemma even_roundDiv {num den : ℕ} (hden : 0 < den)
    (h : 2 * num = 2 * (roundDiv num den * den) + den ∨
      2 * (roundDiv num den * den) = 2 * num + den) : Even (roundDiv num den) := by
  have hdivision : den * (num / den) + num % den = num := Nat.div_add_mod num den
  have hmod := Nat.mod_lt num hden
  rw [Nat.even_iff]
  unfold roundDiv at h ⊢
  dsimp only at h ⊢
  generalize num / den = q at hdivision h ⊢
  generalize num % den = r at hdivision hmod h ⊢
  have hproduct : q * den = den * q := Nat.mul_comm _ _
  have hnext : (q + 1) * den = den * q + den := by rw [Nat.add_mul, Nat.one_mul, hproduct]
  split_ifs at h ⊢ with hless hmore
  · omega
  · omega
  · omega

/-- A quotient is rounded to the nearest whole number, of two nearest ones to the even one. -/
theorem isNearestEven_roundDiv (num : ℕ) {den : ℕ} (hden : 0 < den) :
    IsNearestEven (roundDiv num den) (num / den) := by
  have hden' : (0 : ℚ) < den := by exact_mod_cast hden
  obtain ⟨hbelow, habove⟩ := roundDiv_bounds num hden
  have hbelow' : (2 * num : ℚ) ≤ 2 * (roundDiv num den * den) + den := by exact_mod_cast hbelow
  have habove' : (2 * (roundDiv num den * den) : ℚ) ≤ 2 * num + den := by exact_mod_cast habove
  have hdistance : (num / den - (roundDiv num den : ℤ) : ℚ) =
      (num - roundDiv num den * den) / den := by
    rw [Int.cast_natCast]
    field_simp
  unfold IsNearestEven
  rw [hdistance, abs_div, abs_of_pos hden', div_le_iff₀ hden', div_eq_iff hden'.ne', abs_le]
  refine ⟨⟨by linarith, by linarith⟩, fun htie => ?_⟩
  rw [Int.even_coe_nat]
  refine even_roundDiv hden ?_
  rcases abs_eq (by positivity) |>.mp htie with hhalf | hhalf
  · left
    have hsum : (2 * num : ℚ) = 2 * (roundDiv num den * den) + den := by linarith
    exact_mod_cast hsum
  · right
    have hsum : (2 * (roundDiv num den * den) : ℚ) = 2 * num + den := by linarith
    exact_mod_cast hsum

/-! ## Digits with a point -/

/-- Without the last digits of a number those of a quotient are left. -/
lemma exists_digitsOf_append {places : ℕ} : ∀ {n : ℕ}, places < (digitsOf n).length →
    ∃ fraction, digitsOf n = digitsOf (n / 10 ^ places) ++ fraction ∧
      fraction.length = places := by
  induction places with
  | zero => exact fun {n} _ => ⟨[], by simp, rfl⟩
  | succ places ih =>
    intro n hn
    unfold digitsOf at hn ih ⊢
    rw [Nat.toDigits_eq_if (by decide)] at hn ⊢
    split_ifs at hn ⊢ with hsmall
    · simp at hn
    · rw [List.length_append, List.length_singleton] at hn
      obtain ⟨fraction, hdigits, hlength⟩ := ih (Nat.lt_of_succ_lt_succ hn)
      refine ⟨fraction ++ [(n % 10).digitChar], ?_, by simp [hlength]⟩
      rw [hdigits, Nat.div_div_eq_div_mul, ← Nat.pow_succ', List.append_assoc]

/-- A point is placed so that the digits before it are those of the integer part, and that all
digits together spell the number. -/
theorem exists_placePoint {places : ℕ} (hplaces : places ≠ 0) (n : ℕ) :
    ∃ fraction, placePoint places (digitsOf n) = digitsOf (n / 10 ^ places) ++ '.' :: fraction ∧
      (∀ c ∈ fraction, c.isDigit = true) ∧ fraction.length = places ∧
      natOfDigits (digitsOf (n / 10 ^ places) ++ fraction) = n := by
  -- padded with zeros, the digits begin with those of the integer part
  obtain ⟨fraction, hpadded, hlength⟩ : ∃ fraction,
      List.replicate (places + 1 - (digitsOf n).length) '0' ++ digitsOf n =
        digitsOf (n / 10 ^ places) ++ fraction ∧ fraction.length = places := by
    rcases Nat.lt_or_ge places (digitsOf n).length with hlong | hshort
    · obtain ⟨fraction, hdigits, hlength⟩ := exists_digitsOf_append hlong
      have hnone : places + 1 - (digitsOf n).length = 0 := by omega
      exact ⟨fraction, by rw [hnone, List.replicate_zero, List.nil_append, hdigits], hlength⟩
    · have hzero : n / 10 ^ places = 0 := Nat.div_eq_of_lt
        ((lt_pow_length n).trans_le (Nat.pow_le_pow_right (by decide) hshort))
      have hsucc : places + 1 - (digitsOf n).length = places - (digitsOf n).length + 1 := by omega
      refine ⟨List.replicate (places - (digitsOf n).length) '0' ++ digitsOf n, ?_, ?_⟩
      · rw [hzero, hsucc, List.replicate_succ]
        rfl
      · rw [List.length_append, List.length_replicate]
        omega
  refine ⟨fraction, ?_, fun c hc => ?_, hlength, ?_⟩
  · unfold placePoint
    dsimp only
    rw [if_neg hplaces, hpadded, List.length_append, hlength, Nat.add_sub_cancel, List.take_left,
      List.drop_left]
  · have hmem : c ∈ List.replicate (places + 1 - (digitsOf n).length) '0' ++ digitsOf n := by
      rw [hpadded]
      exact List.mem_append_right _ hc
    rcases List.mem_append.mp hmem with hzero | hdigit
    · rw [List.eq_of_mem_replicate hzero]
      rfl
    · exact isDigit_of_mem_digitsOf hdigit
  · rw [← hpadded, natOfDigits_append, natOfDigits_replicate_zero, natOfDigits_digitsOf,
      Nat.zero_mul, Nat.zero_add]

/-- Without decimal places no point is placed. -/
lemma placePoint_zero (n : ℕ) : placePoint 0 (digitsOf n) = digitsOf n := by
  have hlength : 0 < (digitsOf n).length := Nat.length_toDigits_pos
  have hnone : 0 + 1 - (digitsOf n).length = 0 := by omega
  unfold placePoint
  dsimp only
  rw [if_pos rfl, hnone, List.replicate_zero, List.nil_append]

end DesignTokens.Decimal

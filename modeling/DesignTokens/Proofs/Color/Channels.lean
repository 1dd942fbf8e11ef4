import DesignTokens.Color.Text
import DesignTokens.Proofs.Decimal.Numerals
import DesignTokens.Proofs.Decimal.Range

/-!
# Channels of floating-point colors

A channel has a byte as long as it is finite.  Channels that are held between 0 and 1 are finite
whatever they come from, NaN included, and those of a hue are finite whenever saturation and
lightness are not far out of the range of the format (`isWithin_toRgba`); the hue itself may be any
number, even an infinite one, for then all comparisons of its place on the circle fail and the
channels are the least ones.
-/

namespace DesignTokens

open Binary64 Scalar
open Float.Model (Format UnpackedFloat)

/-! ## Whole parts -/

/-- A number has a whole part if and only if it is finite. -/
lemma exists_floorFloat_iff {x : Float} : (∃ n, floorFloat x = .ok n) ↔ isFiniteNumber x = true := by
  unfold floorFloat isFiniteNumber
  cases Exact.ofFloat x with
  | nan => simp [Exact.toRat?]
  | infinite => simp [Exact.toRat?]
  | finite => simp [Exact.toRat?]

/-- A number with a bound is finite. -/
lemma isFiniteNumber_of_isWithin {x : Float} {k : ℕ} (h : IsWithin k x) :
    isFiniteNumber x = true := by
  unfold isFiniteNumber
  rw [ofFloat_eq_exact]
  rcases h.cases with ⟨s, hs⟩ | ⟨s, m, e, hm, hs, _⟩ <;> rw [hs] <;> rfl

/-! ## Small numbers -/

lemma isWithin_ratio {num den k : ℕ} (hk : k ≤ 1023) (hnum : num ≤ 2 ^ k) (hden : 0 < den)
    (hsmall : den < 2 ^ 53) : IsWithin k (ratio num den : Float) :=
  isWithin_div (isWithin_ofNat hk hnum) hden hsmall hk

lemma isWithin_zero : IsWithin 0 (ofNat 0 : Float) :=
  isWithin_ofNat (by decide) (by decide)

lemma isWithin_one : IsWithin 0 (ofNat 1 : Float) :=
  isWithin_ofNat (by decide) (by decide)

/-- A number that is held between 0 and 1 is finite, even if it was not finite before. -/
lemma isWithin_clampUnit (x : Float) : IsWithin 0 (clampUnit x) := by
  unfold clampUnit smaller larger
  split_ifs with hpos hless hless
  · exact isWithin_of_lt (isUnsigned_of_pos hpos) isWithin_one hless
  · exact isWithin_one
  · exact isWithin_zero
  · exact isWithin_one

/-! ## Remainders -/

/-- What is no number. -/
def IsNan (x : Float) : Prop :=
  x.toModel.unpack = .notANumber

/-- What is no number is not less than any other. -/
lemma IsNan.not_lt {x : Float} (h : IsNan x) (y : Float) : ¬ x < y := by
  rw [lt_iff_compare, h]
  exact nofun

section remainder

variable {x : Float} {k n : ℕ}

lemma isUnsigned_abs (x : Float) : IsUnsigned x.abs := by
  apply Unsigned.unpack_pack
  cases x.toModel.unpack <;> trivial

/-- The magnitude of a finite number. -/
lemma unpack_abs (h : IsWithin k x) : x.abs.toModel.unpack = x.toModel.unpack.abs := by
  apply AtMost.unpack_pack (k := k)
  unfold IsWithin at h
  cases hx : x.toModel.unpack <;> rw [hx] at h <;> exact h

/-- A magnitude that is not below a whole number has at most 52 binary places. -/
lemma exponent_of_not_lt {negative : Bool} {m : ℕ} {e : ℤ} (h : IsWithin k x)
    (hx : Exact.ofFloat x = .finite negative m e) (hn : 0 < n) (hsmall : n < 2 ^ 53)
    (hless : ¬ x.abs < Float.ofNat n) : -52 ≤ e := by
  obtain ⟨m', e', hm', hofNat, hvalue⟩ := exists_unpack_ofNat hn hsmall
  rw [lt_iff_compare, unpack_abs h, hofNat] at hless
  rcases Decimal.unpack_of_finite hx with ⟨_, hu⟩ | ⟨hm, hu⟩
  · rw [hu] at hless
    exact absurd rfl hless
  · have hexponent : -52 ≤ e' := by
      have hone : (1 : ℚ) ≤ m' * 2 ^ e' := by
        rw [hvalue]
        exact_mod_cast hn
      have hupper : (m' : ℚ) < 2 ^ (53 : ℤ) := by exact_mod_cast hm'.upper
      have hpow : (2 : ℚ) ^ (0 : ℤ) < 2 ^ (53 + e') := by
        rw [zpow_zero, zpow_add₀ (by norm_num)]
        exact hone.trans_lt (mul_lt_mul_of_pos_right hupper (two_zpow_pos e'))
      have hlt := lt_of_two_zpow_lt hpow
      omega
    by_contra hbelow
    rw [hu] at hless
    exact hless (congrArg some
      (Ordering.then_eq_lt.mpr (Or.inl (Int.compare_eq_lt.mpr (by omega)))))

lemma isWithin_magnitudeRemainder {negative : Bool} {m : ℕ} {e : ℤ} (h : IsWithin k x)
    (hx : Exact.ofFloat x = .finite negative m e) (hn : 0 < n) (hsmall : n ≤ 2 ^ 9) :
    IsWithin 61 (magnitudeRemainder x.abs n m e) := by
  unfold magnitudeRemainder
  dsimp only
  split_ifs with hless
  · exact (isWithin_of_lt (isUnsigned_abs x) (isWithin_ofNat (by decide) hsmall) hless).mono
      (by decide)
  · have hexponent := exponent_of_not_lt h hx hn (by omega) hless
    have hden : Exact.denominator e ≤ 2 ^ 52 := Nat.pow_le_pow_right (by decide) (by omega)
    have hpos : 0 < Exact.denominator e := Nat.two_pow_pos _
    have hrest : Exact.numerator m e % (n * Exact.denominator e) ≤ 2 ^ 61 :=
      calc Exact.numerator m e % (n * Exact.denominator e) ≤ n * Exact.denominator e :=
          (Nat.mod_lt _ (Nat.mul_pos hn hpos)).le
        _ ≤ 2 ^ 9 * 2 ^ 52 := Nat.mul_le_mul hsmall hden
    exact isWithin_div (isWithin_ofNat (by decide) hrest) hpos (by omega) (by decide)

/-- The remainder of a finite number is finite. -/
lemma isWithin_floatRemainder (h : IsWithin k x) (hn : 0 < n) (hsmall : n ≤ 2 ^ 9) :
    IsWithin 62 (floatRemainder x n) := by
  obtain ⟨negative, m, e, hx⟩ : ∃ negative m e, Exact.ofFloat x = .finite negative m e := by
    rw [ofFloat_eq_exact]
    rcases h.cases with ⟨s, hs⟩ | ⟨s, m, e, hm, hs, _⟩ <;> rw [hs] <;> exact ⟨_, _, _, rfl⟩
  have hmagnitude := isWithin_magnitudeRemainder h hx hn hsmall
  have hwhole : IsWithin 9 (Float.ofNat n) := isWithin_ofNat (by decide) hsmall
  unfold floatRemainder
  rw [hx]
  dsimp only
  split_ifs
  · exact isWithin_zero.mono (by decide)
  · exact isWithin_sub hwhole hmagnitude (by decide) (by decide) (by decide)
  · exact hmagnitude.mono (by decide)

/-- The remainder of anything but a finite number is none. -/
lemma isNan_floatRemainder (h : isFiniteNumber x = false) (n : ℕ) :
    IsNan (floatRemainder x n) := by
  have hnan : IsNan (0.0 / 0.0) := rfl
  unfold isFiniteNumber at h
  unfold floatRemainder
  cases hx : Exact.ofFloat x with
  | nan | infinite => exact hnan
  | finite =>
    rw [hx] at h
    cases h

/-- A finite number is below the top of the format. -/
lemma isWithin_of_isFiniteNumber (h : isFiniteNumber x = true) : IsWithin 1024 x := by
  unfold isFiniteNumber at h
  unfold IsWithin
  cases hx : Exact.ofFloat x with
  | nan | infinite =>
    rw [hx] at h
    cases h
  | finite negative m e =>
    rcases Decimal.unpack_of_finite hx with ⟨_, hu⟩ | ⟨hm, hu⟩
    · rw [hu]
      exact trivial
    · rw [hu]
      have hlargest : e ≤ 971 := by
        rcases hm.2 with hnormal | ⟨_, rfl⟩
        · exact hnormal.largest
        · decide
      have hupper : (m : ℚ) ≤ 2 ^ (53 : ℤ) := by exact_mod_cast hm.upper.le
      refine ⟨hm, (mul_le_mul_of_nonneg_right hupper (two_zpow_pos e).le).trans ?_⟩
      rw [← zpow_add₀ (by norm_num)]
      exact zpow_le_zpow_right₀ (by norm_num) (by omega)

/-- Every remainder is finite or none. -/
lemma remainder_cases (x : Float) (hn : 0 < n) (hsmall : n ≤ 2 ^ 9) :
    IsNan (remainder x n) ∨ IsWithin 62 (remainder x n) := by
  cases hx : isFiniteNumber x with
  | false => exact Or.inl (isNan_floatRemainder hx n)
  | true => exact Or.inr (isWithin_floatRemainder (isWithin_of_isFiniteNumber hx) hn hsmall)

end remainder

/-! ## Channels of a hue -/

namespace Hsl

/-- A channel is finite at every place on the circle, and where the place is none. -/
lemma isWithin_channel {p q : Float} (hp : IsWithin 670 p) (hq : IsWithin 670 q)
    (position : Float) : IsWithin 740 (channel p q position) := by
  have hsix : IsWithin 3 (ofNat 6 : Float) := isWithin_ofNat (by decide) (by decide)
  have hthirds : IsWithin 1 (ratio 2 3 : Float) :=
    isWithin_ratio (by decide) (by decide) (by decide) (by decide)
  have hdistance : IsWithin 671 (q - p) := isWithin_sub hq hp (by decide) (by decide) (by decide)
  unfold channel
  dsimp only
  rcases remainder_cases position (n := 1) (by decide) (by decide) with hnan | hplace
  · rw [if_neg (hnan.not_lt _), if_neg (hnan.not_lt _), if_neg (hnan.not_lt _)]
    exact hp.mono (by decide)
  · split_ifs
    · have hscaled : IsWithin 674 ((q - p) * ofNat 6) :=
        isWithin_mul hdistance hsix (by decide) (by decide)
      have hrise : IsWithin 736 ((q - p) * ofNat 6 * remainder position 1) :=
        isWithin_mul hscaled hplace (by decide) (by decide)
      exact isWithin_add hp hrise (by decide) (by decide) (by decide)
    · exact hq.mono (by decide)
    · have hrest : IsWithin 63 (ratio 2 3 - remainder position 1) :=
        isWithin_sub hthirds hplace (by decide) (by decide) (by decide)
      have hscaled : IsWithin 734 ((q - p) * (ratio 2 3 - remainder position 1)) :=
        isWithin_mul hdistance hrest (by decide) (by decide)
      have hfall : IsWithin 737 ((q - p) * (ratio 2 3 - remainder position 1) * ofNat 6) :=
        isWithin_mul hscaled hsix (by decide) (by decide)
      exact isWithin_add hp hfall (by decide) (by decide) (by decide)
    · exact hp.mono (by decide)

/-- The channels of a hue are finite, whatever the hue is, unless saturation or lightness is far out
of the range of the format. -/
theorem isWithin_toRgba {h : Hsl Float} (hs : IsWithin 333 h.saturation)
    (hl : IsWithin 333 h.lightness) (alpha : Float) :
    ∀ x ∈ [(h.toRgba alpha).r, (h.toRgba alpha).g, (h.toRgba alpha).b], IsWithin 740 x := by
  have htwo : IsWithin 1 (ofNat 2 : Float) := isWithin_ofNat (by decide) (by decide)
  unfold toRgba
  by_cases hgrey : same h.saturation (ofNat 0) = true
  · rw [if_pos hgrey]
    simpa using hl.mono (by decide)
  · rw [if_neg hgrey]
    dsimp only
    generalize hq : (if h.lightness < ratio 1 2 then h.lightness * (ofNat 1 + h.saturation)
      else h.lightness + h.saturation - h.lightness * h.saturation) = q
    have hhigh : IsWithin 669 q := by
      rw [← hq]
      split_ifs
      · have hfactor : IsWithin 334 (ofNat 1 + h.saturation) :=
          isWithin_add isWithin_one hs (by decide) (by decide) (by decide)
        exact isWithin_mul hl hfactor (by decide) (by decide)
      · have hsum : IsWithin 334 (h.lightness + h.saturation) :=
          isWithin_add hl hs (by decide) (by decide) (by decide)
        have hproduct : IsWithin 666 (h.lightness * h.saturation) :=
          isWithin_mul hl hs (by decide) (by decide)
        exact isWithin_sub hsum hproduct (by decide) (by decide) (by decide)
    have hdouble : IsWithin 334 (ofNat 2 * h.lightness) :=
      isWithin_mul htwo hl (by decide) (by decide)
    have hlow : IsWithin 670 (ofNat 2 * h.lightness - q) :=
      isWithin_sub hdouble hhigh (by decide) (by decide) (by decide)
    have hchannel := isWithin_channel hlow (hhigh.mono (by decide))
    simp [hchannel]

end Hsl

end DesignTokens

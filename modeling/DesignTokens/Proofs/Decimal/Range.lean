import DesignTokens.Proofs.Decimal.Nearest

/-!
# Numbers that stay finite

Arithmetic on floating-point numbers overflows to infinity, and infinity leads on to NaN.  Neither
happens as long as the magnitudes are known to be small: a value that is at most a power of two in
the range of the format is rounded to a number that is at most this power
(`atMost_roundWithAccuracy`).  From this the bounds of sums, differences, products and quotients
follow, and those of the numbers that are read from decimals.
-/

namespace DesignTokens

namespace Binary64

open Float.Model Float.Model.UnpackedFloat

/-! ## Rounding below a bound -/

namespace StandsFor

variable {em : ExtendedMantissa} {y : ℚ} {n : ℕ}

/-- A number below a whole number is not rounded beyond it. -/
lemma roundedMantissa_le (h : StandsFor em y) (hy : y ≤ n) : em.roundedMantissa ≤ n := by
  obtain ⟨mantissa, roundBit, stickyBit⟩ := em
  obtain ⟨hlower, _, _⟩ := h
  cases roundBit with
  | false =>
    simp only [Bool.toNat_false, Nat.cast_zero, add_zero] at hlower
    have hle : (mantissa : ℚ) ≤ n := by linarith
    cases stickyBit <;> exact_mod_cast hle
  | true =>
    simp only [Bool.toNat_true, Nat.cast_one] at hlower
    have hhalf : (2 * mantissa + 1 : ℚ) ≤ 2 * n := by linarith
    have hless : 2 * mantissa + 1 ≤ 2 * n := by exact_mod_cast hhalf
    cases stickyBit with
    | false =>
      show mantissa + mantissa % 2 ≤ n
      omega
    | true =>
      show mantissa + 1 ≤ n
      omega

/-- A number above a whole number is not rounded below it. -/
lemma le_roundedMantissa (h : StandsFor em y) (hy : n ≤ y) : n ≤ em.roundedMantissa := by
  obtain ⟨mantissa, roundBit, stickyBit⟩ := em
  obtain ⟨_, hupper, _⟩ := h
  have hround : (roundBit.toNat : ℚ) ≤ 1 := by exact_mod_cast Bool.toNat_le roundBit
  have hnext : (n : ℚ) < mantissa + 1 := by
    dsimp only at hupper
    linarith
  have hle : n < mantissa + 1 := by exact_mod_cast hnext
  cases roundBit <;> cases stickyBit
  · exact Nat.le_of_lt_succ hle
  · exact Nat.le_of_lt_succ hle
  · show n ≤ mantissa + mantissa % 2
    omega
  · show n ≤ mantissa + 1
    omega

end StandsFor

/-- A mantissa of at most 53 places, or a one more than that, is brought to the form of the format
without changing the value. -/
lemma exists_shiftToTargetExponent {r : ℕ} {t : ℤ} (hpos : 0 < r) (hr : r ≤ 2 ^ 53) (ht : -1074 ≤ t)
    (hlow : t = -1074 ∨ 2 ^ 52 ≤ r) (htop : (r * 2 ^ t : ℚ) ≤ 2 ^ (1023 : ℤ)) :
    ∃ m e, HasForm m e ∧ (m * 2 ^ e : ℚ) = r * 2 ^ t ∧
      shiftToTargetExponent Format.binary64 r t .exact = (⟨m, false, false⟩, e) := by
  have hlarge : ∀ k : ℕ, 2 ^ k ≤ r → (k : ℤ) + t ≤ 1023 := by
    intro k hk
    have hle : (2 : ℚ) ^ (k + t : ℤ) ≤ 2 ^ (1023 : ℤ) := by
      refine le_trans ?_ htop
      rw [zpow_add₀ (by norm_num), zpow_natCast]
      exact mul_le_mul_of_nonneg_right (by exact_mod_cast hk) (two_zpow_pos t).le
    exact (zpow_le_zpow_iff_right₀ (by norm_num)).mp hle
  rcases hr.lt_or_eq with hlt | rfl
  · have hform : HasForm r t := by
      refine ⟨hpos, ?_⟩
      by_cases hlong : 2 ^ 52 ≤ r
      · have hexponent := hlarge 52 hlong
        exact Or.inl ⟨hlong, hlt, ht, by omega⟩
      · exact Or.inr ⟨Nat.lt_of_not_le hlong, hlow.resolve_right hlong⟩
    exact ⟨r, t, hform, rfl, hform.shiftToTargetExponent⟩
  · have hexponent := hlarge 53 (Nat.le_refl _)
    have hnormal : IsNormal (2 ^ 52) (t + 1) := ⟨Nat.le_refl _, by decide, by omega, by omega⟩
    refine ⟨2 ^ 52, t + 1, ⟨hnormal.pos, Or.inl hnormal⟩, ?_, ?_⟩
    · rw [zpow_add₀ (by norm_num)]
      push_cast
      ring
    · have hscaled := shiftToTargetExponent_scaled hnormal 1
      have hback : t + 1 - (1 : ℕ) = t := by omega
      rwa [hback] at hscaled

/-- A number in the form of the format whose magnitude is at most a power of two. -/
def AtMost (k : ℤ) : UnpackedFloat → Prop
  | .zero _ => True
  | .finite _ m e _ => HasForm m e ∧ (m * 2 ^ e : ℚ) ≤ 2 ^ k
  | .infinity _ => False
  | .notANumber => False

lemma AtMost.mono {j k : ℤ} (hjk : j ≤ k) {u : UnpackedFloat} (h : AtMost j u) : AtMost k u := by
  cases u with
  | zero => trivial
  | finite => exact ⟨h.1, h.2.trans (zpow_le_zpow_right₀ (by norm_num) hjk)⟩
  | infinity | notANumber => exact h.elim

/-- The exponent to which an approximation of a value is moved: the value has at most 53 places
before the point, and 53 of them unless the exponent is the smallest one. -/
lemma targetExponent_bounds {v : ℚ} {n : ℕ} {x t : ℤ} (hbelow : (n : ℚ) ≤ v / 2 ^ x)
    (habove : v / 2 ^ x < n + 1) (hx : x ≤ t)
    (ht : Format.binary64.targetExponent (totalExponent n x) = t) :
    -1074 ≤ t ∧ v / 2 ^ t ≤ 2 ^ 53 ∧ (t = -1074 ∨ 2 ^ 52 ≤ v / 2 ^ t) := by
  unfold totalExponent at ht
  rw [targetExponent_eq] at ht
  refine ⟨by omega, ?_, ?_⟩
  · have hvalue : v < 2 ^ ((n.log2 : ℤ) + 1 + x) := by
      refine div_two_zpow_lt.mp (habove.trans_le ?_)
      have hnext : n + 1 ≤ 2 ^ (n.log2 + 1) := Nat.lt_log2_self
      exact_mod_cast hnext
    have htop : v / 2 ^ t < 2 ^ (53 : ℤ) :=
      div_two_zpow_lt.mpr (hvalue.trans_le (zpow_le_zpow_right₀ (by norm_num) (by omega)))
    exact_mod_cast htop.le
  · by_cases hlowest : t = -1074
    · exact Or.inl hlowest
    · have hn : n ≠ 0 := by
        rintro rfl
        have hlog : Nat.log2 0 = 0 := by decide
        rw [hlog] at ht
        omega
      have hvalue : 2 ^ ((n.log2 : ℤ) + x) ≤ v := by
        refine two_zpow_le_div.mp (le_trans ?_ hbelow)
        have hself : 2 ^ n.log2 ≤ n := Nat.log2_self_le hn
        exact_mod_cast hself
      have hbottom : (2 : ℚ) ^ (52 : ℤ) ≤ v / 2 ^ t :=
        two_zpow_le_div.mpr ((zpow_le_zpow_right₀ (by norm_num) (by omega)).trans hvalue)
      exact Or.inr (by exact_mod_cast hbottom)

/-- A value that is at most a power of two in the range of the format is rounded to such a
number. -/
theorem atMost_roundWithAccuracy (s : Sign) {v : ℚ} {n : ℕ} {x k : ℤ} {accuracy : Accuracy}
    (hlow : -1074 ≤ k) (hhigh : k ≤ 1023)
    (hn : StandsFor (.ofMantissaAndAccuracy n accuracy) (v / 2 ^ x))
    (hx : x ≤ Format.binary64.targetExponent (totalExponent n x)) (hv : v ≤ 2 ^ k) :
    AtMost k (roundWithAccuracy Format.binary64 s n x accuracy) := by
  obtain ⟨hbelow, habove⟩ := hn.bounds
  obtain ⟨em, hshift, hem⟩ := hn.shiftToExponent hx
  unfold roundWithAccuracy
  rw [shiftToTargetExponent, hshift]
  dsimp only
  generalize ht : Format.binary64.targetExponent (totalExponent n x) = t at hx hem
  obtain ⟨hsmall, htop, hbottom⟩ := targetExponent_bounds hbelow habove hx ht
  have hle : em.roundedMantissa ≤ 2 ^ 53 := hem.roundedMantissa_le (by exact_mod_cast htop)
  have hge : t = -1074 ∨ 2 ^ 52 ≤ em.roundedMantissa :=
    hbottom.imp_right fun hb => hem.le_roundedMantissa (by exact_mod_cast hb)
  have hrounded : (em.roundedMantissa * 2 ^ t : ℚ) ≤ 2 ^ k := by
    have hkt : t ≤ k := by
      rcases hbottom with rfl | hb
      · exact hlow
      · have hvalue : (2 : ℚ) ^ (52 + t : ℤ) ≤ 2 ^ k :=
          (two_zpow_le_div.mp (by exact_mod_cast hb)).trans hv
        have hexponent := (zpow_le_zpow_iff_right₀ (by norm_num)).mp hvalue
        omega
    obtain ⟨j, rfl⟩ := Int.le.dest hkt
    have hquotient : v / 2 ^ t ≤ (2 ^ j : ℕ) := by
      rw [div_le_iff₀ (two_zpow_pos t), Nat.cast_pow, Nat.cast_ofNat, ← zpow_natCast,
        ← zpow_add₀ (by norm_num), add_comm]
      exact hv
    have hnat : (em.roundedMantissa : ℚ) ≤ (2 ^ j : ℕ) := by
      exact_mod_cast hem.roundedMantissa_le hquotient
    rw [add_comm, zpow_add₀ (by norm_num), zpow_natCast]
    exact mul_le_mul_of_nonneg_right (by exact_mod_cast hnat) (two_zpow_pos t).le
  generalize em.roundedMantissa = r at hle hge hrounded
  rcases Nat.eq_zero_or_pos r with rfl | hpos
  · obtain rfl := hge.resolve_right (by decide)
    exact trivial
  · obtain ⟨m, e, hform, hvalue, hfinal⟩ := exists_shiftToTargetExponent hpos hle hsmall hge
      (hrounded.trans (zpow_le_zpow_right₀ (by norm_num) hhigh))
    rw [hfinal]
    dsimp only
    rw [dif_neg hform.1.ne']
    exact ⟨hform, hvalue.trans_le hrounded⟩

/-! ## Numbers with a bound -/

/-- A finite number whose magnitude is at most a power of two. -/
def IsWithin (k : ℕ) (x : Float) : Prop :=
  AtMost k x.toModel.unpack

lemma IsWithin.mono {j k : ℕ} {x : Float} (h : IsWithin j x) (hjk : j ≤ k) : IsWithin k x :=
  AtMost.mono (by exact_mod_cast hjk) h

/-- A number in the form of the format is unpacked as it was packed. -/
lemma AtMost.unpack_pack {k : ℤ} {u : UnpackedFloat} (h : AtMost k u) :
    (Float.Model.pack u).unpack = u := by
  cases u with
  | zero s => cases s <;> rfl
  | finite s m e hm => exact h.1.unpack_pack s
  | infinity | notANumber => exact h.elim

/-- A result that is packed has the bound that it has unpacked. -/
lemma isWithin_ofModel {k : ℕ} {u : UnpackedFloat} (h : AtMost k u) :
    IsWithin k (Float.ofModel (Float.Model.pack u)) := by
  show AtMost k (Float.Model.pack u).unpack
  rw [h.unpack_pack]
  exact h

/-! ## Products and quotients -/

section operations

variable (s₁ s₂ : Sign) {m₁ m₂ : ℕ} {e₁ e₂ k : ℤ}

/-- A product with enough digits, or far below the others, has the bound of its exact value. -/
lemma atMost_mul (h₁ : 0 < m₁) (h₂ : 0 < m₂) (hlong : 2 ^ 52 ≤ m₁ * m₂ ∨ e₁ + e₂ ≤ -1074)
    (hlow : -1074 ≤ k) (hhigh : k ≤ 1023) (h : (m₁ * 2 ^ e₁ * (m₂ * 2 ^ e₂) : ℚ) ≤ 2 ^ k) :
    AtMost k (UnpackedFloat.mul Format.binary64 (.finite s₁ m₁ e₁ h₁) (.finite s₂ m₂ e₂ h₂)) := by
  have hvalue : (m₁ * 2 ^ e₁ * (m₂ * 2 ^ e₂) : ℚ) / 2 ^ (e₁ + e₂) = (m₁ * m₂ : ℕ) := by
    rw [div_eq_iff (two_zpow_pos _).ne', zpow_add₀ (by norm_num)]
    push_cast
    ring
  refine atMost_roundWithAccuracy _ hlow hhigh (hvalue ▸ standsFor_exact _) ?_ h
  unfold totalExponent
  rw [targetExponent_eq]
  rcases hlong with hlong | hsmall
  · have hlog : 52 ≤ (m₁ * m₂).log2 := (Nat.le_log2 (Nat.mul_pos h₁ h₂).ne').mpr hlong
    omega
  · omega

/-- A quotient has the bound of its exact value. -/
lemma atMost_div (h₁ : 0 < m₁) (h₂ : 0 < m₂) (hlow : -1074 ≤ k) (hhigh : k ≤ 1023)
    (h : (m₁ * 2 ^ e₁ / (m₂ * 2 ^ e₂) : ℚ) ≤ 2 ^ k) :
    AtMost k (UnpackedFloat.div Format.binary64 (.finite s₁ m₁ e₁ h₁) (.finite s₂ m₂ e₂ h₂)) := by
  obtain ⟨n, x, accuracy, hdiv, hn, hx⟩ := exists_divCore e₁ e₂ h₁ h₂
  unfold UnpackedFloat.div
  dsimp only
  rw [hdiv]
  exact atMost_roundWithAccuracy _ hlow hhigh hn hx h

end operations

section floats

variable {x y : Float} {i j k : ℕ}

/-- The form of a number with a bound. -/
lemma IsWithin.cases (h : IsWithin k x) : (∃ s, x.toModel.unpack = .zero s) ∨
    ∃ s m e, ∃ hm : HasForm m e, x.toModel.unpack = .finite s m e hm.1 ∧
      (m * 2 ^ e : ℚ) ≤ 2 ^ (k : ℤ) := by
  unfold IsWithin at h
  cases hx : x.toModel.unpack with
  | zero s => exact Or.inl ⟨s, rfl⟩
  | finite s m e hm =>
    rw [hx] at h
    exact Or.inr ⟨s, m, e, h.1, rfl, h.2⟩
  | infinity | notANumber =>
    rw [hx] at h
    exact h.elim

/-- Two mantissas of the format have a product with enough digits or with a small exponent. -/
lemma HasForm.long_or_small {m₁ m₂ : ℕ} {e₁ e₂ : ℤ} (h₁ : HasForm m₁ e₁) (h₂ : HasForm m₂ e₂) :
    2 ^ 52 ≤ m₁ * m₂ ∨ e₁ + e₂ ≤ -1074 := by
  rcases h₁.2 with hnormal | ⟨_, rfl⟩
  · exact Or.inl (hnormal.lower.trans (Nat.le_mul_of_pos_right _ h₂.1))
  · rcases h₂.2 with hnormal | ⟨_, rfl⟩
    · exact Or.inl (hnormal.lower.trans (Nat.le_mul_of_pos_left _ h₁.1))
    · exact Or.inr (by decide)

lemma isWithin_mul (hx : IsWithin i x) (hy : IsWithin j y) (hk : i + j ≤ k) (hhigh : k ≤ 1023) :
    IsWithin k (x * y) := by
  have hpacked : x * y = Float.ofModel (Float.Model.pack
      (UnpackedFloat.mul Format.binary64 x.toModel.unpack y.toModel.unpack)) := rfl
  rw [hpacked]
  apply isWithin_ofModel
  rcases hx.cases with ⟨s, hs⟩ | ⟨s, m, e, hm, hs, hle⟩ <;>
    rcases hy.cases with ⟨s', hs'⟩ | ⟨s', m', e', hm', hs', hle'⟩ <;> rw [hs, hs']
  · trivial
  · trivial
  · trivial
  · refine atMost_mul s s' hm.1 hm'.1 (hm.long_or_small hm') (by omega) (by omega) ?_
    calc (m * 2 ^ e * (m' * 2 ^ e') : ℚ) ≤ 2 ^ (i : ℤ) * 2 ^ (j : ℤ) :=
        mul_le_mul hle hle' (by positivity) (two_zpow_pos i).le
      _ = 2 ^ (i + j : ℤ) := (zpow_add₀ (by norm_num) _ _).symm
      _ ≤ 2 ^ (k : ℤ) := zpow_le_zpow_right₀ (by norm_num) (by omega)

/-- A small whole number is unpacked to its value. -/
lemma exists_unpack_ofNat {n : ℕ} (hn : 0 < n) (hsmall : n < 2 ^ 53) :
    ∃ m e, ∃ hm : HasForm m e,
      (Float.ofNat n).toModel.unpack = .finite .positive m e hm.1 ∧ (m * 2 ^ e : ℚ) = n := by
  obtain ⟨m, e, hnormal, hvalue⟩ := exists_isValue hn hsmall
  exact ⟨m, e, ⟨hnormal.pos, Or.inl hnormal⟩, unpack_ofNat hnormal hvalue, hvalue.cast⟩

/-- Division by a whole number keeps a bound. -/
lemma isWithin_div {n : ℕ} (hx : IsWithin k x) (hn : 0 < n) (hsmall : n < 2 ^ 53)
    (hhigh : k ≤ 1023) : IsWithin k (x / Float.ofNat n) := by
  have hpacked : x / Float.ofNat n = Float.ofModel (Float.Model.pack
      (UnpackedFloat.div Format.binary64 x.toModel.unpack (Float.ofNat n).toModel.unpack)) := rfl
  obtain ⟨m, e, hm, hy, hvalue⟩ := exists_unpack_ofNat hn hsmall
  have hone : (1 : ℚ) ≤ m * 2 ^ e := by
    rw [hvalue]
    exact_mod_cast hn
  rw [hpacked, hy]
  apply isWithin_ofModel
  rcases hx.cases with ⟨s, hs⟩ | ⟨s, m', e', hm', hs, hle⟩ <;> rw [hs]
  · trivial
  · exact atMost_div s .positive hm'.1 hm.1 (by omega) (by omega)
      ((div_le_self (by positivity) hone).trans hle)

end floats

/-! ## Sums and differences -/

/-- A mantissa that is brought to a smaller exponent keeps its value. -/
lemma decreaseExponent_value {m : ℕ} {e x : ℤ} (hx : x ≤ e) :
    ((decreaseExponent m e x).1 * 2 ^ x : ℚ) = m * 2 ^ e := by
  obtain ⟨k, rfl⟩ := Int.le.dest hx
  have hshift : (x + k - x).toNat = k := by omega
  unfold decreaseExponent
  dsimp only
  rw [hshift, Nat.shiftLeft_eq, zpow_add₀ (by norm_num), zpow_natCast]
  push_cast
  ring

/-- A mantissa with any exponent is rounded to a number with the bound of its value. -/
lemma atMost_round (s : Sign) {n : ℕ} {e k : ℤ} (hn : n ≠ 0) (hlow : -1074 ≤ k) (hhigh : k ≤ 1023)
    (h : (n * 2 ^ e : ℚ) ≤ 2 ^ k) : AtMost k (UnpackedFloat.round Format.binary64 s n e) := by
  unfold UnpackedFloat.round decreaseExponent
  dsimp only
  generalize ht : Format.binary64.targetExponent (totalExponent n e) = t
  generalize hj : (e - t).toNat = j
  have hvalue : (n * 2 ^ e : ℚ) / 2 ^ (e - j) = (n * 2 ^ j : ℕ) := by
    rw [div_eq_iff (two_zpow_pos _).ne', zpow_sub₀ (by norm_num), zpow_natCast]
    push_cast
    field_simp
  rw [Nat.shiftLeft_eq]
  refine atMost_roundWithAccuracy s hlow hhigh (hvalue ▸ standsFor_exact _) ?_ h
  have htotal : totalExponent (n * 2 ^ j) (e - j) = totalExponent n e := by
    unfold totalExponent
    rw [log2_mul_two_pow hn]
    push_cast
    ring
  rw [htotal, ht]
  omega

/-- An integer mantissa is rounded to a number with the bound of its magnitude. -/
lemma atMost_normalize {n : ℤ} {e k : ℤ} (hlow : -1074 ≤ k) (hhigh : k ≤ 1023)
    (h : (n.natAbs * 2 ^ e : ℚ) ≤ 2 ^ k) (zeroSign : Sign) :
    AtMost k (UnpackedFloat.normalize Format.binary64 n e zeroSign) := by
  unfold UnpackedFloat.normalize
  rcases lt_trichotomy n 0 with hneg | rfl | hpos
  · have habs : (-n).toNat = n.natAbs := by omega
    rw [Int.compare_eq_lt.mpr hneg]
    dsimp only
    rw [habs]
    exact atMost_round .negative (by omega) hlow hhigh h
  · exact trivial
  · have habs : n.toNat = n.natAbs := by omega
    rw [Int.compare_eq_gt.mpr hpos]
    dsimp only
    rw [habs]
    exact atMost_round .positive (by omega) hlow hhigh h

/-- The magnitude of a sum or difference of two mantissas that are brought to one exponent. -/
lemma aligned_le {m₁ m₂ : ℕ} {e₁ e₂ n k : ℤ} (h₁ : (m₁ * 2 ^ e₁ : ℚ) ≤ 2 ^ k)
    (h₂ : (m₂ * 2 ^ e₂ : ℚ) ≤ 2 ^ k)
    (hn : n.natAbs ≤ (decreaseExponent m₁ e₁ (min e₁ e₂)).1 +
      (decreaseExponent m₂ e₂ (min e₁ e₂)).1) :
    (n.natAbs * 2 ^ min e₁ e₂ : ℚ) ≤ 2 ^ (k + 1) := by
  have hpos := two_zpow_pos (min e₁ e₂)
  have hcast : (n.natAbs : ℚ) ≤ (decreaseExponent m₁ e₁ (min e₁ e₂)).1 +
      (decreaseExponent m₂ e₂ (min e₁ e₂)).1 := by exact_mod_cast hn
  calc (n.natAbs * 2 ^ min e₁ e₂ : ℚ)
      ≤ ((decreaseExponent m₁ e₁ (min e₁ e₂)).1 + (decreaseExponent m₂ e₂ (min e₁ e₂)).1) *
          2 ^ min e₁ e₂ := mul_le_mul_of_nonneg_right hcast hpos.le
    _ = m₁ * 2 ^ e₁ + m₂ * 2 ^ e₂ := by
        rw [add_mul, decreaseExponent_value (min_le_left e₁ e₂),
          decreaseExponent_value (min_le_right e₁ e₂)]
    _ ≤ 2 ^ k + 2 ^ k := add_le_add h₁ h₂
    _ = 2 ^ (k + 1) := by
        rw [zpow_add_one₀ (by norm_num)]
        ring

lemma natAbs_apply (s : Sign) (n : ℕ) : (s.apply n).natAbs = n := by
  cases s
  · exact Int.natAbs_neg n
  · rfl

section sums

/-- The sum of two numbers has at most twice the bound of both. -/
lemma atMost_add {u v : UnpackedFloat} {l : ℕ} (hu : AtMost l u) (hv : AtMost l v)
    (hhigh : l + 1 ≤ 1023) :
    AtMost (l + 1 : ℕ) (UnpackedFloat.add Format.binary64 u v) := by
  have hmono : (l : ℤ) ≤ (l + 1 : ℕ) := by omega
  cases u with
  | infinity | notANumber => exact hu.elim
  | zero s =>
    cases v with
    | infinity | notANumber => exact hv.elim
    | zero s' => cases s <;> cases s' <;> trivial
    | finite s' m' e' hm' => exact hv.mono hmono
  | finite s m e hm =>
    cases v with
    | infinity | notANumber => exact hv.elim
    | zero s' => exact hu.mono hmono
    | finite s' m' e' hm' =>
      refine atMost_normalize (by omega) (by omega) (aligned_le hu.2 hv.2 ?_) .positive
      refine (Int.natAbs_add_le _ _).trans ?_
      rw [natAbs_apply, natAbs_apply]
      exact Nat.le_refl _

/-- A number has the bound that it has with the other sign. -/
lemma AtMost.neg {k : ℤ} {u : UnpackedFloat} (h : AtMost k u) : AtMost k u.neg := by
  cases u with
  | zero | finite => exact h
  | infinity | notANumber => exact h.elim

/-- A difference is the sum with the other sign. -/
lemma sub_eq_add_neg_of_atMost {k : ℤ} {u v : UnpackedFloat} (hu : AtMost k u) (hv : AtMost k v) :
    UnpackedFloat.sub Format.binary64 u v = UnpackedFloat.add Format.binary64 u v.neg := by
  have happly : ∀ (s : Sign) (n : ℕ), (-s).apply n = -s.apply n := by
    intro s n
    cases s
    · exact (Int.neg_neg _).symm
    · rfl
  cases u with
  | infinity | notANumber => exact hu.elim
  | zero s =>
    cases v with
    | infinity | notANumber => exact hv.elim
    | zero s' | finite s' m' e' hm' => rfl
  | finite s m e hm =>
    cases v with
    | infinity | notANumber => exact hv.elim
    | zero s' => rfl
    | finite s' m' e' hm' =>
      unfold UnpackedFloat.sub UnpackedFloat.add UnpackedFloat.neg
      dsimp only
      rw [happly, Int.sub_eq_add_neg]

variable {x y : Float} {i j k : ℕ}

lemma isWithin_add (hx : IsWithin i x) (hy : IsWithin j y) (hi : i < k) (hj : j < k)
    (hhigh : k ≤ 1023) : IsWithin k (x + y) := by
  obtain ⟨l, rfl⟩ : ∃ l, k = l + 1 := Nat.exists_eq_add_one_of_ne_zero (by omega)
  have hpacked : x + y = Float.ofModel (Float.Model.pack
      (UnpackedFloat.add Format.binary64 x.toModel.unpack y.toModel.unpack)) := rfl
  rw [hpacked]
  exact isWithin_ofModel
    (atMost_add (hx.mono (Nat.le_of_lt_succ hi)) (hy.mono (Nat.le_of_lt_succ hj)) hhigh)

lemma isWithin_sub (hx : IsWithin i x) (hy : IsWithin j y) (hi : i < k) (hj : j < k)
    (hhigh : k ≤ 1023) : IsWithin k (x - y) := by
  obtain ⟨l, rfl⟩ : ∃ l, k = l + 1 := Nat.exists_eq_add_one_of_ne_zero (by omega)
  have hu : AtMost l x.toModel.unpack := hx.mono (Nat.le_of_lt_succ hi)
  have hv : AtMost l y.toModel.unpack := hy.mono (Nat.le_of_lt_succ hj)
  have hpacked : x - y = Float.ofModel (Float.Model.pack
      (UnpackedFloat.sub Format.binary64 x.toModel.unpack y.toModel.unpack)) := rfl
  rw [hpacked, sub_eq_add_neg_of_atMost hu hv]
  exact isWithin_ofModel (atMost_add hu hv.neg hhigh)

end sums

/-! ## Decimals -/

section decimals

variable {k : ℕ}

/-- A decimal is read with the bound of its value. -/
theorem isWithin_toFloat {d : ℕ} {p : ℤ} (hhigh : k ≤ 1023) (h : (d * 10 ^ p : ℚ) ≤ 2 ^ (k : ℤ)) :
    IsWithin k (Decimal.toFloat d p) := by
  have hreading := Decimal.reading_toFloat d p
  generalize Decimal.toFloat d p = x at hreading ⊢
  cases hreading with
  | zero => exact trivial
  | infinite hd hlarge =>
    have hten : (2 : ℚ) ^ (1023 : ℤ) < 10 ^ (309 : ℤ) := by
      have hpowers : 2 ^ 1023 < 10 ^ 309 := by decide +kernel
      rw [zpow_ofNat, zpow_ofNat]
      exact_mod_cast hpowers
    have htop : (2 : ℚ) ^ (k : ℤ) ≤ 2 ^ (1023 : ℤ) :=
      zpow_le_zpow_right₀ (by norm_num) (by exact_mod_cast hhigh)
    have hleading := Decimal.lt_of_ten_zpow_lt
      ((Decimal.pow_leading_le (p := p) hd).trans_lt ((h.trans htop).trans_lt hten))
    omega
  | product h₁ h₂ hvalue hlong =>
    exact isWithin_ofModel (atMost_mul .positive .positive h₁ h₂ (Or.inl hlong) (by omega)
      (by omega) (hvalue.trans_le h))
  | quotient h₁ h₂ hvalue =>
    exact isWithin_ofModel (atMost_div .positive .positive h₁ h₂ (by omega) (by omega)
      (hvalue.trans_le h))

/-- A natural number keeps its bound. -/
lemma isWithin_ofNat {n : ℕ} (hhigh : k ≤ 1023) (h : n ≤ 2 ^ k) : IsWithin k (Float.ofNat n) := by
  rcases Nat.eq_zero_or_pos n with rfl | hn
  · exact trivial
  · obtain ⟨m₁, m₂, e₁, e₂, h₁, h₂, hfloat, hvalue, hlong⟩ :=
      exists_ofScientific_mul (k := 0) hn (by decide)
    have hofNat : Float.ofNat n = Float.ofScientific n false 0 := rfl
    have hbound : (n : ℚ) ≤ 2 ^ (k : ℤ) := by
      rw [zpow_natCast]
      exact_mod_cast h
    rw [pow_zero, mul_one] at hvalue
    rw [hofNat, hfloat]
    exact isWithin_ofModel (atMost_mul .positive .positive h₁ h₂ (Or.inl hlong) (by omega)
      (by omega) (hvalue.trans_le hbound))

end decimals

/-! ## Signs and order -/

/-- A number whose sign is positive, or NaN. -/
def Unsigned : UnpackedFloat → Prop
  | .zero s => s = .positive
  | .finite s _ _ _ => s = .positive
  | .infinity s => s = .positive
  | .notANumber => True

/-- A number whose sign is positive, or NaN. -/
def IsUnsigned (x : Float) : Prop :=
  Unsigned x.toModel.unpack

/-- The sign of a number is its first bit. -/
lemma unsigned_unpack {b : BitVec Format.binary64.numBits} (h : unpackSign b = 0#1) :
    Unsigned (UnpackedFloat.unpack Format.binary64 b) := by
  have hsign : Sign.ofBitVec (unpackSign b) = .positive := if_pos h
  unfold UnpackedFloat.unpack
  dsimp only
  by_cases hones : unpackExponent b = -1#11
  · rw [if_pos hones]
    by_cases hzero : unpackMantissa b = 0#52
    · rw [if_pos hzero]
      exact hsign
    · rw [if_neg hzero]
      exact trivial
  · rw [if_neg hones]
    by_cases hlowest : unpackExponent b = 0#11
    · rw [if_pos hlowest]
      by_cases hzero : unpackMantissa b = 0#52
      · rw [dif_pos hzero]
        exact hsign
      · rw [dif_neg hzero]
        exact hsign
    · rw [if_neg hlowest]
      exact hsign

/-- Packing keeps the sign, also where it overflows. -/
lemma Unsigned.unpack_pack {u : UnpackedFloat} (h : Unsigned u) :
    Unsigned (Float.Model.pack u).unpack := by
  have hsign : ∀ exponent mantissa,
      unpackSign (packComponents Format.binary64 .positive exponent mantissa) = 0#1 :=
    fun _ _ => unpackSign_packComponents
  apply unsigned_unpack
  show unpackSign (UnpackedFloat.pack Format.binary64 u) = 0#1
  cases u with
  | notANumber => exact hsign _ _
  | infinity s | zero s =>
    obtain rfl : s = .positive := h
    exact hsign _ _
  | finite s m e hm =>
    obtain rfl : s = .positive := h
    unfold UnpackedFloat.pack
    dsimp only
    split_ifs <;> exact hsign _ _

lemma unsigned_roundWithAccuracy (n : ℕ) (x : ℤ) (accuracy : Accuracy) :
    Unsigned (roundWithAccuracy Format.binary64 .positive n x accuracy) := by
  unfold roundWithAccuracy
  dsimp only
  generalize shiftToTargetExponent Format.binary64 _ _ .exact = moved
  by_cases hzero : moved.1.mantissa = 0
  · rw [dif_pos hzero]
    exact rfl
  · rw [dif_neg hzero]
    exact rfl

/-- No decimal is read as a negative number. -/
theorem isUnsigned_toFloat (d : ℕ) (p : ℤ) : IsUnsigned (Decimal.toFloat d p) := by
  have hreading := Decimal.reading_toFloat d p
  generalize Decimal.toFloat d p = x at hreading ⊢
  cases hreading with
  | zero => exact rfl
  | infinite => exact rfl
  | product => exact Unsigned.unpack_pack (unsigned_roundWithAccuracy _ _ _)
  | quotient => exact Unsigned.unpack_pack (unsigned_roundWithAccuracy _ _ _)

/-- The order of two numbers is the comparison of the numbers unpacked. -/
lemma lt_iff_compare {x y : Float} :
    x < y ↔ x.toModel.unpack.compare y.toModel.unpack = some .lt := by
  have hlt : x < y ↔ x.toModel < y.toModel := decide_eq_true_iff
  exact hlt.trans beq_iff_eq

/-- Mantissas and exponents in the form of the format are ordered as their values are. -/
lemma HasForm.value_le {m m' : ℕ} {e e' : ℤ} (hm : HasForm m e) (hm' : HasForm m' e')
    (h : (compare e e').then (compare m m') = .lt) : (m * 2 ^ e : ℚ) ≤ m' * 2 ^ e' := by
  rcases Ordering.then_eq_lt.mp h with hexponent | ⟨hexponent, hmantissa⟩
  · have hlt : e < e' := Int.compare_eq_lt.mp hexponent
    have hlong : 2 ^ 52 ≤ m' := by
      rcases hm'.2 with hnormal | ⟨_, rfl⟩
      · exact hnormal.lower
      · have hsmall := hm.smallest
        omega
    have hshort : (m : ℚ) ≤ 2 ^ 53 := by exact_mod_cast hm.upper.le
    have hlong' : (2 ^ 52 : ℚ) ≤ m' := by exact_mod_cast hlong
    calc (m * 2 ^ e : ℚ) ≤ 2 ^ 53 * 2 ^ e := mul_le_mul_of_nonneg_right hshort (two_zpow_pos e).le
      _ = 2 ^ 52 * 2 ^ (e + 1) := by
          rw [zpow_add_one₀ (by norm_num)]
          ring
      _ ≤ 2 ^ 52 * 2 ^ e' :=
          mul_le_mul_of_nonneg_left (zpow_le_zpow_right₀ (by norm_num) (by omega)) (by norm_num)
      _ ≤ m' * 2 ^ e' := mul_le_mul_of_nonneg_right hlong' (two_zpow_pos e').le
  · obtain rfl : e = e' := Int.compare_eq_eq.mp hexponent
    have hle : (m : ℚ) ≤ m' := by exact_mod_cast (Nat.compare_eq_lt.mp hmantissa).le
    exact mul_le_mul_of_nonneg_right hle (two_zpow_pos e).le

/-- What is positive and below a number with a bound has the bound. -/
lemma atMost_of_compare {u v : UnpackedFloat} {k : ℤ} (hu : Unsigned u) (hform : IsCanonical u)
    (hv : AtMost k v) (h : u.compare v = some .lt) : AtMost k u := by
  cases u with
  | zero => exact trivial
  | notANumber => cases h
  | infinity s =>
    obtain rfl : s = .positive := hu
    cases v with
    | zero | finite => cases h
    | infinity | notANumber => exact hv.elim
  | finite s m e hm =>
    obtain rfl : s = .positive := hu
    cases v with
    | zero => cases h
    | infinity | notANumber => exact hv.elim
    | finite s' m' e' hm' =>
      cases s' with
      | negative => cases h
      | positive =>
        have hlex := Option.some.inj h
        exact ⟨⟨hm, hform⟩, (HasForm.value_le ⟨hm, hform⟩ hv.1 hlex).trans hv.2⟩

theorem isWithin_of_lt {x y : Float} {k : ℕ} (hx : IsUnsigned x) (hy : IsWithin k y) (h : x < y) :
    IsWithin k x :=
  atMost_of_compare hx (isCanonical_unpack x) hy (lt_iff_compare.mp h)

/-- A number above zero has a positive sign. -/
lemma isUnsigned_of_pos {x : Float} (h : Float.ofNat 0 < x) : IsUnsigned x := by
  have hcompare := lt_iff_compare.mp h
  have hzero : (Float.ofNat 0).toModel.unpack = .zero .positive := rfl
  rw [hzero] at hcompare
  unfold IsUnsigned
  cases hx : x.toModel.unpack with
  | notANumber => exact trivial
  | zero s => rw [hx] at hcompare; cases hcompare
  | infinity s | finite s =>
    rw [hx] at hcompare
    cases s with
    | negative => cases hcompare
    | positive => exact rfl

end Binary64

end DesignTokens

import DesignTokens.Color.Scalar
import DesignTokens.Proofs.Decimal.Range
import Mathlib.Data.Rat.Floor

/-!
# Positive numbers

A number above zero differs from both zeros (`beq_zero_of_pos`), so that division by it is never
refused.  The whole part of a number is a number of the format itself: it is the number where there
are no binary places, and has at most 53 places otherwise.  A positive one therefore stays positive
when it is converted back (`ofNat_pos_of_floorFloat`).  A whole number of at most 53 places is read
from its digits as it is and is its own whole part (`floorFloat_toFloat`).
-/

namespace DesignTokens

namespace Binary64

open Float.Model Float.Model.UnpackedFloat

/-- A number above zero is positive, perhaps infinite. -/
lemma unpack_of_pos {x : Float} (h : 0.0 < x) :
    (∃ m e hm, x.toModel.unpack = .finite .positive m e hm) ∨
      x.toModel.unpack = .infinity .positive := by
  have hcompare := lt_iff_compare.mp h
  have hzero : (0.0 : Float).toModel.unpack = .zero .positive := rfl
  rw [hzero] at hcompare
  cases hx : x.toModel.unpack with
  | notANumber | zero s => rw [hx] at hcompare; cases hcompare
  | infinity s =>
    rw [hx] at hcompare
    cases s with
    | negative => cases hcompare
    | positive => exact Or.inr rfl
  | finite s m e hm =>
    rw [hx] at hcompare
    cases s with
    | negative => cases hcompare
    | positive => exact Or.inl ⟨m, e, hm, rfl⟩

/-- A number above zero is not equal to zero. -/
lemma beq_zero_of_pos {x : Float} (h : 0.0 < x) : (x == 0.0) = false := by
  show x.toModel.unpack.beq (.zero .positive) = false
  rcases unpack_of_pos h with ⟨m, e, hm, hx⟩ | hx <;> rw [hx] <;> rfl

/-- A positive finite number is above zero. -/
lemma pos_of_unpack {x : Float} {m : ℕ} {e : ℤ} {hm : 0 < m}
    (h : x.toModel.unpack = .finite .positive m e hm) : 0.0 < x := by
  rw [lt_iff_compare, h]
  rfl

/-! ## Whole parts -/

/-- The whole part of a quotient. -/
lemma floor_mkRat (a : ℤ) (d : ℕ) : (mkRat a d).floor = a / d := by
  rw [Rat.mkRat_eq_div]
  exact Rat.floor_intCast_div_natCast a d

/-- The whole part of a finite number is the quotient of its numerator and its denominator. -/
lemma floorFloat_of_exact {x : Float} {negative : Bool} {m : ℕ} {e : ℤ}
    (h : Exact.ofFloat x = .finite negative m e) :
    floorFloat x = .ok ((if negative then -(Exact.numerator m e : ℤ) else Exact.numerator m e) /
      (Exact.denominator e : ℕ)) := by
  unfold floorFloat
  rw [h]
  exact congrArg Except.ok (floor_mkRat _ _)

/-- A whole number of at most 53 places is its own whole part. -/
lemma floorFloat_ofNat {n : ℕ} (hn : 0 < n) (hsmall : n < 2 ^ 53) :
    floorFloat (Float.ofNat n) = .ok n := by
  obtain ⟨m, e, hnormal, hvalue⟩ := exists_isValue hn hsmall
  have hexact := ofFloat_eq_exact (Float.ofNat n)
  rw [unpack_ofNat hnormal hvalue] at hexact
  have hnumerator : Exact.numerator m e = n * Exact.denominator e := hvalue.symm
  have hdenominator : (Exact.denominator e : ℤ) ≠ 0 :=
    Int.natCast_ne_zero.mpr (Nat.two_pow_pos _).ne'
  rw [floorFloat_of_exact hexact, hnumerator]
  exact congrArg Except.ok (by
    push_cast
    exact Int.mul_ediv_cancel _ hdenominator)

/-- A whole number of at most 53 places is read from its digits as it is. -/
lemma toFloat_eq_ofNat {n : ℕ} (hn : 0 < n) (hsmall : n < 2 ^ 53) :
    Decimal.toFloat n 0 = Float.ofNat n := by
  obtain ⟨m, e, hm, hx, hvalue⟩ := exists_unpack_ofNat hn hsmall
  have hquotient : (n * 10 ^ (0 : ℤ) : ℚ) / 2 ^ e = m := by
    rw [zpow_zero, mul_one, ← hvalue]
    exact mul_div_cancel_right₀ _ (two_zpow_pos e).ne'
  have hbelow : 1 ≤ quartersBelow m e := by
    unfold quartersBelow
    split_ifs <;> decide
  refine Decimal.toFloat_of_roundsTo hm hx ⟨?_, ?_, fun h => ?_, fun h => ?_⟩
  · rw [hquotient]
    linarith [(Nat.cast_nonneg (quartersBelow m e) : (0 : ℚ) ≤ quartersBelow m e)]
  · rw [hquotient]
    linarith
  · rw [hquotient] at h
    have hcast : (1 : ℚ) ≤ quartersBelow m e := by exact_mod_cast hbelow
    linarith
  · rw [hquotient] at h
    linarith

/-- A whole number of at most 53 places that is read from its digits is its own whole part. -/
theorem floorFloat_toFloat {n : ℕ} (hn : 0 < n) (hsmall : n < 2 ^ 53) :
    floorFloat (Decimal.toFloat n 0) = .ok n := by
  rw [toFloat_eq_ofNat hn hsmall, floorFloat_ofNat hn hsmall]

/-- The positive whole part of a mantissa and an exponent in canonical form has a normal form. -/
lemma exists_isNormal_floor {m : ℕ} {e : ℤ} (hm : IsNormal m e ∨ (m < 2 ^ 52 ∧ e = -1074))
    (hpos : 0 < Exact.numerator m e / Exact.denominator e) :
    ∃ m' e', IsNormal m' e' ∧ IsValue (Exact.numerator m e / Exact.denominator e) m' e' := by
  rcases lt_or_ge e 0 with hneg | hnonneg
  · have hnumerator : Exact.numerator m e = m := by
      unfold Exact.numerator
      rw [Int.toNat_of_nonpos hneg.le]
      exact Nat.mul_one m
    have hsmall : m < 2 ^ 53 := hm.elim IsNormal.upper fun h => h.1.trans (by decide)
    refine exists_isValue hpos (lt_of_le_of_lt (Nat.div_le_self _ _) ?_)
    rwa [hnumerator]
  · have hnormal : IsNormal m e := hm.resolve_right fun h => by omega
    have hplaces : (-e).toNat = 0 := by omega
    have hdenominator : Exact.denominator e = 1 := by
      unfold Exact.denominator
      rw [hplaces]
      rfl
    refine ⟨m, e, hnormal, ?_⟩
    unfold IsValue
    rw [hdenominator, Nat.div_one, hplaces, Nat.pow_zero, Nat.mul_one]
    rfl

/-- The positive whole part of a number is above zero as a number. -/
theorem ofNat_pos_of_floorFloat {x : Float} {n : ℤ} (h : floorFloat x = .ok n) (hpos : 0 < n) :
    0.0 < Float.ofNat n.toNat := by
  have hcanonical := isCanonical_unpack x
  have hexact := ofFloat_eq_exact x
  cases hx : x.toModel.unpack with
  | infinity s | notANumber =>
    rw [hx] at hexact
    unfold floorFloat at h
    rw [hexact] at h
    cases h
  | zero s =>
    rw [hx] at hexact
    have hfloor := (floorFloat_of_exact hexact).symm.trans h
    have hnumerator : Exact.numerator 0 (-1074) = 0 := rfl
    rw [hnumerator, Nat.cast_zero, neg_zero, ite_self, Int.zero_ediv] at hfloor
    exact absurd (Except.ok.inj hfloor) hpos.ne
  | finite s m e hm =>
    rw [hx] at hexact hcanonical
    have hfloor := Except.ok.inj ((floorFloat_of_exact hexact).symm.trans h)
    cases s with
    | negative =>
      have hle : n ≤ 0 := by
        rw [← hfloor]
        exact Int.ediv_nonpos_of_nonpos_of_neg (Int.neg_nonpos_of_nonneg (Int.natCast_nonneg _))
          (Int.natCast_pos.mpr (Nat.two_pow_pos _))
      omega
    | positive =>
      have hquotient : n = (Exact.numerator m e / Exact.denominator e : ℕ) := hfloor.symm
      rw [hquotient] at hpos ⊢
      obtain ⟨m', e', hnormal, hvalue⟩ :=
        exists_isNormal_floor hcanonical (by exact_mod_cast hpos)
      exact pos_of_unpack (unpack_ofNat hnormal hvalue)

end Binary64

end DesignTokens

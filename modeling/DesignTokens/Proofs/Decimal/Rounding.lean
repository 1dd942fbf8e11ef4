import DesignTokens.Proofs.Decimal.WholeNumber
import Mathlib.Algebra.Order.Field.Power
import Mathlib.Data.Rat.Cast.Order
import Mathlib.Tactic.FieldSimp
import Mathlib.Tactic.Linarith
import Mathlib.Tactic.NormNum
import Mathlib.Tactic.Positivity

/-!
# Rounding of floating-point numbers

The result of a multiplication or a division is a mantissa with two more bits, a round bit and a
sticky bit, that is moved to the exponent of the format and rounded.  These bits are the beginning
of the exact quotient (`StandsFor`), and stay so when the mantissa is moved.  The exact value that
is rounded to a number lies in an interval around the number (`RoundsTo`), and rounding finds the
number from any value in its interval (`roundWithAccuracy_of_roundsTo`).
-/

namespace DesignTokens

namespace Binary64

open Float.Model Float.Model.UnpackedFloat

/-! ## Extended mantissas -/

/-- An extended mantissa stands for a number: the mantissa and the round bit are the binary digits
of the number down to one half, and the sticky bit tells whether anything is left. -/
structure StandsFor (em : ExtendedMantissa) (y : ℚ) : Prop where
  lower : (2 * em.mantissa + em.roundBit.toNat : ℚ) ≤ 2 * y
  upper : 2 * y < 2 * em.mantissa + em.roundBit.toNat + 1
  exact_iff : em.stickyBit = false ↔ 2 * y = 2 * em.mantissa + em.roundBit.toNat

namespace StandsFor

variable {em : ExtendedMantissa} {y : ℚ}

/-- A mantissa moved to the right stands for half of the number. -/
lemma shiftRightOne (h : StandsFor em y) : StandsFor em.shiftRightOne (y / 2) := by
  obtain ⟨mantissa, roundBit, stickyBit⟩ := em
  obtain ⟨hlower, hupper, hexact⟩ := h
  have hbit : (mantissa % 2 != 0).toNat = mantissa % 2 := by
    rcases Nat.mod_two_eq_zero_or_one mantissa with hzero | hone
    · rw [hzero]
      rfl
    · rw [hone]
      rfl
  have hdigits : (2 * (mantissa / 2 : ℕ) + (mantissa % 2 : ℕ) : ℚ) = mantissa := by
    exact_mod_cast Nat.div_add_mod mantissa 2
  have hhalf : 2 * (y / 2) = y := by ring
  have hround : (roundBit.toNat : ℚ) ≤ 1 := by exact_mod_cast Bool.toNat_le roundBit
  have hroundPos : (0 : ℚ) ≤ roundBit.toNat := Nat.cast_nonneg _
  dsimp only at hlower hupper hexact
  refine ⟨?_, ?_, ?_⟩
  all_goals
    unfold ExtendedMantissa.shiftRightOne
    dsimp only
    rw [hbit, hdigits, hhalf]
  · linarith
  · linarith
  · -- nothing is left exactly if neither the round bit nor the sticky bit is set
    cases roundBit with
    | false =>
      simp only [Bool.toNat_false, Nat.cast_zero, add_zero] at hexact
      rw [Bool.false_or, hexact]
      constructor <;> intro h <;> linarith
    | true =>
      simp only [Bool.toNat_true, Nat.cast_one] at hlower
      refine iff_of_false (by simp) fun h => ?_
      linarith

/-- A mantissa moved to the right by some places stands for the number divided by a power of two. -/
lemma shiftRight (h : StandsFor em y) (k : ℕ) : StandsFor (em >>> k) (y / 2 ^ k) := by
  induction k with
  | zero =>
    show StandsFor em (y / 2 ^ 0)
    rwa [pow_zero, div_one]
  | succ k ih =>
    have hpow : y / 2 ^ (k + 1) = y / 2 ^ k / 2 := by rw [pow_succ, div_div]
    rw [hpow]
    exact ih.shiftRightOne

/-- The rounded mantissa is the nearest whole number, an even one if there are two. -/
lemma roundedMantissa_eq (h : StandsFor em y) {m : ℕ} (hlower : (2 * m - 1 : ℚ) ≤ 2 * y)
    (hupper : 2 * y ≤ 2 * m + 1) (hlowerTie : 2 * y = 2 * m - 1 → m % 2 = 0)
    (hupperTie : 2 * y = 2 * m + 1 → m % 2 = 0) : em.roundedMantissa = m := by
  obtain ⟨mantissa, roundBit, stickyBit⟩ := em
  obtain ⟨hbelow, habove, hexact⟩ := h
  dsimp only at hbelow habove hexact
  cases roundBit with
  | false =>
    simp only [Bool.toNat_false, Nat.cast_zero, add_zero] at hbelow habove hexact
    have hleft : (2 * m : ℚ) < 2 * mantissa + 2 := by linarith
    have hright : (2 * mantissa : ℚ) ≤ 2 * m + 1 := by linarith
    have hsame : mantissa = m := by
      have hleft : 2 * m < 2 * mantissa + 2 := by exact_mod_cast hleft
      have hright : 2 * mantissa ≤ 2 * m + 1 := by exact_mod_cast hright
      omega
    cases stickyBit <;> exact hsame
  | true =>
    simp only [Bool.toNat_true, Nat.cast_one] at hbelow habove hexact
    cases stickyBit with
    | false =>
      have hy := hexact.mp rfl
      show mantissa + mantissa % 2 = m
      rw [hy] at hlower hupper hlowerTie hupperTie
      have hleft : 2 * m ≤ 2 * mantissa + 1 + 1 := by
        have : (2 * m : ℚ) ≤ 2 * mantissa + 1 + 1 := by linarith
        exact_mod_cast this
      have hright : 2 * mantissa + 1 ≤ 2 * m + 1 := by exact_mod_cast hupper
      rcases Nat.lt_or_ge mantissa m with hlt | hge
      · have hnext : m = mantissa + 1 := by omega
        have heven := hlowerTie (by rw [hnext]; push_cast; ring)
        omega
      · have hsame : m = mantissa := by omega
        have heven := hupperTie (by rw [hsame])
        omega
    | true =>
      show mantissa + 1 = m
      have hne : (2 * y : ℚ) ≠ 2 * mantissa + 1 := fun heq => Bool.noConfusion (hexact.mpr heq)
      have hstrict : (2 * mantissa + 1 : ℚ) < 2 * y := lt_of_le_of_ne hbelow hne.symm
      have hleft : (2 * m : ℚ) < 2 * mantissa + 3 := by linarith
      have hright : (2 * mantissa : ℚ) < 2 * m := by linarith
      have hleft : 2 * m < 2 * mantissa + 3 := by exact_mod_cast hleft
      have hright : 2 * mantissa < 2 * m := by exact_mod_cast hright
      omega

end StandsFor

/-- An exact mantissa stands for itself. -/
lemma standsFor_exact (n : ℕ) : StandsFor (.ofMantissaAndAccuracy n .exact) n :=
  ⟨by simp [ExtendedMantissa.ofMantissaAndAccuracy],
    by simp [ExtendedMantissa.ofMantissaAndAccuracy],
    by simp [ExtendedMantissa.ofMantissaAndAccuracy]⟩

/-- The quotient of a division with the accuracy of its remainder stands for the exact quotient. -/
lemma standsFor_quotient (a : ℕ) {b : ℕ} (hb : 0 < b) :
    StandsFor (.ofMantissaAndAccuracy (a / b) (accuracyOfFraction (a % b) b)) (a / b) := by
  have hmod := Nat.mod_lt a hb
  have hbq : (0 : ℚ) < b := by exact_mod_cast hb
  have hparts : (a : ℚ) = b * (a / b : ℕ) + (a % b : ℕ) := by
    exact_mod_cast (Nat.div_add_mod a b).symm
  have hquotient : (a / b : ℚ) = (a / b : ℕ) + (a % b : ℕ) / b := by
    rw [hparts, add_div, mul_div_cancel_left₀ _ hbq.ne']
  generalize a / b = q at hquotient ⊢
  generalize a % b = r at hmod hquotient ⊢
  rw [hquotient]
  unfold accuracyOfFraction
  by_cases hzero : r = 0
  · rw [if_pos hzero, hzero, Nat.cast_zero, zero_div, add_zero]
    exact standsFor_exact q
  · rw [if_neg hzero]
    have hpos : (0 : ℚ) < r / b := by
      have : (0 : ℚ) < r := by exact_mod_cast Nat.pos_of_ne_zero hzero
      positivity
    have hlt : (r / b : ℚ) < 1 := (div_lt_one hbq).mpr (by exact_mod_cast hmod)
    have hscale : (2 * (r / b) : ℚ) = (2 * r : ℕ) / b := by
      push_cast
      ring
    rcases Nat.lt_trichotomy (2 * r) b with hless | hequal | hmore
    · rw [Nat.compare_eq_lt.mpr hless]
      have hhalf : (2 * (r / b) : ℚ) < 1 := by
        rw [hscale]
        exact (div_lt_one hbq).mpr (by exact_mod_cast hless)
      constructor <;> simp only [ExtendedMantissa.ofMantissaAndAccuracy, Bool.toNat_false,
        Nat.cast_zero, add_zero, Bool.true_eq_false, false_iff]
      · linarith
      · linarith
      · intro heq
        linarith
    · rw [Nat.compare_eq_eq.mpr hequal]
      have hhalf : (2 * (r / b) : ℚ) = 1 := by
        rw [hscale, hequal]
        exact div_self hbq.ne'
      constructor <;> simp only [ExtendedMantissa.ofMantissaAndAccuracy, Bool.toNat_true,
        Nat.cast_one, true_iff]
      · linarith
      · linarith
      · linarith
    · rw [Nat.compare_eq_gt.mpr hmore]
      have hhalf : (1 : ℚ) < 2 * (r / b) := by
        rw [hscale]
        exact (one_lt_div hbq).mpr (by exact_mod_cast hmore)
      constructor <;> simp only [ExtendedMantissa.ofMantissaAndAccuracy, Bool.toNat_true,
        Nat.cast_one, Bool.true_eq_false, false_iff]
      · linarith
      · linarith
      · intro heq
        linarith

/-! ## Values that round to a number -/

/-- A mantissa and an exponent in the form of the format: a normal number, or a shorter mantissa
with the smallest exponent. -/
def HasForm (m : ℕ) (e : ℤ) : Prop :=
  0 < m ∧ (IsNormal m e ∨ (m < 2 ^ 52 ∧ e = -1074))

/-- How far the values that round to a number reach below it, in quarters of a unit. -/
def quartersBelow (m : ℕ) (e : ℤ) : ℕ :=
  if m = 2 ^ 52 ∧ -1074 < e then 1 else 2

/-- A value lies in the interval of those that round to a number, as it is seen by the quarters of
a unit.  The bounds belong to the interval if the mantissa is even. -/
structure RoundsTo (v : ℚ) (m : ℕ) (e : ℤ) : Prop where
  lower : (4 * m - quartersBelow m e : ℚ) ≤ 4 * (v / 2 ^ e)
  upper : 4 * (v / 2 ^ e) ≤ 4 * m + 2
  lower_even : 4 * (v / 2 ^ e) = 4 * m - quartersBelow m e → m % 2 = 0
  upper_even : 4 * (v / 2 ^ e) = 4 * m + 2 → m % 2 = 0

/-- Powers of two of whole exponents are positive. -/
lemma two_zpow_pos (e : ℤ) : (0 : ℚ) < 2 ^ e :=
  zpow_pos (by norm_num) e

/-- Powers of two are compared by their exponents. -/
lemma lt_of_two_zpow_lt {a b : ℤ} (h : (2 : ℚ) ^ a < 2 ^ b) : a < b :=
  (zpow_lt_zpow_iff_right₀ (by norm_num)).mp h

/-- A quotient by a power of two is below another power of two as the value is below the product. -/
lemma div_two_zpow_lt {v : ℚ} {a b : ℤ} : v / 2 ^ a < 2 ^ b ↔ v < 2 ^ (b + a) := by
  rw [div_lt_iff₀ (two_zpow_pos a), zpow_add₀ (by norm_num)]

/-- A power of two is at most a quotient by another power of two as the product is at most the
value. -/
lemma two_zpow_le_div {v : ℚ} {a b : ℤ} : 2 ^ b ≤ v / 2 ^ a ↔ 2 ^ (b + a) ≤ v := by
  rw [le_div_iff₀ (two_zpow_pos a), zpow_add₀ (by norm_num)]

namespace HasForm

variable {m : ℕ} {e : ℤ}

/-- The mantissa has at most 53 binary digits. -/
lemma upper (h : HasForm m e) : m < 2 ^ 53 := by
  rcases h.2 with hnormal | ⟨hshort, _⟩
  · exact hnormal.upper
  · omega

/-- The exponent is not below the smallest one. -/
lemma smallest (h : HasForm m e) : -1074 ≤ e := by
  rcases h.2 with hnormal | ⟨_, rfl⟩
  · exact hnormal.smallest
  · exact Int.le_refl _

/-- The exponent is the one that the format has for a mantissa of this length. -/
lemma targetExponent (h : HasForm m e) :
    Format.binary64.targetExponent (totalExponent m e) = e := by
  unfold totalExponent
  rw [targetExponent_eq]
  rcases h.2 with hnormal | ⟨hshort, rfl⟩
  · have hsmallest := hnormal.smallest
    rw [hnormal.log2_eq]
    omega
  · have hlog : m.log2 < 52 := (Nat.log2_lt h.1.ne').mpr hshort
    omega

/-- A number in the form of the format is not moved. -/
lemma shiftToTargetExponent (h : HasForm m e) :
    UnpackedFloat.shiftToTargetExponent Format.binary64 m e .exact = (⟨m, false, false⟩, e) := by
  unfold UnpackedFloat.shiftToTargetExponent shiftToExponent
  dsimp only
  rw [h.targetExponent]
  have hzero : (e - e).toNat = 0 := by omega
  rw [hzero]
  exact Prod.ext rfl (Int.add_zero e)

end HasForm

namespace RoundsTo

variable {v : ℚ} {m n : ℕ} {e x : ℤ}

/-- Below a number there is at most half a unit. -/
lemma quartersBelow_le (m : ℕ) (e : ℤ) : (quartersBelow m e : ℚ) ≤ 2 := by
  unfold quartersBelow
  split_ifs <;> norm_num

/-- A value that rounds to a number is below the next power of two. -/
lemma lt_top (h : RoundsTo v m e) (hm : HasForm m e) : v < 2 ^ (53 + e) := by
  have hmantissa : (m + 1 : ℚ) ≤ 2 ^ 53 := by exact_mod_cast hm.upper
  refine div_two_zpow_lt.mp ?_
  have hupper := h.upper
  norm_num at hmantissa ⊢
  linarith

/-- A normal number that a value below the power of two of its length rounds to is this power. -/
lemma mantissa_eq_of_lt (h : RoundsTo v m e) (hnormal : IsNormal m e) (hv : v < 2 ^ (52 + e)) :
    m = 2 ^ 52 := by
  have hquotient : v / 2 ^ e < 2 ^ 52 := by
    have := div_two_zpow_lt.mpr hv
    exact_mod_cast this
  have hlower := h.lower
  have hquarters := quartersBelow_le m e
  by_contra hne
  have hmore : (2 ^ 52 + 1 : ℚ) ≤ m := by
    have hnext : 2 ^ 52 + 1 ≤ m := by
      have := hnormal.lower
      omega
    exact_mod_cast hnext
  linarith

/-- A value that rounds to a power of two is at least half of it. -/
lemma half_le (h : RoundsTo v (2 ^ 52) e) : 2 ^ (51 + e) ≤ v := by
  have hlower := h.lower
  have hquarters := quartersBelow_le (2 ^ 52) e
  generalize quartersBelow (2 ^ 52) e = quarters at hlower hquarters
  refine two_zpow_le_div.mp ?_
  norm_num at hlower ⊢
  linarith

/-- The exponent to which an approximation of the value is moved is that of the number, unless the
number is a power of two and the value is below it. -/
lemma targetExponent_cases (h : RoundsTo v m e) (hm : HasForm m e) (hn : (n : ℚ) ≤ v / 2 ^ x)
    (hn' : v / 2 ^ x < n + 1) (hx : x ≤ Format.binary64.targetExponent (totalExponent n x)) :
    Format.binary64.targetExponent (totalExponent n x) = e ∨
      (Format.binary64.targetExponent (totalExponent n x) = e - 1 ∧ m = 2 ^ 52 ∧ -1074 < e ∧
        v < 2 ^ (52 + e)) := by
  have hsmallest := hm.smallest
  unfold totalExponent at hx ⊢
  rw [targetExponent_eq] at hx ⊢
  -- the value lies between two powers of two
  have habove : v < 2 ^ ((n.log2 : ℤ) + 1 + x) := by
    refine div_two_zpow_lt.mp (lt_of_lt_of_le hn' ?_)
    have hnext : n + 1 ≤ 2 ^ (n.log2 + 1) := Nat.lt_log2_self
    exact_mod_cast hnext
  have hnotAbove : max ((n.log2 : ℤ) + 1 + x - 53) (-1074) ≤ e := by
    by_cases hzero : n = 0
    · rw [hzero] at hx ⊢
      have hlog : Nat.log2 0 = 0 := by decide
      rw [hlog] at hx ⊢
      omega
    · have hbelow : 2 ^ ((n.log2 : ℤ) + x) ≤ v := by
        refine two_zpow_le_div.mp (le_trans ?_ hn)
        have hself : 2 ^ n.log2 ≤ n := Nat.log2_self_le hzero
        exact_mod_cast hself
      have hlt := lt_of_two_zpow_lt (lt_of_le_of_lt hbelow (h.lt_top hm))
      omega
  by_cases hequal : max ((n.log2 : ℤ) + 1 + x - 53) (-1074) = e
  · exact Or.inl hequal
  · have hlarge : -1074 < e := by omega
    have hvalue : v < 2 ^ (52 + e) := by
      refine lt_of_lt_of_le habove (zpow_le_zpow_right₀ (by norm_num) ?_)
      omega
    obtain hnormal | ⟨_, hlow⟩ := hm.2
    · have hpower := h.mantissa_eq_of_lt hnormal hvalue
      refine Or.inr ⟨?_, hpower, hlarge, hvalue⟩
      subst hpower
      have hlt := lt_of_two_zpow_lt (lt_of_le_of_lt h.half_le habove)
      omega
    · omega

end RoundsTo

/-- A mantissa that has been moved to an exponent from a smaller one stands for the value divided by
the power of two. -/
lemma StandsFor.shiftToExponent {v : ℚ} {n : ℕ} {x t : ℤ} {accuracy : Accuracy}
    (h : StandsFor (.ofMantissaAndAccuracy n accuracy) (v / 2 ^ x)) (hx : x ≤ t) :
    ∃ em, UnpackedFloat.shiftToExponent n x accuracy t = (em, t) ∧ StandsFor em (v / 2 ^ t) := by
  obtain ⟨k, hk⟩ := Int.le.dest hx
  have hshift : (t - x).toNat = k := by omega
  have hvalue : v / 2 ^ t = v / 2 ^ x / 2 ^ k := by
    rw [← hk, zpow_add₀ (by norm_num), zpow_natCast, div_div]
  refine ⟨_, ?_, hvalue ▸ h.shiftRight k⟩
  unfold UnpackedFloat.shiftToExponent
  dsimp only
  rw [hshift, hk]

/-- The bounds of a number that an approximation stands for. -/
lemma StandsFor.bounds {n : ℕ} {accuracy : Accuracy} {y : ℚ}
    (h : StandsFor (.ofMantissaAndAccuracy n accuracy) y) : (n : ℚ) ≤ y ∧ y < n + 1 := by
  have hmantissa : (ExtendedMantissa.ofMantissaAndAccuracy n accuracy).mantissa = n := by
    unfold ExtendedMantissa.ofMantissaAndAccuracy
    split <;> rfl
  have hlower := h.lower
  have hupper := h.upper
  rw [hmantissa] at hlower hupper
  generalize (ExtendedMantissa.ofMantissaAndAccuracy n accuracy).roundBit = round at hlower hupper
  cases round with
  | false =>
    simp only [Bool.toNat_false, Nat.cast_zero, add_zero] at hlower hupper
    exact ⟨by linarith, by linarith⟩
  | true =>
    simp only [Bool.toNat_true, Nat.cast_one] at hlower hupper
    exact ⟨by linarith, by linarith⟩

/-- A mantissa that stands for a value in units of a number is rounded to the mantissa of the
number. -/
lemma StandsFor.roundedMantissa_same {em : ExtendedMantissa} {v : ℚ} {m : ℕ} {e : ℤ}
    (hem : StandsFor em (v / 2 ^ e)) (h : RoundsTo v m e) : em.roundedMantissa = m := by
  have hlower := h.lower
  have hquarters := RoundsTo.quartersBelow_le m e
  -- a tie lies on the bound, since the interval does not reach further
  refine hem.roundedMantissa_eq ?_ ?_ (fun htie => h.lower_even ?_) (fun htie => h.upper_even ?_)
  · linarith
  · linarith [h.upper]
  · linarith
  · linarith

/-- A mantissa that stands for a value in half units of a power of two that is larger is rounded up
to the power. -/
lemma StandsFor.roundedMantissa_below {em : ExtendedMantissa} {v : ℚ} {e : ℤ}
    (hem : StandsFor em (v / 2 ^ (e - 1))) (h : RoundsTo v (2 ^ 52) e) (hlarge : -1074 < e)
    (hv : v < 2 ^ (52 + e)) : em.roundedMantissa = 2 ^ 53 := by
  have hquarter : quartersBelow (2 ^ 52) e = 1 := if_pos ⟨rfl, hlarge⟩
  have hhalf : v / 2 ^ (e - 1) = 2 * (v / 2 ^ e) := by
    rw [zpow_sub_one₀ (by norm_num), ← div_div, div_inv_eq_mul, mul_comm]
  have hvalue : v / 2 ^ e < 2 ^ 52 := by
    have hquotient := div_two_zpow_lt.mpr hv
    exact_mod_cast hquotient
  have hlower := h.lower
  rw [hquarter] at hlower
  rw [hhalf] at hem
  refine hem.roundedMantissa_eq ?_ ?_ (fun _ => by norm_num) (fun _ => by norm_num)
  · norm_num at hlower ⊢
    linarith
  · norm_num at hvalue ⊢
    linarith

/-- Rounding finds a number from a value that rounds to it. -/
theorem roundWithAccuracy_of_roundsTo (s : Sign) {v : ℚ} {m n : ℕ} {e x : ℤ} {accuracy : Accuracy}
    (hm : HasForm m e) (h : RoundsTo v m e)
    (hn : StandsFor (.ofMantissaAndAccuracy n accuracy) (v / 2 ^ x))
    (hx : x ≤ Format.binary64.targetExponent (totalExponent n x)) :
    roundWithAccuracy Format.binary64 s n x accuracy = .finite s m e hm.1 := by
  obtain ⟨hbelow, habove⟩ := hn.bounds
  obtain ⟨em, hshift, hem⟩ := hn.shiftToExponent hx
  have hfinal : shiftToTargetExponent Format.binary64 em.roundedMantissa
      (Format.binary64.targetExponent (totalExponent n x)) .exact = (⟨m, false, false⟩, e) := by
    rcases h.targetExponent_cases hm hbelow habove hx with hsame | ⟨hless, rfl, hlarge, htop⟩
    · rw [hsame] at hem ⊢
      rw [hem.roundedMantissa_same h]
      exact hm.shiftToTargetExponent
    · rw [hless] at hem ⊢
      rw [hem.roundedMantissa_below h hlarge htop]
      rcases hm.2 with hnormal | ⟨hshort, _⟩
      · exact shiftToTargetExponent_scaled hnormal 1
      · omega
  unfold roundWithAccuracy
  unfold shiftToTargetExponent at hfinal ⊢
  dsimp only at hfinal ⊢
  rw [hshift]
  dsimp only
  rw [hfinal]
  exact dif_neg hm.1.ne'

/-! ## Products and quotients -/

section operations

variable (s₁ s₂ : Sign) {m₁ m₂ m : ℕ} {e₁ e₂ e : ℤ}

/-- A product with enough digits is the number that its exact value rounds to. -/
theorem mul_of_roundsTo (h₁ : 0 < m₁) (h₂ : 0 < m₂) (hm : HasForm m e)
    (h : RoundsTo (m₁ * 2 ^ e₁ * (m₂ * 2 ^ e₂)) m e) (hlong : 2 ^ 52 ≤ m₁ * m₂) :
    UnpackedFloat.mul Format.binary64 (.finite s₁ m₁ e₁ h₁) (.finite s₂ m₂ e₂ h₂) =
      .finite (s₁ * s₂) m e hm.1 := by
  have hvalue : (m₁ * 2 ^ e₁ * (m₂ * 2 ^ e₂) : ℚ) / 2 ^ (e₁ + e₂) = (m₁ * m₂ : ℕ) := by
    rw [div_eq_iff (two_zpow_pos _).ne', zpow_add₀ (by norm_num)]
    push_cast
    ring
  have hlog : 52 ≤ (m₁ * m₂).log2 := (Nat.le_log2 (Nat.mul_pos h₁ h₂).ne').mpr hlong
  refine roundWithAccuracy_of_roundsTo _ hm h (hvalue ▸ standsFor_exact _) ?_
  unfold totalExponent
  rw [targetExponent_eq]
  omega

/-- The quotient that a division computes stands for the exact one, with enough digits to be
rounded. -/
lemma exists_divCore (e₁ e₂ : ℤ) (h₁ : 0 < m₁) (h₂ : 0 < m₂) :
    ∃ n x accuracy, divCore Format.binary64 m₁ e₁ m₂ e₂ = (n, x, accuracy) ∧
      StandsFor (.ofMantissaAndAccuracy n accuracy)
        ((m₁ * 2 ^ e₁ / (m₂ * 2 ^ e₂) : ℚ) / 2 ^ x) ∧
      x ≤ Format.binary64.targetExponent (totalExponent n x) := by
  obtain ⟨x, hx⟩ : ∃ x, min (e₁ - e₂) (Format.binary64.targetExponent
      (totalExponent m₁ e₁ - totalExponent m₂ e₂)) = x := ⟨_, rfl⟩
  obtain ⟨k, hk⟩ : ∃ k : ℕ, e₁ - e₂ - x = k := Int.eq_ofNat_of_zero_le (by omega)
  have hmoved : m₁ <<< (e₁ - e₂ - x).toNat = m₁ * 2 ^ k := by
    rw [Nat.shiftLeft_eq, hk, Int.toNat_natCast]
  have hvalue : (m₁ * 2 ^ e₁ / (m₂ * 2 ^ e₂) : ℚ) / 2 ^ x = ((m₁ * 2 ^ k : ℕ) / m₂ : ℚ) := by
    have hexponent : e₁ = e₂ + x + k := by omega
    rw [hexponent, zpow_add₀ (by norm_num), zpow_add₀ (by norm_num), zpow_natCast]
    push_cast
    have hne := (two_zpow_pos e₂).ne'
    have hne' := (two_zpow_pos x).ne'
    have hne'' : (m₂ : ℚ) ≠ 0 := by exact_mod_cast h₂.ne'
    field_simp
  unfold divCore
  dsimp only
  rw [hx, hmoved]
  refine ⟨_, _, _, rfl, hvalue ▸ standsFor_quotient _ h₂, ?_⟩
  unfold totalExponent at hx ⊢
  rw [targetExponent_eq] at hx ⊢
  by_cases hsmall : x ≤ -1074
  · omega
  · -- the dividend has been moved far enough for a quotient of 53 digits
    have hplaces : m₂.log2 + 53 ≤ m₁.log2 + k := by omega
    have hquotient : 2 ^ 52 ≤ m₁ * 2 ^ k / m₂ := by
      refine (Nat.le_div_iff_mul_le h₂).mpr ?_
      calc 2 ^ 52 * m₂ ≤ 2 ^ 52 * 2 ^ (m₂.log2 + 1) := Nat.mul_le_mul_left _ Nat.lt_log2_self.le
        _ = 2 ^ (m₂.log2 + 53) := by rw [← Nat.pow_add]; congr 1; omega
        _ ≤ 2 ^ (m₁.log2 + k) := Nat.pow_le_pow_right (by decide) hplaces
        _ = 2 ^ m₁.log2 * 2 ^ k := Nat.pow_add ..
        _ ≤ m₁ * 2 ^ k := Nat.mul_le_mul_right _ (Nat.log2_self_le h₁.ne')
    have hlog : 52 ≤ (m₁ * 2 ^ k / m₂).log2 :=
      (Nat.le_log2 (Nat.ne_of_gt (Nat.lt_of_lt_of_le (by decide) hquotient))).mpr hquotient
    omega

/-- A quotient is the number that its exact value rounds to. -/
theorem div_of_roundsTo (h₁ : 0 < m₁) (h₂ : 0 < m₂) (hm : HasForm m e)
    (h : RoundsTo (m₁ * 2 ^ e₁ / (m₂ * 2 ^ e₂)) m e) :
    UnpackedFloat.div Format.binary64 (.finite s₁ m₁ e₁ h₁) (.finite s₂ m₂ e₂ h₂) =
      .finite (s₁ / s₂) m e hm.1 := by
  obtain ⟨n, x, accuracy, hdiv, hn, hx⟩ := exists_divCore e₁ e₂ h₁ h₂
  unfold UnpackedFloat.div
  dsimp only
  rw [hdiv]
  exact roundWithAccuracy_of_roundsTo _ hm h hn hx

end operations

end Binary64

end DesignTokens

import DesignTokens.Schema
import Mathlib.Tactic.Ring

/-!
# Whole floating-point numbers

A document writes a whole floating-point number as an integer, and reads the integer as a
floating-point number again.  This file shows that nothing is lost: a number that
`Exact.ofFloat` finds to be whole is equal to `Float.ofInt` of its value
(`beq_ofInt_of_toInt?`), so that `Json.number` is read back by `Schema.float` for every finite
number (`float_number`).

The arithmetic of floating-point numbers is given by a model in which a number is unpacked into
a sign, a mantissa and an exponent, the result is rounded, and packed again.  A whole number other
than zero has a normal form, a mantissa of exactly 53 binary digits, and all that happens on the way
from the integer is a change of the exponent by some binary places that rounding takes back
(`roundWithAccuracy_scaled`).
-/

namespace DesignTokens

namespace Binary64

open Float.Model Float.Model.UnpackedFloat

/-! ## Normal numbers -/

/-- The binary length of a number that has been moved by some places. -/
lemma log2_mul_two_pow {n : Nat} (hn : n ≠ 0) (k : Nat) : (n * 2 ^ k).log2 = n.log2 + k := by
  induction k with
  | zero => rw [Nat.pow_zero, Nat.mul_one, Nat.add_zero]
  | succ k ih =>
    have hpow : n * 2 ^ (k + 1) = 2 * (n * 2 ^ k) := by ring
    have hne : n * 2 ^ k ≠ 0 := Nat.mul_ne_zero hn (Nat.two_pow_pos k).ne'
    rw [hpow, Nat.log2_two_mul hne, ih]
    rfl

/-- A mantissa of 53 binary digits and an exponent in the range of the format. -/
structure IsNormal (mantissa : Nat) (exponent : Int) : Prop where
  lower : 2 ^ 52 ≤ mantissa
  upper : mantissa < 2 ^ 53
  smallest : -1074 ≤ exponent
  largest : exponent ≤ 971

namespace IsNormal

variable {m : Nat} {e : Int}

/-- The mantissa of a normal number is positive. -/
lemma pos (h : IsNormal m e) : 0 < m :=
  Nat.lt_of_lt_of_le (Nat.two_pow_pos 52) h.lower

/-- The binary length of the mantissa of a normal number. -/
lemma log2_eq (h : IsNormal m e) : m.log2 = 52 :=
  (Nat.log2_eq_iff h.pos.ne').mpr ⟨h.lower, h.upper⟩

end IsNormal

/-! ## Rounding -/

/-- The exponent that a number of some length has in the format. -/
lemma targetExponent_eq (t : Int) :
    Format.binary64.targetExponent t = max (t - 53) (-1074) := rfl

/-- Moving an exact mantissa to the right takes back a move to the left. -/
lemma shiftRight_scaled (m k : Nat) :
    (⟨m * 2 ^ k, false, false⟩ : ExtendedMantissa) >>> k = ⟨m, false, false⟩ := by
  induction k generalizing m with
  | zero =>
    show (⟨m * 2 ^ 0, false, false⟩ : ExtendedMantissa) = ⟨m, false, false⟩
    rw [Nat.pow_zero, Nat.mul_one]
  | succ k ih =>
    have hpow : m * 2 ^ (k + 1) = m * 2 * 2 ^ k := by ring
    show ExtendedMantissa.shiftRightOne
      ((⟨m * 2 ^ (k + 1), false, false⟩ : ExtendedMantissa) >>> k) = _
    rw [hpow, ih (m * 2)]
    unfold ExtendedMantissa.shiftRightOne
    rw [Nat.mul_div_cancel _ (by decide), Nat.mul_mod_left]
    rfl

/-- A normal number whose mantissa has been moved by some places is moved back to its own
exponent. -/
lemma shiftToTargetExponent_scaled {m : Nat} {e : Int} (h : IsNormal m e) (k : Nat) :
    shiftToTargetExponent Format.binary64 (m * 2 ^ k) (e - k) .exact =
      (⟨m, false, false⟩, e) := by
  have htarget : Format.binary64.targetExponent (totalExponent (m * 2 ^ k) (e - k)) = e := by
    have hsmallest := h.smallest
    unfold totalExponent
    rw [targetExponent_eq, log2_mul_two_pow h.pos.ne', h.log2_eq]
    omega
  unfold shiftToTargetExponent
  dsimp only
  rw [htarget]
  unfold shiftToExponent
  have hshift : (e - (e - (k : Int))).toNat = k := by omega
  have hexponent : e - (k : Int) + (k : Int) = e := by omega
  dsimp only
  rw [hshift, hexponent]
  exact Prod.ext (shiftRight_scaled m k) rfl

/-- Rounding takes back a move of the mantissa of a normal number. -/
theorem roundWithAccuracy_scaled (s : Sign) {m : Nat} {e : Int} (h : IsNormal m e) (k : Nat) :
    roundWithAccuracy Format.binary64 s (m * 2 ^ k) (e - k) .exact = .finite s m e h.pos := by
  have hfirst := shiftToTargetExponent_scaled h k
  have hsecond := shiftToTargetExponent_scaled h 0
  rw [Nat.pow_zero, Nat.mul_one, Int.natCast_zero, Int.sub_zero] at hsecond
  unfold roundWithAccuracy
  rw [hfirst]
  dsimp only
  have hrounded : (⟨m, false, false⟩ : ExtendedMantissa).roundedMantissa = m := rfl
  rw [hrounded, hsecond]
  exact dif_neg (Nat.ne_of_gt h.pos)

/-! ## Packing -/

/-- The sign bit of packed components. -/
lemma unpackSign_packComponents {spec : Format} {s : Sign} {exponent : BitVec spec.exponentBits}
    {mantissa : BitVec spec.mantissaBitsWithoutImplicit} :
    unpackSign (packComponents spec s exponent mantissa) = s.toBitVec := by
  ext i hi
  obtain rfl : i = 0 := by omega
  unfold unpackSign packComponents
  simp [BitVec.getLsbD_eq_getElem, BitVec.getLsbD_append, BitVec.getElem_append]

/-- A sign is read back from its bit. -/
lemma sign_ofBitVec_toBitVec (s : Sign) : Sign.ofBitVec s.toBitVec = s := by
  cases s <;> rfl

/-- The leading bit of a mantissa that is packed without it. -/
lemma toNat_leading_append (f : BitVec 52) : (1#1 ++ f).toNat = 2 ^ 52 + f.toNat := by
  rw [BitVec.toNat_append, ← Nat.shiftLeft_add_eq_or_of_lt f.isLt]
  rfl

/-- The mantissa of a normal number is its last 52 digits with the leading one. -/
lemma IsNormal.leading_append {m : Nat} {e : Int} (h : IsNormal m e) :
    (1#1 ++ BitVec.ofNat 52 m).toNat = m := by
  have hlower := h.lower
  have hupper := h.upper
  have hmod : m % 2 ^ 52 = m - 2 ^ 52 := by
    rw [Nat.mod_eq_sub_mod hlower]
    exact Nat.mod_eq_of_lt (by omega)
  rw [toNat_leading_append, BitVec.toNat_ofNat, hmod]
  omega

/-- Packing and unpacking go by the bits of the format. -/
lemma unpack_pack (u : UnpackedFloat) : (Float.Model.pack u).unpack =
    UnpackedFloat.unpack Format.binary64 (UnpackedFloat.pack Format.binary64 u) := rfl

/-- The exponent field of a normal number. -/
lemma IsNormal.field {m : Nat} {e : Int} (h : IsNormal m e) :
    ∃ field : Nat, (field : Int) = e + 1075 ∧ 1 ≤ field ∧ field ≤ 2046 := by
  have hsmallest := h.smallest
  have hlargest := h.largest
  exact ⟨(e + 1075).toNat, by omega, by omega, by omega⟩

/-- The components of a packed normal number. -/
lemma pack_normal (s : Sign) {m : Nat} {e : Int} (h : IsNormal m e) {field : Nat}
    (hfield : (field : Int) = e + 1075) (hlarge : field ≤ 2046) :
    UnpackedFloat.pack Format.binary64 (.finite s m e h.pos) =
      packComponents Format.binary64 s (BitVec.ofNat 11 field) (BitVec.ofNat 52 m) := by
  have hbiased : (e + (Format.binary64.exponentBias : Int) +
      (Format.binary64.mantissaBitsWithoutImplicit : Int)).toNat = field := by
    have hbias : (Format.binary64.exponentBias : Int) = 1023 := rfl
    have hbits : (Format.binary64.mantissaBitsWithoutImplicit : Int) = 52 := rfl
    omega
  have hfits : ¬ 2 ^ Format.binary64.exponentBits ≤ field + 1 := by
    have hpow : 2 ^ Format.binary64.exponentBits = 2048 := rfl
    omega
  unfold UnpackedFloat.pack
  dsimp only
  rw [hbiased, if_neg hfits, if_pos (by rw [h.log2_eq]; rfl)]

/-- The mantissa that is unpacked for a normal number is positive. -/
lemma leading_append_pos {n : Nat} (f : BitVec n) : 0 < (1#1 ++ f).toNat := by
  simp

/-- Components whose exponent is neither all zeros nor all ones are unpacked to a normal number. -/
lemma unpack_packComponents {spec : Format} (s : Sign) {exponent : BitVec spec.exponentBits}
    (hnotOnes : exponent ≠ -1#_) (hnotZero : exponent ≠ 0#_)
    (f : BitVec spec.mantissaBitsWithoutImplicit) :
    UnpackedFloat.unpack spec (packComponents spec s exponent f) =
      .finite s (1#1 ++ f).toNat
        ((exponent.toNat : Int) - (spec.exponentBias + spec.mantissaBitsWithoutImplicit))
        (leading_append_pos f) := by
  unfold UnpackedFloat.unpack
  dsimp only
  rw [unpackExponent_packComponents, if_neg hnotOnes, if_neg hnotZero]
  congr 1
  · rw [unpackSign_packComponents, sign_ofBitVec_toBitVec]
  · rw [unpackMantissa_packComponents]

/-- A normal number is unpacked as it was packed. -/
theorem unpack_pack_normal (s : Sign) {m : Nat} {e : Int} (h : IsNormal m e) :
    (Float.Model.pack (.finite s m e h.pos)).unpack = .finite s m e h.pos := by
  obtain ⟨field, hfield, hsmall, hlarge⟩ := h.field
  have hnat : (BitVec.ofNat 11 field).toNat = field := by
    rw [BitVec.toNat_ofNat, Nat.mod_eq_of_lt (by omega)]
  have hnotOnes : BitVec.ofNat 11 field ≠ -1#11 := by
    intro heq
    have hones : (-1#11 : BitVec 11).toNat = 2047 := by decide
    rw [← heq, hnat] at hones
    omega
  have hnotZero : BitVec.ofNat 11 field ≠ 0#11 := by
    intro heq
    have hzero : (0#11 : BitVec 11).toNat = 0 := by decide
    rw [← heq, hnat] at hzero
    omega
  have hexponent : ((BitVec.ofNat 11 field).toNat : Int) -
      (Format.binary64.exponentBias + Format.binary64.mantissaBitsWithoutImplicit) = e := by
    have hbias : (Format.binary64.exponentBias : Int) = 1023 := rfl
    have hbits : (Format.binary64.mantissaBitsWithoutImplicit : Int) = 52 := rfl
    rw [hnat]
    omega
  rw [unpack_pack, pack_normal s h hfield hlarge,
    @unpack_packComponents Format.binary64 s _ hnotOnes hnotZero _]
  congr 1
  · exact h.leading_append

/-! ## From integers -/

/-- A natural number is the value of a mantissa with an exponent. -/
def IsValue (n mantissa : Nat) (exponent : Int) : Prop :=
  n * 2 ^ (-exponent).toNat = mantissa * 2 ^ exponent.toNat

/-- A natural number from `2 ^ 53` on is a mantissa moved to the left. -/
lemma IsValue.of_large {n m : Nat} {e : Int} (h : IsNormal m e) (hn : IsValue n m e)
    (hlarge : 2 ^ 53 ≤ n) : ∃ k : Nat, e = k ∧ n = m * 2 ^ k := by
  unfold IsValue at hn
  rcases Int.le_total 0 e with hpos | hneg
  · obtain ⟨k, rfl⟩ := Int.eq_ofNat_of_zero_le hpos
    have hzero : (-(k : Int)).toNat = 0 := by omega
    rw [hzero, Nat.pow_zero, Nat.mul_one, Int.toNat_natCast] at hn
    exact ⟨k, rfl, hn⟩
  · have hzero : e.toNat = 0 := by omega
    rw [hzero, Nat.pow_zero, Nat.mul_one] at hn
    have hle : n ≤ n * 2 ^ (-e).toNat := Nat.le_mul_of_pos_right n (Nat.two_pow_pos _)
    have hupper := h.upper
    omega

/-- A natural number below `2 ^ 53` becomes the mantissa when it is moved to the left. -/
lemma IsValue.of_small {n m : Nat} {e : Int} (h : IsNormal m e) (hn : IsValue n m e)
    (hsmall : n < 2 ^ 53) : ∃ k : Nat, e = -(k : Int) ∧ m = n * 2 ^ k := by
  unfold IsValue at hn
  rcases Int.le_total e 0 with hneg | hpos
  · obtain ⟨k, hk⟩ := Int.exists_eq_neg_ofNat hneg
    subst hk
    have hzero : (-(k : Int)).toNat = 0 := by omega
    rw [hzero, Nat.pow_zero, Nat.mul_one, Int.neg_neg, Int.toNat_natCast] at hn
    exact ⟨k, rfl, hn.symm⟩
  · obtain ⟨k, rfl⟩ := Int.eq_ofNat_of_zero_le hpos
    have hzero : (-(k : Int)).toNat = 0 := by omega
    rw [hzero, Nat.pow_zero, Nat.mul_one, Int.toNat_natCast] at hn
    cases k with
    | zero => exact ⟨0, rfl, by rw [hn, Nat.pow_zero, Nat.mul_one, Nat.mul_one]⟩
    | succ k =>
      have hlower := h.lower
      have hle : m * 2 ≤ n := by
        rw [hn, Nat.pow_succ, Nat.mul_comm (2 ^ k) 2, ← Nat.mul_assoc]
        exact Nat.le_mul_of_pos_right _ (Nat.two_pow_pos k)
      omega

/-- A natural number below `2 ^ 53` is rounded to the normal number whose value it is. -/
lemma ofNat_small {n m : Nat} {e : Int} (h : IsNormal m e) (hn : IsValue n m e)
    (hsmall : n < 2 ^ 53) :
    UnpackedFloat.ofNat Format.binary64 n = .finite .positive m e h.pos := by
  obtain ⟨k, rfl, rfl⟩ := hn.of_small h hsmall
  have hpos : 0 < n := Nat.pos_of_mul_pos_right h.pos
  have hlog : n.log2 + k = 52 := by
    rw [← log2_mul_two_pow hpos.ne', h.log2_eq]
  have htarget : Format.binary64.targetExponent (totalExponent n 0) = -(k : Int) := by
    unfold totalExponent
    rw [targetExponent_eq]
    omega
  have hcompare : compare (n : Int) 0 = .gt := Int.compare_eq_gt.mpr (by omega)
  unfold UnpackedFloat.ofNat UnpackedFloat.ofInt UnpackedFloat.normalize
  rw [hcompare]
  show UnpackedFloat.round Format.binary64 .positive n 0 = _
  unfold UnpackedFloat.round decreaseExponent
  dsimp only
  rw [htarget]
  have hshift : (0 - -(k : Int)).toNat = k := by omega
  rw [hshift, Nat.shiftLeft_eq, Int.zero_sub]
  have hround := roundWithAccuracy_scaled .positive h 0
  rwa [Nat.pow_zero, Nat.mul_one, Int.natCast_zero, Int.sub_zero] at hround

/-- The number one. -/
lemma unpack_one : (getElem Float.exactlyRepresentablePowersOfTen 0 (by decide)).toModel.unpack =
    .finite .positive (2 ^ 52) (-52) (by decide) := by
  rfl

/-- The floating-point number of a natural number is the normal number whose value it is. -/
theorem unpack_ofNat {n m : Nat} {e : Int} (h : IsNormal m e) (hn : IsValue n m e) :
    (Float.ofNat n).toModel.unpack = .finite .positive m e h.pos := by
  by_cases hsmall : n < 2 ^ 53
  · have hfloat : Float.ofNat n =
        n.toUInt64.toFloat * getElem Float.exactlyRepresentablePowersOfTen 0 (by decide) := by
      unfold Float.ofNat
      exact dif_pos ⟨hsmall, by decide⟩
    have hnat : n.toUInt64.toNat = n := by
      rw [Nat.toUInt64_eq, UInt64.toNat_ofNat', Nat.mod_eq_of_lt (by omega)]
    have hleft : n.toUInt64.toFloat.toModel.unpack = .finite .positive m e h.pos := by
      show (Float.Model.pack (UnpackedFloat.ofNat Format.binary64 n.toUInt64.toNat)).unpack = _
      rw [hnat, ofNat_small h hn hsmall, unpack_pack_normal .positive h]
    have hround := roundWithAccuracy_scaled .positive h 52
    rw [hfloat]
    show (Float.Model.pack (UnpackedFloat.mul Format.binary64 n.toUInt64.toFloat.toModel.unpack
      (getElem Float.exactlyRepresentablePowersOfTen 0 (by decide)).toModel.unpack)).unpack = _
    rw [hleft, unpack_one]
    show (Float.Model.pack
      (roundWithAccuracy Format.binary64 .positive (m * 2 ^ 52) (e - (52 : Nat)) .exact)).unpack = _
    rw [hround, unpack_pack_normal .positive h]
  · have hfloat : Float.ofNat n = Float.ofModel (Float.Model.ofScientific n (Int.ofNat 0)) := by
      unfold Float.ofNat
      exact dif_neg fun hboth => hsmall hboth.1
    obtain ⟨k, rfl, rfl⟩ := hn.of_large h (Nat.le_of_not_lt hsmall)
    have hne : m * 2 ^ k ≠ 0 := (Nat.mul_pos h.pos (Nat.two_pow_pos k)).ne'
    have hround := roundWithAccuracy_scaled .positive h (k + 53)
    have hmantissa : (m * 2 ^ k) <<< 53 * 10 ^ 0 = m * 2 ^ (k + 53) := by
      rw [Nat.shiftLeft_eq, Nat.pow_zero, Nat.mul_one, Nat.mul_assoc, ← Nat.pow_add]
    have hexponent : -(53 : Int) + 0 = (k : Int) - ((k + 53 : Nat) : Int) := by omega
    have hscientific : UnpackedFloat.ofScientific Format.binary64 (m * 2 ^ k) (Int.ofNat 0) =
        roundWithAccuracy Format.binary64 .positive ((m * 2 ^ k) <<< 53 * 10 ^ 0)
          (-(53 : Int) + 0) .exact := by
      have hpow : (2 : Int) ^ Format.binary64.exponentBits = 2048 := rfl
      have hzero : Int.ofNat 0 = 0 := rfl
      unfold UnpackedFloat.ofScientific
      rw [dif_neg hne, if_neg (by omega), if_neg (by omega), if_pos (by omega)]
      rfl
    rw [hfloat]
    show (Float.Model.pack
      (UnpackedFloat.ofScientific Format.binary64 (m * 2 ^ k) (Int.ofNat 0))).unpack = _
    rw [hscientific, hmantissa, hexponent, hround, unpack_pack_normal .positive h]

/-- The floating-point number of an integer other than zero is the normal number whose value it
is. -/
theorem unpack_ofInt {i : Int} {m : Nat} {e : Int} (h : IsNormal m e)
    (hi : IsValue i.natAbs m e) :
    (Float.ofInt i).toModel.unpack =
      .finite (if i < 0 then .negative else .positive) m e h.pos := by
  cases i with
  | ofNat n =>
    have hsign : ¬ Int.ofNat n < 0 := by simp
    rw [if_neg hsign]
    exact unpack_ofNat h hi
  | negSucc n =>
    rw [if_pos (Int.negSucc_lt_zero n)]
    have habs : (Float.ofNat (n + 1)).toModel.unpack = .finite .positive m e h.pos :=
      unpack_ofNat h hi
    show (Float.Model.pack (UnpackedFloat.neg (Float.ofNat (n + 1)).toModel.unpack)).unpack = _
    rw [habs]
    exact unpack_pack_normal .negative h

/-! ## The exact value of an unpacked number -/

/-- Whether a sign is negative. -/
def isNegative : Sign → Bool
  | .negative => true
  | .positive => false

/-- What an unpacked number denotes. -/
def exact : UnpackedFloat → Exact
  | .infinity s => .infinite (isNegative s)
  | .notANumber => .nan
  | .zero s => .finite (isNegative s) 0 (-1074)
  | .finite s m e _ => .finite (isNegative s) m e

/-- The exponent field of packed bits. -/
lemma toNat_unpackExponent (b : BitVec Format.binary64.numBits) :
    (unpackExponent b).toNat = b.toNat / twoTo 52 % twoTo 11 := by
  unfold unpackExponent
  rw [BitVec.toNat_cast, BitVec.extractLsb_toNat, Nat.shiftRight_eq_div_pow]
  rfl

/-- The fraction of packed bits. -/
lemma toNat_unpackMantissa (b : BitVec Format.binary64.numBits) :
    (unpackMantissa b).toNat = b.toNat % twoTo 52 := by
  unfold unpackMantissa
  rw [BitVec.toNat_cast, BitVec.extractLsb_toNat, Nat.shiftRight_zero]
  rfl

/-- The sign of packed bits. -/
lemma isNegative_unpackSign (b : BitVec Format.binary64.numBits) :
    isNegative (Sign.ofBitVec (unpackSign b)) = decide (twoTo 63 ≤ b.toNat) := by
  have hsign : (unpackSign b).toNat = b.toNat / 2 ^ 63 % 2 := by
    unfold unpackSign
    rw [BitVec.toNat_cast, BitVec.extractLsb_toNat, Nat.shiftRight_eq_div_pow]
    rfl
  have hbits : b.toNat < 2 ^ 64 := b.isLt
  have hpow : twoTo 63 = 2 ^ 63 := rfl
  unfold Sign.ofBitVec
  by_cases hzero : unpackSign b = 0#1
  · have hnat : (unpackSign b).toNat = 0 := by
      rw [hzero]
      rfl
    have hlt : ¬ twoTo 63 ≤ b.toNat := by omega
    rw [if_pos hzero, decide_eq_false hlt]
    rfl
  · have hnat : (unpackSign b).toNat ≠ 0 := fun h => hzero (BitVec.eq_of_toNat_eq h)
    have hge : twoTo 63 ≤ b.toNat := by omega
    rw [if_neg hzero, decide_eq_true hge]
    rfl

/-- A finite number as it is unpacked: it is normal, or it has the smallest exponent of the format
and a mantissa that is too short for a normal one. -/
def IsCanonical : UnpackedFloat → Prop
  | .finite _ m e _ => IsNormal m e ∨ (m < 2 ^ 52 ∧ e = -1074)
  | _ => True

/-- Packed bits are unpacked to a number in canonical form, and the three fields of the bits tell
its exact value. -/
lemma unpack_fields (b : BitVec Format.binary64.numBits) {field fraction : Nat}
    (hfield : (unpackExponent b).toNat = field) (hfraction : (unpackMantissa b).toNat = fraction) :
    IsCanonical (UnpackedFloat.unpack Format.binary64 b) ∧
      exact (UnpackedFloat.unpack Format.binary64 b) =
        (let negative := isNegative (Sign.ofBitVec (unpackSign b))
        if field = 2047 then
          if fraction = 0 then .infinite negative else .nan
        else if field = 0 then .finite negative fraction (-1074)
        else .finite negative (fraction + twoTo 52) ((field : Int) - 1075)) := by
  have hones : (-1#11 : BitVec 11).toNat = 2047 := by decide
  have hfieldBound : field < 2 ^ 11 := hfield ▸ (unpackExponent b).isLt
  have hfractionBound : fraction < 2 ^ 52 := hfraction ▸ (unpackMantissa b).isLt
  have hbias : (Format.binary64.exponentBias : Int) = 1023 := rfl
  have hbits : (Format.binary64.mantissaBitsWithoutImplicit : Int) = 52 := rfl
  unfold UnpackedFloat.unpack
  dsimp only
  by_cases hOnes : unpackExponent b = -1#11
  · have hmax : field = 2047 := by rw [← hfield, hOnes, hones]
    rw [if_pos hOnes, if_pos hmax]
    by_cases hZero : unpackMantissa b = 0#52
    · have hzero : fraction = 0 := by rw [← hfraction, hZero]; rfl
      rw [if_pos hZero, if_pos hzero]
      exact ⟨trivial, rfl⟩
    · have hne : fraction ≠ 0 := fun h => hZero (BitVec.eq_of_toNat_eq (hfraction.trans h))
      rw [if_neg hZero, if_neg hne]
      exact ⟨trivial, rfl⟩
  · have hmax : field ≠ 2047 := fun h =>
      hOnes (BitVec.eq_of_toNat_eq (hfield.trans (h.trans hones.symm)))
    rw [if_neg hOnes, if_neg hmax]
    by_cases hLowest : unpackExponent b = 0#11
    · have hlowest : field = 0 := by rw [← hfield, hLowest]; rfl
      rw [if_pos hLowest, if_pos hlowest]
      by_cases hZero : unpackMantissa b = 0#52
      · have hzero : fraction = 0 := by rw [← hfraction, hZero]; rfl
        rw [dif_pos hZero, hzero]
        exact ⟨trivial, rfl⟩
      · rw [dif_neg hZero]
        refine ⟨Or.inr ⟨?_, ?_⟩, ?_⟩
        · rw [hfraction]
          exact hfractionBound
        · rw [hfield]
          omega
        · show Exact.finite _ _ _ = _
          rw [hfraction, hfield]
          congr 1
          omega
    · have hlowest : field ≠ 0 := fun h => hLowest (BitVec.eq_of_toNat_eq (hfield.trans h))
      have hmantissa : (1#1 ++ unpackMantissa b).toNat = 2 ^ 52 + fraction := by
        rw [toNat_leading_append, hfraction]
      rw [if_neg hLowest, if_neg hlowest]
      refine ⟨Or.inl ⟨?_, ?_, ?_, ?_⟩, ?_⟩
      · rw [hmantissa]
        omega
      · rw [hmantissa]
        omega
      · rw [hfield]
        omega
      · rw [hfield]
        omega
      · show Exact.finite _ _ _ = _
        have hpow : twoTo 52 = 2 ^ 52 := rfl
        rw [hmantissa, hfield, hpow, Nat.add_comm fraction]
        congr 1

/-- A floating-point number is unpacked to canonical form. -/
lemma isCanonical_unpack (x : Float) : IsCanonical x.toModel.unpack :=
  (unpack_fields x.toModel.toBits.toBitVec rfl rfl).1

/-- The exact value of a floating-point number is that of the number unpacked. -/
theorem ofFloat_eq_exact (x : Float) : Exact.ofFloat x = exact x.toModel.unpack := by
  have hfields := (unpack_fields x.toModel.toBits.toBitVec
    (toNat_unpackExponent _) (toNat_unpackMantissa _)).2
  rw [isNegative_unpackSign] at hfields
  exact hfields.symm

/-! ## Whole values -/

/-- A rational number with a denominator of one is the quotient that makes it. -/
lemma num_mul_of_den_eq_one {a : Int} {d : Nat} (hd : d ≠ 0) (h : (mkRat a d).den = 1) :
    a = (mkRat a d).num * d := by
  have hself : mkRat (mkRat a d).num 1 = mkRat a d := by
    have hmk := Rat.mkRat_self (mkRat a d)
    rwa [h] at hmk
  have hcross := (Rat.mkRat_eq_iff (by decide) hd).mp hself
  rw [Int.natCast_one, Int.mul_one] at hcross
  exact hcross.symm

/-- The whole value of a finite number is the quotient of its numerator and its denominator. -/
lemma eq_mul_of_toInt? {negative : Bool} {m : Nat} {e : Int} {n : Int}
    (h : (Exact.finite negative m e).toInt? = some n) :
    (if negative then -(Exact.numerator m e : Int) else Exact.numerator m e) =
      n * Exact.denominator e := by
  have hden : Exact.denominator e ≠ 0 := (Nat.two_pow_pos _).ne'
  have hquotient : (Exact.finite negative m e).toInt? =
      (let r := mkRat (if negative then -(Exact.numerator m e : Int) else Exact.numerator m e)
        (Exact.denominator e)
      if r.den = 1 then some r.num else none) := rfl
  rw [hquotient] at h
  dsimp only at h
  by_cases hone : (mkRat (if negative then -(Exact.numerator m e : Int) else Exact.numerator m e)
      (Exact.denominator e)).den = 1
  · rw [if_pos hone] at h
    have hnum := num_mul_of_den_eq_one hden hone
    rwa [Option.some.inj h] at hnum
  · rw [if_neg hone] at h
    cases h

/-- The whole value of a zero is zero. -/
lemma eq_zero_of_toInt? {negative : Bool} {e : Int} {n : Int}
    (h : (Exact.finite negative 0 e).toInt? = some n) : n = 0 := by
  have hdenominator : (Exact.denominator e : Int) ≠ 0 :=
    Int.natCast_ne_zero.mpr (Nat.two_pow_pos _).ne'
  have hvalue := eq_mul_of_toInt? h
  rw [Exact.numerator, Nat.zero_mul, Int.natCast_zero, Int.neg_zero, ite_self] at hvalue
  exact (Int.mul_eq_zero.mp hvalue.symm).resolve_right hdenominator

/-- A finite number with a whole value has the sign of the value, and its mantissa and exponent have
the magnitude. -/
lemma isValue_of_toInt? {negative : Bool} {m : Nat} {e : Int} {n : Int} (hm : 0 < m)
    (h : (Exact.finite negative m e).toInt? = some n) :
    IsValue n.natAbs m e ∧ (n < 0 ↔ negative = true) := by
  have hvalue := eq_mul_of_toInt? h
  have hdenominator : 0 < Exact.denominator e := Nat.two_pow_pos _
  have hnumerator : 0 < Exact.numerator m e := Nat.mul_pos hm (Nat.two_pow_pos _)
  have habs : n.natAbs * Exact.denominator e = Exact.numerator m e := by
    rw [← Int.natAbs_natCast (Exact.denominator e), ← Int.natAbs_mul, ← hvalue]
    cases negative with
    | false => exact Int.natAbs_natCast _
    | true => exact (Int.natAbs_neg _).trans (Int.natAbs_natCast _)
  refine ⟨habs, ?_⟩
  cases negative with
  | false =>
    have hpos : 0 < n * (Exact.denominator e : Int) := by
      rw [← hvalue]
      exact Int.natCast_pos.mpr hnumerator
    have hn : 0 < n := Int.pos_of_mul_pos_left hpos (Int.natCast_pos.mpr hdenominator)
    exact ⟨fun hneg => absurd hneg (not_lt_of_gt hn), fun hfalse => Bool.noConfusion hfalse⟩
  | true =>
    have hneg : n * (Exact.denominator e : Int) < 0 := by
      rw [← hvalue]
      exact Int.neg_neg_of_pos (Int.natCast_pos.mpr hnumerator)
    exact ⟨fun _ => rfl, fun _ => Int.neg_of_mul_neg_left hneg (Int.natCast_pos.mpr hdenominator)⟩

/-- A short mantissa with a small exponent has no whole value. -/
lemma not_isValue_of_short {n m : Nat} {e : Int} (hm : 0 < m) (hshort : m < 2 ^ 52)
    (he : e ≤ -52) : ¬ IsValue n m e := by
  intro hvalue
  unfold IsValue at hvalue
  have hzero : e.toNat = 0 := by omega
  have hplaces : 2 ^ 52 ≤ 2 ^ (-e).toNat := Nat.pow_le_pow_right (by decide) (by omega)
  rw [hzero, Nat.pow_zero, Nat.mul_one] at hvalue
  rcases Nat.eq_zero_or_pos n with hnone | hpos
  · rw [hnone, Nat.zero_mul] at hvalue
    omega
  · have hle : 2 ^ (-e).toNat ≤ n * 2 ^ (-e).toNat := Nat.le_mul_of_pos_left _ hpos
    omega

/-- An unpacked number that is finite is equal to itself. -/
lemma beq_finite (s : Sign) (m : Nat) (e : Int) (hm : 0 < m) :
    (UnpackedFloat.finite s m e hm).beq (.finite s m e hm) = true := by
  have hexponent : compare e e = .eq := Std.ReflOrd.compare_self
  have hmantissa : compare m m = .eq := Std.ReflOrd.compare_self
  cases s with
  | positive =>
    show (some ((compare e e).then (compare m m)) == some .eq) = true
    rw [hexponent, hmantissa]
    rfl
  | negative =>
    show (some ((compare e e).then (compare m m)).swap == some .eq) = true
    rw [hexponent, hmantissa]
    rfl

/-- A finite floating-point number is equal to itself. -/
theorem beq_self_of_isFiniteNumber {x : Float} (h : isFiniteNumber x = true) : (x == x) = true := by
  unfold isFiniteNumber at h
  rw [ofFloat_eq_exact] at h
  show x.toModel.unpack.beq x.toModel.unpack = true
  cases hx : x.toModel.unpack with
  | infinity s =>
    rw [hx] at h
    exact Bool.noConfusion h
  | notANumber =>
    rw [hx] at h
    exact Bool.noConfusion h
  | zero s => rfl
  | finite s m e hm => exact beq_finite s m e hm

/-- A floating-point number with a whole value is equal to the floating-point number of the value,
which is finite. -/
theorem beq_ofInt_of_toInt? {x : Float} {n : Int} (h : (Exact.ofFloat x).toInt? = some n) :
    (Float.ofInt n == x) = true ∧ (Float.ofInt n).isInf = false := by
  have hcanonical := isCanonical_unpack x
  rw [ofFloat_eq_exact] at h
  show (Float.ofInt n).toModel.unpack.beq x.toModel.unpack = true ∧
    (Float.ofInt n).toModel.unpack.isInf = false
  cases hx : x.toModel.unpack with
  | infinity s =>
    rw [hx] at h
    cases h
  | notANumber =>
    rw [hx] at h
    cases h
  | zero s =>
    rw [hx] at h
    rw [eq_zero_of_toInt? h]
    exact ⟨rfl, rfl⟩
  | finite s m e hm =>
    rw [hx] at h hcanonical
    obtain ⟨hvalue, hsign⟩ := isValue_of_toInt? hm h
    rcases hcanonical with hnormal | ⟨hshort, rfl⟩
    · have hunpack := unpack_ofInt hnormal hvalue
      have hsame : (if n < 0 then Sign.negative else Sign.positive) = s := by
        cases s with
        | positive => exact if_neg (fun hneg => Bool.noConfusion (hsign.mp hneg))
        | negative => exact if_pos (hsign.mpr rfl)
      rw [hunpack, hsame]
      exact ⟨beq_finite s m e hm, rfl⟩
    · exact absurd hvalue (not_isValue_of_short hm hshort (by decide))

end Binary64

/-- A finite number that is written as plain data is read back as an equal number. -/
theorem Schema.float_number {x : Float} (h : isFiniteNumber x = true) :
    ∃ y, Schema.float (Json.number x) = .ok y ∧ (y == x) = true := by
  unfold Json.number
  cases hx : (Exact.ofFloat x).toInt? with
  | none => exact ⟨x, rfl, Binary64.beq_self_of_isFiniteNumber h⟩
  | some n =>
    obtain ⟨hbeq, hfinite⟩ := Binary64.beq_ofInt_of_toInt? hx
    refine ⟨Float.ofInt n, ?_, hbeq⟩
    show (if (Float.ofInt n).isInf then Schema.invalid else .ok (Float.ofInt n)) = _
    rw [hfinite]
    rfl

end DesignTokens

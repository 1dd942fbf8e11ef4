import DesignTokens.Proofs.Decimal.Rounding

/-!
# The number nearest to a decimal

A decimal is read as a product or a quotient of whole numbers, which is rounded.  Whatever the way,
a decimal in the interval of the values that round to a number is read as this number
(`Decimal.toFloat_of_roundsTo`), and the checks that keep powers of ten small never stand against
it.
-/

namespace DesignTokens

namespace Binary64

open Float.Model Float.Model.UnpackedFloat

/-! ## Packing what has been unpacked -/

/-- A bit is read back from its sign. -/
lemma toBitVec_sign_ofBitVec (b : BitVec 1) : (Sign.ofBitVec b).toBitVec = b := by
  unfold Sign.ofBitVec
  by_cases hzero : b = 0#1
  · rw [if_pos hzero, hzero]
    rfl
  · have hone : b = 1#1 := by
      have hlt := b.isLt
      have hne : b.toNat ≠ 0 := fun h => hzero (BitVec.eq_of_toNat_eq h)
      exact BitVec.eq_of_toNat_eq (show b.toNat = 1 by omega)
    rw [if_neg hzero, hone]
    rfl

/-- Bits are put together again from their three fields. -/
lemma packComponents_fields (b : BitVec Format.binary64.numBits) :
    packComponents Format.binary64 (Sign.ofBitVec (unpackSign b)) (unpackExponent b)
      (unpackMantissa b) = b := by
  have hsign : (unpackSign b).toNat = b.toNat / 2 ^ 63 % 2 := by
    unfold unpackSign
    rw [BitVec.toNat_cast, BitVec.extractLsb_toNat, Nat.shiftRight_eq_div_pow]
    rfl
  have hexponent := toNat_unpackExponent b
  have hmantissa := toNat_unpackMantissa b
  have hbits : b.toNat < 2 ^ 64 := b.isLt
  have hfields : (packComponents Format.binary64 (Sign.ofBitVec (unpackSign b)) (unpackExponent b)
      (unpackMantissa b)).toNat =
        ((unpackSign b).toNat * 2 ^ 11 + (unpackExponent b).toNat) * 2 ^ 52 +
          (unpackMantissa b).toNat := by
    unfold packComponents
    rw [toBitVec_sign_ofBitVec, BitVec.toNat_append, BitVec.toNat_append,
      ← Nat.shiftLeft_add_eq_or_of_lt (unpackMantissa b).isLt,
      ← Nat.shiftLeft_add_eq_or_of_lt (unpackExponent b).isLt, Nat.shiftLeft_eq, Nat.shiftLeft_eq]
  refine BitVec.eq_of_toNat_eq ?_
  have hpow : twoTo 52 = 2 ^ 52 := rfl
  have hpow' : twoTo 11 = 2 ^ 11 := rfl
  rw [hfields, hsign, hexponent, hmantissa, hpow, hpow']
  omega

/-- The bits of a short mantissa with the smallest exponent. -/
lemma pack_short (s : Sign) {m : Nat} (hm : 0 < m) (hshort : m < 2 ^ 52) :
    UnpackedFloat.pack Format.binary64 (.finite s m (-1074) hm) =
      packComponents Format.binary64 s 0#11 (BitVec.ofNat 52 m) := by
  have hlog : m.log2 < 52 := (Nat.log2_lt hm.ne').mpr hshort
  have hfits : ¬ 2 ^ Format.binary64.exponentBits ≤ (-1074 + (Format.binary64.exponentBias : Int) +
      (Format.binary64.mantissaBitsWithoutImplicit : Int)).toNat + 1 := by decide
  have hbits : Format.binary64.mantissaBits = 53 := rfl
  unfold UnpackedFloat.pack
  dsimp only
  rw [if_neg hfits, if_neg (by omega)]

/-- Valid bits are packed again as they were unpacked. -/
theorem pack_unpack {b : BitVec Format.binary64.numBits} (hb : Format.binary64.Valid b) :
    UnpackedFloat.pack Format.binary64 (UnpackedFloat.unpack Format.binary64 b) = b := by
  have hfields := packComponents_fields b
  have hcanonical := (unpack_fields b rfl rfl).1
  have hbias : (Format.binary64.exponentBias : Int) = 1023 := rfl
  have hbits : (Format.binary64.mantissaBitsWithoutImplicit : Int) = 52 := rfl
  unfold UnpackedFloat.unpack at hcanonical ⊢
  dsimp only at hcanonical ⊢
  by_cases hones : unpackExponent b = -1#_
  · rw [if_pos hones]
    by_cases hzero : unpackMantissa b = 0#_
    · rw [if_pos hzero]
      rw [hones, hzero] at hfields
      exact hfields
    · rw [if_neg hzero]
      exact (hb.eq_packedNaN hones hzero).symm
  · rw [if_neg hones] at hcanonical ⊢
    by_cases hlowest : unpackExponent b = 0#_
    · rw [if_pos hlowest]
      by_cases hzero : unpackMantissa b = 0#_
      · rw [dif_pos hzero]
        rw [hlowest, hzero] at hfields
        exact hfields
      · have hexponent : ((unpackExponent b).toNat : Int) - ((Format.binary64.exponentBias : Int) +
            Format.binary64.mantissaBitsWithoutImplicit) + 1 = -1074 := by
          rw [hlowest, BitVec.toNat_zero]
          omega
        rw [dif_neg hzero]
        refine (congrArg (fun e => UnpackedFloat.pack _ (.finite _ _ e _)) hexponent).trans ?_
        rw [pack_short _ _ (unpackMantissa b).isLt, BitVec.ofNat_toNat, BitVec.setWidth_eq]
        rw [hlowest] at hfields
        exact hfields
    · rw [if_neg hlowest] at hcanonical ⊢
      have hleading : (1#1 ++ unpackMantissa b).toNat = 2 ^ 52 + (unpackMantissa b).toNat :=
        toNat_leading_append (unpackMantissa b)
      rcases hcanonical with hnormal | ⟨hshort, _⟩
      · have hlast : BitVec.ofNat 52 (1#1 ++ unpackMantissa b).toNat = unpackMantissa b := by
          rw [hleading]
          refine BitVec.eq_of_toNat_eq ?_
          rw [BitVec.toNat_ofNat, Nat.add_mod_left, Nat.mod_eq_of_lt (unpackMantissa b).isLt]
        have hlargest := hnormal.largest
        have hfield : ((unpackExponent b).toNat : Int) = ((unpackExponent b).toNat : Int) -
            ((Format.binary64.exponentBias : Int) +
              Format.binary64.mantissaBitsWithoutImplicit) + 1075 := by omega
        rw [pack_normal _ hnormal hfield (by omega), hlast, BitVec.ofNat_toNat, BitVec.setWidth_eq]
        exact hfields
      · omega

/-- A short mantissa with the smallest exponent is unpacked as it was packed. -/
lemma unpack_pack_short (s : Sign) {m : Nat} (hm : 0 < m) (hshort : m < 2 ^ 52) :
    (Float.Model.pack (.finite s m (-1074) hm)).unpack = .finite s m (-1074) hm := by
  have hbits : (BitVec.ofNat 52 m).toNat = m := by
    rw [BitVec.toNat_ofNat, Nat.mod_eq_of_lt hshort]
  have hnotZero : BitVec.ofNat 52 m ≠ 0#52 := by
    intro hzero
    rw [hzero, BitVec.toNat_zero] at hbits
    omega
  have hnotOnes : (0#11 : BitVec 11) ≠ -1#11 := by decide
  rw [unpack_pack, pack_short s hm hshort]
  unfold UnpackedFloat.unpack
  dsimp only
  rw [unpackExponent_packComponents, unpackSign_packComponents, sign_ofBitVec_toBitVec,
    if_neg hnotOnes, if_pos rfl]
  have hmantissa : unpackMantissa (packComponents Format.binary64 s 0#11 (BitVec.ofNat 52 m)) =
      BitVec.ofNat 52 m := unpackMantissa_packComponents
  rw [dif_neg fun hzero => hnotZero (hmantissa.symm.trans hzero)]
  congr 1
  rw [hmantissa, hbits]

/-- A number in the form of the format is unpacked as it was packed. -/
theorem HasForm.unpack_pack (s : Sign) {m : ℕ} {e : ℤ} (h : HasForm m e) :
    (Float.Model.pack (.finite s m e h.1)).unpack = .finite s m e h.1 := by
  rcases h.2 with hnormal | ⟨hshort, rfl⟩
  · exact unpack_pack_normal s hnormal
  · exact unpack_pack_short s h.1 hshort

/-- Two floating-point numbers that are unpacked to the same are the same. -/
theorem unpack_injective {x y : Float} (h : x.toModel.unpack = y.toModel.unpack) : x = y := by
  obtain ⟨⟨bits, hvalid⟩⟩ := x
  obtain ⟨⟨bits', hvalid'⟩⟩ := y
  have hpacked : bits.toBitVec = bits'.toBitVec := by
    rw [← pack_unpack hvalid, ← pack_unpack hvalid']
    exact congrArg _ h
  have hsame : bits = bits' := UInt64.toBitVec_inj.mp hpacked
  subst hsame
  rfl

/-- A number that equals a finite number other than zero is this number. -/
theorem eq_of_beq_finite {x y : Float} {s : Sign} {m : ℕ} {e : ℤ} {hm : 0 < m}
    (hy : y.toModel.unpack = .finite s m e hm) (h : (x == y) = true) : x = y := by
  have hcompare : (x.toModel.unpack.compare (.finite s m e hm) == some .eq) = true := by
    rw [← hy]
    exact h
  refine unpack_injective ?_
  rw [hy]
  cases hx : x.toModel.unpack with
  | notANumber =>
    rw [hx] at hcompare
    cases hcompare
  | infinity sign | zero sign =>
    rw [hx] at hcompare
    cases sign <;> cases s <;> cases hcompare
  | finite sign m' e' hm' =>
    rw [hx] at hcompare
    -- Numbers of one sign go by the exponent first and then by the mantissa.
    have hsame : sign = s ∧ ((compare e' e).then (compare m' m)) = .eq := by
      cases sign <;> cases s
      case negative.negative =>
        exact ⟨rfl, Ordering.swap_eq_eq.mp (Option.some.inj (eq_of_beq hcompare))⟩
      case positive.positive => exact ⟨rfl, Option.some.inj (eq_of_beq hcompare)⟩
      all_goals cases hcompare
    obtain ⟨rfl, hthen⟩ := hsame
    obtain ⟨hexponent, hmantissa⟩ := Ordering.then_eq_eq.mp hthen
    cases compare_eq_iff_eq.mp hexponent
    cases compare_eq_iff_eq.mp hmantissa
    rfl

/-- A packed number is the floating-point number that is unpacked to it. -/
lemma ofModel_pack {x : Float} {u : UnpackedFloat} (h : x.toModel.unpack = u) :
    Float.ofModel (Float.Model.pack u) = x := by
  obtain ⟨⟨bits, hvalid⟩⟩ := x
  subst h
  have hpacked := pack_unpack hvalid
  unfold Float.Model.pack
  congr

/-! ## Whole numbers and powers of ten -/

/-- The value of a mantissa with an exponent is a natural number. -/
lemma IsValue.cast {n m : ℕ} {e : ℤ} (h : IsValue n m e) : (m * 2 ^ e : ℚ) = n := by
  unfold IsValue at h
  have hexponent : e = (e.toNat : ℤ) - ((-e).toNat : ℤ) := by omega
  have hcast : (n * 2 ^ (-e).toNat : ℚ) = m * 2 ^ e.toNat := by exact_mod_cast h
  rw [hexponent, zpow_sub₀ (by norm_num), zpow_natCast, zpow_natCast, ← mul_div_assoc, ← hcast]
  exact mul_div_cancel_right₀ _ (by positivity)

/-- An unpacked number is positive and has a mantissa of 53 digits and a given whole value. -/
def IsWhole (n : ℕ) : UnpackedFloat → Prop
  | .finite .positive m e _ => 2 ^ 52 ≤ m ∧ IsValue n m e
  | _ => False

/-- Whether an unpacked number has a given whole value is decided by integer arithmetic. -/
instance (n : ℕ) (u : UnpackedFloat) : Decidable (IsWhole n u) :=
  match u with
  | .finite .positive _ _ _ => inferInstanceAs (Decidable (_ ∧ _ = _))
  | .finite .negative _ _ _ => isFalse id
  | .infinity _ => isFalse id
  | .notANumber => isFalse id
  | .zero _ => isFalse id

/-- The mantissa and the exponent of a number with a whole value. -/
lemma IsWhole.exists {n : ℕ} {u : UnpackedFloat} (h : IsWhole n u) :
    ∃ (m : ℕ) (e : ℤ) (hm : 0 < m), u = .finite .positive m e hm ∧ 2 ^ 52 ≤ m ∧
      (m * 2 ^ e : ℚ) = n := by
  match u with
  | .finite .positive m e hm => exact ⟨m, e, hm, rfl, h.1, h.2.cast⟩

/-- A whole number of at most 53 digits has a normal form. -/
lemma exists_isValue {n : ℕ} (hn : 0 < n) (hsmall : n < 2 ^ 53) :
    ∃ m e, IsNormal m e ∧ IsValue n m e := by
  obtain ⟨k, hk⟩ : ∃ k, n.log2 + k = 52 :=
    Nat.le.dest (Nat.le_of_lt_succ ((Nat.log2_lt hn.ne').mpr hsmall))
  refine ⟨n * 2 ^ k, -(k : ℤ), ⟨?_, ?_, by omega, by omega⟩, ?_⟩
  · calc 2 ^ 52 = 2 ^ n.log2 * 2 ^ k := by rw [← Nat.pow_add, hk]
      _ ≤ n * 2 ^ k := Nat.mul_le_mul_right _ (Nat.log2_self_le hn.ne')
  · have hupper : n < 2 ^ (n.log2 + 1) := Nat.lt_log2_self
    calc n * 2 ^ k < 2 ^ (n.log2 + 1) * 2 ^ k :=
        Nat.mul_lt_mul_of_pos_right hupper (Nat.two_pow_pos k)
      _ = 2 ^ 53 := by rw [← Nat.pow_add]; congr 1; omega
  · unfold IsValue
    have hzero : (-(k : ℤ)).toNat = 0 := by omega
    rw [hzero, neg_neg, Int.toNat_natCast, Nat.pow_zero, Nat.mul_one]

/-- A whole number of at most 53 digits is converted exactly. -/
lemma isWhole_toFloat {n : ℕ} (hn : 0 < n) (hsmall : n < 2 ^ 53) :
    IsWhole n n.toUInt64.toFloat.toModel.unpack := by
  obtain ⟨m, e, hnormal, hvalue⟩ := exists_isValue hn hsmall
  have hnat : n.toUInt64.toNat = n := by
    rw [Nat.toUInt64_eq, UInt64.toNat_ofNat', Nat.mod_eq_of_lt (by omega)]
  show IsWhole n (Float.Model.pack (UnpackedFloat.ofNat Format.binary64 n.toUInt64.toNat)).unpack
  rw [hnat, ofNat_small hnormal hvalue hsmall, unpack_pack_normal .positive hnormal]
  exact ⟨hnormal.lower, hvalue⟩

/-- The table of powers of ten has their exact values. -/
lemma isWhole_powers : ∀ k : Fin 23, IsWhole (10 ^ k.val)
    (getElem Float.exactlyRepresentablePowersOfTen k.val k.isLt).toModel.unpack := by
  decide

/-! ## Decimals -/

section decimals

variable {d k : ℕ}

/-- The product that is computed for a whole number times a power of ten: its exact value is the
decimal, and it has enough digits to be rounded. -/
lemma exists_ofScientific_mul (hd : 0 < d) (hk : k ≤ 2048) :
    ∃ (m₁ m₂ : ℕ) (e₁ e₂ : ℤ) (h₁ : 0 < m₁) (h₂ : 0 < m₂),
      Float.ofScientific d false k = Float.ofModel (Float.Model.pack
        (UnpackedFloat.mul Format.binary64 (.finite .positive m₁ e₁ h₁)
          (.finite .positive m₂ e₂ h₂))) ∧
      (m₁ * 2 ^ e₁ * (m₂ * 2 ^ e₂) : ℚ) = d * 10 ^ k ∧ 2 ^ 52 ≤ m₁ * m₂ := by
  by_cases hfast : d < 2 ^ 53 ∧ k ≤ 22
  · have hfloat : Float.ofScientific d false k = d.toUInt64.toFloat *
        getElem Float.exactlyRepresentablePowersOfTen k (Nat.lt_succ_of_le hfast.2) :=
      dif_pos hfast
    obtain ⟨m₁, e₁, h₁, hleft, hlong, hvalue⟩ := (isWhole_toFloat hd hfast.1).exists
    obtain ⟨m₂, e₂, h₂, hright, _, hpower⟩ :=
      (isWhole_powers ⟨k, Nat.lt_succ_of_le hfast.2⟩).exists
    refine ⟨m₁, m₂, e₁, e₂, h₁, h₂, ?_, ?_, hlong.trans (Nat.le_mul_of_pos_right _ h₂)⟩
    · rw [hfloat, ← hleft, ← hright]
      rfl
    · rw [hvalue, hpower, Nat.cast_pow, Nat.cast_ofNat]
  · have hfloat : Float.ofScientific d false k = Float.ofModel (Float.Model.ofScientific d k) :=
      dif_neg hfast
    have hbits : (2 : ℤ) ^ Format.binary64.exponentBits = 2048 := rfl
    have hpow : 0 < 10 ^ k := Nat.pow_pos (by decide)
    have hmoved : d <<< Format.binary64.mantissaBits = d * 2 ^ 53 := Nat.shiftLeft_eq ..
    refine ⟨d <<< Format.binary64.mantissaBits, 10 ^ k, -Format.binary64.mantissaBits, 0,
      by rw [hmoved]; positivity, hpow, ?_, ?_, ?_⟩
    · rw [hfloat]
      unfold Float.Model.ofScientific UnpackedFloat.ofScientific
      rw [dif_neg hd.ne', if_neg (by omega), if_neg (by omega), if_pos (by omega)]
      rfl
    · have hone : (9007199254740992 * 2 ^ (-(53 : ℤ)) : ℚ) = 1 := by norm_num
      rw [hmoved]
      show ((d * 2 ^ 53 : ℕ) * 2 ^ (-(53 : ℤ)) * ((10 ^ k : ℕ) * 2 ^ (0 : ℤ)) : ℚ) = _
      push_cast
      rw [mul_assoc (d : ℚ), hone, mul_one, mul_one]
    · rw [hmoved]
      calc 2 ^ 52 ≤ d * 2 ^ 53 := by omega
        _ ≤ d * 2 ^ 53 * 10 ^ k := Nat.le_mul_of_pos_right _ hpow

/-- The quotient that is computed for a whole number divided by a power of ten: its exact value is
the decimal. -/
lemma exists_ofScientific_div (hd : 0 < d) (hk : 0 < k) (hbound : k ≤ 2048 + d.log2) :
    ∃ (m₁ m₂ : ℕ) (e₁ e₂ : ℤ) (h₁ : 0 < m₁) (h₂ : 0 < m₂),
      Float.ofScientific d true k = Float.ofModel (Float.Model.pack
        (UnpackedFloat.div Format.binary64 (.finite .positive m₁ e₁ h₁)
          (.finite .positive m₂ e₂ h₂))) ∧
      (m₁ * 2 ^ e₁ / (m₂ * 2 ^ e₂) : ℚ) = d / 10 ^ k := by
  by_cases hfast : d < 2 ^ 53 ∧ k ≤ 22
  · have hfloat : Float.ofScientific d true k = d.toUInt64.toFloat /
        getElem Float.exactlyRepresentablePowersOfTen k (Nat.lt_succ_of_le hfast.2) :=
      dif_pos hfast
    obtain ⟨m₁, e₁, h₁, hleft, _, hvalue⟩ := (isWhole_toFloat hd hfast.1).exists
    obtain ⟨m₂, e₂, h₂, hright, _, hpower⟩ :=
      (isWhole_powers ⟨k, Nat.lt_succ_of_le hfast.2⟩).exists
    refine ⟨m₁, m₂, e₁, e₂, h₁, h₂, ?_, ?_⟩
    · rw [hfloat, ← hleft, ← hright]
      rfl
    · rw [hvalue, hpower, Nat.cast_pow, Nat.cast_ofNat]
  · have hfloat : Float.ofScientific d true k =
        Float.ofModel (Float.Model.ofScientific d (Int.negOfNat k)) := dif_neg hfast
    have hneg : Int.negOfNat k = -(k : ℤ) := Int.negOfNat_eq
    have hbits : (2 : ℤ) ^ Format.binary64.exponentBits = 2048 := rfl
    have hplaces : (- -(k : ℤ)).toNat = k := by omega
    refine ⟨d, 10 ^ (- -(k : ℤ)).toNat, 0, 0, hd, Nat.pow_pos (by decide), ?_, ?_⟩
    · rw [hfloat, hneg]
      unfold Float.Model.ofScientific UnpackedFloat.ofScientific
      rw [dif_neg hd.ne', if_neg (by omega), if_neg (by omega), if_neg (by omega)]
    · rw [hplaces, zpow_zero, mul_one, mul_one, Nat.cast_pow, Nat.cast_ofNat]

end decimals

end Binary64

namespace Decimal

open Binary64 Float.Model Float.Model.UnpackedFloat

/-! ## Lengths of numerals -/

/-- A number is below the power of ten of its number of digits. -/
lemma lt_pow_length (n : ℕ) : n < 10 ^ (digitsOf n).length :=
  (Nat.length_toDigits_le_iff (by decide) Nat.length_toDigits_pos).mp (Nat.le_refl _)

/-- A positive number is at least the power of ten of its first digit. -/
lemma pow_length_le {n : ℕ} (hn : 0 < n) : 10 ^ ((digitsOf n).length - 1) ≤ n := by
  have hpos : 0 < (digitsOf n).length := Nat.length_toDigits_pos
  rcases Nat.eq_zero_or_pos ((digitsOf n).length - 1) with hone | hmore
  · rw [hone]
    exact hn
  · refine Nat.le_of_not_lt fun hlt => ?_
    have hle : (digitsOf n).length ≤ (digitsOf n).length - 1 :=
      (Nat.length_toDigits_le_iff (by decide) hmore).mpr hlt
    omega

/-- The first digit of a decimal has a power of ten that is at most its value. -/
lemma pow_leading_le {d : ℕ} {p : ℤ} (hd : 0 < d) :
    (10 : ℚ) ^ ((digitsOf d).length - 1 + p) ≤ d * 10 ^ p := by
  have hpos : 0 < (digitsOf d).length := Nat.length_toDigits_pos
  have hexponent : ((digitsOf d).length - 1 + p : ℤ) = ((digitsOf d).length - 1 : ℕ) + p := by omega
  rw [hexponent, zpow_add₀ (by norm_num), zpow_natCast]
  refine mul_le_mul_of_nonneg_right ?_ (zpow_nonneg (by norm_num) p)
  exact_mod_cast pow_length_le hd

/-- A decimal is below the power of ten before its first digit. -/
lemma lt_pow_leading (d : ℕ) (p : ℤ) : (d * 10 ^ p : ℚ) < 10 ^ ((digitsOf d).length + p) := by
  rw [zpow_add₀ (by norm_num), zpow_natCast]
  refine mul_lt_mul_of_pos_right ?_ (zpow_pos (by norm_num) p)
  exact_mod_cast lt_pow_length d

/-- Powers of ten are compared by their exponents. -/
lemma lt_of_ten_zpow_lt {a b : ℤ} (h : (10 : ℚ) ^ a < 10 ^ b) : a < b :=
  (zpow_lt_zpow_iff_right₀ (by norm_num)).mp h

/-! ## Reading a decimal -/

/-- A decimal that rounds to a number other than zero is not zero. -/
lemma digits_pos_of_roundsTo {d m : ℕ} {p e : ℤ} (hm : HasForm m e)
    (h : RoundsTo (d * 10 ^ p) m e) : 0 < d := by
  refine Nat.pos_of_ne_zero fun hzero => ?_
  have hone : (1 : ℚ) ≤ m := by exact_mod_cast hm.1
  have hquarters := RoundsTo.quartersBelow_le m e
  have hlower := h.lower
  rw [hzero, Nat.cast_zero, zero_mul, zero_div] at hlower
  linarith

/-- A decimal that rounds to a number has its first digit in the range of the format. -/
lemma leading_bounds {d m : ℕ} {p e : ℤ} (hm : HasForm m e) (h : RoundsTo (d * 10 ^ p) m e) :
    -324 < (digitsOf d).length + p ∧ (digitsOf d).length + p ≤ 309 := by
  have hd := digits_pos_of_roundsTo hm h
  constructor
  · have hsmallest : (2 : ℚ) ^ (-1075 : ℤ) ≤ d * 10 ^ p := by
      have hone : (1 : ℚ) ≤ m := by exact_mod_cast hm.1
      have hquarters := RoundsTo.quartersBelow_le m e
      have hlower := h.lower
      have hhalf : (2 : ℚ) ^ (-1 : ℤ) ≤ d * 10 ^ p / 2 ^ e := by
        norm_num
        linarith
      refine le_trans (zpow_le_zpow_right₀ (by norm_num) ?_) (two_zpow_le_div.mp hhalf)
      have hsmall := hm.smallest
      omega
    have hten : (10 : ℚ) ^ (-324 : ℤ) < 2 ^ (-1075 : ℤ) := by
      have hpowers : 2 ^ 1075 < 10 ^ 324 := by decide +kernel
      rw [zpow_neg, zpow_neg, inv_lt_inv₀ (by positivity) (by positivity), zpow_ofNat, zpow_ofNat]
      exact_mod_cast hpowers
    exact lt_of_ten_zpow_lt (hten.trans_le (hsmallest.trans_lt (lt_pow_leading d p)).le)
  · have hlargest : (d * 10 ^ p : ℚ) < 2 ^ (1024 : ℤ) := by
      refine (h.lt_top hm).trans_le (zpow_le_zpow_right₀ (by norm_num) ?_)
      rcases hm.2 with hnormal | ⟨_, rfl⟩
      · have hlarge := hnormal.largest
        omega
      · omega
    have hten : (2 : ℚ) ^ (1024 : ℤ) < 10 ^ (309 : ℤ) := by
      have hpowers : 2 ^ 1024 < 10 ^ 309 := by decide +kernel
      rw [zpow_ofNat, zpow_ofNat]
      exact_mod_cast hpowers
    have hlt := lt_of_ten_zpow_lt ((pow_leading_le (p := p) hd).trans_lt (hlargest.trans hten))
    omega

/-- A decimal number has at most as many digits as a binary one. -/
lemma length_le_log2 {d : ℕ} (hd : 0 < d) : (digitsOf d).length ≤ d.log2 + 1 := by
  have hpow : 2 ^ ((digitsOf d).length - 1) ≤ d :=
    (Nat.pow_le_pow_left (by decide) _).trans (pow_length_le hd)
  have hlog := (Nat.le_log2 hd.ne').mpr hpow
  omega

/-- The number that a decimal is read as.  Far out of the range of the format it is zero or
infinite; otherwise a product or a quotient is computed whose exact value is the decimal. -/
inductive Reading (d : ℕ) (p : ℤ) : Float → Prop
  | zero : d = 0 ∨ (digitsOf d).length + p < -330 → Reading d p 0.0
  | infinite : 0 < d → 310 < (digitsOf d).length + p → Reading d p (1.0 / 0.0)
  | product {m₁ m₂ : ℕ} {e₁ e₂ : ℤ} (h₁ : 0 < m₁) (h₂ : 0 < m₂) :
      (m₁ * 2 ^ e₁ * (m₂ * 2 ^ e₂) : ℚ) = d * 10 ^ p → 2 ^ 52 ≤ m₁ * m₂ →
      Reading d p (Float.ofModel (Float.Model.pack (UnpackedFloat.mul Format.binary64
        (.finite .positive m₁ e₁ h₁) (.finite .positive m₂ e₂ h₂))))
  | quotient {m₁ m₂ : ℕ} {e₁ e₂ : ℤ} (h₁ : 0 < m₁) (h₂ : 0 < m₂) :
      (m₁ * 2 ^ e₁ / (m₂ * 2 ^ e₂) : ℚ) = d * 10 ^ p →
      Reading d p (Float.ofModel (Float.Model.pack (UnpackedFloat.div Format.binary64
        (.finite .positive m₁ e₁ h₁) (.finite .positive m₂ e₂ h₂))))

/-- Every decimal is read in one of these ways. -/
theorem reading_toFloat (d : ℕ) (p : ℤ) : Reading d p (toFloat d p) := by
  unfold toFloat
  dsimp only
  split_ifs with hzero hlarge hsmall
  · exact .zero (Or.inl hzero)
  · exact .infinite (Nat.pos_of_ne_zero hzero) hlarge
  · exact .zero (Or.inr hsmall)
  · have hd := Nat.pos_of_ne_zero hzero
    have hlength : 0 < (digitsOf d).length := Nat.length_toDigits_pos
    have hlog := length_le_log2 hd
    by_cases hneg : p < 0
    · have hpower : (10 : ℚ) ^ p = (10 ^ p.natAbs)⁻¹ := by
        have hp : p = -(p.natAbs : ℤ) := by omega
        conv_lhs => rw [hp, zpow_neg, zpow_natCast]
      obtain ⟨m₁, m₂, e₁, e₂, h₁, h₂, hfloat, hvalue⟩ :=
        exists_ofScientific_div (k := p.natAbs) hd (by omega) (by omega)
      rw [decide_eq_true hneg, hfloat]
      exact .quotient h₁ h₂ (by rw [hvalue, hpower, div_eq_mul_inv])
    · have hpower : (10 : ℚ) ^ p = 10 ^ p.natAbs := by
        have hp : p = (p.natAbs : ℤ) := by omega
        conv_lhs => rw [hp, zpow_natCast]
      obtain ⟨m₁, m₂, e₁, e₂, h₁, h₂, hfloat, hvalue, hlong⟩ :=
        exists_ofScientific_mul (k := p.natAbs) hd (by omega)
      rw [decide_eq_false hneg, hfloat]
      exact .product h₁ h₂ (by rw [hvalue, hpower]) hlong

/-- A decimal that rounds to a number is read as this number. -/
theorem toFloat_of_roundsTo {x : Float} {d m : ℕ} {p e : ℤ} (hm : HasForm m e)
    (hx : x.toModel.unpack = .finite .positive m e hm.1) (h : RoundsTo (d * 10 ^ p) m e) :
    toFloat d p = x := by
  have hd := digits_pos_of_roundsTo hm h
  obtain ⟨hlower, hupper⟩ := leading_bounds hm h
  have hreading := reading_toFloat d p
  generalize toFloat d p = y at hreading ⊢
  cases hreading with
  | zero hzero => omega
  | infinite _ hlarge => omega
  | product h₁ h₂ hvalue hlong =>
    have hmul := mul_of_roundsTo .positive .positive h₁ h₂ hm (hvalue ▸ h) hlong
    exact ofModel_pack (hx.trans hmul.symm)
  | quotient h₁ h₂ hvalue =>
    have hdiv := div_of_roundsTo .positive .positive h₁ h₂ hm (hvalue ▸ h)
    exact ofModel_pack (hx.trans hdiv.symm)

end Decimal

end DesignTokens

import DesignTokens.Number
import DesignTokens.Proofs.Color.Forms
import DesignTokens.Proofs.Decimal.FixedPlaces
import DesignTokens.Proofs.Json.Scalars
import Mathlib.Algebra.Order.Floor.Semifield
import Mathlib.Data.Rat.Floor

/-!
# Numbers with decimal places

A number is printed as a decimal of its rounded value, without zeros at the end of the fraction and
without a point that nothing follows (`TrimmedDecimal`).  Zeros before the point are kept, as they
are never trimmed; decimal places beyond the last binary place are zeros, so that they may be left
out before rounding.  Numbers of places beyond a fixed bound are refused, and digits are lost where
the places and the digits in front of the point exceed it together, but both only where the number
is not whole (`Number.rounded_prints`).
-/

namespace DesignTokens

open Decimal (digitsOf natOfDigits signed Numeral IsRoundedTo placePoint roundDiv dropTrailingZeros)

/-- A decimal whose fraction has no zero at its end. -/
structure TrimmedDecimal where
  negative : Bool
  /-- What stands before the point. -/
  integer : ℕ
  fraction : List Char
  isDigit_fraction : ∀ c ∈ fraction, c.isDigit = true
  trimmed : fraction.getLast? ≠ some '0'

namespace TrimmedDecimal

/-- The digits, with a point if there is a fraction. -/
def magnitude (n : TrimmedDecimal) : List Char :=
  digitsOf n.integer ++ if n.fraction = [] then [] else '.' :: n.fraction

/-- The text of the decimal. -/
def text (n : TrimmedDecimal) : String :=
  String.ofList (signed n.negative n.magnitude)

/-- The parts of the decimal as they are read. -/
def numeral (n : TrimmedDecimal) : Numeral :=
  ⟨digitsOf n.integer, n.fraction, 0⟩

/-- The value without the sign. -/
def absValue (n : TrimmedDecimal) : ℚ :=
  n.numeral.digits * 10 ^ n.numeral.power

/-- The value of the decimal. -/
def value (n : TrimmedDecimal) : ℚ :=
  if n.negative then -n.absValue else n.absValue

variable (n : TrimmedDecimal)

/-- The digits are read as the parts of the decimal. -/
lemma ofChars?_magnitude : Numeral.ofChars? n.magnitude = some n.numeral := by
  have hne : digitsOf n.integer ≠ [] := Nat.toDigits_ne_nil
  have hwhole : ∀ c ∈ digitsOf n.integer, Text.isDecimal c = true :=
    fun _ => Decimal.isDecimal_of_mem_digitsOf
  unfold magnitude numeral
  split_ifs with hnone
  · rw [List.append_nil, hnone]
    exact ColorText.ofChars?_whole ⟨hne, hwhole⟩
  · exact ColorText.ofChars?_point hwhole
      (fun c hc => Text.isDecimal_of_isDigit (n.isDigit_fraction c hc)) (Or.inl hne)

lemma absValue_eq : n.absValue =
    natOfDigits (digitsOf n.integer ++ n.fraction) / 10 ^ n.fraction.length := by
  have hpower : n.numeral.power = -(n.fraction.length : ℤ) := zero_sub _
  unfold absValue
  rw [hpower, zpow_neg, zpow_natCast, ← div_eq_mul_inv]
  rfl

/-- What stands before the point is the integer part of the value. -/
lemma integer_eq : (n.integer : ℤ) = ⌊|n.value|⌋ := by
  have hpow : (0 : ℚ) < 10 ^ n.fraction.length := by positivity
  have hless : (natOfDigits n.fraction : ℚ) < 10 ^ n.fraction.length := by
    exact_mod_cast Decimal.natOfDigits_lt n.isDigit_fraction
  have hsplit : n.absValue = n.integer + natOfDigits n.fraction / 10 ^ n.fraction.length := by
    rw [absValue_eq, Decimal.natOfDigits_append, Decimal.natOfDigits_digitsOf]
    push_cast
    field_simp
  have hnonneg : 0 ≤ n.absValue := by
    rw [hsplit]
    positivity
  have habs : |n.value| = n.absValue := by
    unfold value
    split_ifs
    · rw [abs_neg, abs_of_nonneg hnonneg]
    · exact abs_of_nonneg hnonneg
  rw [habs, hsplit, eq_comm, Int.floor_eq_iff]
  push_cast
  refine ⟨le_add_of_nonneg_right (by positivity), ?_⟩
  rw [add_lt_add_iff_left, div_lt_one hpow]
  exact hless

/-- No point stands at the end. -/
lemma getLast?_text_ne : n.text.toList.getLast? ≠ some '.' := by
  have hdigit : ∀ {cs : List Char}, (∀ c ∈ cs, c.isDigit = true) → cs.getLast? ≠ some '.' :=
    fun h hlast => absurd (h _ (List.mem_of_getLast? hlast)) (by decide)
  have hmagnitude : n.magnitude.getLast? ≠ some '.' ∧ n.magnitude ≠ [] := by
    unfold magnitude
    split_ifs with hnone
    · rw [List.append_nil]
      exact ⟨hdigit fun _ => Decimal.isDigit_of_mem_digitsOf, Nat.toDigits_ne_nil⟩
    · rw [List.append_cons, List.getLast?_append_of_ne_nil _ hnone]
      exact ⟨hdigit n.isDigit_fraction, by simp⟩
  unfold text signed
  rw [String.toList_ofList]
  split_ifs
  · rw [← List.singleton_append, List.getLast?_append_of_ne_nil _ hmagnitude.2]
    exact hmagnitude.1
  · exact hmagnitude.1

/-- The decimal of a whole number. -/
def ofInt (k : ℤ) : TrimmedDecimal :=
  ⟨decide (k < 0), k.natAbs, [], nofun, nofun⟩

lemma text_ofInt (k : ℤ) : (ofInt k).text = toString k := by
  have hmagnitude : (ofInt k).magnitude = digitsOf k.natAbs := List.append_nil _
  apply String.toList_injective
  unfold text
  rw [Json.toList_toString_int, String.toList_ofList, hmagnitude]
  rfl

lemma value_ofInt (k : ℤ) : (ofInt k).value = k := by
  have hvalue : (ofInt k).absValue = k.natAbs := by
    rw [absValue_eq]
    show ((natOfDigits (digitsOf k.natAbs ++ []) : ℚ) / 10 ^ 0) = _
    rw [List.append_nil, Decimal.natOfDigits_digitsOf, pow_zero, div_one]
  have hsign : (ofInt k).negative = true ↔ k < 0 := decide_eq_true_iff
  unfold value
  rw [hvalue, Nat.cast_natAbs]
  split_ifs with hneg
  · rw [abs_of_neg (hsign.mp hneg), Int.cast_neg, neg_neg]
  · rw [abs_of_nonneg (not_lt.mp (mt hsign.mpr hneg))]

end TrimmedDecimal

namespace Number

/-! ## Trimming -/

/-- The zeros at the end of a fraction are taken away, and the point as well if nothing is left. -/
lemma trimFraction_point (whole : List Char) {fraction : List Char}
    (hfraction : ∀ c ∈ fraction, c.isDigit = true) :
    trimFraction (whole ++ '.' :: fraction) =
      whole ++ if dropTrailingZeros fraction = [] then []
        else '.' :: dropTrailingZeros fraction := by
  unfold trimFraction dropTrailingZeros
  dsimp only
  rw [List.reverse_append, List.reverse_cons, List.append_assoc, List.singleton_append,
    List.dropWhile_append]
  cases hkept : fraction.reverse.dropWhile (· == '0') with
  | nil => simp
  | cons c rest =>
    have hmem : c ∈ fraction := List.mem_reverse.mp
      ((List.dropWhile_sublist _).subset (hkept ▸ List.mem_cons_self))
    have hpoint : c ≠ '.' := fun heq => absurd (heq ▸ hfraction c hmem) (by decide)
    simp [hpoint]

/-- A number with a point before the last of its digits, trimmed where there is a point. -/
lemma exists_trimmedDecimal (negative : Bool) (places r : ℕ) :
    ∃ n : TrimmedDecimal, n.negative = negative ∧ n.absValue = r / 10 ^ places ∧
      (if places = 0 then placePoint places (digitsOf r)
        else trimFraction (placePoint places (digitsOf r))) = n.magnitude := by
  split_ifs with hplaces
  · subst hplaces
    refine ⟨⟨negative, r, [], nofun, nofun⟩, rfl, ?_, ?_⟩
    · rw [TrimmedDecimal.absValue_eq]
      show ((natOfDigits (digitsOf r ++ []) : ℚ) / 10 ^ 0) = _
      rw [List.append_nil, Decimal.natOfDigits_digitsOf]
    · rw [Decimal.placePoint_zero]
      exact (List.append_nil _).symm
  · obtain ⟨fraction, htext, hdigits, hlength, hvalue⟩ := Decimal.exists_placePoint hplaces r
    have hkept : ∀ c ∈ dropTrailingZeros fraction, c.isDigit = true := fun c hc =>
      hdigits c (Decimal.dropTrailingZeros_subset fraction hc)
    refine ⟨⟨negative, r / 10 ^ places, _, hkept, Decimal.getLast?_dropTrailingZeros _⟩, rfl,
      ?_, ?_⟩
    · rw [TrimmedDecimal.absValue_eq]
      exact (Decimal.value_dropTrailingZeros _ fraction).trans (by rw [hlength, hvalue])
    · rw [htext, trimFraction_point _ hdigits]
      rfl

/-! ## Rounding -/

/-- A binary fraction has no more decimal places than binary ones, so that no more are computed. -/
lemma isRoundedTo_min (num k places : ℕ) :
    IsRoundedTo places (num / 2 ^ k)
      (roundDiv (num * 10 ^ min places k) (2 ^ k) / 10 ^ min places k) := by
  rcases Nat.le_total places k with hfew | hmany
  · rw [Nat.min_eq_left hfew]
    refine ⟨roundDiv (num * 10 ^ places) (2 ^ k), ?_, by rw [Int.cast_natCast]⟩
    have hnearest := Decimal.isNearestEven_roundDiv (num * 10 ^ places) (Nat.two_pow_pos k)
    push_cast at hnearest
    rwa [mul_div_right_comm] at hnearest
  · rw [Nat.min_eq_right hmany]
    have hten : num * 10 ^ k = num * 5 ^ k * 2 ^ k := by
      rw [Nat.mul_assoc, ← Nat.mul_pow]
    have hexact : ((num * 5 ^ k : ℕ) : ℚ) / 10 ^ k = num / 2 ^ k := by
      have hpow : (10 : ℚ) ^ k = 5 ^ k * 2 ^ k := by
        rw [← mul_pow]
        norm_num
      rw [hpow]
      push_cast
      field_simp
    rw [hten, Decimal.roundDiv_mul _ (Nat.two_pow_pos k), hexact]
    refine @Decimal.isRoundedTo_self _ _ (num * 5 ^ k * 10 ^ (places - k) : ℕ) ?_
    have hsplit : (10 : ℚ) ^ places = 10 ^ k * 10 ^ (places - k) := by
      rw [← pow_add, Nat.add_sub_cancel' hmany]
    rw [← hexact, hsplit]
    push_cast
    field_simp

/-- A value is the quotient of its numerator and its denominator with its sign. -/
lemma eq_of_toRat? {negative : Bool} {m : ℕ} {e : ℤ} {q : ℚ}
    (h : (Exact.finite negative m e).toRat? = some q) :
    q = if negative then -(Exact.numerator m e / 2 ^ (-e).toNat : ℚ)
      else Exact.numerator m e / 2 ^ (-e).toNat := by
  have hvalue : q = mkRat (if negative then -(Exact.numerator m e : ℤ) else Exact.numerator m e)
      (Exact.denominator e) := (Option.some.inj h).symm
  have hden : (Exact.denominator e : ℚ) = 2 ^ (-e).toNat := Nat.cast_pow 2 _
  rw [hvalue, Rat.mkRat_eq_div, hden]
  split_ifs
  · rw [Int.cast_neg, Int.cast_natCast, neg_div]
  · rw [Int.cast_natCast]

/-- A number that is not whole is printed with a rounded magnitude. -/
lemma exists_roundedMagnitude (negative : Bool) (places m : ℕ) (e : ℤ) :
    ∃ n : TrimmedDecimal, n.negative = negative ∧ roundedMagnitude places m e = n.magnitude ∧
      IsRoundedTo places (Exact.numerator m e / 2 ^ (-e).toNat) n.absValue := by
  obtain ⟨n, hsign, hvalue, hmagnitude⟩ := exists_trimmedDecimal negative
    (min places (-e).toNat)
    (roundDiv (Exact.numerator m e * 10 ^ min places (-e).toNat) (2 ^ (-e).toNat))
  refine ⟨n, hsign, hmagnitude, ?_⟩
  rw [hvalue]
  exact isRoundedTo_min _ _ _

/-- The whole part of a magnitude is that of its value. -/
lemma whole_eq_floor {negative : Bool} {m : ℕ} {e : ℤ} {q : ℚ}
    (h : (Exact.finite negative m e).toRat? = some q) :
    Exact.numerator m e / Exact.denominator e = ⌊|q|⌋₊ := by
  have hvalue : |q| = (Exact.numerator m e : ℚ) / (Exact.denominator e : ℕ) := by
    have hden : (Exact.denominator e : ℚ) = 2 ^ (-e).toNat := Nat.cast_pow 2 _
    have hnonneg : (0 : ℚ) ≤ Exact.numerator m e / 2 ^ (-e).toNat := by positivity
    rw [eq_of_toRat? h, hden]
    split_ifs
    · rw [abs_neg, abs_of_nonneg hnonneg]
    · rw [abs_of_nonneg hnonneg]
  rw [hvalue, Nat.floor_div_eq_div]

/-- Exactly the numbers without a denominator are whole. -/
lemma toInt?_eq {negative : Bool} {m : ℕ} {e : ℤ} {q : ℚ}
    (h : (Exact.finite negative m e).toRat? = some q) :
    (Exact.finite negative m e).toInt? = if q.den = 1 then some q.num else none := by
  unfold Exact.toInt?
  rw [h]

/-- A whole number is not rounded. -/
lemma isRoundedTo_of_den_eq_one {q : ℚ} (hwhole : q.den = 1) (d : ℕ) : IsRoundedTo d q q := by
  have hq : q * 10 ^ d = (q.num * 10 ^ d : ℤ) := by
    push_cast
    rw [Rat.coe_int_num_of_den_eq_one hwhole]
  exact Decimal.isRoundedTo_self hq

/-- A finite number is printed as the trimmed decimal of its rounded value. -/
lemma exists_rounded {x : Float} {q : ℚ} {d : ℕ} {places : Option ℤ}
    (hx : (Exact.ofFloat x).toRat? = some q) (hplaces : places.getD defaultPlaces = d)
    (hd : q.den = 1 ∨ ((d + integerDigits ⌊|q|⌋₊ : ℕ) : ℤ) ≤ maxPlaces) :
    ∃ n : TrimmedDecimal, rounded places x = .ok n.text ∧ IsRoundedTo d q n.value := by
  cases hexact : Exact.ofFloat x with
  | nan | infinite =>
    rw [hexact] at hx
    cases hx
  | finite negative m e =>
    rw [hexact] at hx
    unfold rounded plain
    rw [hexact]
    dsimp only
    rw [toInt?_eq hx]
    by_cases hwhole : q.den = 1
    · refine ⟨.ofInt q.num, ?_, ?_⟩
      · rw [if_pos hwhole, Option.isSome_some, if_pos rfl, TrimmedDecimal.text_ofInt]
      · rw [TrimmedDecimal.value_ofInt, Rat.coe_int_num_of_den_eq_one hwhole]
        exact isRoundedTo_of_den_eq_one hwhole d
    · obtain ⟨n, hsign, hmagnitude, hrounded⟩ := exists_roundedMagnitude negative d m e
      have hmax := hd.resolve_left hwhole
      have hrange : ¬ ((d : ℤ) < 0 ∨ maxPlaces < d) := by omega
      have hcounted : countedMagnitude d m e = roundedMagnitude d m e := by
        unfold countedMagnitude
        dsimp only
        rw [whole_eq_floor hx]
        exact if_neg (by omega)
      refine ⟨n, ?_, ?_⟩
      · rw [if_neg hwhole, Option.isSome_none, if_neg Bool.false_ne_true, hplaces, if_neg hrange,
          Int.toNat_natCast, hcounted, hmagnitude, ← hsign]
        rfl
      · rw [eq_of_toRat? hx]
        unfold TrimmedDecimal.value
        rw [hsign]
        split_ifs
        · exact hrounded.neg
        · exact hrounded

/-- A finite number is printed with as many decimal places as asked for, four without a wish: as a
decimal of the value rounded to these places, of two nearest ones that with the even last digit, and
of the value itself if it is whole.  The digits of the text are read as those of the decimal.
Before the point they are those of the whole integer part, behind it they do not end in a zero, and
the text does not end in a point.  Of a number that is not whole, the places and the digits of the
integer part must not exceed the largest number of places together. -/
theorem rounded_prints {x : Float} {q : ℚ} {d : ℕ} {places : Option ℤ}
    (hx : (Exact.ofFloat x).toRat? = some q) (hplaces : places.getD defaultPlaces = d)
    (hd : q.den = 1 ∨ ((d + integerDigits ⌊|q|⌋₊ : ℕ) : ℤ) ≤ maxPlaces) :
    ∃ n : TrimmedDecimal, rounded places x = .ok n.text ∧
      IsRoundedTo d q n.value ∧ (q.den = 1 → n.value = q) ∧
      Numeral.ofChars? n.magnitude = some n.numeral ∧
      (n.integer : ℤ) = ⌊|n.value|⌋ ∧ n.text.toList.getLast? ≠ some '.' := by
  obtain ⟨n, htext, hrounded⟩ := exists_rounded hx hplaces hd
  exact ⟨n, htext, hrounded, fun hwhole => hrounded.unique (isRoundedTo_of_den_eq_one hwhole d),
    n.ofChars?_magnitude, n.integer_eq, n.getLast?_text_ne⟩

/-- One eighth with two decimal places: it is just between two such decimals. -/
theorem rounded_prints_eighth :
    (Exact.ofFloat 0.125).toRat? = some (1 / 8) ∧
      (some (2 : ℤ)).getD defaultPlaces = (2 : ℕ) ∧
      ((2 + integerDigits ⌊|(1 / 8 : ℚ)|⌋₊ : ℕ) : ℤ) ≤ maxPlaces ∧
      ∃ n : TrimmedDecimal, rounded (some 2) 0.125 = .ok n.text ∧
        IsRoundedTo 2 (1 / 8) n.value := by
  have heighth : (Exact.ofFloat 0.125).toRat? = some (1 / 8) := by decide +kernel
  have hplaces : (some (2 : ℤ)).getD defaultPlaces = (2 : ℕ) := rfl
  have hfloor : ⌊|(1 / 8 : ℚ)|⌋₊ = 0 := by norm_num
  have hmax : ((2 + integerDigits ⌊|(1 / 8 : ℚ)|⌋₊ : ℕ) : ℤ) ≤ maxPlaces := by
    rw [hfloor]
    decide
  obtain ⟨n, htext, hrounded, _⟩ := rounded_prints heighth hplaces (Or.inr hmax)
  exact ⟨heighth, hplaces, hmax, n, htext, hrounded⟩

/-- One half is finite, and it is refused with too many decimal places. -/
theorem rounded_refuses_places :
    (Exact.ofFloat 0.5).toRat? = some (1 / 2) ∧
      rounded (some 2147483648) 0.5 = .error (.number .placesOutOfRange) :=
  ⟨by decide +kernel, rfl⟩

example : rounded (some 2) 0.125 = .ok "0.12" := rfl

end Number

end DesignTokens

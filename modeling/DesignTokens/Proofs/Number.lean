import DesignTokens.Number
import DesignTokens.Proofs.Outcome
import Mathlib.Tactic.Common

/-!
# Numerals and their units

A number in a stylesheet is a numeral with the suffix of a unit behind it.  No numeral has the
letter `x`, and of all suffixes only that of pixels has it, so that a number in pixels never reads
as a number in another unit (`withUnit_px_ne`); numbers in one unit read the same exactly if their
numerals do (`withUnit_eq_iff`).
-/

namespace DesignTokens

namespace Number

/-! ## Characters of numerals -/

/-- No decimal digit is the letter `x`. -/
lemma x_not_mem_digitsOf (n : Nat) : 'x' ∉ Decimal.digitsOf n := by
  intro h
  have hdigit := Nat.isDigit_of_mem_toDigits (by decide) (by decide) h
  exact absurd hdigit (by decide)

/-- A whole number is written without the letter `x`. -/
lemma x_not_mem_toString (n : Int) : 'x' ∉ (toString n).toList := by
  cases n with
  | ofNat n =>
    show 'x' ∉ (Nat.repr n).toList
    rw [Nat.toList_repr]
    exact x_not_mem_digitsOf n
  | negSucc n =>
    show 'x' ∉ ("-" ++ Nat.repr (n + 1)).toList
    rw [String.toList_append, List.mem_append, Nat.toList_repr]
    exact not_or.mpr ⟨by decide, x_not_mem_digitsOf (n + 1)⟩

/-- A decimal point brings no letter `x`. -/
lemma x_not_mem_placePoint {places : Nat} {digits : List Char} (h : 'x' ∉ digits) :
    'x' ∉ Decimal.placePoint places digits := by
  have hpadded : 'x' ∉ List.replicate (places + 1 - digits.length) '0' ++ digits := by
    rw [List.mem_append]
    refine not_or.mpr ⟨fun hzero => ?_, h⟩
    exact absurd (List.eq_of_mem_replicate hzero) (by decide)
  unfold Decimal.placePoint
  dsimp only
  split_ifs
  · exact hpadded
  · intro hx
    rcases List.mem_append.mp hx with hbefore | hafter
    · exact hpadded (List.mem_of_mem_take hbefore)
    · rcases List.mem_cons.mp hafter with hpoint | hfraction
      · exact absurd hpoint (by decide)
      · exact hpadded (List.mem_of_mem_drop hfraction)

/-- Trimming leaves characters out only. -/
lemma trimFraction_subset (digits : List Char) : trimFraction digits ⊆ digits := by
  intro c hc
  unfold trimFraction at hc
  dsimp only at hc
  have hkept : digits.reverse.dropWhile (· == '0') ⊆ digits := fun d hd =>
    List.mem_reverse.mp ((List.dropWhile_sublist _).subset hd)
  rw [List.mem_reverse] at hc
  split at hc
  · rename_i rest heq
    exact hkept (heq ▸ List.mem_cons_of_mem _ hc)
  · exact hkept hc

/-- A rounded magnitude is written without the letter `x`. -/
lemma x_not_mem_roundedMagnitude (places mantissa : Nat) (exponent : Int) :
    'x' ∉ roundedMagnitude places mantissa exponent := by
  have hfixed : ∀ places num den, 'x' ∉ Decimal.fixed places num den := fun _ _ _ =>
    x_not_mem_placePoint (x_not_mem_digitsOf _)
  unfold roundedMagnitude
  dsimp only
  split_ifs
  · exact hfixed _ _ _
  · exact fun hx => hfixed _ _ _ (trimFraction_subset _ hx)

/-- The magnitude is written without the letter `x`, be it a zero for too many digits. -/
lemma x_not_mem_countedMagnitude (places mantissa : Nat) (exponent : Int) :
    'x' ∉ countedMagnitude places mantissa exponent := by
  unfold countedMagnitude
  dsimp only
  split_ifs
  · decide
  · exact x_not_mem_roundedMagnitude _ _ _

/-- A sign brings no letter `x`. -/
lemma x_not_mem_signed {negative : Bool} {text : List Char} (h : 'x' ∉ text) :
    'x' ∉ Decimal.signed negative text := by
  unfold Decimal.signed
  split_ifs
  · exact fun hx => (List.mem_cons.mp hx).elim (absurd · (by decide)) h
  · exact h

/-- A number is rounded to a text without the letter `x`. -/
theorem x_not_mem_rounded {places : Option Int} {x : Float} {text : String}
    (h : rounded places x = .ok text) : 'x' ∉ text.toList := by
  unfold rounded at h
  split at h
  · rename_i negative mantissa exponent hx
    split_ifs at h with hwhole
    · have htext := Except.ok.inj h
      obtain ⟨n, hn⟩ := Option.isSome_iff_exists.mp hwhole
      rw [← htext]
      unfold plain
      rw [hx, hn]
      exact x_not_mem_toString n
    · dsimp only at h
      split_ifs at h
      have htext := Except.ok.inj h
      rw [← htext, String.toList_ofList]
      exact x_not_mem_signed (x_not_mem_countedMagnitude _ _ _)
  · rename_i hnot
    have htext := Except.ok.inj h
    rw [← htext]
    unfold plain Decimal.text
    cases hx : Exact.ofFloat x with
    | nan => decide
    | infinite negative => cases negative <;> decide
    | finite negative mantissa exponent => exact absurd hx (hnot negative mantissa exponent)

/-! ## Units -/

/-- The suffix of pixels is the only one with the letter `x`. -/
lemma x_mem_suffix {unit : CssUnit} (h : 'x' ∈ unit.suffix.toList) : unit = .px := by
  cases unit with
  | px => rfl
  | none => exact absurd h (by decide)
  | rem => exact absurd h (by decide)
  | em => exact absurd h (by decide)
  | percent => exact absurd h (by decide)
  | ms => exact absurd h (by decide)
  | s => exact absurd h (by decide)

/-- A number of pixels in a unit. -/
def inUnit (unit : CssUnit) (remBase x : Float) : Except Fault Float :=
  if unit = .rem then divide x remBase else .ok x

/-- The numeral of a number of pixels in a unit. -/
def numeral (unit : CssUnit) (remBase : Float) (places : Option Int) (x : Float) :
    Except Fault String :=
  inUnit unit remBase x >>= rounded places

/-- A number in a unit is its numeral with the suffix of the unit. -/
lemma withUnit_eq (unit : CssUnit) (remBase : Float) (places : Option Int) (x : Float) :
    withUnit unit remBase places x =
      (numeral unit remBase places x).map fun digits => digits ++ unit.suffix := by
  have hrest : ∀ y, (do
      let text ← rounded places y
      return text ++ unit.suffix) = (rounded places y).map fun digits => digits ++ unit.suffix := by
    intro y
    cases rounded places y <;> rfl
  unfold withUnit numeral inUnit
  dsimp only
  by_cases hrem : unit = .rem
  · rw [if_pos hrem, if_pos hrem]
    cases divide x remBase with
    | error e => rfl
    | ok y => exact hrest y
  · rw [if_neg hrem, if_neg hrem]
    exact hrest x

/-- A numeral has no letter `x`. -/
lemma x_not_mem_numeral {unit : CssUnit} {remBase : Float} {places : Option Int} {x : Float}
    {digits : String} (h : numeral unit remBase places x = .ok digits) : 'x' ∉ digits.toList := by
  obtain ⟨y, _, hrounded⟩ := bind_eq_ok.mp h
  exact x_not_mem_rounded hrounded

variable {base base' : Float} {places places' : Option Int} {x : Float} {text text' : String}

/-- A number in pixels does not read as a number in another unit. -/
theorem withUnit_px_ne {unit : CssUnit} (hunit : unit ≠ .px)
    (h : withUnit unit base places x = .ok text)
    (hpx : withUnit .px base' places' x = .ok text') : text ≠ text' := by
  rw [withUnit_eq] at h hpx
  obtain ⟨digits, hdigits, rfl⟩ := map_eq_ok.mp h
  obtain ⟨digits', _, rfl⟩ := map_eq_ok.mp hpx
  intro heq
  have hx : 'x' ∈ (digits' ++ CssUnit.px.suffix).toList := by
    rw [String.toList_append]
    exact List.mem_append_right _ (by decide)
  rw [← heq, String.toList_append] at hx
  rcases List.mem_append.mp hx with hdigit | hsuffix
  · exact x_not_mem_numeral hdigits hdigit
  · exact hunit (x_mem_suffix hsuffix)

/-- Numbers in one unit read the same exactly if their numerals do. -/
theorem withUnit_eq_iff {unit : CssUnit} (h : withUnit unit base places x = .ok text)
    (h' : withUnit unit base' places' x = .ok text') :
    text = text' ↔ numeral unit base places x = numeral unit base' places' x := by
  rw [withUnit_eq] at h h'
  obtain ⟨digits, hdigits, rfl⟩ := map_eq_ok.mp h
  obtain ⟨digits', hdigits', rfl⟩ := map_eq_ok.mp h'
  rw [hdigits, hdigits']
  constructor
  · intro heq
    have hlist := congrArg String.toList heq
    rw [String.toList_append, String.toList_append] at hlist
    exact congrArg Except.ok (String.toList_injective (List.append_cancel_right hlist))
  · intro heq
    rw [Except.ok.inj heq]

end Number

end DesignTokens

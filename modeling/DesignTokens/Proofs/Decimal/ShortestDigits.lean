import DesignTokens.Proofs.Decimal.Nearest

/-!
# Shortest digits round back

The interval in which the shortest digits are sought has exactly the values that round to the
number (`Interval.roundsTo_of_holds`), and of the decimals with seventeen digits the nearest one
always lies in it, so that the search succeeds and its result rounds to the number
(`roundsTo_shortest`).
-/

namespace DesignTokens.Decimal

open Binary64

/-! ## The interval -/

/-- A power with a whole exponent is the quotient of the powers with its two parts. -/
lemma zpow_eq_div {b : ℚ} (hb : b ≠ 0) (k : ℤ) : b ^ k = b ^ k.toNat / b ^ (-k).toNat := by
  have hexponent : k = (k.toNat : ℤ) - ((-k).toNat : ℤ) := by omega
  conv_lhs => rw [hexponent, zpow_sub₀ hb, zpow_natCast, zpow_natCast]

namespace Interval

variable {m n : ℕ} {e p : ℤ}

/-- A decimal in quarters of a unit is the point on the grid of the interval. -/
lemma quarters_eq (n : ℕ) (p e : ℤ) : 4 * ((n * 10 ^ p : ℚ) / 2 ^ e) =
    (n * tenTo p.toNat * twoTo (2 - e).toNat : ℕ) /
      (twoTo (e - 2).toNat * tenTo (-p).toNat : ℕ) := by
  have hsplit : (2 : ℚ) ^ e = 4 * 2 ^ (e - 2) := by
    have hexponent : e = 2 + (e - 2) := by ring
    conv_lhs => rw [hexponent, zpow_add₀ (by norm_num)]
    norm_num
  have hneg : -(e - 2) = 2 - e := by ring
  unfold tenTo twoTo
  rw [hsplit, zpow_eq_div (by norm_num) p, zpow_eq_div (by norm_num) (e - 2), hneg]
  simp only [Nat.pow_eq, Nat.cast_mul, Nat.cast_pow, Nat.cast_ofNat]
  field_simp

/-- A decimal in the interval of a number rounds to the number. -/
theorem roundsTo_of_holds (hm : 0 < m) (h : (around m e).holds n p = true) :
    RoundsTo (n * 10 ^ p) m e := by
  have hscale : (0 : ℚ) < (twoTo (e - 2).toNat * tenTo (-p).toNat : ℕ) := by
    exact_mod_cast Nat.mul_pos (Nat.two_pow_pos _) (Nat.pow_pos (by decide))
  have hbelow : quartersBelow m e ≤ 4 * m := by
    unfold quartersBelow
    split_ifs <;> omega
  -- the bounds of the interval in quarters of a unit
  have hlower : (4 * m - quartersBelow m e : ℚ) =
      ((around m e).low * tenTo (-p).toNat : ℕ) /
        (twoTo (e - 2).toNat * tenTo (-p).toNat : ℕ) := by
    have hlow : (around m e).low = (4 * m - quartersBelow m e) * twoTo (e - 2).toNat := rfl
    rw [eq_div_iff hscale.ne', hlow]
    push_cast [Nat.cast_sub hbelow]
    ring
  have hupper : (4 * m + 2 : ℚ) =
      ((around m e).high * tenTo (-p).toNat : ℕ) /
        (twoTo (e - 2).toNat * tenTo (-p).toNat : ℕ) := by
    have hhigh : (around m e).high = (4 * m + 2) * twoTo (e - 2).toNat := rfl
    rw [eq_div_iff hscale.ne', hhigh]
    push_cast
    ring
  have hpoint : 4 * ((n * 10 ^ p : ℚ) / 2 ^ e) =
      (n * tenTo p.toNat * (around m e).den : ℕ) /
        (twoTo (e - 2).toNat * tenTo (-p).toNat : ℕ) := quarters_eq n p e
  unfold holds at h
  dsimp only at h
  by_cases heven : m % 2 = 0
  · have hclosed : (around m e).closed = true := decide_eq_true heven
    rw [hclosed, if_pos rfl, Bool.and_eq_true, decide_eq_true_iff, decide_eq_true_iff] at h
    refine ⟨?_, ?_, fun _ => heven, fun _ => heven⟩
    · rw [hlower, hpoint]
      exact div_le_div_of_nonneg_right (by exact_mod_cast h.1) hscale.le
    · rw [hupper, hpoint]
      exact div_le_div_of_nonneg_right (by exact_mod_cast h.2) hscale.le
  · have hopen : (around m e).closed = false := decide_eq_false heven
    rw [hopen, if_neg Bool.false_ne_true, Bool.and_eq_true, decide_eq_true_iff,
      decide_eq_true_iff] at h
    have hleft : (4 * m - quartersBelow m e : ℚ) < 4 * (n * 10 ^ p / 2 ^ e) := by
      rw [hlower, hpoint]
      exact div_lt_div_of_pos_right (by exact_mod_cast h.1) hscale
    have hright : 4 * (n * 10 ^ p / 2 ^ e) < (4 * m + 2 : ℚ) := by
      rw [hupper, hpoint]
      exact div_lt_div_of_pos_right (by exact_mod_cast h.2) hscale
    exact ⟨hleft.le, hright.le, fun heq => absurd heq.symm hleft.ne,
      fun heq => absurd heq hright.ne⟩

/-! ## The search -/

/-- A decimal that is found lies in the interval. -/
lemma holds_of_nearest? {i : Interval} {count : ℕ} {s : Scientific}
    (h : i.nearest? count = some s) : i.holds s.digits s.power = true := by
  unfold nearest? at h
  dsimp only at h
  split_ifs at h with hrounded hfloor hnext
  · cases h
    exact hrounded
  · cases h
    exact hfloor
  · cases h
    exact hnext

/-- The power of ten of the leading digit is at most the value. -/
lemma leading_le {i : Interval} (hden : 0 < i.den) (hvalue : 0 < i.value) :
    (10 : ℚ) ^ i.leading * i.den ≤ i.value := by
  unfold leading
  dsimp only
  have hden' : (0 : ℚ) < i.den := by exact_mod_cast hden
  split_ifs with hwhole hshift
  · have hpos : 0 < (digitsOf (i.value / i.den)).length := Nat.length_toDigits_pos
    have hexponent : ((digitsOf (i.value / i.den)).length : ℤ) - 1 =
        ((digitsOf (i.value / i.den)).length - 1 : ℕ) := by omega
    have hle : 10 ^ ((digitsOf (i.value / i.den)).length - 1) * i.den ≤ i.value :=
      (Nat.mul_le_mul_right _ (pow_length_le (Nat.div_pos hwhole hden))).trans
        (Nat.div_mul_le_self _ _)
    rw [hexponent, zpow_natCast]
    exact_mod_cast hle
  · rw [zpow_neg, zpow_natCast, inv_mul_le_iff₀ (by positivity), mul_comm]
    exact_mod_cast hshift
  · -- the value has one digit more than the difference of the lengths tells
    have hexponent : -(((digitsOf i.den).length - (digitsOf i.value).length : ℕ) : ℤ) - 1 =
        -(((digitsOf i.den).length - (digitsOf i.value).length + 1 : ℕ) : ℤ) := by
      push_cast
      ring
    have hlt := lt_pow_length i.den
    have hle := pow_length_le hvalue
    have hpos : 0 < (digitsOf i.value).length := Nat.length_toDigits_pos
    have hbound : i.den ≤ i.value *
        10 ^ ((digitsOf i.den).length - (digitsOf i.value).length + 1) := by
      calc i.den ≤ 10 ^ (digitsOf i.den).length := hlt.le
        _ ≤ 10 ^ ((digitsOf i.value).length - 1 +
            ((digitsOf i.den).length - (digitsOf i.value).length + 1)) :=
          Nat.pow_le_pow_right (by decide) (by omega)
        _ = 10 ^ ((digitsOf i.value).length - 1) *
            10 ^ ((digitsOf i.den).length - (digitsOf i.value).length + 1) := Nat.pow_add ..
        _ ≤ _ := Nat.mul_le_mul_right _ hle
    rw [hexponent, zpow_neg, zpow_natCast, inv_mul_le_iff₀ (by positivity), mul_comm]
    exact_mod_cast hbound

end Interval

/-- The rounded quotient is at most one half away from the exact one. -/
lemma roundDiv_bounds (num : ℕ) {den : ℕ} (hden : 0 < den) :
    2 * num ≤ 2 * (roundDiv num den * den) + den ∧
      2 * (roundDiv num den * den) ≤ 2 * num + den := by
  have hdivision : den * (num / den) + num % den = num := Nat.div_add_mod num den
  have hmod := Nat.mod_lt num hden
  unfold roundDiv
  dsimp only
  generalize num / den = q at hdivision ⊢
  generalize num % den = r at hdivision hmod ⊢
  have hproduct : q * den = den * q := Nat.mul_comm _ _
  have hnext : (q + 1) * den = den * q + den := by rw [Nat.add_mul, Nat.one_mul, hproduct]
  split_ifs with hless hmore
  · omega
  · omega
  · rcases Nat.mod_two_eq_zero_or_one q with heven | hodd
    · rw [heven, Nat.add_zero]
      omega
    · rw [hodd]
      omega

/-- A point that is at most half a unit away from a number, the unit being small against the number,
is nearer to it than the values that round to it reach. -/
lemma between_of_near {m quarters step unit point : ℕ} (hm : m < 2 ^ 53) (hpos : 0 < m)
    (hquarters : quarters = 1 ∧ m = 2 ^ 52 ∨ quarters = 2) (hstep : 0 < step)
    (hsmall : 10 ^ 16 * unit ≤ 4 * m * step) (habove : 2 * (4 * m * step) ≤ 2 * point + unit)
    (hbelow : 2 * point ≤ 2 * (4 * m * step) + unit) :
    (4 * m - quarters) * step < point ∧ point < (4 * m + 2) * step := by
  have hleast : step ≤ m * step := Nat.le_mul_of_pos_left step hpos
  have hmost : m * step ≤ (2 ^ 53 - 1) * step := Nat.mul_le_mul_right _ (by omega)
  rw [Nat.mul_assoc] at hsmall habove hbelow
  rw [Nat.sub_mul, Nat.add_mul, Nat.mul_assoc]
  rcases hquarters with ⟨rfl, rfl⟩ | rfl <;> omega

namespace Interval

/-- Strictly inside the bounds a decimal lies in the interval, whether it is closed or not. -/
lemma holds_of_lt {i : Interval} {n : ℕ} {power : ℤ}
    (hlow : i.low * tenTo (-power).toNat < n * tenTo power.toNat * i.den)
    (hhigh : n * tenTo power.toNat * i.den < i.high * tenTo (-power).toNat) :
    i.holds n power = true := by
  unfold holds
  dsimp only
  split_ifs
  · rw [decide_eq_true hlow.le, decide_eq_true hhigh.le]
    rfl
  · rw [decide_eq_true hlow, decide_eq_true hhigh]
    rfl

variable {m : ℕ} {e : ℤ}

/-- Of the decimals with seventeen digits one lies in the interval of a number. -/
lemma exists_nearest? (hm : HasForm m e) : ∃ s, (around m e).nearest? 17 = some s := by
  have hscale : 0 < twoTo (e - 2).toNat := Nat.two_pow_pos _
  have hden : 0 < (around m e).den := Nat.two_pow_pos _
  have hvalue : (around m e).value = 4 * m * twoTo (e - 2).toNat := rfl
  have hpositive : 0 < (around m e).value := by
    rw [hvalue]
    have hpos := hm.1
    positivity
  have hleading := leading_le hden hpositive
  obtain ⟨power, hpower⟩ : ∃ power, (around m e).leading - (17 : ℕ) + 1 = power := ⟨_, rfl⟩
  have hgrid : 0 < tenTo (-power).toNat := Nat.pow_pos (by decide)
  have hunit : 0 < tenTo power.toNat * (around m e).den :=
    Nat.mul_pos (Nat.pow_pos (by decide)) hden
  -- a unit of the last of seventeen digits is small
  have hsmall : 10 ^ 16 * (tenTo power.toNat * (around m e).den) ≤
      (around m e).value * tenTo (-power).toNat := by
    have hsplit : (around m e).leading = 16 + power := by omega
    have hgrid' : (0 : ℚ) < tenTo (-power).toNat := by exact_mod_cast hgrid
    rw [hsplit, zpow_add₀ (by norm_num), zpow_eq_div (by norm_num) power, mul_assoc,
      div_mul_eq_mul_div, ← mul_div_assoc] at hleading
    have hcast := (div_le_iff₀ (by positivity)).mp hleading
    exact_mod_cast hcast
  obtain ⟨habove, hbelow⟩ :=
    roundDiv_bounds ((around m e).value * tenTo (-power).toNat) hunit
  unfold nearest?
  dsimp only
  rw [hpower]
  generalize roundDiv ((around m e).value * tenTo (-power).toNat)
    (tenTo power.toNat * (around m e).den) = rounded at habove hbelow ⊢
  have hholds : (around m e).holds rounded power = true := by
    have hlow : (around m e).low = (4 * m - quartersBelow m e) * twoTo (e - 2).toNat := rfl
    have hhigh : (around m e).high = (4 * m + 2) * twoTo (e - 2).toNat := rfl
    have hquarters : quartersBelow m e = 1 ∧ m = 2 ^ 52 ∨ quartersBelow m e = 2 := by
      unfold quartersBelow
      split_ifs with hbinade
      · exact Or.inl ⟨rfl, hbinade.1⟩
      · exact Or.inr rfl
    rw [hvalue, Nat.mul_assoc (4 * m)] at hsmall habove hbelow
    obtain ⟨hleft, hright⟩ := between_of_near hm.upper hm.1 hquarters (Nat.mul_pos hscale hgrid)
      hsmall habove hbelow
    refine holds_of_lt ?_ ?_
    · rw [hlow, Nat.mul_assoc, Nat.mul_assoc]
      exact hleft
    · rw [hhigh, Nat.mul_assoc, Nat.mul_assoc]
      exact hright
  rw [if_pos hholds]
  exact ⟨_, rfl⟩

/-- The shortest decimal lies in the interval. -/
lemma holds_shortest (hm : HasForm m e) :
    (around m e).holds (around m e).shortest.digits (around m e).shortest.power = true := by
  have hsome : ((List.range 17).findSome? fun k => (around m e).nearest? (k + 1)).isSome := by
    rw [List.findSome?_isSome_iff]
    obtain ⟨s, hs⟩ := exists_nearest? hm
    exact ⟨16, List.mem_range.mpr (by decide), Option.isSome_iff_exists.mpr ⟨s, hs⟩⟩
  obtain ⟨s, hs⟩ := Option.isSome_iff_exists.mp hsome
  obtain ⟨k, _, hk⟩ := List.exists_of_findSome?_eq_some hs
  unfold shortest
  rw [hs]
  exact holds_of_nearest? hk

end Interval

/-- The shortest digits of a number round to the number. -/
theorem roundsTo_shortest {m : ℕ} {e : ℤ} (hm : HasForm m e) :
    RoundsTo ((shortest m e).digits * 10 ^ (shortest m e).power) m e :=
  Interval.roundsTo_of_holds hm.1 (Interval.holds_shortest hm)

end DesignTokens.Decimal

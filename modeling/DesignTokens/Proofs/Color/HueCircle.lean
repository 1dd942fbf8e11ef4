import DesignTokens.Color.Hsl
import Mathlib.Algebra.Order.Floor.Ring
import Mathlib.Data.Rat.Floor
import Mathlib.Order.Interval.Set.Defs
import Mathlib.Tactic.FieldSimp
import Mathlib.Tactic.Linarith
import Mathlib.Tactic.NormNum
import Mathlib.Tactic.Ring

/-!
# The circle of hues

Over the rational numbers the formulas for colors are exact.  The greatest channel of a color goes
once up and down while its hue goes around the circle, `Hsl.channel` is this wave, and the three
channels are the wave at three places a third of the circle apart.

In each sixth of the circle the channels have one order, and the channel between the other two moves
from the one to the other (`OnCircle`).  The hue that is computed for a color is its place on the
circle (`Rgba.exists_hueSixths`), and the wave at that place has the values of the channels
(`OnCircle.wave`).  With the least and the greatest channel found again from saturation and lightness
(`Chroma`), a color is the color of its hue, saturation and lightness (`Rgba.toRgba_toHsl`).
-/

namespace DesignTokens

namespace Scalar

/-! ## Rational numbers -/

variable {x y : ℚ}

@[simp] lemma ofNat_rat (n : ℕ) : (ofNat n : ℚ) = n := rfl

@[simp] lemma same_rat : same x y = true ↔ x = y := beq_iff_eq

@[simp] lemma larger_rat : larger x y = max x y := by
  show (if x < y then y else x) = max x y
  rw [max_def]
  grind

@[simp] lemma smaller_rat : smaller x y = min x y := by
  show (if y < x then y else x) = min x y
  rw [min_def]
  grind

lemma ratio_rat (num den : ℕ) : (ratio num den : ℚ) = num / den := rfl

/-- A number is divided by any number but zero. -/
lemma divide_of_ne (hy : y ≠ 0) : divide x y = .ok (x / y) :=
  if_neg fun h => hy (same_rat.mp h)

/-- The remainder is what is left of a number on the circle of length `n`. -/
lemma remainder_rat {n : ℕ} (hn : n ≠ 0) : remainder x n = n * Int.fract (x / n) := by
  have hcast : (n : ℚ) ≠ 0 := Nat.cast_ne_zero.mpr hn
  show x - n * (⌊x / n⌋ : ℚ) = _
  rw [← Int.self_sub_floor, mul_sub, mul_div_cancel₀ _ hcast]

end Scalar

open Scalar

/-! ## The wave of a channel -/

namespace Hsl

variable {low high x : ℚ}

/-- The value of a channel whose least and greatest values are given, by the place on the circle in
sixths. -/
def wave (low high x : ℚ) : ℚ :=
  channel low high (x / 6)

/-- The wave repeats after six sixths. -/
lemma wave_add_six (low high x : ℚ) : wave low high (x + 6) = wave low high x := by
  have hsix : (x + 6) / 6 = x / 6 + 1 := by ring
  have hplace : remainder ((x + 6) / 6) 1 = remainder (x / 6) 1 := by
    rw [hsix, remainder_rat one_ne_zero, remainder_rat one_ne_zero]
    simp
  unfold wave channel
  rw [hplace]

/-- The wave in the first turn. -/
lemma wave_eq (h0 : 0 ≤ x) (h6 : x < 6) :
    wave low high x =
      if x < 1 then low + (high - low) * x
      else if x < 3 then high
      else if x < 4 then low + (high - low) * (4 - x)
      else low := by
  have hplace : remainder (x / 6) 1 = x / 6 := by
    rw [remainder_rat one_ne_zero, Nat.cast_one, div_one, one_mul]
    exact Int.fract_eq_self.mpr ⟨by linarith, by linarith⟩
  have hone : x / 6 < 1 / 6 ↔ x < 1 := by constructor <;> intro h <;> linarith
  have hthree : x / 6 < 1 / 2 ↔ x < 3 := by constructor <;> intro h <;> linarith
  have hfour : x / 6 < 2 / 3 ↔ x < 4 := by constructor <;> intro h <;> linarith
  unfold wave channel
  rw [hplace]
  show (if x / 6 < (1 : ℕ) / (6 : ℕ) then low + (high - low) * (6 : ℕ) * (x / 6)
    else if x / 6 < (1 : ℕ) / (2 : ℕ) then high
    else if x / 6 < (2 : ℕ) / (3 : ℕ) then
      low + (high - low) * ((2 : ℕ) / (3 : ℕ) - x / 6) * (6 : ℕ)
    else low) = _
  push_cast
  simp only [hone, hthree, hfour]
  split_ifs <;> ring

/-- The wave rises in the first sixth. -/
lemma wave_of_rising (h0 : 0 ≤ x) (h1 : x ≤ 1) : wave low high x = low + (high - low) * x := by
  rw [wave_eq h0 (by linarith)]
  rcases h1.lt_or_eq with hlt | rfl
  · rw [if_pos hlt]
  · norm_num

/-- The wave is highest in the second and the third sixth. -/
lemma wave_of_high (h1 : 1 ≤ x) (h3 : x ≤ 3) : wave low high x = high := by
  rw [wave_eq (by linarith) (by linarith), if_neg (not_lt.mpr h1)]
  rcases h3.lt_or_eq with hlt | rfl
  · rw [if_pos hlt]
  · norm_num

/-- The wave falls in the fourth sixth. -/
lemma wave_of_falling (h3 : 3 ≤ x) (h4 : x ≤ 4) :
    wave low high x = low + (high - low) * (4 - x) := by
  rw [wave_eq (by linarith) (by linarith), if_neg (by linarith), if_neg (not_lt.mpr h3)]
  rcases h4.lt_or_eq with hlt | rfl
  · rw [if_pos hlt]
  · norm_num

/-- The wave is lowest in the last two sixths. -/
lemma wave_of_low (h4 : 4 ≤ x) (h6 : x ≤ 6) : wave low high x = low := by
  rcases h6.lt_or_eq with hlt | rfl
  · rw [wave_eq (by linarith) hlt, if_neg (by linarith), if_neg (by linarith),
      if_neg (not_lt.mpr h4)]
  · have hstart := wave_add_six low high 0
    rw [zero_add, wave_of_rising le_rfl zero_le_one, mul_zero, add_zero] at hstart
    exact hstart

end Hsl

/-! ## Places on the circle -/

/-- By what part of the distance of the least and the greatest channel a channel is above the least
one. -/
def part (low high x : ℚ) : ℚ :=
  (x - low) / (high - low)

section part

variable {low high x : ℚ}

lemma part_nonneg (h : low < high) (hlow : low ≤ x) : 0 ≤ part low high x :=
  div_nonneg (sub_nonneg.mpr hlow) (sub_pos.mpr h).le

lemma part_pos (h : low < high) (hlow : low < x) : 0 < part low high x :=
  div_pos (sub_pos.mpr hlow) (sub_pos.mpr h)

lemma part_le_one (h : low < high) (hhigh : x ≤ high) : part low high x ≤ 1 :=
  (div_le_one (sub_pos.mpr h)).mpr (sub_le_sub_right hhigh low)

lemma low_add_part (h : low < high) : low + (high - low) * part low high x = x := by
  unfold part
  rw [mul_div_cancel₀ _ (sub_pos.mpr h).ne', add_sub_cancel]

/-- A channel is found on the rising side of the wave. -/
lemma wave_part (h : low < high) (hlow : low ≤ x) (hhigh : x ≤ high) :
    Hsl.wave low high (part low high x) = x := by
  rw [Hsl.wave_of_rising (part_nonneg h hlow) (part_le_one h hhigh), low_add_part h]

/-- A channel is found on the falling side of the wave. -/
lemma wave_four_sub_part (h : low < high) (hlow : low ≤ x) (hhigh : x ≤ high) :
    Hsl.wave low high (4 - part low high x) = x := by
  have hnonneg := part_nonneg h hlow
  have hone := part_le_one h hhigh
  rw [Hsl.wave_of_falling (by linarith) (by linarith), sub_sub_cancel, low_add_part h]

end part

/-- A place on the circle of hues, in sixths, and the channels there.  In each sixth one channel is
the least, one is the greatest, and the third moves from the one to the other. -/
inductive OnCircle (low high : ℚ) : (r g b place : ℚ) → Prop
  | redToYellow {x : ℚ} : low ≤ x → x ≤ high → OnCircle low high high x low (part low high x)
  | yellowToGreen {x : ℚ} : low ≤ x → x ≤ high →
      OnCircle low high x high low (2 - part low high x)
  | greenToCyan {x : ℚ} : low ≤ x → x ≤ high → OnCircle low high low high x (2 + part low high x)
  | cyanToBlue {x : ℚ} : low ≤ x → x ≤ high → OnCircle low high low x high (4 - part low high x)
  | blueToMagenta {x : ℚ} : low ≤ x → x ≤ high →
      OnCircle low high x low high (4 + part low high x)
  | magentaToRed {x : ℚ} : low < x → x ≤ high → OnCircle low high high low x (6 - part low high x)

namespace OnCircle

variable {low high r g b place : ℚ}

/-- All places lie in the first turn. -/
lemma bounds (h : low < high) (hplace : OnCircle low high r g b place) :
    0 ≤ place ∧ place < 6 := by
  cases hplace with
  | redToYellow hlow hhigh | yellowToGreen hlow hhigh | greenToCyan hlow hhigh
  | cyanToBlue hlow hhigh | blueToMagenta hlow hhigh =>
    have hnonneg := part_nonneg h hlow
    have hone := part_le_one h hhigh
    constructor <;> linarith
  | magentaToRed hlow hhigh =>
    have hpos := part_pos h hlow
    have hone := part_le_one h hhigh
    constructor <;> linarith

/-- The channels are the values of the wave at the place and a third of the circle from it. -/
lemma wave (h : low < high) (hplace : OnCircle low high r g b place) :
    Hsl.wave low high (place + 2) = r ∧ Hsl.wave low high place = g ∧
      Hsl.wave low high (place - 2) = b := by
  -- places before the start of the circle or behind its end are moved by a turn
  have hback : ∀ y, Hsl.wave low high y = Hsl.wave low high (y - 6) := fun y => by
    rw [← Hsl.wave_add_six low high (y - 6), sub_add_cancel]
  cases hplace with
  | redToYellow hlow hhigh =>
    have hnonneg := part_nonneg h hlow
    have hone := part_le_one h hhigh
    refine ⟨Hsl.wave_of_high (by linarith) (by linarith), wave_part h hlow hhigh, ?_⟩
    rw [← Hsl.wave_add_six]
    exact Hsl.wave_of_low (by linarith) (by linarith)
  | yellowToGreen hlow hhigh =>
    have hnonneg := part_nonneg h hlow
    have hone := part_le_one h hhigh
    refine ⟨?_, Hsl.wave_of_high (by linarith) (by linarith), ?_⟩
    · have hfour : 2 - part low high r + 2 = 4 - part low high r := by ring
      rw [hfour, wave_four_sub_part h hlow hhigh]
    · rw [← Hsl.wave_add_six]
      exact Hsl.wave_of_low (by linarith) (by linarith)
  | greenToCyan hlow hhigh =>
    have hnonneg := part_nonneg h hlow
    have hone := part_le_one h hhigh
    refine ⟨Hsl.wave_of_low (by linarith) (by linarith),
      Hsl.wave_of_high (by linarith) (by linarith), ?_⟩
    rw [add_sub_cancel_left, wave_part h hlow hhigh]
  | cyanToBlue hlow hhigh =>
    have hnonneg := part_nonneg h hlow
    have hone := part_le_one h hhigh
    exact ⟨Hsl.wave_of_low (by linarith) (by linarith), wave_four_sub_part h hlow hhigh,
      Hsl.wave_of_high (by linarith) (by linarith)⟩
  | blueToMagenta hlow hhigh =>
    have hnonneg := part_nonneg h hlow
    have hone := part_le_one h hhigh
    refine ⟨?_, Hsl.wave_of_low (by linarith) (by linarith),
      Hsl.wave_of_high (by linarith) (by linarith)⟩
    have hturn : 4 + part low high r + 2 = part low high r + 6 := by ring
    rw [hturn, Hsl.wave_add_six, wave_part h hlow hhigh]
  | magentaToRed hlow hhigh =>
    have hnonneg := part_nonneg h hlow.le
    have hone := part_le_one h hhigh
    refine ⟨?_, Hsl.wave_of_low (by linarith) (by linarith), ?_⟩
    · rw [hback]
      exact Hsl.wave_of_high (by linarith) (by linarith)
    · have hfour : 6 - part low high b - 2 = 4 - part low high b := by ring
      rw [hfour, wave_four_sub_part h hlow.le hhigh]

end OnCircle

/-! ## Hue -/

/-- The hue of a color that is no grey is its place on the circle; no zero is divided by. -/
theorem Rgba.exists_hueSixths {c : Rgba ℚ} {low high : ℚ} (h : low < high)
    (hlow : min (min c.r c.g) c.b = low) (hhigh : max (max c.r c.g) c.b = high) :
    ∃ place, c.hueSixths high (high - low) = .ok place ∧
      OnCircle low high c.r c.g c.b place := by
  have hne : high - low ≠ 0 := (sub_pos.mpr h).ne'
  have hr : low ≤ c.r ∧ c.r ≤ high := by grind
  have hg : low ≤ c.g ∧ c.g ≤ high := by grind
  have hb : low ≤ c.b ∧ c.b ≤ high := by grind
  unfold Rgba.hueSixths
  rw [divide_of_ne hne, divide_of_ne hne, divide_of_ne hne]
  by_cases hred : high = c.r
  · rw [if_pos (same_rat.mpr hred)]
    refine ⟨_, rfl, ?_⟩
    by_cases hcase : c.g < c.b
    · have hlowest : low = c.g := by grind
      have hplace : (c.g - c.b) / (high - low) + (6 : ℕ) = 6 - part low high c.b := by
        rw [part, hlowest]
        push_cast
        ring
      rw [if_pos hcase, ofNat_rat, hplace, ← hred, ← hlowest]
      exact .magentaToRed (hlowest ▸ hcase) hb.2
    · have hlowest : low = c.b := by grind
      have hplace : (c.g - c.b) / (high - low) + (0 : ℕ) = part low high c.g := by
        rw [part, hlowest, Nat.cast_zero, add_zero]
      rw [if_neg hcase, ofNat_rat, hplace, ← hred, ← hlowest]
      exact .redToYellow hg.1 hg.2
  · rw [if_neg fun hsame => hred (same_rat.mp hsame)]
    by_cases hgreen : high = c.g
    · rw [if_pos (same_rat.mpr hgreen)]
      refine ⟨_, rfl, ?_⟩
      rcases le_or_gt c.r c.b with hcase | hcase
      · have hlowest : low = c.r := by grind
        have hplace : (c.b - c.r) / (high - low) + (2 : ℕ) = 2 + part low high c.b := by
          rw [part, hlowest, add_comm, Nat.cast_ofNat]
        rw [ofNat_rat, hplace, ← hgreen, ← hlowest]
        exact .greenToCyan hb.1 hb.2
      · have hlowest : low = c.b := by grind
        have hplace : (c.b - c.r) / (high - low) + (2 : ℕ) = 2 - part low high c.r := by
          rw [part, hlowest]
          push_cast
          ring
        rw [ofNat_rat, hplace, ← hgreen, ← hlowest]
        exact .yellowToGreen hr.1 hr.2
    · rw [if_neg fun hsame => hgreen (same_rat.mp hsame)]
      have hblue : high = c.b := by grind
      refine ⟨_, rfl, ?_⟩
      rcases le_or_gt c.g c.r with hcase | hcase
      · have hlowest : low = c.g := by grind
        have hplace : (c.r - c.g) / (high - low) + (4 : ℕ) = 4 + part low high c.r := by
          rw [part, hlowest, add_comm, Nat.cast_ofNat]
        rw [ofNat_rat, hplace, ← hblue, ← hlowest]
        exact .blueToMagenta hr.1 hr.2
      · have hlowest : low = c.r := by grind
        have hplace : (c.r - c.g) / (high - low) + (4 : ℕ) = 4 - part low high c.g := by
          rw [part, hlowest]
          push_cast
          ring
        rw [ofNat_rat, hplace, ← hblue, ← hlowest]
        exact .cyanToBlue hg.1 hg.2

/-! ## Saturation and lightness -/

/-- What the distance of the least and the greatest channel is measured by: the greatest distance
that the lightness of the color allows. -/
def Hsl.range (low high : ℚ) : ℚ :=
  if 1 / 2 < (high + low) / 2 then 2 - high - low else high + low

/-- The least and the greatest channel of a color that is no grey. -/
structure Chroma (low high : ℚ) : Prop where
  nonneg : 0 ≤ low
  lt : low < high
  le_one : high ≤ 1

namespace Chroma

variable {low high : ℚ}

/-- No distance is greater than the range. -/
lemma sub_le_range (h : Chroma low high) : high - low ≤ Hsl.range low high := by
  obtain ⟨hnonneg, _, hone⟩ := h
  unfold Hsl.range
  split_ifs <;> linarith

lemma range_pos (h : Chroma low high) : 0 < Hsl.range low high :=
  (sub_pos.mpr h.lt).trans_le h.sub_le_range

lemma saturation_pos (h : Chroma low high) : 0 < (high - low) / Hsl.range low high :=
  div_pos (sub_pos.mpr h.lt) h.range_pos

lemma saturation_le_one (h : Chroma low high) : (high - low) / Hsl.range low high ≤ 1 :=
  (div_le_one h.range_pos).mpr h.sub_le_range

/-- The greatest channel is found again from saturation and lightness. -/
lemma high_eq (h : Chroma low high) {saturation lightness : ℚ}
    (hs : (high - low) / Hsl.range low high = saturation) (hl : (high + low) / 2 = lightness) :
    (if lightness < 1 / 2 then lightness * (1 + saturation)
      else lightness + saturation - lightness * saturation) = high := by
  have hmul : saturation * Hsl.range low high = high - low := by
    rw [← hs, div_mul_cancel₀ _ h.range_pos.ne']
  unfold Hsl.range at hmul
  rw [hl] at hmul
  have hdouble : high + low = 2 * lightness := by linarith
  split_ifs at hmul ⊢ with hdark hlight hlight
  · exact absurd hdark (not_lt.mpr hlight.le)
  · rw [hdouble] at hmul
    linarith
  · have hrest : 2 - high - low = 2 - 2 * lightness := by linarith
    rw [hrest] at hmul
    linarith
  · have hhalf : lightness = 1 / 2 := le_antisymm (not_lt.mp hlight) (not_lt.mp hdark)
    rw [hdouble] at hmul
    rw [hhalf] at hmul hdouble ⊢
    linarith

end Chroma

/-! ## There and back -/

namespace Rgba

/-- The hue, saturation and lightness of a grey, whose channels are all the same. -/
lemma toHsl_grey (x a : ℚ) : (⟨x, x, x, a⟩ : Rgba ℚ).toHsl = .ok ⟨0, 0, x⟩ := by
  have hlightness : (x + x) / ((2 : ℕ) : ℚ) = x := by
    push_cast
    ring
  unfold toHsl
  simp only [larger_rat, smaller_rat, max_self, min_self, ofNat_rat, hlightness]
  rw [if_pos (same_rat.mpr rfl)]
  rfl

/-- The hue, saturation and lightness of a color that is no grey. -/
lemma exists_toHsl {c : Rgba ℚ} {low high : ℚ} (h : Chroma low high)
    (hlow : min (min c.r c.g) c.b = low) (hhigh : max (max c.r c.g) c.b = high) :
    ∃ place, OnCircle low high c.r c.g c.b place ∧
      c.toHsl = .ok ⟨place * 60, (high - low) / Hsl.range low high, (high + low) / 2⟩ := by
  obtain ⟨place, hplace, hcircle⟩ := exists_hueSixths h.lt hlow hhigh
  refine ⟨place, hcircle, ?_⟩
  have hdivide : divide (high - low) (if ratio 1 2 < (high + low) / ofNat 2 then
      ofNat 2 - high - low else high + low) = .ok ((high - low) / Hsl.range low high) := by
    rw [ratio_rat, ofNat_rat]
    push_cast
    exact divide_of_ne h.range_pos.ne'
  unfold toHsl
  simp only [larger_rat, smaller_rat, hlow, hhigh]
  rw [if_neg fun hsame => h.lt.ne' (same_rat.mp hsame), hplace, hdivide]
  rfl

/-- A place on the circle with a saturation and a lightness is the color there. -/
lemma toRgba_onCircle {low high r g b place : ℚ} (h : Chroma low high)
    (hplace : OnCircle low high r g b place) (alpha : ℚ) :
    Hsl.toRgba ⟨place * 60, (high - low) / Hsl.range low high, (high + low) / 2⟩ alpha =
      ⟨r, g, b, alpha⟩ := by
  obtain ⟨hred, hgreen, hblue⟩ := hplace.wave h.lt
  obtain ⟨hnonneg, hsix⟩ := hplace.bounds h.lt
  generalize hs : (high - low) / Hsl.range low high = saturation
  generalize hl : (high + low) / 2 = lightness
  have hhigh := h.high_eq hs hl
  have hlow : 2 * lightness - high = low := by linarith
  have hcolored : ¬ same saturation (ofNat 0) = true := fun hsame => by
    rw [same_rat, ofNat_rat, Nat.cast_zero, ← hs] at hsame
    exact h.saturation_pos.ne' hsame
  have hturn : remainder (place * 60) 360 / (ofNat 360 : ℚ) = place / 6 := by
    have hpart : place * 60 / ((360 : ℕ) : ℚ) = place / 6 := by
      push_cast
      ring
    rw [remainder_rat (by decide), ofNat_rat, hpart,
      Int.fract_eq_self.mpr ⟨by linarith, by linarith⟩]
    push_cast
    ring
  have hhalf : (ratio 1 2 : ℚ) = 1 / 2 := by
    rw [ratio_rat, Nat.cast_one, Nat.cast_ofNat]
  have hthird : (ratio 1 3 : ℚ) = 1 / 3 := by
    rw [ratio_rat, Nat.cast_one, Nat.cast_ofNat]
  have hbefore : place / 6 + 1 / 3 = (place + 2) / 6 := by ring
  have hafter : place / 6 - 1 / 3 = (place - 2) / 6 := by ring
  unfold Hsl.toRgba
  dsimp only
  rw [if_neg hcolored, hturn, hhalf, hthird, ofNat_rat, ofNat_rat, Nat.cast_one, Nat.cast_ofNat,
    hhigh, hlow, hbefore, hafter, ← hred, ← hgreen, ← hblue]
  rfl

/-- A color with channels between 0 and 1 has a hue, a saturation and a lightness, each in its own
range, and these give the color back exactly. -/
theorem toRgba_toHsl {c : Rgba ℚ} (hr : c.r ∈ Set.Icc 0 1) (hg : c.g ∈ Set.Icc 0 1)
    (hb : c.b ∈ Set.Icc 0 1) :
    ∃ h : Hsl ℚ, c.toHsl = .ok h ∧ h.hue ∈ Set.Ico 0 360 ∧ h.saturation ∈ Set.Icc 0 1 ∧
      h.lightness ∈ Set.Icc 0 1 ∧ ∀ alpha, h.toRgba alpha = ⟨c.r, c.g, c.b, alpha⟩ := by
  generalize hlow : min (min c.r c.g) c.b = low
  generalize hhigh : max (max c.r c.g) c.b = high
  obtain ⟨hr0, hr1⟩ := hr
  obtain ⟨hg0, hg1⟩ := hg
  obtain ⟨hb0, hb1⟩ := hb
  have hnonneg : 0 ≤ low := by grind
  have hone : high ≤ 1 := by grind
  rcases (show low ≤ high by grind).lt_or_eq with hlt | heq
  · have h : Chroma low high := ⟨hnonneg, hlt, hone⟩
    obtain ⟨place, hplace, htoHsl⟩ := exists_toHsl h hlow hhigh
    obtain ⟨hplace0, hplace6⟩ := hplace.bounds hlt
    exact ⟨_, htoHsl, ⟨by linarith, by linarith⟩, ⟨h.saturation_pos.le, h.saturation_le_one⟩,
      ⟨by linarith, by linarith⟩, toRgba_onCircle h hplace⟩
  · obtain ⟨r, g, b, a⟩ := c
    dsimp only at hlow hhigh hr0 hr1 ⊢
    obtain ⟨rfl, rfl⟩ : g = r ∧ b = r := by grind
    exact ⟨_, toHsl_grey _ a, ⟨le_rfl, by norm_num⟩, ⟨le_rfl, zero_le_one⟩, ⟨hr0, hr1⟩,
      fun alpha => rfl⟩

/-- A rose has its greatest channel first and its least one second, so that its hue is not far from
the end of the circle. -/
theorem toRgba_toHsl_rose :
    (3 / 4 : ℚ) ∈ Set.Icc 0 1 ∧ (1 / 4 : ℚ) ∈ Set.Icc 0 1 ∧ (1 / 2 : ℚ) ∈ Set.Icc 0 1 ∧
      (⟨3 / 4, 1 / 4, 1 / 2, 1⟩ : Rgba ℚ).toHsl = .ok ⟨330, 1 / 2, 1 / 2⟩ ∧
      Hsl.toRgba ⟨330, 1 / 2, 1 / 2⟩ 1 = (⟨3 / 4, 1 / 4, 1 / 2, 1⟩ : Rgba ℚ) := by
  have hr : (3 / 4 : ℚ) ∈ Set.Icc 0 1 := ⟨by norm_num, by norm_num⟩
  have hg : (1 / 4 : ℚ) ∈ Set.Icc 0 1 := ⟨by norm_num, by norm_num⟩
  have hb : (1 / 2 : ℚ) ∈ Set.Icc 0 1 := ⟨by norm_num, by norm_num⟩
  have hrose : (⟨3 / 4, 1 / 4, 1 / 2, 1⟩ : Rgba ℚ).toHsl = .ok ⟨330, 1 / 2, 1 / 2⟩ := by
    with_unfolding_all rfl
  obtain ⟨h, htoHsl, _, _, _, hback⟩ := toRgba_toHsl (c := ⟨3 / 4, 1 / 4, 1 / 2, 1⟩) hr hg hb
  obtain rfl : ⟨330, 1 / 2, 1 / 2⟩ = h := Except.ok.inj (hrose.symm.trans htoHsl)
  exact ⟨hr, hg, hb, hrose, hback 1⟩

end Rgba

end DesignTokens

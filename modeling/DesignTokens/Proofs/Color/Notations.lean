import DesignTokens.Proofs.Color.Forms
import DesignTokens.Proofs.Color.HueCircle
import DesignTokens.Proofs.Decimal.FixedPlaces
import Mathlib.Tactic.NormNum

/-!
# Colors that are read back

A color is written with its channels as bytes, and with its alpha as a byte or in thousandths.  What
is read back is the color with these steps for channels (`Rgba.stepped`), and writing this color
gives the same text again (`Rgba.parse?_render`): a step is its own nearest step, and the alpha is
left out of both texts or of neither.
-/

namespace DesignTokens

open Text (isSpace hexValue? hexDigit hexDigits)
open Scalar

/-! ## Texts without white space around them -/

lemma Text.trim_eq_self {cs : List Char} (hhead : ∀ c ∈ cs.head?, isSpace c = false)
    (hlast : ∀ c ∈ cs.getLast?, isSpace c = false) : trim cs = cs := by
  have hnone : ∀ c ∈ ([] : List Char), isSpace c = true := nofun
  have hstart : skipSpaces cs = cs := dropWhile_run hnone hhead
  have hend : cs.reverse.dropWhile isSpace = cs.reverse :=
    dropWhile_run hnone (List.head?_reverse ▸ hlast)
  unfold trim trimEnd
  rw [hstart, hend, List.reverse_reverse]

/-! ## Steps -/

namespace Rgba

/-- The byte of a rational channel. -/
def byteOf (x : ℚ) : ℕ :=
  min 255 ⌊x * 255 + 1 / 2⌋.toNat

@[simp] lemma byte_rat (x : ℚ) : byte x = .ok (byteOf x) := by
  show Except.ok (min 255 ⌊x * ((255 : ℕ) : ℚ) + ((1 : ℕ) : ℚ) / ((2 : ℕ) : ℚ)⌋.toNat) = _
  push_cast
  rfl

lemma byteOf_lt (x : ℚ) : byteOf x < 256 :=
  (min_le_left _ _).trans_lt (by decide)

/-- A step of 256 is its own nearest step. -/
lemma byteOf_step {n : ℕ} (hn : n < 256) : byteOf (n / 255) = n := by
  have hfloor : ⌊(n : ℚ) / 255 * 255 + 1 / 2⌋ = n := by
    rw [div_mul_cancel₀ _ (by norm_num), Int.floor_eq_iff]
    push_cast
    constructor <;> linarith
  unfold byteOf
  rw [hfloor, Int.toNat_natCast]
  omega

/-- The thousandths of an alpha, as it is written with three decimal places. -/
def thousandths (x : ℚ) : ℕ :=
  Decimal.roundDiv (x.num.natAbs * 1000) x.den

/-- A thousandth is its own nearest thousandth. -/
lemma thousandths_step (n : ℕ) : thousandths (n / 1000) = n := by
  generalize hx : (n : ℚ) / 1000 = x
  have hnum : x.num.natAbs * 1000 = n * x.den := by
    have hnonneg : 0 ≤ x := by
      rw [← hx]
      positivity
    have hcross : (x.num : ℚ) * 1000 = n * x.den := by
      have hvalue : (x.num : ℚ) = x * x.den := (Rat.mul_den_eq_num x).symm
      rw [hvalue, ← hx]
      ring
    have hint : x.num * 1000 = n * x.den := by exact_mod_cast hcross
    have habs : (x.num.natAbs : ℤ) = x.num := Int.natAbs_of_nonneg (Rat.num_nonneg.mpr hnonneg)
    omega
  unfold thousandths
  rw [hnum, Decimal.roundDiv_mul n x.pos]

end Rgba

/-- The rational numbers without a polar form; neither notation asks for one. -/
@[reducible] def Polar.unknown : Polar ℚ where
  toOklch := fun _ => .error (.number .infiniteAngle)
  ofOklch := fun _ _ => .error (.number .infiniteAngle)

/-- An alpha as a notation keeps it: in bytes or in thousandths. -/
def ColorFormat.roundedAlpha : ColorFormat → ℚ → ℚ
  | .hex, a => Rgba.byteOf a / 255
  | _, a => Rgba.thousandths a / 1000

/-- A color as a notation keeps it; an alpha that is not below 1 is left out. -/
def Rgba.stepped (format : ColorFormat) (c : Rgba ℚ) : Rgba ℚ :=
  { r := byteOf c.r / 255
    g := byteOf c.g / 255
    b := byteOf c.b / 255
    a := if c.a < 1 then format.roundedAlpha c.a else 1 }

/-! ## Hexadecimal notation -/

namespace Rgba

/-- The bytes that hexadecimal notation writes. -/
def hexBytes (c : Rgba ℚ) : List ℕ :=
  [byteOf c.r, byteOf c.g, byteOf c.b] ++ if c.a < 1 then [byteOf c.a] else []

lemma mapM_byte (channels : List ℚ) : channels.mapM byte = .ok (channels.map byteOf) := by
  have hbyte : (byte : ℚ → Except Fault ℕ) = fun x => pure (byteOf x) := funext byte_rat
  rw [hbyte, List.mapM_pure]
  rfl

/-- The text that is written in hexadecimal notation. -/
def hexText (c : Rgba ℚ) : String :=
  String.ofList ('#' :: c.hexBytes.flatMap (hexDigits 2))

lemma toHex_eq (c : Rgba ℚ) : c.toHex = .ok c.hexText := by
  unfold toHex hexText hexBytes
  dsimp only
  rw [ofNat_rat, Nat.cast_one, mapM_byte]
  split_ifs <;> rfl

end Rgba

namespace ColorText

/-- The values of the two hexadecimal digits of a byte. -/
def halves (n : ℕ) : List ℕ :=
  [n / 16 % 16, n % 16]

lemma mapM_hexValue? (bytes : List ℕ) :
    (bytes.flatMap (hexDigits 2)).mapM hexValue? = some (bytes.flatMap halves) := by
  have hvalue : ∀ k, hexValue? (hexDigit (k % 16)) = some (k % 16) :=
    fun k => Text.hexValue?_hexDigit (Nat.mod_lt k (by decide))
  induction bytes with
  | nil => rfl
  | cons n bytes ih =>
    have hpair : hexDigits 2 n = [hexDigit (n / 16 % 16), hexDigit (n % 16)] := rfl
    rw [List.flatMap_cons, hpair, List.flatMap_cons]
    simp only [List.cons_append, List.nil_append, List.mapM_cons, hvalue, ih]
    rfl

/-- Two digits spell the channel of their byte. -/
lemma hexChannel_halves {n : ℕ} (hn : n < 256) : (hexChannel (halves n) : ℚ) = n / 255 := by
  have hvalue : (16 * (16 * 0 + n / 16 % 16) + n % 16) = n := by omega
  show ((16 * (16 * 0 + n / 16 % 16) + n % 16 : ℕ) : ℚ) / ((255 : ℕ) : ℚ) = _
  rw [hvalue, Nat.cast_ofNat]

/-- The digits of the bytes of a color denote the color with these bytes. -/
lemma ofHexDigits_hexBytes (c : Rgba ℚ) :
    (ofHexDigits (c.hexBytes.flatMap halves) : Rgba ℚ) = c.stepped .hex := by
  have hchannel : ∀ x, (hexChannel (halves (Rgba.byteOf x)) : ℚ) = Rgba.byteOf x / 255 :=
    fun x => hexChannel_halves (Rgba.byteOf_lt x)
  unfold Rgba.hexBytes Rgba.stepped ColorFormat.roundedAlpha
  split_ifs
  · show (⟨hexChannel (halves (Rgba.byteOf c.r)), hexChannel (halves (Rgba.byteOf c.g)),
      hexChannel (halves (Rgba.byteOf c.b)), hexChannel (halves (Rgba.byteOf c.a))⟩ : Rgba ℚ) = _
    rw [hchannel, hchannel, hchannel, hchannel]
  · show (⟨hexChannel (halves (Rgba.byteOf c.r)), hexChannel (halves (Rgba.byteOf c.g)),
      hexChannel (halves (Rgba.byteOf c.b)), ofNat 1⟩ : Rgba ℚ) = _
    rw [hchannel, hchannel, hchannel, ofNat_rat, Nat.cast_one]

lemma length_hexBytes (c : Rgba ℚ) :
    (c.hexBytes.flatMap halves).length = 6 ∨ (c.hexBytes.flatMap halves).length = 8 := by
  unfold Rgba.hexBytes
  split_ifs
  · exact Or.inr rfl
  · exact Or.inl rfl

lemma trim_hexText (c : Rgba ℚ) : Text.trim c.hexText.toList = c.hexText.toList := by
  have hdigit : ∀ k < 16, isSpace (hexDigit k) = false := by decide
  have hall : ∀ d ∈ '#' :: c.hexBytes.flatMap (hexDigits 2), isSpace d = false := by
    intro d hd
    rcases List.mem_cons.mp hd with rfl | hd
    · decide
    · obtain ⟨n, _, hn⟩ := List.mem_flatMap.mp hd
      have hpair : hexDigits 2 n = [hexDigit (n / 16 % 16), hexDigit (n % 16)] := rfl
      rw [hpair] at hn
      rcases List.mem_pair.mp hn with rfl | rfl
      · exact hdigit _ (Nat.mod_lt _ (by decide))
      · exact hdigit _ (Nat.mod_lt _ (by decide))
  unfold Rgba.hexText
  rw [String.toList_ofList]
  exact Text.trim_eq_self (fun d hd => hall d (List.mem_of_mem_head? hd))
    (fun d hd => hall d (List.mem_of_mem_getLast? hd))

/-- The text in hexadecimal notation has the digits of the bytes. -/
lemma hex?_hexText (c : Rgba ℚ) :
    hex? c.hexText.toList = some (.hex (c.hexBytes.flatMap halves)) := by
  unfold Rgba.hexText
  rw [String.toList_ofList]
  refine (hex?_of_digits (Or.inr rfl) (mapM_hexValue? _)).trans ?_
  rw [if_neg (by have := length_hexBytes c; omega), if_pos (length_hexBytes c)]

end ColorText

/-! ## Bytes and thousandths in decimal digits -/

namespace ColorText

open Decimal (digitsOf placePoint)

lemma ofDecimal_rat (digits places : ℕ) :
    (ofDecimal digits (-places) : ℚ) = digits / 10 ^ places := by
  show ratOfDecimal digits (-places) = _
  unfold ratOfDecimal
  rw [Rat.mkRat_eq_div]
  simp [tenTo]

/-- The number that decimal digits denote. -/
lemma number_digitsOf (n : ℕ) : (number (digitsOf n) : Except Fault ℚ) = .ok n := by
  have hrun : IsRun Text.isDecimal (digitsOf n) :=
    ⟨Nat.toDigits_ne_nil, fun _ => Decimal.isDecimal_of_mem_digitsOf⟩
  unfold number
  rw [ofChars?_whole hrun]
  show Except.ok (ofDecimal (Decimal.natOfDigits (digitsOf n ++ [])) (-(0 : ℕ))) = _
  rw [ofDecimal_rat, List.append_nil, Decimal.natOfDigits_digitsOf, pow_zero, div_one]

/-- The number that digits with three decimal places denote. -/
lemma number_placePoint (n : ℕ) :
    (number (placePoint 3 (digitsOf n)) : Except Fault ℚ) = .ok (n / 1000) := by
  obtain ⟨fraction, htext, hfraction, hlength, hvalue⟩ :=
    Decimal.exists_placePoint (show 3 ≠ 0 by decide) n
  unfold number
  rw [htext, ofChars?_point (fun _ => Decimal.isDecimal_of_mem_digitsOf)
    (fun c hc => Text.isDecimal_of_isDigit (hfraction c hc)) (Or.inl Nat.toDigits_ne_nil)]
  show Except.ok (ofDecimal (Decimal.natOfDigits (digitsOf (n / 10 ^ 3) ++ fraction))
    (0 - (fraction.length : ℤ))) = _
  rw [hvalue, hlength, zero_sub, ofDecimal_rat]
  norm_num

lemma isRun_digitsOf (n : ℕ) : IsRun isNumeralChar (digitsOf n) :=
  ⟨Nat.toDigits_ne_nil, fun c hc => by
    unfold isNumeralChar
    rw [Decimal.isDecimal_of_mem_digitsOf hc, Bool.true_or]⟩

lemma isRun_placePoint (n : ℕ) : IsRun isNumeralChar (placePoint 3 (digitsOf n)) := by
  obtain ⟨fraction, htext, hfraction, _⟩ := Decimal.exists_placePoint (show 3 ≠ 0 by decide) n
  rw [htext]
  refine ⟨List.append_ne_nil_of_left_ne_nil Nat.toDigits_ne_nil _, fun c hc => ?_⟩
  unfold isNumeralChar
  simp only [List.mem_append, List.mem_cons] at hc
  rcases hc with hc | rfl | hc
  · rw [Decimal.isDecimal_of_mem_digitsOf hc, Bool.true_or]
  · rfl
  · rw [Text.isDecimal_of_isDigit (hfraction c hc), Bool.true_or]

/-- A numeral behind white space. -/
lemma spaced_of_isRun {blank numeral : List Char} (hblank : IsBlank blank)
    (hrun : IsRun isNumeralChar numeral) : Spaced [] numeral (blank ++ numeral) := by
  have hnone : IsBlank [] := nofun
  have hspaced : Spaced [] numeral (blank ++ (numeral ++ ([] ++ []))) := .intro hblank hrun hnone
  simpa using hspaced

end ColorText

/-! ## Notation by channels -/

namespace Rgba

open Decimal (digitsOf placePoint)
open ColorText

/-- The text that is written for the channels of a color. -/
def channelText (c : Rgba ℚ) : String :=
  callText "rgb" ([byteOf c.r, byteOf c.g, byteOf c.b].map toString) c.a

/-- The form that is written for the channels of a color. -/
def rgbForm (c : Rgba ℚ) : ColorText :=
  .rgb (digitsOf (byteOf c.r)) (digitsOf (byteOf c.g)) (digitsOf (byteOf c.b))
    (if c.a < 1 then some (placePoint 3 (digitsOf (thousandths c.a))) else none)

lemma toRgbText_eq (c : Rgba ℚ) : c.toRgbText = .ok c.channelText := by
  unfold toRgbText
  rw [mapM_byte]
  rfl

/-- An alpha that is not negative is written in thousandths. -/
lemma fixedText_of_nonneg {x : ℚ} (hx : 0 ≤ x) :
    fixedText 3 x = String.ofList (placePoint 3 (digitsOf (thousandths x))) := by
  show String.ofList (Decimal.signed (x < 0) _) = _
  rw [decide_eq_false (not_lt.mpr hx)]
  rfl

/-- The written text has the form of the channels. -/
lemma spells_rgbForm {c : Rgba ℚ} (ha : 0 ≤ c.a) : c.rgbForm.Spells c.channelText.toList := by
  have hword : IsWord "rgb".toList "rgb".toList := by
    show List.Forall₂ _ ['r', 'g', 'b'] ['r', 'g', 'b']
    exact .cons rfl (.cons rfl (.cons rfl .nil))
  have hblank : IsBlank [' '] := by simp [IsBlank, isSpace]
  have hnone : IsBlank [] := nofun
  have hfirst := fun x => spaced_of_isRun hnone (isRun_digitsOf (byteOf x))
  have hnext := fun x => spaced_of_isRun hblank (isRun_digitsOf (byteOf x))
  unfold channelText callText rgbForm
  rw [ofNat_rat, Nat.cast_one]
  split_ifs with hclear
  · have hspells := Spells.rgb (.withAlpha (c := 'a') hword rfl) (hfirst c.r) (hnext c.g) (hnext c.b)
      (.withAlpha (spaced_of_isRun hblank (isRun_placePoint (thousandths c.a))))
    rw [fixedText_of_nonneg ha]
    simpa [String.toList_intercalate, digitsOf] using hspells
  · have hspells := Spells.rgb (.plain hword) (hfirst c.r) (hnext c.g) (hnext c.b) .plain
    simpa [String.toList_intercalate, digitsOf] using hspells

/-- The text of channels begins with its name and ends with a parenthesis. -/
lemma trim_channelText (c : Rgba ℚ) : Text.trim c.channelText.toList = c.channelText.toList := by
  have hlast : ∀ s : String, (s ++ ")").toList.getLast? = some ')' := by simp
  unfold channelText callText
  apply Text.trim_eq_self
  · split_ifs <;> simp [isSpace]
  · split_ifs <;> rw [hlast] <;> rintro _ ⟨⟩ <;> decide

/-- The form of the channels denotes the color with these steps. -/
lemma toRgba_rgbForm [Polar ℚ] {format : ColorFormat} (hformat : format = .rgb ∨ format = .rgba)
    (c : Rgba ℚ) : c.rgbForm.toRgba = .ok (c.stepped format) := by
  have hchannel : ∀ x, clampUnit ((byteOf x : ℚ) / ofNat 255) = byteOf x / 255 := by
    intro x
    have hbyte : (byteOf x : ℚ) ≤ 255 := by exact_mod_cast Nat.le_of_lt_succ (byteOf_lt x)
    unfold clampUnit
    rw [larger_rat, smaller_rat, ofNat_rat, ofNat_rat, ofNat_rat, Nat.cast_zero, Nat.cast_one,
      Nat.cast_ofNat, max_eq_right (by positivity), min_eq_right]
    rw [div_le_one (by norm_num)]
    exact hbyte
  have halpha : format.roundedAlpha c.a = thousandths c.a / 1000 := by
    rcases hformat with rfl | rfl <;> rfl
  unfold rgbForm stepped ColorText.toRgba
  split_ifs
  · simp only [number_digitsOf, alphaValue, number_placePoint, halpha, ← hchannel]
    rfl
  · simp only [number_digitsOf, alphaValue, ofNat_rat, Nat.cast_one, ← hchannel]
    rfl

/-! ## There and back -/

/-- An alpha that does not round to 1 is left out of both texts or of neither. -/
lemma stepped_a_lt_one_iff {format : ColorFormat} {c : Rgba ℚ}
    (halpha : c.a = 1 ∨ format.roundedAlpha c.a < 1) : (c.stepped format).a < 1 ↔ c.a < 1 := by
  unfold stepped
  dsimp only
  split_ifs with hclear
  · simp [hclear, halpha.resolve_left hclear.ne]
  · simp [hclear]

/-- The nearest steps of a color have the text of the color in hexadecimal notation. -/
lemma hexText_stepped {c : Rgba ℚ} (halpha : c.a = 1 ∨ ColorFormat.hex.roundedAlpha c.a < 1) :
    (c.stepped .hex).hexText = c.hexText := by
  have hiff := stepped_a_lt_one_iff halpha
  unfold hexText hexBytes
  split_ifs with hstepped hclear hclear
  · have ha : (c.stepped .hex).a = byteOf c.a / 255 := if_pos hclear
    rw [ha]
    simp only [stepped, byteOf_step (byteOf_lt _)]
  · exact absurd (hiff.mp hstepped) hclear
  · exact absurd (hiff.mpr hclear) hstepped
  · simp only [stepped, byteOf_step (byteOf_lt _)]

/-- The nearest steps of a color have the text of its channels. -/
lemma channelText_stepped {format : ColorFormat} (hformat : format = .rgb ∨ format = .rgba)
    {c : Rgba ℚ} (ha : 0 ≤ c.a) (halpha : c.a = 1 ∨ format.roundedAlpha c.a < 1) :
    (c.stepped format).channelText = c.channelText := by
  have hiff := stepped_a_lt_one_iff halpha
  have hbytes : [byteOf (c.stepped format).r, byteOf (c.stepped format).g,
      byteOf (c.stepped format).b] = [byteOf c.r, byteOf c.g, byteOf c.b] := by
    simp only [stepped, byteOf_step (byteOf_lt _)]
  have htext : c.a < 1 → fixedText 3 (c.stepped format).a = fixedText 3 c.a := by
    intro hclear
    have hstep : (c.stepped format).a = thousandths c.a / 1000 := by
      have hkept : (c.stepped format).a = format.roundedAlpha c.a := if_pos hclear
      rcases hformat with rfl | rfl <;> exact hkept
    rw [hstep, fixedText_of_nonneg ha, fixedText_of_nonneg (by positivity), thousandths_step]
  unfold channelText callText
  rw [hbytes, ofNat_rat, Nat.cast_one]
  split_ifs with hstepped hclear hclear
  · rw [htext hclear]
  · exact absurd (hiff.mp hstepped) hclear
  · exact absurd (hiff.mpr hclear) hstepped
  · rfl

/-- A color text that is written in hexadecimal notation or by its channels is read as the color
with the nearest steps for channels, and this color has the same text, provided that the alpha is 1
or does not become 1 by rounding.  Hexadecimal text is not changed when it is asked for again. -/
theorem parse?_render [Polar ℚ] {format : ColorFormat}
    (hformat : format = .hex ∨ format = .rgb ∨ format = .rgba) {c : Rgba ℚ} (ha : 0 ≤ c.a)
    (halpha : c.a = 1 ∨ format.roundedAlpha c.a < 1) :
    ∃ text, c.render format = .ok text ∧ parse? text = .ok (some (c.stepped format)) ∧
      (c.stepped format).render format = .ok text ∧
      (format = .hex → recolor .hex text = .ok text) := by
  rcases hformat with rfl | hchannels
  · have hread : ColorText.ofChars? (Text.trim c.hexText.toList) =
        some (.hex (c.hexBytes.flatMap ColorText.halves)) := by
      rw [ColorText.trim_hexText, ColorText.ofChars?_eq_some_iff]
      exact ColorText.spells_of_hex? (ColorText.hex?_hexText c)
    refine ⟨c.hexText, toHex_eq c, ?_, ?_, fun _ => if_pos ⟨rfl, ?_⟩⟩
    · unfold parse?
      rw [hread]
      exact congrArg (fun color => Except.ok (some color)) (ColorText.ofHexDigits_hexBytes c)
    · exact (toHex_eq _).trans (congrArg Except.ok (hexText_stepped halpha))
    · unfold ofHex?
      rw [ColorText.trim_hexText, ColorText.hex?_hexText]
      rfl
  · have hread : ColorText.ofChars? (Text.trim c.channelText.toList) = some c.rgbForm := by
      rw [trim_channelText, ColorText.ofChars?_eq_some_iff]
      exact spells_rgbForm ha
    have hrender : ∀ c' : Rgba ℚ, c'.render format = .ok c'.channelText := by
      intro c'
      rcases hchannels with rfl | rfl <;> exact toRgbText_eq c'
    refine ⟨c.channelText, hrender c, ?_, ?_, ?_⟩
    · unfold parse?
      rw [hread]
      exact congrArg (Except.map some) (toRgba_rgbForm hchannels c)
    · rw [hrender, channelText_stepped hchannels ha halpha]
    · rintro rfl
      exact absurd hchannels (by decide)

/-- A dark blue between the steps, half transparent, is read back with the nearest steps. -/
theorem parse?_render_blue :
    (ColorFormat.rgba = .hex ∨ ColorFormat.rgba = .rgb ∨ ColorFormat.rgba = .rgba) ∧
      (0 : ℚ) ≤ 1 / 2 ∧ ColorFormat.rgba.roundedAlpha (1 / 2) < 1 ∧
      @parse? ℚ _ .unknown "rgba(26, 51, 77, 0.500)" =
        .ok (some ⟨26 / 255, 51 / 255, 77 / 255, 1 / 2⟩) ∧
      @render ℚ _ .unknown .rgba ⟨26 / 255, 51 / 255, 77 / 255, 1 / 2⟩ =
        .ok "rgba(26, 51, 77, 0.500)" := by
  let _ : Polar ℚ := .unknown
  have hrounded : ColorFormat.rgba.roundedAlpha (1 / 2) < 1 := by decide +kernel
  have hsteps : (⟨1 / 10, 1 / 5, 3 / 10, 1 / 2⟩ : Rgba ℚ).stepped .rgba =
      ⟨26 / 255, 51 / 255, 77 / 255, 1 / 2⟩ := by
    unfold stepped
    rw [mk.injEq]
    decide +kernel
  have hblue : (⟨1 / 10, 1 / 5, 3 / 10, 1 / 2⟩ : Rgba ℚ).render .rgba =
      .ok "rgba(26, 51, 77, 0.500)" :=
    (toRgbText_eq _).trans (congrArg Except.ok (by decide +kernel))
  have hformat : ColorFormat.rgba = .hex ∨ ColorFormat.rgba = .rgb ∨ ColorFormat.rgba = .rgba :=
    Or.inr (Or.inr rfl)
  obtain ⟨text, hrender, hparse, hagain, _⟩ := parse?_render
    (c := ⟨1 / 10, 1 / 5, 3 / 10, 1 / 2⟩) hformat (by norm_num) (Or.inr hrounded)
  obtain rfl : text = _ := Except.ok.inj (hrender.symm.trans hblue)
  rw [hsteps] at hparse hagain
  exact ⟨hformat, by norm_num, hrounded, hparse, hagain⟩

end Rgba

end DesignTokens

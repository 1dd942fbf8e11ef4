import DesignTokens.Proofs.Color.Channels
import DesignTokens.Proofs.Color.Forms
import DesignTokens.Proofs.Faults

/-!
# What becomes of a color text

A color text is written again in hexadecimal notation or by its channels.  A text of no form stays
as it is.  The forms say nothing about where the points of a numeral stand, so that a text may have
the form of a color without being one: with `1.2.3` for a channel it is a fault.  Otherwise the only
faults are those of numbers out of range.  There are none for hexadecimal digits, for channels, which
are held between 0 and 1, and for hues with percentages that are not beyond all measure
(`recolor_outcomes`).
-/

namespace DesignTokens

open Binary64 Scalar

namespace ColorText

/-! ## Numerals of a form -/

/-- The numerals of a form. -/
def numerals : ColorText → List (List Char)
  | hex _ => []
  | rgb r g b alpha => [r, g, b] ++ alpha.toList
  | hsl hue saturation lightness alpha => [hue, saturation, lightness] ++ alpha.toList
  | oklch lightness chroma hue alpha => [lightness, chroma, hue] ++ alpha.toList

/-- All numerals of a form are numbers. -/
def HasNumbers (form : ColorText) : Prop :=
  ∀ numeral ∈ form.numerals, IsNumber numeral

/-- Numbers get out of range: a channel of a hue has no byte, or a power or the angle of a polar form
is infinite, so that it has no color. -/
def Overflows : ColorText → Prop
  | hex _ => False
  | rgb _ _ _ _ => False
  | hsl hue saturation lightness alpha => ∃ color : Color,
      (hsl hue saturation lightness alpha).toRgba = .ok color ∧
        ∃ x ∈ [color.r, color.g, color.b], isFiniteNumber (x * ofNat 255 + ratio 1 2) = false
  | oklch lightness chroma hue alpha => ∃ fault,
      ((oklch lightness chroma hue alpha).toRgba : Except Fault Color) = .error fault

/-- A form whose percentages are at most `10 ^ 100`, if it has a hue. -/
def IsModerate : ColorText → Prop
  | hex _ => True
  | rgb _ _ _ _ => True
  | hsl _ saturation lightness _ => ∀ numeral ∈ [saturation, lightness], ∀ n,
      Decimal.Numeral.ofChars? numeral = some n → (n.digits * 10 ^ n.power : ℚ) ≤ 10 ^ 100
  | oklch _ _ _ _ => False

section numerals

variable {form : ColorText} {cs numeral : List Char}

lemma Spaced.isRun {mark : List Char} (h : Spaced mark numeral cs) :
    IsRun isNumeralChar numeral := by
  obtain ⟨_, hrun, _⟩ := h
  exact hrun

lemma Closes.isRun {separator : Char} {alpha : Option (List Char)} (h : Closes separator alpha cs)
    (hnumeral : numeral ∈ alpha.toList) : IsRun isNumeralChar numeral := by
  cases h with
  | plain => cases hnumeral
  | withAlpha hspaced =>
    obtain rfl := List.mem_singleton.mp hnumeral
    exact hspaced.isRun

/-- The numerals of a form are rows of digits and points. -/
lemma Spells.isRun (h : form.Spells cs) (hnumeral : numeral ∈ form.numerals) :
    IsRun isNumeralChar numeral := by
  cases h with
  | hex | shortHex => cases hnumeral
  | rgb _ hr hg hb hclose =>
    simp only [numerals, List.mem_append, List.mem_cons, List.not_mem_nil, or_false] at hnumeral
    rcases hnumeral with (rfl | rfl | rfl) | halpha
    exacts [hr.isRun, hg.isRun, hb.isRun, hclose.isRun halpha]
  | hsl _ hhue hs hl hclose =>
    simp only [numerals, List.mem_append, List.mem_cons, List.not_mem_nil, or_false] at hnumeral
    rcases hnumeral with (rfl | rfl | rfl) | halpha
    exacts [hhue.isRun, hs.isRun, hl.isRun, hclose.isRun halpha]
  | oklch _ _ hl _ hc _ hhue _ hclose =>
    simp only [numerals, List.mem_append, List.mem_cons, List.not_mem_nil, or_false] at hnumeral
    rcases hnumeral with (rfl | rfl | rfl) | halpha
    exacts [hl, hc, hhue, hclose.isRun halpha]

/-- A computation that has a result if something is a number, and otherwise fails because of a
malformed numeral. -/
structure NeedsNumber {α : Type} (P : Prop) (x : Except Fault α) : Prop where
  ok : P → ∃ a, x = .ok a
  error : ¬ P → x = .error (.number .malformedNumeral)

/-- A sequence fails because of a malformed numeral if there is one in its first part or in the rest
of it. -/
lemma NeedsNumber.bind {α β : Type} {P Q : Prop} {x : Except Fault α} {f : α → Except Fault β}
    (hx : NeedsNumber P x) (hf : ∀ a, ¬ Q → f a = .error (.number .malformedNumeral))
    (h : ¬ (P ∧ Q)) : (x >>= f) = .error (.number .malformedNumeral) := by
  by_cases hP : P
  · obtain ⟨a, ha⟩ := hx.ok hP
    exact (bind_of_ok ha f).trans (hf a fun hQ => h ⟨hP, hQ⟩)
  · rw [hx.error hP]
    rfl

/-- The number of a numeral. -/
lemma needsNumber_number (hrun : IsRun isNumeralChar numeral) :
    NeedsNumber (IsNumber numeral) (number numeral : Except Fault Float) where
  ok h := by
    obtain ⟨n, hn⟩ := (exists_ofChars?_iff hrun).mpr h
    unfold number
    rw [hn]
    exact ⟨_, rfl⟩
  error h := by
    unfold number
    cases hn : Decimal.Numeral.ofChars? numeral with
    | none => rfl
    | some n => exact absurd ((exists_ofChars?_iff hrun).mp ⟨n, hn⟩) h

/-- The number of an alpha, if there is one. -/
lemma needsNumber_alphaValue {alpha : Option (List Char)}
    (hrun : ∀ numeral ∈ alpha.toList, IsRun isNumeralChar numeral) :
    NeedsNumber (∀ numeral ∈ alpha.toList, IsNumber numeral)
      (alphaValue alpha : Except Fault Float) := by
  cases alpha with
  | none => exact ⟨fun _ => ⟨_, rfl⟩, fun h => absurd nofun h⟩
  | some numeral =>
    simp only [Option.toList_some, List.forall_mem_singleton] at hrun ⊢
    exact needsNumber_number hrun

lemma Spells.needsNumber (h : form.Spells cs) (hnumeral : numeral ∈ form.numerals) :
    NeedsNumber (IsNumber numeral) (number numeral : Except Fault Float) :=
  needsNumber_number (h.isRun hnumeral)

lemma Spells.needsNumber_alpha {alpha : Option (List Char)} (h : form.Spells cs)
    (hmem : ∀ numeral ∈ alpha.toList, numeral ∈ form.numerals) :
    NeedsNumber (∀ numeral ∈ alpha.toList, IsNumber numeral)
      (alphaValue alpha : Except Fault Float) :=
  needsNumber_alphaValue fun numeral hnumeral => h.isRun (hmem numeral hnumeral)

/-- The number of a numeral is the one that its decimal is read as. -/
lemma exists_of_number {x : Float} (h : number numeral = .ok x) :
    ∃ n, Decimal.Numeral.ofChars? numeral = some n ∧ Decimal.toFloat n.digits n.power = x := by
  unfold number at h
  cases hn : Decimal.Numeral.ofChars? numeral with
  | none =>
    rw [hn] at h
    cases h
  | some n =>
    rw [hn] at h
    exact ⟨n, rfl, Except.ok.inj h⟩

/-- An alpha is not negative. -/
lemma isUnsigned_of_alphaValue {alpha : Option (List Char)} {a : Float}
    (h : alphaValue alpha = .ok a) : IsUnsigned a := by
  cases alpha with
  | none =>
    obtain rfl := Except.ok.inj h
    exact rfl
  | some numeral =>
    obtain ⟨n, _, rfl⟩ := exists_of_number h
    exact isUnsigned_toFloat _ _

end numerals

/-! ## Malformed numerals -/

/-- A form with a malformed numeral denotes no color, whatever the other numerals are. -/
theorem toRgba_of_not_hasNumbers {form : ColorText} {cs : List Char} (hspells : form.Spells cs)
    (h : ¬ form.HasNumbers) :
    (form.toRgba : Except Fault Color) = .error (.number .malformedNumeral) := by
  have hnumber : ∀ numeral ∈ form.numerals, NeedsNumber (IsNumber numeral)
      (number numeral : Except Fault Float) := fun _ => hspells.needsNumber
  have hlast : ∀ x : Except Fault Color, ¬ True → x = .error (.number .malformedNumeral) :=
    fun _ hfalse => absurd trivial hfalse
  unfold HasNumbers at h
  cases form with
  | hex => exact absurd nofun h
  | rgb r g b alpha =>
    simp only [numerals, List.forall_mem_append, List.forall_mem_cons] at hnumber h
    refine hnumber.1.1.bind (fun _ => hnumber.1.2.1.bind fun _ => hnumber.1.2.2.1.bind fun _ =>
      (hspells.needsNumber_alpha fun _ => List.mem_append_right _).bind fun _ => hlast _) ?_
    tauto
  | hsl hue saturation lightness alpha =>
    simp only [numerals, List.forall_mem_append, List.forall_mem_cons] at hnumber h
    refine hnumber.1.1.bind (fun _ => hnumber.1.2.1.bind fun _ => hnumber.1.2.2.1.bind fun _ =>
      (hspells.needsNumber_alpha fun _ => List.mem_append_right _).bind fun _ => hlast _) ?_
    tauto
  | oklch lightness chroma hue alpha =>
    simp only [numerals, List.forall_mem_append, List.forall_mem_cons] at hnumber h
    refine (hspells.needsNumber_alpha fun _ => List.mem_append_right _).bind (fun _ =>
      hnumber.1.1.bind fun _ => hnumber.1.2.1.bind fun _ => hnumber.1.2.2.1.bind fun _ =>
      hlast _) ?_
    tauto

end ColorText

/-! ## Colors that are written -/

/-- A color has a byte for each channel, and for its alpha if that is written. -/
structure Rgba.IsPrintable (c : Color) : Prop where
  channels : ∀ x ∈ [c.r, c.g, c.b], isFiniteNumber (x * ofNat 255 + ratio 1 2) = true
  alpha : c.a < ofNat 1 → isFiniteNumber (c.a * ofNat 255 + ratio 1 2) = true

namespace Rgba

/-- A channel has a byte if and only if it is finite in steps of 256. -/
lemma exists_byte_iff {x : Float} :
    (∃ n, byte x = .ok n) ↔ isFiniteNumber (x * ofNat 255 + ratio 1 2) = true :=
  exists_bind_pure_iff.trans exists_floorFloat_iff

/-- Where the channels stay below the top of the format they are finite in steps of 256. -/
lemma isFiniteNumber_step {x : Float} {k : ℕ} (h : IsWithin k x) (hk : k ≤ 1000) :
    isFiniteNumber (x * ofNat 255 + ratio 1 2) = true := by
  have hsteps : IsWithin 8 (ofNat 255 : Float) := isWithin_ofNat (by decide) (by decide)
  have hhalf : IsWithin 0 (ratio 1 2 : Float) :=
    isWithin_ratio (by decide) (by decide) (by decide) (by decide)
  have hscaled : IsWithin 1008 (x * ofNat 255) := isWithin_mul h hsteps (by omega) (by decide)
  exact isFiniteNumber_of_isWithin
    (isWithin_add (k := 1009) hscaled hhalf (by decide) (by decide) (by decide))

/-- A color whose channels, and whose alpha if it is below 1, are not out of the range of the format
can be written. -/
lemma isPrintable_of_isWithin {c : Color} {k : ℕ} (hk : k ≤ 1000)
    (hchannels : ∀ x ∈ [c.r, c.g, c.b], IsWithin k x) (halpha : c.a < ofNat 1 → IsWithin k c.a) :
    c.IsPrintable where
  channels := fun x hx => isFiniteNumber_step (hchannels x hx) hk
  alpha := fun hless => isFiniteNumber_step (halpha hless) hk

/-- An alpha that is not negative is within the range of the format if it is below 1. -/
lemma isWithin_alpha {a : Float} {k : ℕ} (ha : IsUnsigned a) (hless : a < ofNat 1) :
    IsWithin k a :=
  (isWithin_of_lt ha isWithin_one hless).mono (Nat.zero_le k)

section written

variable {format : ColorFormat} {c : Color}

/-- A color that can be written is written. -/
lemma IsPrintable.exists_render (h : c.IsPrintable)
    (hformat : format = .hex ∨ format = .rgb ∨ format = .rgba) :
    ∃ text, c.render format = .ok text := by
  have hbytes : ∀ channels : List Float,
      (∀ x ∈ channels, isFiniteNumber (x * ofNat 255 + ratio 1 2) = true) →
        ∃ bytes, channels.mapM byte = .ok bytes := fun channels hall =>
    ⟨_, mapM_eq_ok fun x hx => exists_byte_iff.mpr (hall x hx)⟩
  rcases hformat with rfl | rfl | rfl
  · refine exists_bind_pure_iff.mpr (hbytes _ ?_)
    rw [List.forall_mem_append]
    refine ⟨h.channels, ?_⟩
    split_ifs with hless
    · exact List.forall_mem_singleton.mpr (h.alpha hless)
    · exact nofun
  · exact exists_bind_pure_iff.mpr (hbytes _ h.channels)
  · exact exists_bind_pure_iff.mpr (hbytes _ h.channels)

/-- A color with a channel that is not finite is not written. -/
lemma exists_render_eq_error {x : Float} (hx : x ∈ [c.r, c.g, c.b])
    (hfinite : isFiniteNumber (x * ofNat 255 + ratio 1 2) = false)
    (hformat : format = .hex ∨ format = .rgb ∨ format = .rgba) :
    ∃ fault, c.render format = .error fault := by
  have hbytes : ∀ channels : List Float, x ∈ channels → ∀ bytes, channels.mapM byte ≠ .ok bytes := by
    intro channels hmem bytes h
    obtain ⟨n, _, hn⟩ := exists_of_mapM h hmem
    rw [exists_byte_iff.mp ⟨n, hn⟩] at hfinite
    cases hfinite
  have hnone : ∀ text, c.render format ≠ .ok text := by
    intro text h
    rcases hformat with rfl | rfl | rfl
    · obtain ⟨bytes, hmap⟩ := exists_bind_pure_iff.mp ⟨text, h⟩
      exact hbytes _ (List.mem_append_left _ hx) bytes hmap
    · obtain ⟨bytes, hmap⟩ := exists_bind_pure_iff.mp ⟨text, h⟩
      exact hbytes _ hx bytes hmap
    · obtain ⟨bytes, hmap⟩ := exists_bind_pure_iff.mp ⟨text, h⟩
      exact hbytes _ hx bytes hmap
  cases hrender : c.render format with
  | error fault => exact ⟨fault, rfl⟩
  | ok text => exact absurd hrender (hnone text)

end written

end Rgba

/-! ## Faults of arithmetic -/

/-- The problems of numbers that are out of range: those that have no whole part, and powers and
angles that are infinite. -/
def Fault.IsOutOfRange (fault : Fault) : Prop :=
  fault ∈ [Fault.number .notANumber, .number .infinite, .number .powerOverflow,
    .number .infiniteAngle]

/-- A computation that fails for numbers out of range only. -/
abbrev FailsOutOfRange {α : Type} (x : Except Fault α) : Prop :=
  FailsOnly Fault.IsOutOfRange x

namespace Rgba

lemma failsOutOfRange_byte (x : Float) : FailsOutOfRange (byte x) := by
  have hfloor : ∀ y : Float, FailsOutOfRange (floorFloat y) := by
    intro y
    unfold floorFloat
    split
    · exact .error (by simp [Fault.IsOutOfRange])
    · exact .error (by simp [Fault.IsOutOfRange])
    · exact .ok _
  exact (hfloor _).bind fun _ => .ok _

lemma failsOutOfRange_render {format : ColorFormat}
    (hformat : format = .hex ∨ format = .rgb ∨ format = .rgba) (c : Color) :
    FailsOutOfRange (c.render format) := by
  have hbytes : ∀ channels : List Float, FailsOutOfRange (channels.mapM byte) := by
    intro channels fault h
    obtain ⟨x, _, hx⟩ := exists_of_mapM_eq_error h
    exact failsOutOfRange_byte x fault hx
  rcases hformat with rfl | rfl | rfl <;> exact (hbytes _).bind fun _ => .ok _

end Rgba

namespace Oklch

lemma failsOutOfRange_power (base exponent : Float) : FailsOutOfRange (power base exponent) := by
  unfold power
  dsimp only
  split_ifs
  · exact .error (by simp [Fault.IsOutOfRange])
  · exact .ok _

lemma failsOutOfRange_ofLinear (x : Float) : FailsOutOfRange (ofLinear x) := by
  unfold ofLinear
  split_ifs
  · exact .ok _
  · exact (failsOutOfRange_power _ _).bind fun _ => .ok _

lemma failsOutOfRange_direction (degrees : Float) : FailsOutOfRange (direction degrees) := by
  unfold direction
  dsimp only
  split_ifs
  · exact .error (by simp [Fault.IsOutOfRange])
  · exact .ok _

lemma failsOutOfRange_toRgba (o : Oklch Float) (alpha : Float) :
    FailsOutOfRange (o.toRgba alpha) :=
  (failsOutOfRange_direction _).bind fun _ => (failsOutOfRange_power _ _).bind fun _ =>
    (failsOutOfRange_power _ _).bind fun _ => (failsOutOfRange_power _ _).bind fun _ =>
    (failsOutOfRange_ofLinear _).bind fun _ => (failsOutOfRange_ofLinear _).bind fun _ =>
    (failsOutOfRange_ofLinear _).bind fun _ => .ok _

end Oklch

/-! ## Colors of forms -/

/-- The color of a hue has the alpha that it is given. -/
lemma Hsl.toRgba_a (h : Hsl Float) (alpha : Float) : (h.toRgba alpha).a = alpha := by
  unfold toRgba
  split_ifs <;> rfl

/-- The channels of a polar form are held between 0 and 1. -/
lemma Oklch.exists_of_toRgba {o : Oklch Float} {alpha : Float} {c : Color}
    (h : o.toRgba alpha = .ok c) :
    ∃ x y z, (⟨clampUnit x, clampUnit y, clampUnit z, alpha⟩ : Color) = c := by
  obtain ⟨_, _, h⟩ := bind_eq_ok.mp h
  obtain ⟨l, _, h⟩ := bind_eq_ok.mp h
  obtain ⟨m, _, h⟩ := bind_eq_ok.mp h
  obtain ⟨s, _, h⟩ := bind_eq_ok.mp h
  obtain ⟨x, _, h⟩ := bind_eq_ok.mp h
  obtain ⟨y, _, h⟩ := bind_eq_ok.mp h
  obtain ⟨z, _, h⟩ := bind_eq_ok.mp h
  exact ⟨x, y, z, Except.ok.inj h⟩

namespace ColorText

/-! ### Hexadecimal digits -/

lemma lt_of_mapM_hexValue? {cs : List Char} {digits : List ℕ}
    (h : cs.mapM Text.hexValue? = some digits) : ∀ d ∈ digits, d < 16 := by
  induction cs generalizing digits with
  | nil =>
    cases h
    exact nofun
  | cons c cs ih =>
    rw [List.mapM_cons] at h
    obtain ⟨d, hd, h⟩ := Option.bind_eq_some_iff.mp h
    obtain ⟨rest, hrest, h⟩ := Option.bind_eq_some_iff.mp h
    cases h
    exact List.forall_mem_cons.mpr ⟨Text.hexValue?_lt hd, ih hrest⟩

/-- The digits of a hexadecimal form are digits. -/
lemma Spells.lt_of_hex {digits : List ℕ} {cs : List Char} (h : (ColorText.hex digits).Spells cs) :
    ∀ d ∈ digits, d < 16 := by
  cases h with
  | hex _ hdigits _ => exact lt_of_mapM_hexValue? hdigits
  | shortHex _ hdigits _ =>
    intro d hd
    obtain ⟨d', hd', hpair⟩ := List.mem_flatMap.mp hd
    have hlt := lt_of_mapM_hexValue? hdigits d' hd'
    rcases List.mem_pair.mp hpair with rfl | rfl <;> exact hlt

/-- Two digits denote at most 255 steps of a channel. -/
lemma isWithin_hexChannel {digits : List ℕ} (hlength : digits.length ≤ 2)
    (hdigits : ∀ d ∈ digits, d < 16) : IsWithin 8 (hexChannel digits : Float) := by
  refine isWithin_ratio (by decide) ?_ (by decide) (by decide)
  match digits, hlength, hdigits with
  | [], _, _ => decide
  | [d], _, hdigits =>
    have hd := hdigits d (by simp)
    show 16 * 0 + d ≤ 2 ^ 8
    omega
  | [d, d'], _, hdigits =>
    have hd := hdigits d (by simp)
    have hd' := hdigits d' (by simp)
    show 16 * (16 * 0 + d) + d' ≤ 2 ^ 8
    omega

/-- A color of hexadecimal digits can be written. -/
lemma isPrintable_ofHexDigits {digits : List ℕ} (hdigits : ∀ d ∈ digits, d < 16) :
    (ofHexDigits digits : Color).IsPrintable := by
  have hchannel : ∀ n, IsWithin 8 (hexChannel ((digits.drop n).take 2) : Float) := fun n =>
    isWithin_hexChannel (List.length_take_le 2 _)
      fun d hd => hdigits d (List.mem_of_mem_drop (List.mem_of_mem_take hd))
  refine Rgba.isPrintable_of_isWithin (k := 8) (by decide) ?_ fun _ => ?_
  · show ∀ x ∈ [hexChannel ((digits.drop 0).take 2), hexChannel ((digits.drop 2).take 2),
      hexChannel ((digits.drop 4).take 2)], IsWithin 8 x
    simp only [List.forall_mem_cons, hchannel, true_and]
    exact nofun
  · show IsWithin 8 (if digits.length = 8 then hexChannel (digits.drop 6) else ofNat 1)
    split_ifs with hlength
    · refine isWithin_hexChannel (by rw [List.length_drop, hlength]) fun d hd =>
        hdigits d (List.mem_of_mem_drop hd)
    · exact isWithin_ofNat (by decide) (by decide)

/-! ### Colors that numbers denote -/

section numbers

variable {form : ColorText} {cs : List Char} {c : Color}

/-- A form whose numerals are numbers denotes a color, unless numbers get out of range. -/
lemma toRgba_of_hasNumbers (hspells : form.Spells cs) (hnumbers : form.HasNumbers) :
    (∃ c : Color, form.toRgba = .ok c) ∨
      ∃ fault, (form.toRgba : Except Fault Color) = .error fault ∧ fault.IsOutOfRange ∧
        form.Overflows := by
  have hnumber : ∀ numeral ∈ form.numerals, ∃ x : Float, number numeral = .ok x :=
    fun numeral hnumeral => (hspells.needsNumber hnumeral).ok (hnumbers numeral hnumeral)
  have halpha : ∀ alpha : Option (List Char), (∀ numeral ∈ alpha.toList, numeral ∈ form.numerals) →
      ∃ a : Float, alphaValue alpha = .ok a := fun alpha hmem =>
    (hspells.needsNumber_alpha hmem).ok fun numeral hnumeral =>
      hnumbers numeral (hmem numeral hnumeral)
  cases form with
  | hex digits => exact Or.inl ⟨_, rfl⟩
  | rgb r g b alpha =>
    obtain ⟨x, hx⟩ := hnumber r (by simp [numerals])
    obtain ⟨y, hy⟩ := hnumber g (by simp [numerals])
    obtain ⟨z, hz⟩ := hnumber b (by simp [numerals])
    obtain ⟨a, ha⟩ := halpha alpha fun _ => List.mem_append_right _
    exact Or.inl ⟨_, bind_eq_ok.mpr ⟨x, hx, bind_eq_ok.mpr ⟨y, hy, bind_eq_ok.mpr ⟨z, hz,
      bind_eq_ok.mpr ⟨a, ha, rfl⟩⟩⟩⟩⟩
  | hsl hue saturation lightness alpha =>
    obtain ⟨x, hx⟩ := hnumber hue (by simp [numerals])
    obtain ⟨y, hy⟩ := hnumber saturation (by simp [numerals])
    obtain ⟨z, hz⟩ := hnumber lightness (by simp [numerals])
    obtain ⟨a, ha⟩ := halpha alpha fun _ => List.mem_append_right _
    exact Or.inl ⟨_, bind_eq_ok.mpr ⟨x, hx, bind_eq_ok.mpr ⟨y, hy, bind_eq_ok.mpr ⟨z, hz,
      bind_eq_ok.mpr ⟨a, ha, rfl⟩⟩⟩⟩⟩
  | oklch lightness chroma hue alpha =>
    obtain ⟨x, hx⟩ := hnumber lightness (by simp [numerals])
    obtain ⟨y, hy⟩ := hnumber chroma (by simp [numerals])
    obtain ⟨z, hz⟩ := hnumber hue (by simp [numerals])
    obtain ⟨a, ha⟩ := halpha alpha fun _ => List.mem_append_right _
    have hpolar : (oklch lightness chroma hue alpha).toRgba =
        Oklch.toRgba ⟨x / ofNat 100, y, z⟩ a :=
      (bind_of_ok ha _).trans ((bind_of_ok hx _).trans ((bind_of_ok hy _).trans (bind_of_ok hz _)))
    cases hcolor : Oklch.toRgba ⟨x / ofNat 100, y, z⟩ a with
    | ok c => exact Or.inl ⟨c, hpolar.trans hcolor⟩
    | error fault =>
      have hfault := hpolar.trans hcolor
      exact Or.inr ⟨fault, hfault, Oklch.failsOutOfRange_toRgba _ _ fault hcolor, fault, hfault⟩

/-- The color of a hue, of the percentages and the alpha that the numerals denote. -/
lemma exists_of_toRgba_hsl {hue saturation lightness : List Char} {alpha : Option (List Char)}
    (hcolor : (hsl hue saturation lightness alpha).toRgba = .ok c) :
    ∃ (h : Hsl Float) (a : Float), h.toRgba a = c ∧ IsUnsigned a ∧
      (∃ s, number saturation = .ok s ∧ s / ofNat 100 = h.saturation) ∧
      ∃ l, number lightness = .ok l ∧ l / ofNat 100 = h.lightness := by
  obtain ⟨x, _, hcolor⟩ := bind_eq_ok.mp hcolor
  obtain ⟨y, hy, hcolor⟩ := bind_eq_ok.mp hcolor
  obtain ⟨z, hz, hcolor⟩ := bind_eq_ok.mp hcolor
  obtain ⟨a, ha, hcolor⟩ := bind_eq_ok.mp hcolor
  exact ⟨⟨x, y / ofNat 100, z / ofNat 100⟩, a, Except.ok.inj hcolor, isUnsigned_of_alphaValue ha,
    ⟨y, hy, rfl⟩, z, hz, rfl⟩

/-- A color with channels between 0 and 1 can be written. -/
lemma isPrintable_of_clampUnit {x y z a : Float} (ha : IsUnsigned a) :
    (⟨clampUnit x, clampUnit y, clampUnit z, a⟩ : Color).IsPrintable := by
  refine Rgba.isPrintable_of_isWithin (k := 0) (by decide) ?_ fun hless =>
    Rgba.isWithin_alpha ha hless
  simp only [List.forall_mem_cons, isWithin_clampUnit, true_and]
  exact nofun

/-- The color of a form can be written, unless numbers get out of range. -/
lemma isPrintable_of_toRgba (hspells : form.Spells cs) (hcolor : form.toRgba = .ok c)
    (hoverflow : ¬ form.Overflows) : c.IsPrintable := by
  cases form with
  | hex digits =>
    cases hcolor
    exact isPrintable_ofHexDigits hspells.lt_of_hex
  | rgb r g b alpha =>
    obtain ⟨x, _, hcolor⟩ := bind_eq_ok.mp hcolor
    obtain ⟨y, _, hcolor⟩ := bind_eq_ok.mp hcolor
    obtain ⟨z, _, hcolor⟩ := bind_eq_ok.mp hcolor
    obtain ⟨a, ha, hcolor⟩ := bind_eq_ok.mp hcolor
    cases hcolor
    exact isPrintable_of_clampUnit (isUnsigned_of_alphaValue ha)
  | hsl hue saturation lightness alpha =>
    obtain ⟨h, a, rfl, ha, _, _⟩ := exists_of_toRgba_hsl hcolor
    refine ⟨fun x hx => ?_, fun hless => ?_⟩
    · by_contra hfinite
      exact hoverflow ⟨_, hcolor, x, hx, Bool.eq_false_iff.mpr hfinite⟩
    · rw [Hsl.toRgba_a] at hless ⊢
      exact Rgba.isFiniteNumber_step (Rgba.isWithin_alpha ha hless) (Nat.zero_le 1000)
  | oklch lightness chroma hue alpha =>
    obtain ⟨a, ha, hcolor⟩ := bind_eq_ok.mp hcolor
    obtain ⟨l, _, hcolor⟩ := bind_eq_ok.mp hcolor
    obtain ⟨c, _, hcolor⟩ := bind_eq_ok.mp hcolor
    obtain ⟨h, _, hcolor⟩ := bind_eq_ok.mp hcolor
    obtain ⟨x, y, z, rfl⟩ := Oklch.exists_of_toRgba hcolor
    exact isPrintable_of_clampUnit (isUnsigned_of_alphaValue ha)

/-- Percentages of at most `10 ^ 100` are in the range of the format. -/
lemma not_overflows_of_isModerate (hmoderate : form.IsModerate) : ¬ form.Overflows := by
  cases form with
  | hex => exact id
  | rgb => exact id
  | hsl hue saturation lightness alpha =>
    rintro ⟨c, hcolor, x, hx, hfinite⟩
    obtain ⟨h, a, rfl, _, ⟨s, hs, hs'⟩, l, hl, hl'⟩ := exists_of_toRgba_hsl hcolor
    have hpercent : ∀ numeral ∈ [saturation, lightness], ∀ {x : Float}, number numeral = .ok x →
        IsWithin 333 (x / ofNat 100) := by
      intro numeral hnumeral x hx
      obtain ⟨n, hn, rfl⟩ := exists_of_number hx
      have hsmall : (10 ^ 100 : ℚ) ≤ 2 ^ ((333 : ℕ) : ℤ) := by
        have hpowers : 10 ^ 100 ≤ 2 ^ 333 := by decide +kernel
        rw [zpow_natCast]
        exact_mod_cast hpowers
      exact isWithin_div (isWithin_toFloat (by decide) ((hmoderate numeral hnumeral n hn).trans
        hsmall)) (by decide) (by decide) (by decide)
    have hsaturation : IsWithin 333 h.saturation := hs' ▸ hpercent saturation (by simp) hs
    have hlightness : IsWithin 333 h.lightness := hl' ▸ hpercent lightness (by simp) hl
    have hchannel := Hsl.isWithin_toRgba hsaturation hlightness a x hx
    rw [Rgba.isFiniteNumber_step hchannel (by decide)] at hfinite
    cases hfinite
  | oklch => exact hmoderate.elim

/-- What overflows is a fault, of the color or of writing it. -/
lemma exists_eq_error_of_overflows {format : ColorFormat}
    (hformat : format = .hex ∨ format = .rgb ∨ format = .rgba) (hoverflow : form.Overflows) :
    ∃ fault, (form.toRgba >>= Rgba.render (α := Float) format) = .error fault := by
  cases form with
  | hex | rgb => exact hoverflow.elim
  | hsl =>
    obtain ⟨c, hcolor, x, hx, hfinite⟩ := hoverflow
    obtain ⟨fault, hfault⟩ := Rgba.exists_render_eq_error hx hfinite hformat
    exact ⟨fault, bind_eq_error.mpr (Or.inr ⟨c, hcolor, hfault⟩)⟩
  | oklch =>
    obtain ⟨fault, hfault⟩ := hoverflow
    exact ⟨fault, bind_eq_error.mpr (Or.inl hfault)⟩

end numbers

end ColorText

/-! ## Color texts -/

section recolor

variable {format : ColorFormat} {s : String} {form : ColorText}

/-- A text of no form stays as it is. -/
lemma recolor_of_not_spells (h : ∀ form : ColorText, ¬ form.Spells (Text.trim s.toList)) :
    recolor format s = .ok s := by
  have hnone : ColorText.ofChars? (Text.trim s.toList) = none :=
    Option.eq_none_iff_forall_ne_some.mpr fun form hform =>
      h form (ColorText.ofChars?_eq_some_iff.mp hform)
  have hparse : (Rgba.parse? s : Except Fault (Option Color)) = .ok none := by
    unfold Rgba.parse?
    rw [hnone]
  unfold recolor
  split_ifs
  · rfl
  · rw [hparse]
    rfl

/-- A text of a form is written with the color of the form, unless it is to be written with the
digits that it has. -/
lemma recolor_of_spells (format : ColorFormat) (hspells : form.Spells (Text.trim s.toList)) :
    format = .hex ∧ (∃ digits, form = .hex digits) ∧ recolor format s = .ok s ∨
      recolor format s = form.toRgba >>= Rgba.render (α := Float) format := by
  have hform := ColorText.ofChars?_eq_some_iff.mpr hspells
  unfold recolor
  split_ifs with hkept
  · refine Or.inl ⟨hkept.1, ?_, rfl⟩
    obtain ⟨_, hsome⟩ := hkept
    unfold Rgba.ofHex? at hsome
    cases hhex : ColorText.hex? (Text.trim s.toList) with
    | none =>
      rw [hhex] at hsome
      cases hsome
    | some form' =>
      rw [hhex] at hsome
      have hspells' := ColorText.ofChars?_eq_some_iff.mpr (ColorText.spells_of_hex? hhex)
      obtain rfl := Option.some.inj (hform.symm.trans hspells')
      cases form with
      | hex digits => exact ⟨digits, rfl⟩
      | rgb | hsl | oklch => cases hsome
  · refine Or.inr ?_
    unfold Rgba.parse?
    rw [hform]
    dsimp only
    cases form.toRgba (α := Float) <;> rfl

/-- A text of a form with a malformed numeral is a fault. -/
lemma recolor_of_not_hasNumbers (hspells : form.Spells (Text.trim s.toList))
    (h : ¬ form.HasNumbers) : recolor format s = .error (.number .malformedNumeral) := by
  rcases recolor_of_spells format hspells with ⟨_, ⟨digits, rfl⟩, _⟩ | hrecolor
  · exact absurd nofun h
  · rw [hrecolor, ColorText.toRgba_of_not_hasNumbers hspells h]
    rfl

/-- The only fault of a text of a form whose numerals are numbers is arithmetic out of range. -/
lemma failsOutOfRange_recolor (hformat : format = .hex ∨ format = .rgb ∨ format = .rgba)
    (hspells : form.Spells (Text.trim s.toList)) (hnumbers : form.HasNumbers) :
    FailsOutOfRange (recolor format s) := by
  rcases recolor_of_spells format hspells with ⟨_, _, hkept⟩ | hrecolor
  · exact hkept ▸ .ok s
  · have hcolor : FailsOutOfRange (form.toRgba : Except Fault Color) := by
      rcases ColorText.toRgba_of_hasNumbers hspells hnumbers with ⟨c, hc⟩ | ⟨fault, hfault, hout, _⟩
      · exact hc ▸ .ok c
      · exact hfault ▸ .error hout
    rw [hrecolor]
    exact hcolor.bind (Rgba.failsOutOfRange_render hformat)

/-- A text of a form whose numerals are numbers becomes the text of its color, or stays as it is,
unless numbers get out of range. -/
lemma exists_recolor (hformat : format = .hex ∨ format = .rgb ∨ format = .rgba)
    (hspells : form.Spells (Text.trim s.toList)) (hnumbers : form.HasNumbers)
    (hoverflow : ¬ form.Overflows) :
    ∃ (c : Color) (text : String), form.toRgba = .ok c ∧ recolor format s = .ok text ∧
      (c.render format = .ok text ∨
        format = .hex ∧ (∃ digits, form = .hex digits) ∧ text = s) := by
  obtain ⟨c, hcolor⟩ := (ColorText.toRgba_of_hasNumbers hspells hnumbers).resolve_right
    fun ⟨_, _, _, hout⟩ => hoverflow hout
  rcases recolor_of_spells format hspells with ⟨hhex, hdigits, hkept⟩ | hrecolor
  · exact ⟨c, s, hcolor, hkept, Or.inr ⟨hhex, hdigits, rfl⟩⟩
  · obtain ⟨text, htext⟩ :=
      (ColorText.isPrintable_of_toRgba hspells hcolor hoverflow).exists_render hformat
    exact ⟨c, text, hcolor, hrecolor.trans ((bind_of_ok hcolor _).trans htext), Or.inl htext⟩

/-- A text of a form whose numerals are numbers is a fault if and only if numbers get out of
range. -/
lemma overflows_iff_exists_error (hformat : format = .hex ∨ format = .rgb ∨ format = .rgba)
    (hspells : form.Spells (Text.trim s.toList)) (hnumbers : form.HasNumbers) :
    form.Overflows ↔ ∃ fault, recolor format s = .error fault := by
  constructor
  · intro hoverflow
    rcases recolor_of_spells format hspells with ⟨_, ⟨digits, rfl⟩, _⟩ | hrecolor
    · exact hoverflow.elim
    · rw [hrecolor]
      exact ColorText.exists_eq_error_of_overflows hformat hoverflow
  · rintro ⟨fault, hfault⟩
    by_contra hoverflow
    obtain ⟨_, text, _, htext, _⟩ := exists_recolor hformat hspells hnumbers hoverflow
    rw [hfault] at htext
    cases htext

/-- What becomes of a text that is to be written in hexadecimal notation or by its channels.  A text
of no form stays as it is.  A text of a form with a malformed numeral is a fault.  Any other text of
a form becomes the text of its color, or stays as it is if it has the digits that are asked for,
unless numbers get out of range; they do not where digits or channels are given, nor for a hue with
percentages of at most `10 ^ 100`. -/
theorem recolor_outcomes (hformat : format = .hex ∨ format = .rgb ∨ format = .rgba) (s : String) :
    ((∀ form : ColorText, ¬ form.Spells (Text.trim s.toList)) → recolor format s = .ok s) ∧
    ∀ form : ColorText, form.Spells (Text.trim s.toList) →
      (¬ form.HasNumbers → recolor format s = .error (.number .malformedNumeral)) ∧
      (form.HasNumbers →
        (form.Overflows ↔ ∃ fault, recolor format s = .error fault) ∧
        FailsOnly Fault.IsOutOfRange (recolor format s) ∧
        (¬ form.Overflows → ∃ (c : Color) (text : String), form.toRgba = .ok c ∧
          recolor format s = .ok text ∧
            (c.render format = .ok text ∨
              format = .hex ∧ (∃ digits, form = .hex digits) ∧ text = s))) ∧
      (form.IsModerate → ¬ form.Overflows) := by
  refine ⟨recolor_of_not_spells, fun form hspells => ⟨recolor_of_not_hasNumbers hspells,
    fun hnumbers => ⟨?_, ?_, ?_⟩, ColorText.not_overflows_of_isModerate⟩⟩
  · exact overflows_iff_exists_error hformat hspells hnumbers
  · exact failsOutOfRange_recolor hformat hspells hnumbers
  · exact exists_recolor hformat hspells hnumbers

/-- A channel with two points is a fault, and a hue becomes channels. -/
theorem recolor_outcomes_points_and_degrees :
    recolor .hex "rgb(1.2.3, 0, 0)" = .error (.number .malformedNumeral) ∧
      ∃ text, recolor .rgb "hsl(210, 50%, 40%)" = .ok text := by
  have hpoints : (ColorText.rgb "1.2.3".toList "0".toList "0".toList none).Spells
      (Text.trim "rgb(1.2.3, 0, 0)".toList) := ColorText.ofChars?_eq_some_iff.mp rfl
  have hdegrees : (ColorText.hsl "210".toList "50".toList "40".toList none).Spells
      (Text.trim "hsl(210, 50%, 40%)".toList) := ColorText.ofChars?_eq_some_iff.mp rfl
  obtain ⟨_, hfirst⟩ := recolor_outcomes (Or.inl rfl) "rgb(1.2.3, 0, 0)"
  obtain ⟨_, hsecond⟩ := recolor_outcomes (Or.inr (Or.inl rfl)) "hsl(210, 50%, 40%)"
  obtain ⟨hmalformed, _⟩ := hfirst _ hpoints
  obtain ⟨_, hnumbers, hmoderate⟩ := hsecond _ hdegrees
  refine ⟨hmalformed fun hall => ?_, ?_⟩
  · have hrun := hpoints.isRun List.mem_cons_self
    obtain ⟨n, hn⟩ := (ColorText.exists_ofChars?_iff hrun).mpr (hall _ List.mem_cons_self)
    cases hn
  · have hread : ∀ numeral ∈ ["210".toList, "50".toList, "40".toList],
        ∃ n, Decimal.Numeral.ofChars? numeral = some n :=
      List.forall_mem_cons.mpr ⟨⟨_, rfl⟩, List.forall_mem_cons.mpr ⟨⟨_, rfl⟩,
        List.forall_mem_singleton.mpr ⟨_, rfl⟩⟩⟩
    have hpercentages : ∀ numeral ∈ ["50".toList, "40".toList], ∀ n,
        Decimal.Numeral.ofChars? numeral = some n → (n.digits * 10 ^ n.power : ℚ) ≤ 10 ^ 100 := by
      refine List.forall_mem_cons.mpr ⟨?_, List.forall_mem_singleton.mpr ?_⟩
      · rintro _ ⟨⟩
        show ((50 : ℕ) * 10 ^ (0 : ℤ) : ℚ) ≤ 10 ^ 100
        norm_num
      · rintro _ ⟨⟩
        show ((40 : ℕ) * 10 ^ (0 : ℤ) : ℚ) ≤ 10 ^ 100
        norm_num
    obtain ⟨_, _, hwritten⟩ := hnumbers fun numeral hnumeral =>
      (ColorText.exists_ofChars?_iff (hdegrees.isRun hnumeral)).mp (hread numeral hnumeral)
    obtain ⟨_, text, _, htext, _⟩ := hwritten (hmoderate hpercentages)
    exact ⟨text, htext⟩

end recolor

end DesignTokens

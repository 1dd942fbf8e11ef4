import DesignTokens.Text.Class
import Mathlib.Data.Nat.Notation
import Mathlib.Tactic.Common
import Mathlib.Tactic.IntervalCases

/-!
# Digits

The ASCII digits are digits of the Unicode character database with the values that they have in
ASCII, no digit of any script is white space, and a hexadecimal digit is read as the value below
sixteen that it was written for.
-/

namespace DesignTokens.Text

variable {c : Char}

/-! ## Decimal digits -/

/-- The ASCII digits, by their numbers. -/
lemma toNat_of_isDigit (h : c.isDigit = true) : 48 ≤ c.toNat ∧ c.toNat ≤ 57 := by
  unfold Char.isDigit at h
  rw [Bool.and_eq_true, decide_eq_true_iff, decide_eq_true_iff] at h
  exact ⟨UInt32.le_iff_toNat_le.mp h.1, UInt32.le_iff_toNat_le.mp h.2⟩

lemma isAscii_of_isDigit (h : c.isDigit = true) : isAscii c = true := by
  have hrange := toNat_of_isDigit h
  unfold isAscii
  exact decide_eq_true (by omega)

/-- An ASCII digit has its value in every script. -/
lemma decimalValue_of_isDigit (h : c.isDigit = true) : decimalValue c = c.toNat - '0'.toNat := by
  unfold decimalValue
  rw [if_pos (isAscii_of_isDigit h)]

/-- An ASCII digit is a digit of some script. -/
lemma isDecimal_of_isDigit (h : c.isDigit = true) : isDecimal c = true := by
  unfold isDecimal
  rw [if_pos (isAscii_of_isDigit h), h]

/-- No decimal digit is white space. -/
lemma isSpace_of_isDecimal (h : isDecimal c = true) : isSpace c = false := by
  refine Bool.eq_false_iff.mpr fun hspace => ?_
  unfold isSpace at hspace
  simp only [Bool.or_eq_true, Bool.and_eq_true, decide_eq_true_eq, beq_iff_eq] at hspace
  unfold isDecimal at h
  split_ifs at h
  · have hrange := toNat_of_isDigit h
    omega
  · obtain ⟨s, hs, hholds⟩ := List.any_eq_true.mp h
    have hrows : ∀ s ∈ decimalSpans, 0xA0 < s.first ∧ (s.last < 0x1680 ∨ 0x1680 < s.first) ∧
        (s.last < 0x2000 ∨ 0x3000 < s.first) := by decide
    have hrow := hrows s hs
    simp only [Span.holds, Bool.and_eq_true, decide_eq_true_eq] at hholds
    omega

/-! ## Hexadecimal digits -/

/-- The value of a hexadecimal digit is read back. -/
lemma hexValue?_hexDigit {n : ℕ} (hn : n < 16) : hexValue? (hexDigit n) = some n := by
  interval_cases n <;> decide

lemma hexValue?_lt {n : ℕ} (h : hexValue? c = some n) : n < 16 := by
  unfold hexValue? at h
  split_ifs at h with hdigit hlower hupper
  · obtain ⟨_, hle⟩ := toNat_of_isDigit hdigit
    obtain rfl := Option.some.inj h
    show c.toNat - 48 < 16
    omega
  · have hle : c.toNat ≤ 102 := UInt32.le_iff_toNat_le.mp hlower.2
    obtain rfl := Option.some.inj h
    show c.toNat - 97 + 10 < 16
    omega
  · have hle : c.toNat ≤ 70 := UInt32.le_iff_toNat_le.mp hupper.2
    obtain rfl := Option.some.inj h
    show c.toNat - 65 + 10 < 16
    omega

end DesignTokens.Text

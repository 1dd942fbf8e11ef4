import DesignTokens.Settings
import DesignTokens.Proofs.Separators

/-!
# Characters of names in stylesheets

The default transform keeps letters and digits only and puts hyphens between words, so that a name
which no rule gives holds nothing else, apart from its prefix (`Settings.mem_cssName_of_no_rules`).
-/

namespace DesignTokens

namespace CssName

/-- Letters and digits by their numbers. -/
lemma toNat_of_isNameChar {c : Char} (h : isNameChar c = true) :
    0x30 ≤ c.toNat ∧ c.toNat ≤ 0x7A := by
  unfold isNameChar Char.isAlphanum Char.isAlpha Char.isUpper Char.isLower Char.isDigit at h
  simp only [Bool.or_eq_true, Bool.and_eq_true, decide_eq_true_eq, ge_iff_le,
    UInt32.le_iff_toNat_le] at h
  change ((0x41 ≤ c.toNat ∧ c.toNat ≤ 0x5A) ∨ (0x61 ≤ c.toNat ∧ c.toNat ≤ 0x7A)) ∨
    (0x30 ≤ c.toNat ∧ c.toNat ≤ 0x39) at h
  omega

/-- No letter or digit is white space. -/
lemma isSpace_of_isNameChar {c : Char} (h : isNameChar c = true) : Text.isSpace c = false := by
  have hrange := toNat_of_isNameChar h
  unfold Text.isSpace
  rw [Bool.eq_false_iff]
  simp only [ne_eq, Bool.or_eq_true, Bool.and_eq_true, decide_eq_true_eq, beq_iff_eq]
  omega

/-- A small letter or a digit of ASCII. -/
def isPlain (c : Char) : Bool :=
  c.isLower || c.isDigit

lemma isNameChar_of_isPlain {c : Char} (h : isPlain c = true) : isNameChar c = true := by
  unfold isPlain at h
  unfold isNameChar Char.isAlphanum Char.isAlpha
  grind

lemma isUpper_of_isPlain {c : Char} (h : isPlain c = true) : c.isUpper = false := by
  unfold isPlain Char.isLower Char.isDigit at h
  unfold Char.isUpper
  grind

lemma toLower_of_isPlain {c : Char} (h : isPlain c = true) : c.toLower = c := by
  have hupper := isUpper_of_isPlain h
  unfold Char.isUpper at hupper
  unfold Char.toLower
  rw [dif_neg]
  simpa using hupper

/-- A letter or a digit is a small letter or a digit in lower case. -/
lemma isPlain_toLower {c : Char} (h : isNameChar c = true) : isPlain c.toLower = true := by
  by_cases hupper : c.val ≥ 'A'.val ∧ c.val ≤ 'Z'.val
  · have hval : c.toLower.val = c.val + 32 := by
      unfold Char.toLower
      rw [dif_pos hupper]
      rfl
    have hlower : c.toLower.isLower = true := by
      unfold Char.isLower
      rw [Bool.and_eq_true, decide_eq_true_iff, decide_eq_true_iff, hval]
      constructor <;> grind
    unfold isPlain
    rw [hlower, Bool.true_or]
  · have hnot : c.isUpper = false := by
      unfold Char.isUpper
      simpa using hupper
    unfold Char.toLower
    rw [dif_neg hupper]
    unfold isNameChar Char.isAlphanum Char.isAlpha at h
    rwa [hnot, Bool.false_or] at h

/-- A letter or a digit is still one in lower case. -/
lemma isNameChar_toLower {c : Char} (h : isNameChar c = true) : isNameChar c.toLower = true :=
  isNameChar_of_isPlain (isPlain_toLower h)

/-- A name by the default transform holds letters, digits and hyphens only. -/
theorem mem_ofText {name : String} {c : Char} (h : c ∈ (ofText name).toList) :
    c = '-' ∨ isNameChar c = true := by
  unfold ofText at h
  rw [String.toList_ofList] at h
  rcases mem_of_mem_intercalate h with hsep | ⟨part, hpart, hc⟩
  · exact Or.inl (List.mem_singleton.mp hsep)
  · obtain ⟨word, hword, rfl⟩ := List.mem_map.mp hpart
    obtain ⟨d, hd, rfl⟩ := List.mem_map.mp hc
    have hname := not_of_mem_splitOnP (List.mem_filter.mp hword).1 hd
    exact Or.inr (isNameChar_toLower (by simpa using hname))

end CssName

/-- Without rules, a name holds letters, digits, hyphens and the characters of the prefix only. -/
theorem Settings.mem_cssName_of_no_rules {s : Settings} (hrules : s.rules = []) {name : String}
    {c : Char} (h : c ∈ (s.cssName name).toList) :
    c ∈ s.namePrefix.toList ∨ c = '-' ∨ CssName.isNameChar c = true := by
  have hformat : s.cssName name = CssName.withPrefix s.namePrefix (CssName.ofText name) := by
    unfold Settings.cssName CssName.format
    rw [hrules]
    rfl
  rw [hformat] at h
  unfold CssName.withPrefix at h
  split_ifs at h
  · exact Or.inr (CssName.mem_ofText h)
  · rw [String.toList_append, String.toList_append] at h
    rcases List.mem_append.mp h with h | h
    · rcases List.mem_append.mp h with h | h
      · exact Or.inl h
      · exact Or.inr (Or.inl (List.mem_singleton.mp h))
    · exact Or.inr (CssName.mem_ofText h)

/-- Without rules, no name holds a parenthesis, unless the prefix does. -/
lemma Settings.closing_not_mem_cssName {s : Settings} (hrules : s.rules = [])
    (hclosing : ')' ∉ s.namePrefix.toList) (name : String) : ')' ∉ (s.cssName name).toList := by
  intro h
  rcases s.mem_cssName_of_no_rules hrules h with h | h | h
  · exact hclosing h
  · exact absurd h (by decide)
  · exact absurd h (by decide)

end DesignTokens

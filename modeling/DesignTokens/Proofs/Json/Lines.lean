import DesignTokens.Proofs.Json.RoundTrip

/-!
# Written values on lines

A JSON text that is written over several lines ends each of them with a line feed alone
(`return_not_mem_render`): a carriage return in a text is escaped, and nothing else that is written
has one.
-/

namespace DesignTokens

/-- Joined texts have no carriage return if the two have none. -/
lemma return_not_mem_append {a b : String} (ha : '\r' ∉ a.toList) (hb : '\r' ∉ b.toList) :
    '\r' ∉ (a ++ b).toList := by
  rw [String.toList_append, List.mem_append]
  exact not_or.mpr ⟨ha, hb⟩

namespace Json

/-! ## Numbers and texts -/

/-- Whole numbers, fractions and exponents are written with digits, a point, a mark and signs. -/
lemma mem_chars {n : Decimal.Spelling} {c : Char} (h : c ∈ n.chars) :
    c.isDigit = true ∨ c ∈ ['.', 'e', '+', '-'] := by
  unfold Decimal.Spelling.chars at h
  rcases List.mem_append.mp h with hwhole | hbehind
  · exact Or.inl (n.isDigit_whole c hwhole)
  rcases List.mem_append.mp hbehind with hpoint | hmark
  · cases hfraction : n.fraction with
    | none =>
      rw [hfraction] at hpoint
      exact (List.not_mem_nil hpoint).elim
    | some digits =>
      rw [hfraction] at hpoint
      rcases List.mem_cons.mp hpoint with rfl | hdigit
      · exact Or.inr (by decide)
      · exact Or.inl ((n.isDigit_fraction digits hfraction).2 c hdigit)
  · cases hexponent : n.exponent with
    | none =>
      rw [hexponent] at hmark
      exact (List.not_mem_nil hmark).elim
    | some e =>
      rw [hexponent] at hmark
      rcases List.mem_cons.mp hmark with rfl | htext
      · exact Or.inr (by decide)
      unfold Decimal.exponentText at htext
      rw [List.cons_append] at htext
      rcases List.mem_cons.mp htext with rfl | hdigits
      · exact Or.inr (by split_ifs <;> decide)
      rcases List.mem_append.mp hdigits with hzero | hdigit
      · exact Or.inl (by rw [List.eq_of_mem_replicate hzero]; rfl)
      · exact Or.inl (Decimal.isDigit_of_mem_digitsOf hdigit)

/-- A sign brings no carriage return. -/
lemma return_not_mem_signed {negative : Bool} {text : List Char} (h : '\r' ∉ text) :
    '\r' ∉ Decimal.signed negative text := by
  unfold Decimal.signed
  split_ifs
  · exact fun hmem => (List.mem_cons.mp hmem).elim (absurd · (by decide)) h
  · exact h

/-- A whole number is written without a carriage return. -/
lemma return_not_mem_int (n : ℤ) : '\r' ∉ (toString n).toList := by
  rw [toList_toString_int]
  exact return_not_mem_signed fun h =>
    absurd (Decimal.isDigit_of_mem_digitsOf h) (by decide)

/-- A decimal is written without a carriage return, if the names of NaN and infinity have none. -/
lemma return_not_mem_decimal {nan infinity : String} (hnan : '\r' ∉ nan.toList)
    (hinfinity : '\r' ∉ infinity.toList) (x : Float) :
    '\r' ∉ (Decimal.text nan infinity x).toList := by
  unfold Decimal.text
  cases hx : Exact.ofFloat x with
  | nan => exact hnan
  | infinite negative =>
    dsimp only
    rw [String.toList_ofList]
    exact return_not_mem_signed hinfinity
  | finite negative m e =>
    obtain ⟨n, hchars, -⟩ := Decimal.exists_spelling_magnitudeText hx
    dsimp only
    rw [String.toList_ofList, hchars]
    exact return_not_mem_signed fun h => absurd (mem_chars h) (by decide)

/-- A text is written without a carriage return. -/
lemma return_not_mem_text (s : String) : '\r' ∉ (stringText s).toList := by
  rw [toList_stringText]
  intro h
  rcases List.mem_cons.mp h with hquote | hrest
  · exact absurd hquote (by decide)
  rcases List.mem_append.mp hrest with hinside | hquote
  · obtain ⟨c, -, hc⟩ := List.mem_flatMap.mp hinside
    unfold escapeChar at hc
    split_ifs at hc with _ _ _ hreturn
    all_goals try exact absurd hc (by decide)
    · rcases List.mem_cons.mp hc with hslash | hcode
      · exact absurd hslash (by decide)
      rcases List.mem_cons.mp hcode with hmark | hdigits
      · exact absurd hmark (by decide)
      have hnone : ∀ k, '\r' ≠ Text.hexDigit (k % 16) := by
        intro k heq
        have hvalue := Text.hexValue?_hexDigit (Nat.mod_lt k (by decide : 0 < 16))
        rw [← heq] at hvalue
        cases hvalue
      rw [hexDigits_four] at hdigits
      simp only [List.mem_cons, List.not_mem_nil, hnone, or_self] at hdigits
    · exact hreturn (List.mem_singleton.mp hc).symm
  · exact absurd (List.mem_singleton.mp hquote) (by decide)

/-! ## Values -/

/-- What is enclosed in brackets has a carriage return only where an item has one. -/
lemma return_not_mem_enclose {style : Style} (hstyle : style.IsReadable) (level : ℕ)
    {opening closing : String} (hopening : '\r' ∉ opening.toList) (hclosing : '\r' ∉ closing.toList)
    {items : List String} (hitems : ∀ item ∈ items, '\r' ∉ item.toList) :
    '\r' ∉ (enclose style level opening closing items).toList := by
  by_cases hne : items = []
  · have hempty : enclose style level opening closing items = opening ++ closing := by
      rw [hne]
      rfl
    rw [hempty, String.toList_append]
    exact fun h => (List.mem_append.mp h).elim hopening hclosing
  · obtain ⟨before, between, after, hline, htext⟩ := toList_enclose hstyle level opening closing hne
    have hblank : '\r' ∉ before ++ between ++ after := fun h => absurd (hline _ h) (by decide)
    rw [List.mem_append, List.mem_append] at hblank
    rw [htext]
    intro h
    rcases List.mem_append.mp h with h | h
    · exact hopening h
    rcases List.mem_append.mp h with h | h
    · exact hblank (Or.inl (Or.inl h))
    rcases List.mem_append.mp h with h | h
    · rcases mem_of_mem_intercalate h with hseparator | ⟨text, htext, hmem⟩
      · rcases List.mem_cons.mp hseparator with hcomma | hbetween
        · exact absurd hcomma (by decide)
        · exact hblank (Or.inl (Or.inr hbetween))
      · obtain ⟨item, hitem, rfl⟩ := List.mem_map.mp htext
        exact hitems item hitem hmem
    · exact (List.mem_append.mp h).elim (fun hafter => hblank (Or.inr hafter)) hclosing

mutual

/-- A value is written without a carriage return. -/
theorem return_not_mem_write {style : Style} (hstyle : style.IsReadable) (level : ℕ) :
    ∀ j : Json, '\r' ∉ (write style level j).toList
  | .null => by rw [write]; decide
  | .bool b => by cases b <;> (rw [write]; decide)
  | .int n => return_not_mem_int n
  | .float x => by
    have htext : write style level (.float x) = Decimal.text "NaN" "Infinity" x := by
      unfold write floatText
      rw [hstyle.numbers]
    rw [htext]
    exact return_not_mem_decimal (by decide) (by decide) x
  | .text s => return_not_mem_text s
  | .list items => return_not_mem_enclose hstyle level (by decide) (by decide)
      (return_not_mem_writeItems hstyle (level + 1) items)
  | .object fields => return_not_mem_enclose hstyle level (by decide) (by decide)
      (return_not_mem_writeFields hstyle (level + 1) fields)

/-- The items of a list are written without a carriage return. -/
theorem return_not_mem_writeItems {style : Style} (hstyle : style.IsReadable) (level : ℕ) :
    ∀ (items : List Json), ∀ written ∈ writeItems style level items, '\r' ∉ written.toList
  | [], _, h => (List.not_mem_nil h).elim
  | item :: rest, written, h => by
    rcases List.mem_cons.mp h with rfl | hrest
    · exact return_not_mem_write hstyle level item
    · exact return_not_mem_writeItems hstyle level rest written hrest

/-- The fields of an object are written without a carriage return. -/
theorem return_not_mem_writeFields {style : Style} (hstyle : style.IsReadable) (level : ℕ) :
    ∀ (fields : List (String × Json)), ∀ written ∈ writeFields style level fields,
      '\r' ∉ written.toList
  | [], _, h => (List.not_mem_nil h).elim
  | (key, value) :: rest, written, h => by
    rcases List.mem_cons.mp h with rfl | hrest
    · obtain ⟨spaces, hseparator⟩ := hstyle.keys
      rw [String.toList_append, String.toList_append, hseparator]
      intro hmem
      rcases List.mem_append.mp hmem with hfront | hvalue
      · rcases List.mem_append.mp hfront with hkey | hgap
        · exact return_not_mem_text key hkey
        · rcases List.mem_cons.mp hgap with hcolon | hspace
          · exact absurd hcolon (by decide)
          · exact absurd (List.eq_of_mem_replicate hspace) (by decide)
      · exact return_not_mem_write hstyle level value hvalue
    · exact return_not_mem_writeFields hstyle level rest written hrest

end

end Json

end DesignTokens

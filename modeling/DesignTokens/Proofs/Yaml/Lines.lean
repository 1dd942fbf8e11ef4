import DesignTokens.Proofs.Json.Lines
import DesignTokens.Yaml.Writer
import Mathlib.Data.List.SplitBy

/-!
# Lines of written YAML

A YAML text ends each of its lines with a line feed alone (`return_not_mem_render`).  A text with a
carriage return is written between double quotes, where the carriage return is escaped; whatever
else is put between the characters of a text is a line feed, a space or a mark.
-/

namespace DesignTokens.Yaml

/-! ## Texts -/

section texts

variable {cs : List Char} {c : Char}

/-- What is written for runs is a line feed, a space or stands in a run. -/
lemma mem_of_mem_foldRuns {indent column : ℕ} {first : Bool} {texts : List (List Char)}
    (h : c ∈ foldRuns indent first column texts) : c = '\n' ∨ c = ' ' ∨ c ∈ texts.flatten := by
  have hspaces : c ∈ List.replicate indent ' ' → c = ' ' := List.eq_of_mem_replicate
  fun_induction foldRuns indent first column texts with
  | case1 => cases h
  | case2 first column run rest hbreak ih =>
    rw [List.flatten_cons, List.mem_append]
    rcases List.mem_append.mp h with hline | hrest
    · rcases List.mem_cons.mp hline with hfeed | hspace
      · exact Or.inl hfeed
      · exact Or.inr (Or.inl (hspaces hspace))
    · exact (ih hrest).imp_right (Or.imp_right Or.inr)
  | case3 first column run rest hspace hbreak ih =>
    rw [List.flatten_cons, List.mem_append]
    rcases List.mem_append.mp h with hwritten | hrest
    · unfold writtenBreaks at hwritten
      rcases List.mem_append.mp hwritten with hbreaks | hspace
      · rcases List.mem_append.mp hbreaks with hfeed | hrun
        · split_ifs at hfeed
          · exact Or.inl (List.mem_singleton.mp hfeed)
          · cases hfeed
        · exact Or.inr (Or.inr (Or.inl hrun))
      · exact Or.inr (Or.inl (hspaces hspace))
    · exact (ih hrest).imp_right (Or.imp_right Or.inr)
  | case4 first column run rest hspace hbreak ih =>
    rw [List.flatten_cons, List.mem_append]
    rcases List.mem_append.mp h with hrun | hrest
    · exact Or.inr (Or.inr (Or.inl hrun))
    · exact (ih hrest).imp_right (Or.imp_right Or.inr)

/-- The runs of a text are made of its characters. -/
lemma mem_flatten_runs : c ∈ (runs cs).flatten ↔ c ∈ cs := by
  unfold runs
  rw [List.flatten_splitBy]

/-- A text without special characters has no carriage return. -/
lemma return_not_mem_of_not_special (h : cs.any isSpecial = false) : '\r' ∉ cs :=
  fun hmem => absurd (by decide : isSpecial '\r' = true) (List.any_eq_false.mp h _ hmem)

/-- A text that is written without double quotes has no carriage return. -/
lemma return_not_mem_of_quotesFor (h : quotesFor cs ≠ .double) : '\r' ∉ cs := by
  unfold quotesFor at h
  split_ifs at h with hnone hsingle
  · have hallows := (Bool.and_eq_true_iff.mp hnone).2
    unfold allowsNone at hallows
    rcases Bool.or_eq_true_iff.mp hallows with hempty | hplain
    · rw [List.isEmpty_iff.mp hempty]
      exact List.not_mem_nil
    · simp only [Bool.and_eq_true, Bool.not_eq_true'] at hplain
      exact return_not_mem_of_not_special hplain.1.1.2
  · unfold allowsSingle at hsingle
    simp only [Bool.and_eq_true, Bool.not_eq_true'] at hsingle
    exact return_not_mem_of_not_special hsingle.2
  · exact absurd rfl h

/-- Runs without a carriage return are written without one. -/
lemma return_not_mem_foldRuns {indent column : ℕ} {first : Bool} {texts : List (List Char)}
    (h : '\r' ∉ texts.flatten) : '\r' ∉ foldRuns indent first column texts := by
  intro hmem
  rcases mem_of_mem_foldRuns hmem with hfeed | hspace | hrun
  · exact absurd hfeed (by decide)
  · exact absurd hspace (by decide)
  · exact h hrun

/-- Doubling single quotes brings no carriage return. -/
lemma return_not_mem_doubleQuotes (h : '\r' ∉ cs) : '\r' ∉ doubleQuotes cs := by
  unfold doubleQuotes
  intro hmem
  obtain ⟨c, hc, hwritten⟩ := List.mem_flatMap.mp hmem
  split_ifs at hwritten
  · exact absurd hwritten (by decide)
  · exact h (List.mem_singleton.mp hwritten ▸ hc)

/-- An escape is written without a carriage return. -/
lemma return_not_mem_escape (c : Char) : '\r' ∉ escape c := by
  have hdigits : ∀ width n, '\r' ∉ (Text.hexDigits width n).map Char.toUpper := by
    intro width n
    have hone : ∀ k < 16, '\r' ≠ (Text.hexDigit k).toUpper := by decide
    induction width generalizing n with
    | zero => exact List.not_mem_nil
    | succ width ih =>
      rw [Text.hexDigits, List.map_append, List.mem_append]
      exact not_or.mpr ⟨ih _, fun h => hone _ (Nat.mod_lt n (by decide)) (List.mem_singleton.mp h)⟩
  have hletters : ∀ entry ∈ letterEscapes, '\r' ≠ entry.2 := by decide
  unfold escape
  dsimp only
  intro h
  replace h := (List.mem_cons.mp h).resolve_left (by decide)
  split at h
  · rename_i letter hlookup
    obtain ⟨before, after, hsplit, -⟩ := List.lookup_eq_some_iff.mp hlookup
    have hentry : (c.toNat, letter) ∈ letterEscapes :=
      hsplit ▸ List.mem_append_right _ List.mem_cons_self
    exact hletters _ hentry (List.mem_singleton.mp h)
  · split_ifs at h <;>
      exact (List.mem_cons.mp h).elim (fun hmark => absurd hmark (by decide)) (hdigits _ _)

/-- A line break between double quotes is written without a carriage return. -/
lemma return_not_mem_afterFold (indent : ℕ) (next : Option Char) :
    '\r' ∉ (afterFold indent next).1 := by
  have hline : '\r' ∉ newLine indent := by
    unfold newLine
    rw [List.mem_cons, not_or]
    exact ⟨by decide, fun h => absurd (List.eq_of_mem_replicate h) (by decide)⟩
  unfold afterFold
  split_ifs
  · rw [List.mem_append, not_or]
    exact ⟨hline, by decide⟩
  · exact hline

/-- A text between double quotes is written without a carriage return. -/
lemma return_not_mem_foldDouble {indent column : ℕ} {first : Bool} {pending : List Char}
    (h : '\r' ∉ pending) : '\r' ∉ foldDouble indent first column pending cs := by
  induction cs generalizing first column pending with
  | nil => exact fun hmem => h (List.mem_reverse.mp hmem)
  | cons c rest ih =>
    have hpending : '\r' ∉ pending.reverse := fun hmem => h (List.mem_reverse.mp hmem)
    rw [foldDouble]
    dsimp only
    by_cases hverbatim : isVerbatim c = true
    · have hc : '\r' ≠ c := fun heq => absurd (heq ▸ hverbatim) (by decide)
      rw [if_pos hverbatim]
      split_ifs
      · simp only [List.mem_append, List.mem_cons, not_or]
        exact ⟨⟨hpending, by decide, return_not_mem_afterFold indent _⟩,
          ih fun hmem => hc (List.mem_singleton.mp hmem)⟩
      · exact ih fun hmem => (List.mem_cons.mp hmem).elim hc h
    · rw [if_neg hverbatim]
      split_ifs
      · simp only [List.mem_append, List.mem_cons, not_or]
        exact ⟨⟨⟨hpending, return_not_mem_escape c⟩, by decide, return_not_mem_afterFold indent _⟩,
          ih List.not_mem_nil⟩
      · simp only [List.mem_append, not_or]
        exact ⟨⟨hpending, return_not_mem_escape c⟩, ih List.not_mem_nil⟩

/-- A text is written without a carriage return. -/
lemma return_not_mem_textChars (indent column : ℕ) (cs : List Char) :
    '\r' ∉ textChars indent column cs := by
  unfold textChars
  cases hquotes : quotesFor cs with
  | none =>
    have hcs : '\r' ∉ cs := return_not_mem_of_quotesFor (by rw [hquotes]; decide)
    exact return_not_mem_foldRuns fun h => hcs (mem_flatten_runs.mp h)
  | single =>
    have hcs : '\r' ∉ cs := return_not_mem_of_quotesFor (by rw [hquotes]; decide)
    have hruns : '\r' ∉ ((runs cs).map doubleQuotes).flatten := by
      intro hmem
      obtain ⟨written, hwritten, hr⟩ := List.mem_flatten.mp hmem
      obtain ⟨run, hrun, rfl⟩ := List.mem_map.mp hwritten
      exact return_not_mem_doubleQuotes
        (fun h => hcs (mem_flatten_runs.mp (List.mem_flatten.mpr ⟨run, hrun, h⟩))) hr
    dsimp only
    simp only [List.mem_append, List.mem_cons, not_or]
    exact ⟨⟨by decide, return_not_mem_foldRuns hruns⟩, by decide, List.not_mem_nil⟩
  | double =>
    dsimp only
    simp only [List.mem_append, List.mem_cons, not_or]
    exact ⟨⟨by decide, return_not_mem_foldDouble List.not_mem_nil⟩, by decide, List.not_mem_nil⟩

end texts

/-! ## Values -/

/-- A text is written over lines without a carriage return. -/
lemma return_not_mem_scalarText (indent column : ℕ) (s : String) :
    '\r' ∉ (scalarText indent column s).toList := by
  unfold scalarText
  rw [String.toList_ofList]
  exact return_not_mem_textChars indent column s.toList

/-- A floating-point number is written without a carriage return. -/
lemma return_not_mem_floatText (x : Float) : '\r' ∉ (floatText x).toList := by
  have hnumber : '\r' ∉ (Decimal.text ".nan" ".inf" x).toList :=
    Json.return_not_mem_decimal (by decide) (by decide) x
  unfold floatText
  dsimp only
  rw [String.toList_ofList]
  split_ifs
  · exact hnumber
  · simp only [List.mem_append, not_or]
    exact ⟨⟨fun h => hnumber (List.takeWhile_subset _ h), by decide⟩,
      fun h => hnumber (List.mem_of_mem_drop h)⟩

/-- Spaces have no carriage return. -/
lemma return_not_mem_padding (indent : ℕ) : '\r' ∉ (padding indent).toList := by
  unfold padding
  rw [String.toList_ofList]
  exact fun h => absurd (List.eq_of_mem_replicate h) (by decide)

/-- Entries without a carriage return are written on lines without one. -/
lemma return_not_mem_entryLines (indent : ℕ) {entries : List String}
    (h : ∀ entry ∈ entries, '\r' ∉ entry.toList) : '\r' ∉ (entryLines indent entries).toList := by
  unfold entryLines
  rw [String.toList_intercalate, String.toList_append]
  intro hmem
  rcases mem_of_mem_intercalate hmem with hbetween | ⟨text, htext, hr⟩
  · rcases List.mem_append.mp hbetween with hfeed | hspace
    · exact absurd hfeed (by decide)
    · exact return_not_mem_padding indent hspace
  · obtain ⟨entry, hentry, rfl⟩ := List.mem_map.mp htext
    exact h entry hentry hr

mutual

/-- A value is written after its key without a carriage return. -/
theorem return_not_mem_afterKey (indent column : ℕ) :
    ∀ j : Json, '\r' ∉ (afterKey indent column j).toList
  | .null => by rw [afterKey]; decide
  | .bool b => by cases b <;> (rw [afterKey]; decide)
  | .int n => return_not_mem_append (by decide) (Json.return_not_mem_int n)
  | .float x => return_not_mem_append (by decide) (return_not_mem_floatText x)
  | .text s => return_not_mem_append (by decide) (return_not_mem_scalarText _ _ s)
  | .list [] => by rw [afterKey]; decide
  | .object [] => by rw [afterKey]; decide
  | .list (item :: items) =>
    return_not_mem_append (return_not_mem_append (by decide) (return_not_mem_padding indent))
      (return_not_mem_entryLines indent (return_not_mem_itemTexts indent (item :: items)))
  | .object (field :: fields) =>
    return_not_mem_append (return_not_mem_append (by decide) (return_not_mem_padding (indent + 2)))
      (return_not_mem_entryLines _ (return_not_mem_fieldTexts (indent + 2) (field :: fields)))

/-- A value is written after the dash of an item without a carriage return. -/
theorem return_not_mem_afterDash (indent : ℕ) : ∀ j : Json, '\r' ∉ (afterDash indent j).toList
  | .null => by rw [afterDash]; decide
  | .bool b => by cases b <;> (rw [afterDash]; decide)
  | .int n => Json.return_not_mem_int n
  | .float x => return_not_mem_floatText x
  | .text s => return_not_mem_scalarText _ _ s
  | .list [] => by rw [afterDash]; decide
  | .object [] => by rw [afterDash]; decide
  | .list (item :: items) =>
    return_not_mem_entryLines _ (return_not_mem_itemTexts (indent + 2) (item :: items))
  | .object (field :: fields) =>
    return_not_mem_entryLines _ (return_not_mem_fieldTexts (indent + 2) (field :: fields))

/-- The items of a list are written without a carriage return. -/
theorem return_not_mem_itemTexts (indent : ℕ) :
    ∀ (items : List Json), ∀ written ∈ itemTexts indent items, '\r' ∉ written.toList
  | [], _, h => (List.not_mem_nil h).elim
  | item :: rest, written, h => by
    rcases List.mem_cons.mp h with rfl | hrest
    · exact return_not_mem_append (by decide) (return_not_mem_afterDash indent item)
    · exact return_not_mem_itemTexts indent rest written hrest

/-- The fields of a mapping are written without a carriage return. -/
theorem return_not_mem_fieldTexts (indent : ℕ) :
    ∀ (fields : List (String × Json)), ∀ written ∈ fieldTexts indent fields,
      '\r' ∉ written.toList
  | [], _, h => (List.not_mem_nil h).elim
  | (key, value) :: rest, written, h => by
    rcases List.mem_cons.mp h with rfl | hrest
    · exact return_not_mem_append
        (return_not_mem_append (return_not_mem_scalarText _ _ key) (by decide))
        (return_not_mem_afterKey _ _ value)
    · exact return_not_mem_fieldTexts indent rest written hrest

end

/-- A YAML text has no carriage return. -/
theorem return_not_mem_render (j : Json) : '\r' ∉ (render j).toList := by
  unfold render
  split
  · exact return_not_mem_append (return_not_mem_entryLines _ (return_not_mem_fieldTexts _ _))
      (by decide)
  · exact return_not_mem_append (return_not_mem_entryLines _ (return_not_mem_itemTexts _ _))
      (by decide)
  · exact return_not_mem_append (return_not_mem_afterDash _ _) (by decide)

end DesignTokens.Yaml

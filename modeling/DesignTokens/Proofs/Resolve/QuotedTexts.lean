import DesignTokens.Export.Renderer
import DesignTokens.Resolve.Value
import Mathlib.Tactic.Common

/-!
# Quoted texts

In a stylesheet a text stands between double quotes.  There a backslash takes the next character as
it is, the first quote without a backslash ends the string, and no line break may occur
(`CssString.Denotes`).

Writing a text puts a backslash before each of its quotes and nothing else, so the string denotes
the text exactly if the text has no backslash and no line break of its own
(`CssString.denotes_cssString_iff`).  A variable of texts and a token of texts are both written in
this way (`CssString.written_texts`).
-/

namespace DesignTokens

namespace CssString

/-- The characters that break a line of a stylesheet. -/
def lineBreaks : List Char := ['\n', '\r', '\x0c']

/-- What stands behind an opening quote, up to a closing quote at the very end, and the text that it
denotes. -/
inductive Body : List Char → List Char → Prop
  | close : Body ['"'] []
  | escaped {c : Char} {rest text : List Char} : c ∉ lineBreaks → Body rest text →
      Body ('\\' :: c :: rest) (c :: text)
  | plain {c : Char} {rest text : List Char} : c ≠ '"' → c ≠ '\\' → c ∉ lineBreaks →
      Body rest text → Body (c :: rest) (c :: text)

/-- A text is one string of a stylesheet from its first character to its last, and the string
denotes a text. -/
def Denotes (written text : String) : Prop :=
  ∃ body, written.toList = '"' :: body ∧ Body body text.toList

/-! ## What is written -/

/-- One character as it is written between quotes. -/
def writtenChar (c : Char) : List Char :=
  if c = '"' then ['\\', '"'] else [c]

lemma writtenChar_of_ne {c : Char} (hc : c ≠ '"') : writtenChar c = [c] :=
  if_neg hc

/-- A written character still has the character in it. -/
lemma self_mem_writtenChar (c : Char) : c ∈ writtenChar c := by
  by_cases hc : c = '"'
  · rw [hc]
    decide
  · rw [writtenChar_of_ne hc]
    exact List.mem_singleton_self c

lemma toList_cssString (text : String) :
    (cssString text).toList = '"' :: (text.toList.flatMap writtenChar ++ ['"']) :=
  String.toList_ofList

/-! ## What is denoted -/

/-- A string has no line break. -/
lemma Body.lineBreak_not_mem {written text : List Char} (h : Body written text) {c : Char}
    (hc : c ∈ lineBreaks) : c ∉ written := by
  have hquote : '"' ∉ lineBreaks := by decide
  have hbackslash : '\\' ∉ lineBreaks := by decide
  induction h with
  | close => exact fun hmem => hquote (List.mem_singleton.mp hmem ▸ hc)
  | escaped hd _ ih =>
    rintro (_ | ⟨_, _ | ⟨_, hrest⟩⟩)
    · exact hbackslash hc
    · exact hd hc
    · exact ih hrest
  | plain _ _ hd _ ih =>
    rintro (_ | ⟨_, hrest⟩)
    · exact hd hc
    · exact ih hrest

/-- A text without backslashes and line breaks is denoted by what is written for it. -/
lemma body_written {text : List Char} (h : ∀ c ∈ text, c ≠ '\\' ∧ c ∉ lineBreaks) :
    Body (text.flatMap writtenChar ++ ['"']) text := by
  induction text with
  | nil => exact .close
  | cons c text ih =>
    obtain ⟨⟨hbackslash, hbreak⟩, htext⟩ := List.forall_mem_cons.mp h
    rw [List.flatMap_cons]
    by_cases hquote : c = '"'
    · subst hquote
      exact .escaped hbreak (ih htext)
    · rw [writtenChar_of_ne hquote]
      exact .plain hquote hbackslash hbreak (ih htext)

/-- A quote that is not escaped is the last character. -/
lemma Body.eq_nil_of_quote {rest denoted : List Char} (h : Body ('"' :: rest) denoted) :
    rest = [] := by
  cases h with
  | close => rfl
  | plain hne => exact absurd rfl hne

/-- A backslash takes the next character as it is. -/
lemma Body.exists_of_backslash {c : Char} {rest denoted : List Char}
    (h : Body ('\\' :: c :: rest) denoted) :
    ∃ text, denoted = c :: text ∧ Body rest text := by
  cases h with
  | escaped _ hrest => exact ⟨_, rfl, hrest⟩
  | plain _ hne => exact absurd rfl hne

/-- Any other character stands for itself. -/
lemma Body.exists_of_plain {c : Char} {rest denoted : List Char} (hquote : c ≠ '"')
    (hbackslash : c ≠ '\\') (h : Body (c :: rest) denoted) :
    ∃ text, denoted = c :: text ∧ Body rest text := by
  cases h with
  | close => exact absurd rfl hquote
  | escaped => exact absurd rfl hbackslash
  | plain _ _ _ hrest => exact ⟨_, rfl, hrest⟩

/-- Nothing longer than the text itself is denoted by what is written for it, and nothing of the
same length if the text has a backslash.  The backslash escapes the character after it, or the
closing quote, or the backslash of a quote, which then ends the string. -/
lemma length_of_body_written : ∀ {text denoted : List Char},
    Body (text.flatMap writtenChar ++ ['"']) denoted →
      denoted.length ≤ text.length ∧ (denoted.length = text.length → '\\' ∉ text)
  | [], _, h => by
    cases h with
    | close => exact ⟨Nat.le_refl _, fun _ => List.not_mem_nil⟩
    | plain hquote => exact absurd rfl hquote
  | c :: text, denoted, h => by
    have hkept : ∀ {d : Char} {denoted' : List Char}, d ≠ '\\' →
        Body (text.flatMap writtenChar ++ ['"']) denoted' →
        (d :: denoted').length ≤ (d :: text).length ∧
          ((d :: denoted').length = (d :: text).length → '\\' ∉ d :: text) := by
      intro d denoted' hd hrest
      obtain ⟨hle, hmem⟩ := length_of_body_written hrest
      refine ⟨Nat.succ_le_succ hle, fun hlength => ?_⟩
      exact List.not_mem_cons_of_ne_of_not_mem hd.symm (hmem (Nat.succ.inj hlength))
    rw [List.flatMap_cons, List.append_assoc] at h
    by_cases hquote : c = '"'
    · subst hquote
      obtain ⟨denoted', rfl, hrest⟩ := Body.exists_of_backslash h
      exact hkept (by decide) hrest
    · rw [writtenChar_of_ne hquote] at h
      by_cases hbackslash : c = '\\'
      · subst hbackslash
        cases text with
        | nil =>
          obtain ⟨_, _, hrest⟩ := Body.exists_of_backslash h
          cases hrest
        | cons d text =>
          rw [List.flatMap_cons, List.append_assoc] at h
          by_cases hd : d = '"'
          · subst hd
            obtain ⟨_, _, hrest⟩ := Body.exists_of_backslash h
            exact absurd hrest.eq_nil_of_quote (List.concat_ne_nil _ _)
          · rw [writtenChar_of_ne hd] at h
            obtain ⟨denoted', rfl, hrest⟩ := Body.exists_of_backslash h
            have hle := (length_of_body_written hrest).1
            refine ⟨Nat.succ_le_succ (Nat.le_succ_of_le hle), fun hlength => ?_⟩
            rw [List.length_cons, List.length_cons, List.length_cons] at hlength
            omega
      · obtain ⟨denoted', rfl, hrest⟩ := Body.exists_of_plain hquote hbackslash h
        exact hkept hbackslash hrest

/-- What is written for a text denotes the text exactly if the text has no backslash and no line
break. -/
theorem denotes_cssString_iff (text : String) :
    Denotes (cssString text) text ↔ ∀ c ∈ text.toList, c ≠ '\\' ∧ c ∉ lineBreaks := by
  constructor
  · rintro ⟨body, hwritten, hbody⟩ c hc
    rw [toList_cssString] at hwritten
    obtain rfl := (List.cons.inj hwritten).2
    refine ⟨fun hbackslash => ?_, fun hbreak => ?_⟩
    · exact (length_of_body_written hbody).2 rfl (hbackslash ▸ hc)
    · refine hbody.lineBreak_not_mem hbreak (List.mem_append_left _ ?_)
      exact List.mem_flatMap.mpr ⟨c, hc, self_mem_writtenChar c⟩
  · exact fun h => ⟨_, toList_cssString text, body_written h⟩

/-! ## Variables and tokens of texts -/

/-- A variable of texts has the text between quotes as its value, whatever its formatting. -/
lemma valueText_text (s : Scope) (modeId : String) (f : Formatting) (origin : Option String)
    (text : String) :
    s.valueText modeId .text f origin (.text text) = .ok (cssString text) := rfl

/-- A token of texts has the text between quotes as its value, whatever the settings. -/
lemma flatText_text (r : Renderer) {t : Token} (ht : t.type = .string) (text : String) :
    r.flatText t (.literal (.text text)) = .ok (cssString text) := by
  unfold Renderer.flatText Renderer.literalText
  dsimp only
  rw [ht]

/-- A text is written in the same way for a variable and for a token of texts, without a fault, and
what is written is one string that denotes the text exactly if the text has no backslash and no line
break. -/
theorem written_texts (s : Scope) (modeId : String) (f : Formatting) (origin : Option String)
    (r : Renderer) {t : Token} (ht : t.type = .string) (text : String) :
    ∃ written, s.valueText modeId .text f origin (.text text) = .ok written ∧
      r.flatText t (.literal (.text text)) = .ok written ∧
      (Denotes written text ↔ ∀ c ∈ text.toList, c ≠ '\\' ∧ c ∉ lineBreaks) :=
  ⟨_, valueText_text s modeId f origin text, flatText_text r ht text, denotes_cssString_iff text⟩

/-- A scope without variables. -/
def emptyScope : Scope := { vars := [], collections := [] }

/-- A token of texts. -/
def greeting : Token := { type := .string, value := .flat (.literal (.text "say \"hi\"")) }

/-- The quotes of a text are kept.  A backslash at the end of a text escapes the closing quote, and
a line break stays in the string. -/
theorem written_texts_greeting :
    greeting.type = .string ∧
      emptyScope.valueText "m" .text {} none (.text "say \"hi\"") =
        .ok "\"say \\\"hi\\\"\"" ∧
      Renderer.flatText { document := {}, settings := {} } greeting
        (.literal (.text "say \"hi\"")) = .ok "\"say \\\"hi\\\"\"" ∧
      Denotes "\"say \\\"hi\\\"\"" "say \"hi\"" ∧
      ¬ Denotes (cssString "a\\") "a\\" ∧ ¬ Denotes (cssString "a\nb") "a\nb" := by
  have hstring : cssString "say \"hi\"" = "\"say \\\"hi\\\"\"" := by decide +kernel
  have hplain : "say \"hi\"".toList.all (fun c => c ≠ '\\' ∧ c ∉ lineBreaks) = true := by
    decide +kernel
  obtain ⟨written, hvalue, htoken, hdenotes⟩ := written_texts emptyScope "m" {} none
    { document := {}, settings := {} } (t := greeting) rfl "say \"hi\""
  obtain rfl : cssString "say \"hi\"" = written := Except.ok.inj hvalue
  rw [hstring] at hvalue htoken hdenotes
  refine ⟨rfl, hvalue, htoken, hdenotes.mpr fun c hc =>
    of_decide_eq_true (List.all_eq_true.mp hplain c hc), fun h => ?_, fun h => ?_⟩
  · exact ((denotes_cssString_iff _).mp h '\\' (by decide +kernel)).1 rfl
  · exact ((denotes_cssString_iff _).mp h '\n' (by decide +kernel)).2 (by decide)

end CssString

end DesignTokens

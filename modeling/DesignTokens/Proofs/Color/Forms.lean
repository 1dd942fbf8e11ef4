import DesignTokens.Color.Text
import DesignTokens.Proofs.Separators
import DesignTokens.Proofs.Text.Digits
import Mathlib.Data.List.Forall2
import Mathlib.Data.List.TakeWhile
import Mathlib.Tactic.Common

/-!
# Forms of color texts

A color text is a row of hexadecimal digits or a call of a notation: a name, and between parentheses
numerals with white space and separators in given places.  `ColorText.Spells` says so without any
reading; it leaves open whether the numerals, rows of digits and points, are numbers.

Reading takes at each step as much as it can and never goes back.  It still finds exactly the forms
that a text has (`ColorText.ofChars?_eq_some_iff`), because what stands behind a numeral or white
space never continues it, and because no two notations have a first letter in common.
-/

namespace DesignTokens

open Text (isSpace sameLetter skipSpaces afterChar? afterLetters? run? hexValue?)

/-! ## Letters of names -/

namespace Text

/-- A letter that shares its capital with no other letter agrees only with what is lowered to it. -/
lemma simpleLower_of_sameLetter {l c : Char} (hcased : isCased l = true)
    (hlower : simpleLower l = l) (hgroups : ∀ group ∈ sameUpperGroups, l.toNat ∉ group)
    (h : sameLetter l c = true) : simpleLower c = l := by
  have hsame : ∀ n, sameUpper l.toNat n = false := fun n => by
    unfold sameUpper
    simp only [List.any_eq_false, Bool.and_eq_true, List.contains_iff_mem, not_and]
    exact fun group hgroup hmem => absurd hmem (hgroups group hgroup)
  unfold sameLetter at h
  rw [if_pos hcased] at h
  dsimp only at h
  rw [hlower, hsame, Bool.or_false] at h
  exact eq_of_beq h

end Text

namespace ColorText

/-! ## What a color text looks like -/

/-- Characters of a class, at least one. -/
def IsRun (p : Char → Bool) (cs : List Char) : Prop :=
  cs ≠ [] ∧ ∀ c ∈ cs, p c = true

/-- White space, perhaps none. -/
def IsBlank (cs : List Char) : Prop :=
  ∀ c ∈ cs, isSpace c = true

/-- A word with its letters in either case. -/
def IsWord (word cs : List Char) : Prop :=
  List.Forall₂ (fun l c => sameLetter l c = true) word cs

/-- The name of a notation, perhaps with the letter for an alpha. -/
inductive IsName (name : String) : List Char → Prop
  | plain {word : List Char} : IsWord name.toList word → IsName name word
  | withAlpha {word : List Char} {c : Char} : IsWord name.toList word → sameLetter 'a' c = true →
      IsName name (word ++ [c])

/-- A numeral with a mark right behind it and white space around both. -/
inductive Spaced (mark numeral : List Char) : List Char → Prop
  | intro {before after : List Char} : IsBlank before → IsRun isNumeralChar numeral →
      IsBlank after → Spaced mark numeral (before ++ (numeral ++ (mark ++ after)))

/-- The end of a call: perhaps an alpha behind a separator, then the parenthesis. -/
inductive Closes (separator : Char) : Option (List Char) → List Char → Prop
  | plain : Closes separator none [')']
  | withAlpha {numeral cs : List Char} : Spaced [] numeral cs →
      Closes separator (some numeral) (separator :: (cs ++ [')']))

/-- A text is a color text of a form.  The digits of a short hexadecimal text count twice. -/
inductive Spells : ColorText → List Char → Prop
  | hex {sign cs : List Char} {digits : List Nat} : sign = [] ∨ sign = ['#'] →
      cs.mapM hexValue? = some digits → digits.length = 6 ∨ digits.length = 8 →
      Spells (.hex digits) (sign ++ cs)
  | shortHex {sign cs : List Char} {digits : List Nat} : sign = [] ∨ sign = ['#'] →
      cs.mapM hexValue? = some digits → digits.length = 3 →
      Spells (.hex (digits.flatMap fun d => [d, d])) (sign ++ cs)
  | rgb {name r g b rs gs bs close : List Char} {alpha : Option (List Char)} : IsName "rgb" name →
      Spaced [] r rs → Spaced [] g gs → Spaced [] b bs → Closes ',' alpha close →
      Spells (.rgb r g b alpha) (name ++ '(' :: (rs ++ ',' :: (gs ++ ',' :: (bs ++ close))))
  | hsl {name hue s l hues ss ls close : List Char} {alpha : Option (List Char)} :
      IsName "hsl" name → Spaced [] hue hues → Spaced ['%'] s ss → Spaced ['%'] l ls →
      Closes ',' alpha close →
      Spells (.hsl hue s l alpha) (name ++ '(' :: (hues ++ ',' :: (ss ++ ',' :: (ls ++ close))))
  | oklch {name before l gap chroma gap' hue after close : List Char} {alpha : Option (List Char)} :
      IsWord "oklch".toList name → IsBlank before → IsRun isNumeralChar l → IsRun isSpace gap →
      IsRun isNumeralChar chroma → IsRun isSpace gap' → IsRun isNumeralChar hue → IsBlank after →
      Closes '/' alpha close →
      Spells (.oklch l chroma hue alpha) (name ++ '(' :: (before ++ (l ++ '%' ::
        (gap ++ (chroma ++ (gap' ++ (hue ++ (after ++ close))))))))

lemma IsRun.append_blank {gap blank : List Char} (h : IsRun isSpace gap) (hblank : IsBlank blank) :
    IsRun isSpace (gap ++ blank) :=
  ⟨List.append_ne_nil_of_left_ne_nil h.1 blank, List.forall_mem_append.mpr ⟨h.2, hblank⟩⟩

/-! ## Single steps -/

/-- A text that goes on with a character that neither is white space nor belongs to a numeral. -/
def IsStopped (cs : List Char) : Prop :=
  ∀ c ∈ cs.head?, isSpace c = false ∧ isNumeralChar c = false

lemma isStopped_cons {c : Char} (h : isSpace c = false ∧ isNumeralChar c = false)
    (rest : List Char) : IsStopped (c :: rest) := by
  rintro _ ⟨⟩
  exact h

lemma isStopped_comma (rest : List Char) : IsStopped (',' :: rest) :=
  isStopped_cons (by decide) rest

lemma isStopped_close (rest : List Char) : IsStopped (')' :: rest) :=
  isStopped_cons (by decide) rest

lemma afterChar?_eq_some_iff {c : Char} {cs rest : List Char} :
    afterChar? c cs = some rest ↔ cs = c :: rest := by
  cases cs with
  | nil => simp [afterChar?]
  | cons d cs =>
    show (if d = c then some cs else none) = some rest ↔ _
    split_ifs with h <;> simp [h]

lemma afterLetters?_eq_some_iff {word cs rest : List Char} :
    afterLetters? word cs = some rest ↔ ∃ w, IsWord word w ∧ cs = w ++ rest := by
  induction word generalizing cs with
  | nil =>
    constructor
    · intro h
      exact ⟨[], .nil, Option.some.inj h⟩
    · rintro ⟨w, ⟨⟩, rfl⟩
      rfl
  | cons l word ih =>
    constructor
    · intro h
      cases cs with
      | nil => cases h
      | cons c cs =>
        unfold afterLetters? at h
        split_ifs at h with hsame
        obtain ⟨w, hw, rfl⟩ := ih.mp h
        exact ⟨c :: w, .cons hsame hw, rfl⟩
    · rintro ⟨_, ⟨⟩ | ⟨hsame, hw⟩, rfl⟩
      exact (if_pos hsame).trans (ih.mpr ⟨_, hw, rfl⟩)

lemma run?_append {p : Char → Bool} {run rest : List Char} (hrun : IsRun p run)
    (hrest : ∀ c ∈ rest.head?, p c = false) : run? p (run ++ rest) = some (run, rest) := by
  unfold run?
  dsimp only
  rw [takeWhile_run hrun.2 hrest, dropWhile_run hrun.2 hrest,
    List.isEmpty_eq_false_iff.mpr hrun.1]
  rfl

lemma exists_of_run? {p : Char → Bool} {cs run rest : List Char}
    (h : run? p cs = some (run, rest)) : IsRun p run ∧ cs = run ++ rest := by
  unfold run? at h
  dsimp only at h
  split_ifs at h with hempty
  cases h
  exact ⟨⟨fun hnil => hempty (List.isEmpty_iff.mpr hnil), fun c hc => List.mem_takeWhile_imp hc⟩,
    List.takeWhile_append_dropWhile.symm⟩

lemma skipSpaces_append {blank rest : List Char} (hblank : IsBlank blank)
    (hrest : ∀ c ∈ rest.head?, isSpace c = false) : skipSpaces (blank ++ rest) = rest :=
  dropWhile_run hblank hrest

lemma exists_skipSpaces (cs : List Char) : ∃ blank, IsBlank blank ∧ cs = blank ++ skipSpaces cs :=
  ⟨cs.takeWhile isSpace, fun _ hc => List.mem_takeWhile_imp hc,
    List.takeWhile_append_dropWhile.symm⟩

/-! ## Numerals and the end of a call -/

lemma isSpace_of_isNumeralChar {c : Char} (h : isNumeralChar c = true) : isSpace c = false := by
  unfold isNumeralChar at h
  rcases Bool.or_eq_true_iff.mp h with hdigit | hpoint
  · exact Text.isSpace_of_isDecimal hdigit
  · rw [eq_of_beq hpoint]
    decide

lemma isNumeralChar_of_isSpace {c : Char} (h : isSpace c = true) : isNumeralChar c = false :=
  Bool.eq_false_iff.mpr fun hnumeral => Bool.noConfusion
    (h.symm.trans (isSpace_of_isNumeralChar hnumeral))

/-- White space ends a numeral. -/
lemma isNumeralChar_gap {gap : List Char} (hgap : IsRun isSpace gap) (rest : List Char) :
    ∀ c ∈ (gap ++ rest).head?, isNumeralChar c = false := by
  cases gap with
  | nil => exact absurd rfl hgap.1
  | cons d gap =>
    rintro _ ⟨⟩
    exact isNumeralChar_of_isSpace (hgap.2 d List.mem_cons_self)

/-- What follows white space does not matter where a numeral ends before it. -/
lemma isNumeralChar_head {blank rest : List Char} (hblank : IsBlank blank)
    (hrest : ∀ c ∈ rest.head?, isNumeralChar c = false) :
    ∀ c ∈ (blank ++ rest).head?, isNumeralChar c = false := by
  rcases eq_or_ne blank [] with rfl | hne
  · exact hrest
  · exact isNumeralChar_gap ⟨hne, hblank⟩ rest

/-- A run of numeral characters does not begin with white space. -/
lemma isSpace_head {run : List Char} (hrun : IsRun isNumeralChar run) (rest : List Char) :
    ∀ c ∈ (run ++ rest).head?, isSpace c = false := by
  cases run with
  | nil => exact absurd rfl hrun.1
  | cons d run =>
    rintro _ ⟨⟩
    exact isSpace_of_isNumeralChar (hrun.2 d List.mem_cons_self)

lemma spacedNumeral?_append {numeral cs rest : List Char} (h : Spaced [] numeral cs)
    (hrest : IsStopped rest) : spacedNumeral? (cs ++ rest) = some (numeral, rest) := by
  obtain ⟨hbefore, hrun, hafter⟩ := h
  rw [List.nil_append, List.append_assoc, List.append_assoc]
  unfold spacedNumeral?
  rw [skipSpaces_append hbefore (isSpace_head hrun _),
    run?_append hrun (isNumeralChar_head hafter fun c hc => (hrest c hc).2)]
  exact congrArg (fun more => some (numeral, more))
    (skipSpaces_append hafter fun c hc => (hrest c hc).1)

lemma exists_of_spacedNumeral? {cs numeral rest : List Char}
    (h : spacedNumeral? cs = some (numeral, rest)) :
    ∃ arg, Spaced [] numeral arg ∧ cs = arg ++ rest := by
  obtain ⟨before, hbefore, hcs⟩ := exists_skipSpaces cs
  unfold spacedNumeral? at h
  obtain ⟨⟨run, more⟩, hread, hrest⟩ := Option.bind_eq_some_iff.mp h
  obtain ⟨hrun, hmore⟩ := exists_of_run? hread
  obtain ⟨after, hafter, htail⟩ := exists_skipSpaces more
  cases hrest
  refine ⟨_, .intro hbefore hrun hafter, ?_⟩
  rw [List.nil_append, List.append_assoc, List.append_assoc, ← htail, ← hmore, ← hcs]

lemma percentage?_append {numeral cs rest : List Char} (h : Spaced ['%'] numeral cs)
    (hrest : IsStopped rest) : percentage? (cs ++ rest) = some (numeral, rest) := by
  obtain ⟨hbefore, hrun, hafter⟩ := h
  rw [List.append_assoc, List.append_assoc, List.append_assoc]
  unfold percentage?
  rw [skipSpaces_append hbefore (isSpace_head hrun _), run?_append hrun (by rintro _ ⟨⟩; decide)]
  exact congrArg (fun more => some (numeral, more))
    (skipSpaces_append hafter fun c hc => (hrest c hc).1)

lemma exists_of_percentage? {cs numeral rest : List Char}
    (h : percentage? cs = some (numeral, rest)) :
    ∃ arg, Spaced ['%'] numeral arg ∧ cs = arg ++ rest := by
  obtain ⟨before, hbefore, hcs⟩ := exists_skipSpaces cs
  unfold percentage? at h
  obtain ⟨⟨run, more⟩, hread, hrest⟩ := Option.bind_eq_some_iff.mp h
  obtain ⟨hrun, hmore⟩ := exists_of_run? hread
  obtain ⟨behind, hmark, hrest⟩ := Option.bind_eq_some_iff.mp hrest
  obtain rfl := afterChar?_eq_some_iff.mp hmark
  obtain ⟨after, hafter, htail⟩ := exists_skipSpaces behind
  cases hrest
  refine ⟨_, .intro hbefore hrun hafter, ?_⟩
  rw [List.append_assoc, List.append_assoc, List.append_assoc, ← htail]
  exact hcs.trans (congrArg (before ++ ·) hmore)

/-- The end of a call is read if and only if it is one. -/
lemma alphaAndClose?_eq_some_iff {separator : Char} (hseparator : separator ≠ ')')
    {alpha : Option (List Char)} {cs : List Char} :
    alphaAndClose? separator cs = some alpha ↔ Closes separator alpha cs := by
  constructor
  · intro h
    unfold alphaAndClose? at h
    split at h
    · rename_i rest hrest
      obtain rfl := afterChar?_eq_some_iff.mp hrest
      split at h
      · rename_i numeral hnumeral
        cases h
        obtain ⟨arg, harg, rfl⟩ := exists_of_spacedNumeral? hnumeral
        exact .withAlpha harg
      · cases h
    · split_ifs at h with hclose
      cases h
      rw [hclose]
      exact .plain
  · rintro (_ | harg)
    · unfold alphaAndClose?
      have hnone : afterChar? separator [')'] = none := if_neg (Ne.symm hseparator)
      rw [hnone]
      rfl
    · unfold alphaAndClose?
      rw [afterChar?_eq_some_iff.mpr rfl]
      dsimp only
      rw [spacedNumeral?_append harg (isStopped_close [])]
      rfl

lemma Closes.isStopped {separator : Char}
    (hseparator : isSpace separator = false ∧ isNumeralChar separator = false)
    {alpha : Option (List Char)} {cs : List Char} (h : Closes separator alpha cs) :
    IsStopped cs := by
  cases h with
  | plain => exact isStopped_close []
  | withAlpha => exact isStopped_cons hseparator _

/-! ## Names -/

/-- The name of a notation is read if and only if it stands before a parenthesis. -/
lemma afterName?_eq_some_iff {name : String} {cs rest : List Char} :
    afterName? name cs = some rest ↔ ∃ word, IsName name word ∧ cs = word ++ '(' :: rest := by
  have hparenthesis : ∀ more, afterLetters? ['a'] ('(' :: more) = none := fun _ =>
    if_neg (by decide)
  unfold afterName?
  constructor
  · intro h
    obtain ⟨more, hword, hrest⟩ := Option.bind_eq_some_iff.mp h
    obtain ⟨word, hname, rfl⟩ := afterLetters?_eq_some_iff.mp hword
    have hopen := afterChar?_eq_some_iff.mp hrest
    cases hletter : afterLetters? ['a'] more with
    | none =>
      rw [hletter, Option.getD_none] at hopen
      exact ⟨word, .plain hname, congrArg (word ++ ·) hopen⟩
    | some behind =>
      rw [hletter, Option.getD_some] at hopen
      obtain ⟨_, _ | ⟨hsame, ⟨⟩⟩, rfl⟩ := afterLetters?_eq_some_iff.mp hletter
      refine ⟨_, .withAlpha hname hsame, ?_⟩
      rw [hopen, List.append_assoc, List.singleton_append]
  · rintro ⟨_, hname | ⟨hname, hsame⟩, rfl⟩
    · refine Option.bind_eq_some_iff.mpr ⟨_, afterLetters?_eq_some_iff.mpr ⟨_, hname, rfl⟩, ?_⟩
      rw [hparenthesis]
      exact afterChar?_eq_some_iff.mpr rfl
    · rw [List.append_assoc]
      refine Option.bind_eq_some_iff.mpr ⟨_, afterLetters?_eq_some_iff.mpr ⟨_, hname, rfl⟩, ?_⟩
      have hletter : afterLetters? ['a'] ([_] ++ '(' :: rest) = some ('(' :: rest) :=
        afterLetters?_eq_some_iff.mpr ⟨_, .cons hsame .nil, rfl⟩
      rw [hletter, Option.getD_some]
      exact afterChar?_eq_some_iff.mpr rfl

/-! ## Numbers -/

/-- Decimal digits with at most one point among them, but not the point alone. -/
inductive IsNumber : List Char → Prop
  | whole {digits : List Char} : IsRun Text.isDecimal digits → IsNumber digits
  | point {whole fraction : List Char} : (∀ c ∈ whole, Text.isDecimal c = true) →
      (∀ c ∈ fraction, Text.isDecimal c = true) → whole ≠ [] ∨ fraction ≠ [] →
      IsNumber (whole ++ '.' :: fraction)

/-- Digits alone are a numeral without decimal places. -/
lemma ofChars?_whole {digits : List Char} (h : IsRun Text.isDecimal digits) :
    Decimal.Numeral.ofChars? digits = some ⟨digits, [], 0⟩ := by
  have htake := List.takeWhile_eq_self_iff.mpr h.2
  have hdrop := List.dropWhile_eq_nil_iff.mpr h.2
  unfold Decimal.Numeral.ofChars?
  dsimp only
  rw [htake, hdrop, List.isEmpty_eq_false_iff.mpr h.1]
  rfl

/-- Digits before and behind a point are a numeral. -/
lemma ofChars?_point {whole fraction : List Char} (hwhole : ∀ c ∈ whole, Text.isDecimal c = true)
    (hfraction : ∀ c ∈ fraction, Text.isDecimal c = true) (hsome : whole ≠ [] ∨ fraction ≠ []) :
    Decimal.Numeral.ofChars? (whole ++ '.' :: fraction) = some ⟨whole, fraction, 0⟩ := by
  have hpoint : ∀ c ∈ ('.' :: fraction).head?, Text.isDecimal c = false := by
    rintro _ ⟨⟩
    decide
  have htake := List.takeWhile_eq_self_iff.mpr hfraction
  have hdrop := List.dropWhile_eq_nil_iff.mpr hfraction
  unfold Decimal.Numeral.ofChars?
  rw [takeWhile_run hwhole hpoint, dropWhile_run hwhole hpoint]
  show (if (whole.isEmpty && (fraction.takeWhile Text.isDecimal).isEmpty) = true then none
    else (Decimal.exponent? (fraction.dropWhile Text.isDecimal)).map fun e =>
      (⟨whole, fraction.takeWhile Text.isDecimal, e⟩ : Decimal.Numeral)) = _
  rw [htake, hdrop, if_neg (by simpa [or_iff_not_imp_left] using hsome)]
  rfl

/-- No exponent stands in a row of digits and points. -/
lemma eq_nil_of_exponent? {cs : List Char} {e : ℤ} (hcs : ∀ c ∈ cs, isNumeralChar c = true)
    (h : Decimal.exponent? cs = some e) : cs = [] := by
  cases cs with
  | nil => rfl
  | cons mark rest =>
    have hmark : ¬ (mark == 'e' || mark == 'E') = true := by
      intro hmark
      have hnumeral := hcs mark List.mem_cons_self
      rcases Bool.or_eq_true_iff.mp hmark with hlower | hupper
      · rw [eq_of_beq hlower] at hnumeral
        exact absurd hnumeral (by decide)
      · rw [eq_of_beq hupper] at hnumeral
        exact absurd hnumeral (by decide)
    simp only [Decimal.exponent?, if_neg hmark, reduceCtorEq] at h

/-- A row of digits and points is read as a numeral if and only if it is a number. -/
theorem exists_ofChars?_iff {cs : List Char} (hrun : IsRun isNumeralChar cs) :
    (∃ n, Decimal.Numeral.ofChars? cs = some n) ↔ IsNumber cs := by
  constructor
  · rintro ⟨n, hn⟩
    have hsplit : cs.takeWhile Text.isDecimal ++ cs.dropWhile Text.isDecimal = cs :=
      List.takeWhile_append_dropWhile
    have hwhole : ∀ c ∈ cs.takeWhile Text.isDecimal, Text.isDecimal c = true := fun c hc =>
      List.mem_takeWhile_imp hc
    have hbehind : ∀ c ∈ cs.dropWhile Text.isDecimal, isNumeralChar c = true := fun c hc =>
      hrun.2 c ((List.dropWhile_suffix _).subset hc)
    unfold Decimal.Numeral.ofChars? at hn
    dsimp only at hn
    split at hn
    next behind hpoint =>
      -- a point, and all that follows it are digits
      split_ifs at hn with hempty
      obtain ⟨e, he, _⟩ := Option.map_eq_some_iff.mp hn
      have hnil := eq_nil_of_exponent? (fun c hc => hbehind c (hpoint ▸ List.mem_cons_of_mem _
        ((List.dropWhile_suffix _).subset hc))) he
      have hfraction := List.takeWhile_append_dropWhile (p := Text.isDecimal) (l := behind)
      rw [hnil, List.append_nil] at hfraction
      rw [hfraction, Bool.and_eq_true, List.isEmpty_iff, List.isEmpty_iff] at hempty
      rw [← hsplit, hpoint]
      exact .point hwhole (fun c hc => List.mem_takeWhile_imp (hfraction ▸ hc))
        (not_and_or.mp hempty)
    next behind hother =>
      -- no point, and the digits are all there is
      split_ifs at hn with hempty
      obtain ⟨e, he, _⟩ := Option.map_eq_some_iff.mp hn
      rw [eq_nil_of_exponent? hbehind he, List.append_nil] at hsplit
      rw [← hsplit]
      exact .whole ⟨hsplit.symm ▸ hrun.1, hwhole⟩
  · rintro (h | ⟨hwhole, hfraction, hsome⟩)
    · exact ⟨_, ofChars?_whole h⟩
    · exact ⟨_, ofChars?_point hwhole hfraction hsome⟩

/-! ## Reading the forms -/

section reading

variable {form : ColorText} {cs : List Char}

lemma hex?_of_digits {sign : List Char} {digits : List Nat} (hsign : sign = [] ∨ sign = ['#'])
    (hdigits : cs.mapM hexValue? = some digits) :
    hex? (sign ++ cs) =
      if digits.length = 3 then some (.hex (digits.flatMap fun d => [d, d]))
      else if digits.length = 6 ∨ digits.length = 8 then some (.hex digits)
      else none := by
  have hrest : (afterChar? '#' (sign ++ cs)).getD (sign ++ cs) = cs := by
    rcases hsign with rfl | rfl
    · cases hafter : afterChar? '#' cs with
      | none => exact congrArg (Option.getD · cs) hafter
      | some rest =>
        -- a number sign is no hexadecimal digit
        obtain rfl := afterChar?_eq_some_iff.mp hafter
        rw [List.mapM_cons] at hdigits
        cases hdigits
    · rfl
  unfold hex?
  rw [hrest, hdigits]
  rfl

lemma exists_of_hex? (h : hex? cs = some form) :
    ∃ sign rest digits, (sign = [] ∨ sign = ['#']) ∧ rest.mapM hexValue? = some digits ∧
      cs = sign ++ rest := by
  obtain ⟨digits, hdigits, _⟩ := Option.bind_eq_some_iff.mp h
  cases hafter : afterChar? '#' cs with
  | none =>
    rw [hafter] at hdigits
    exact ⟨[], cs, digits, Or.inl rfl, hdigits, rfl⟩
  | some rest =>
    rw [hafter] at hdigits
    exact ⟨['#'], rest, digits, Or.inr rfl, hdigits, afterChar?_eq_some_iff.mp hafter⟩

lemma spells_of_hex? (h : hex? cs = some form) : form.Spells cs := by
  obtain ⟨sign, rest, digits, hsign, hdigits, rfl⟩ := exists_of_hex? h
  rw [hex?_of_digits hsign hdigits] at h
  split_ifs at h with hshort hlong
  · cases h
    exact .shortHex hsign hdigits hshort
  · cases h
    exact .hex hsign hdigits hlong

/-- A text with a parenthesis is not read as hexadecimal digits. -/
lemma hex?_eq_none (h : ')' ∈ cs) : hex? cs = none := by
  refine Option.eq_none_iff_forall_ne_some.mpr fun form hform => ?_
  obtain ⟨sign, rest, digits, hsign, hdigits, rfl⟩ := exists_of_hex? hform
  have hrest : ')' ∈ rest := by
    rcases hsign with rfl | rfl
    · exact h
    · exact List.mem_of_ne_of_mem (by decide) h
  obtain ⟨before, after, rfl⟩ := List.append_of_mem hrest
  rw [List.mapM_append, List.mapM_cons] at hdigits
  cases hbefore : before.mapM hexValue? <;> rw [hbefore] at hdigits <;> cases hdigits

lemma spells_of_rgb? (h : rgb? cs = some form) : form.Spells cs := by
  unfold rgb? at h
  simp only [Option.bind_eq_bind, Option.bind_eq_some_iff, Prod.exists, Option.pure_def,
    Option.some.injEq] at h
  obtain ⟨_, hword, r, _, hred, _, hcomma, g, _, hgreen, _, hcomma', b, _, hblue, alpha, hend,
    rfl⟩ := h
  obtain ⟨name, hname, rfl⟩ := afterName?_eq_some_iff.mp hword
  obtain ⟨rs, hr, rfl⟩ := exists_of_spacedNumeral? hred
  obtain rfl := afterChar?_eq_some_iff.mp hcomma
  obtain ⟨gs, hg, rfl⟩ := exists_of_spacedNumeral? hgreen
  obtain rfl := afterChar?_eq_some_iff.mp hcomma'
  obtain ⟨bs, hb, rfl⟩ := exists_of_spacedNumeral? hblue
  exact .rgb hname hr hg hb ((alphaAndClose?_eq_some_iff (by decide)).mp hend)

lemma spells_of_hsl? (h : hsl? cs = some form) : form.Spells cs := by
  unfold hsl? at h
  simp only [Option.bind_eq_bind, Option.bind_eq_some_iff, Prod.exists, Option.pure_def,
    Option.some.injEq] at h
  obtain ⟨_, hword, hue, _, hturn, _, hcomma, s, _, hsaturation, _, hcomma', l, _, hlightness,
    alpha, hend, rfl⟩ := h
  obtain ⟨name, hname, rfl⟩ := afterName?_eq_some_iff.mp hword
  obtain ⟨hues, hhue, rfl⟩ := exists_of_spacedNumeral? hturn
  obtain rfl := afterChar?_eq_some_iff.mp hcomma
  obtain ⟨ss, hs, rfl⟩ := exists_of_percentage? hsaturation
  obtain rfl := afterChar?_eq_some_iff.mp hcomma'
  obtain ⟨ls, hl, rfl⟩ := exists_of_percentage? hlightness
  exact .hsl hname hhue hs hl ((alphaAndClose?_eq_some_iff (by decide)).mp hend)

lemma afterSpaces?_append {gap rest : List Char} (hgap : IsRun isSpace gap)
    (hrest : ∀ c ∈ rest.head?, isSpace c = false) : afterSpaces? (gap ++ rest) = some rest := by
  unfold afterSpaces?
  rw [run?_append hgap hrest]
  rfl

lemma exists_of_afterSpaces? {rest : List Char} (h : afterSpaces? cs = some rest) :
    ∃ gap, IsRun isSpace gap ∧ cs = gap ++ rest := by
  obtain ⟨⟨gap, more⟩, hgap, hmore⟩ := Option.map_eq_some_iff.mp h
  obtain ⟨hrun, hcs⟩ := exists_of_run? hgap
  cases hmore
  exact ⟨gap, hrun, hcs⟩

lemma spells_of_oklch? (h : oklch? cs = some form) : form.Spells cs := by
  unfold oklch? at h
  simp only [Option.bind_eq_bind, Option.bind_eq_some_iff, Prod.exists, Option.pure_def,
    Option.some.injEq] at h
  obtain ⟨_, hword, inner, hopen, l, _, hlightness, _, hpercent, _, hspaces, chroma, _, hchroma, _,
    hspaces', hue, _, hturn, alpha, hend, rfl⟩ := h
  obtain ⟨name, hname, rfl⟩ := afterLetters?_eq_some_iff.mp hword
  obtain rfl := afterChar?_eq_some_iff.mp hopen
  obtain ⟨before, hbefore, hinner⟩ := exists_skipSpaces inner
  obtain ⟨hl, hmore⟩ := exists_of_run? hlightness
  obtain rfl := afterChar?_eq_some_iff.mp hpercent
  obtain ⟨gap, hgap, rfl⟩ := exists_of_afterSpaces? hspaces
  obtain ⟨hc, rfl⟩ := exists_of_run? hchroma
  obtain ⟨gap', hgap', rfl⟩ := exists_of_afterSpaces? hspaces'
  obtain ⟨_, ⟨hblank, hhue, hafter⟩, rfl⟩ := exists_of_spacedNumeral? hturn
  have hspells := Spells.oklch hname hbefore hl hgap hc (hgap'.append_blank hblank) hhue hafter
    ((alphaAndClose?_eq_some_iff (by decide)).mp hend)
  rw [hinner, hmore]
  simpa only [List.append_assoc, List.nil_append] using hspells

/-- A color text has a closing parenthesis, unless it is a row of hexadecimal digits. -/
lemma Closes.close_mem {separator : Char} {alpha : Option (List Char)}
    (h : Closes separator alpha cs) : ')' ∈ cs := by
  cases h with
  | plain => exact List.mem_singleton_self _
  | withAlpha => simp

/-- The first character of a text that begins with a word. -/
lemma IsWord.head {l : Char} {word w : List Char} (h : IsWord (l :: word) w) (rest : List Char) :
    ∀ c ∈ (w ++ rest).head?, sameLetter l c = true := by
  obtain _ | ⟨hsame, _⟩ := h
  rintro _ ⟨⟩
  exact hsame

lemma IsName.head {name : String} {l : Char} {word w : List Char} (hname : name.toList = l :: word)
    (h : IsName name w) (rest : List Char) : ∀ c ∈ (w ++ rest).head?, sameLetter l c = true := by
  cases h with
  | plain hword => exact (hname ▸ hword).head rest
  | withAlpha hword =>
    rw [List.append_assoc]
    exact (hname ▸ hword).head _

/-- The first letters of the names of notations. -/
def initials : List Char := ['r', 'h', 'o']

/-- No character is the first letter of two names. -/
lemma sameLetter_eq_false {l l' c : Char} (hl : l ∈ initials) (hl' : l' ∈ initials) (hne : l ≠ l')
    (h : sameLetter l c = true) : sameLetter l' c = false := by
  have hlower : ∀ k ∈ initials, sameLetter k c = true → Text.simpleLower c = k := by
    intro k hk hsame
    simp only [initials, List.mem_cons, List.not_mem_nil, or_false] at hk
    rcases hk with rfl | rfl | rfl <;>
      exact Text.simpleLower_of_sameLetter (by decide) (by decide) (by decide) hsame
  exact Bool.eq_false_iff.mpr fun hother => hne ((hlower l hl h).symm.trans (hlower l' hl' hother))

lemma afterName?_eq_none {name : String} {l : Char} {word : List Char}
    (hname : name.toList = l :: word) (h : ∀ c ∈ cs.head?, sameLetter l c = false) :
    afterName? name cs = none := by
  refine Option.eq_none_iff_forall_ne_some.mpr fun rest hrest => ?_
  obtain ⟨w, hw, rfl⟩ := afterName?_eq_some_iff.mp hrest
  have hsame := hw.head hname ('(' :: rest)
  obtain ⟨c, hc⟩ : ∃ c, (w ++ '(' :: rest).head? = some c := by cases w <;> exact ⟨_, rfl⟩
  exact Bool.noConfusion ((h c hc).symm.trans (hsame c hc))

lemma rgb?_eq_none (h : ∀ c ∈ cs.head?, sameLetter 'r' c = false) : rgb? cs = none := by
  unfold rgb?
  rw [afterName?_eq_none rfl h]
  rfl

lemma hsl?_eq_none (h : ∀ c ∈ cs.head?, sameLetter 'h' c = false) : hsl? cs = none := by
  unfold hsl?
  rw [afterName?_eq_none rfl h]
  rfl

/-- Color texts are read in the form that they have. -/
lemma ofChars?_of_spells (h : form.Spells cs) : ofChars? cs = some form := by
  unfold ofChars?
  cases h with
  | hex hsign hdigits hlength =>
    rw [hex?_of_digits hsign hdigits, if_neg (by omega), if_pos hlength]
    rfl
  | shortHex hsign hdigits hlength =>
    rw [hex?_of_digits hsign hdigits, if_pos hlength]
    rfl
  | @rgb name r g b rs gs bs close alpha hname hr hg hb hclose =>
    have hmem : ')' ∈ name ++ '(' :: (rs ++ ',' :: (gs ++ ',' :: (bs ++ close))) := by
      simp [hclose.close_mem]
    have hread : rgb? (name ++ '(' :: (rs ++ ',' :: (gs ++ ',' :: (bs ++ close)))) =
        some (.rgb r g b alpha) := by
      unfold rgb?
      simp only [Option.bind_eq_bind, Option.bind_eq_some_iff, Prod.exists, Option.pure_def,
        Option.some.injEq]
      exact ⟨_, afterName?_eq_some_iff.mpr ⟨_, hname, rfl⟩,
        _, _, spacedNumeral?_append hr (isStopped_comma _), _, afterChar?_eq_some_iff.mpr rfl,
        _, _, spacedNumeral?_append hg (isStopped_comma _), _, afterChar?_eq_some_iff.mpr rfl,
        _, _, spacedNumeral?_append hb (hclose.isStopped (by decide)),
        _, (alphaAndClose?_eq_some_iff (by decide)).mpr hclose, rfl⟩
    rw [hex?_eq_none hmem, hread]
    rfl
  | @hsl name hue s l hues ss ls close alpha hname hhue hs hl hclose =>
    have hmem : ')' ∈ name ++ '(' :: (hues ++ ',' :: (ss ++ ',' :: (ls ++ close))) := by
      simp [hclose.close_mem]
    have hhead : ∀ c ∈ (name ++ '(' :: (hues ++ ',' :: (ss ++ ',' :: (ls ++ close)))).head?,
        sameLetter 'r' c = false := fun c hc =>
      sameLetter_eq_false (l := 'h') (by decide) (by decide) (by decide) (hname.head rfl _ c hc)
    have hread : hsl? (name ++ '(' :: (hues ++ ',' :: (ss ++ ',' :: (ls ++ close)))) =
        some (.hsl hue s l alpha) := by
      unfold hsl?
      simp only [Option.bind_eq_bind, Option.bind_eq_some_iff, Prod.exists, Option.pure_def,
        Option.some.injEq]
      exact ⟨_, afterName?_eq_some_iff.mpr ⟨_, hname, rfl⟩,
        _, _, spacedNumeral?_append hhue (isStopped_comma _), _, afterChar?_eq_some_iff.mpr rfl,
        _, _, percentage?_append hs (isStopped_comma _), _, afterChar?_eq_some_iff.mpr rfl,
        _, _, percentage?_append hl (hclose.isStopped (by decide)),
        _, (alphaAndClose?_eq_some_iff (by decide)).mpr hclose, rfl⟩
    rw [hex?_eq_none hmem, rgb?_eq_none hhead, hread]
    rfl
  | @oklch name before l gap chroma gap' hue after close alpha hname hbefore hl hgap hc hgap' hhue
      hafter hclose =>
    have hmem : ')' ∈ name ++ '(' :: (before ++ (l ++ '%' ::
        (gap ++ (chroma ++ (gap' ++ (hue ++ (after ++ close))))))) := by
      simp [hclose.close_mem]
    have hhead : ∀ k ∈ initials, k ≠ 'o' → ∀ c ∈ (name ++ '(' :: (before ++ (l ++ '%' ::
        (gap ++ (chroma ++ (gap' ++ (hue ++ (after ++ close)))))))).head?,
        sameLetter k c = false := fun k hk hne c hc =>
      sameLetter_eq_false (by decide) hk hne.symm (IsWord.head hname _ c hc)
    have hnone : IsBlank [] := nofun
    have hspaced : Spaced [] hue (hue ++ after) := .intro hnone hhue hafter
    have hread : oklch? (name ++ '(' :: (before ++ (l ++ '%' ::
        (gap ++ (chroma ++ (gap' ++ (hue ++ (after ++ close)))))))) =
        some (.oklch l chroma hue alpha) := by
      unfold oklch?
      simp only [Option.bind_eq_bind, Option.bind_eq_some_iff, Prod.exists, Option.pure_def,
        Option.some.injEq]
      refine ⟨_, afterLetters?_eq_some_iff.mpr ⟨_, hname, rfl⟩, _, afterChar?_eq_some_iff.mpr rfl,
        l, '%' :: (gap ++ (chroma ++ (gap' ++ (hue ++ (after ++ close))))), ?_,
        _, afterChar?_eq_some_iff.mpr rfl, _, afterSpaces?_append hgap (isSpace_head hc _),
        chroma, gap' ++ (hue ++ (after ++ close)),
        run?_append hc (isNumeralChar_gap hgap' _),
        _, afterSpaces?_append hgap' (isSpace_head hhue _), hue, close, ?_,
        alpha, (alphaAndClose?_eq_some_iff (by decide)).mpr hclose, rfl⟩
      · rw [skipSpaces_append hbefore (isSpace_head hl _)]
        exact run?_append hl (by rintro _ ⟨⟩; decide)
      · rw [← List.append_assoc]
        exact spacedNumeral?_append hspaced (hclose.isStopped (by decide))
    rw [hex?_eq_none hmem, rgb?_eq_none (hhead 'r' (by decide) (by decide)),
      hsl?_eq_none (hhead 'h' (by decide) (by decide)), hread]
    rfl

/-- Reading finds exactly the forms that a text has. -/
theorem ofChars?_eq_some_iff : ofChars? cs = some form ↔ form.Spells cs := by
  constructor
  · intro h
    unfold ofChars? at h
    simp only [Option.orElse_eq_orElse, Option.orElse_eq_or, Option.or_eq_some_iff] at h
    rcases h with h | ⟨_, h | ⟨_, h | ⟨_, h⟩⟩⟩
    · exact spells_of_hex? h
    · exact spells_of_rgb? h
    · exact spells_of_hsl? h
    · exact spells_of_oklch? h
  · exact ofChars?_of_spells

end reading

end ColorText

end DesignTokens

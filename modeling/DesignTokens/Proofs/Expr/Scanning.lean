import DesignTokens.Expr.Lexer
import DesignTokens.Proofs.Text.Digits
import Mathlib.Data.List.TakeWhile
import Mathlib.Data.Nat.Notation
import Mathlib.Tactic.Lemma

/-!
# Scanning a text in parts

The kinds and texts of the lexemes of a text do not depend on where the text begins
(`Lexeme.shapes?`).  Where a character stands that continues neither a number nor an identifier, the
text can be scanned in two parts (`Lexeme.shapes?_append`): the first part has the lexemes that it has
alone, as the longest number and the longest identifier end there in any case.
-/

namespace DesignTokens

open Text (isDecimal isSpace isWord)

namespace Lexeme

/-! ## Lexemes without their positions -/

/-- The kind and the text of a lexeme. -/
abbrev Shape : Type :=
  LexKind × String

/-- A lexeme without its position. -/
def shape (t : Lexeme) : Shape :=
  (t.kind, t.text)

/-- The lexemes of a text without their positions, when it can be scanned. -/
def shapes? (cs : List Char) : Option (List Shape) :=
  (scanFrom 0 cs).toOption.map (List.map shape)

/-- Where a text begins shows in the positions alone. -/
lemma shapes?_eq (pos : ℕ) (cs : List Char) :
    (scanFrom pos cs).toOption.map (List.map shape) = shapes? cs := by
  have hsame : ∀ pos', (scanFrom pos cs).toOption.map (List.map shape) =
      (scanFrom pos' cs).toOption.map (List.map shape) := by
    fun_induction scanFrom pos cs with
    | case1 pos =>
      intro pos'
      rw [scanFrom]
    | case2 pos c rest hspace ih =>
      intro pos'
      rw [ih (pos' + 1), scanFrom, if_pos hspace]
    | case3 pos c rest hspace hbegin =>
      intro pos'
      rw [scanFrom, if_neg hspace, hbegin]
      rfl
    | case4 pos c rest hspace kind more hbegin lexemes hscan ih =>
      intro pos'
      have hmore := ih (pos' + 1 + more)
      rw [hscan] at hmore
      rw [scanFrom, if_neg hspace, hbegin]
      dsimp only
      cases hscan' : scanFrom (pos' + 1 + more) (rest.drop more) with
      | error fault =>
        rw [hscan'] at hmore
        cases hmore
      | ok lexemes' =>
        rw [hscan'] at hmore
        have htail : lexemes.map shape = lexemes'.map shape := Option.some.inj hmore
        show some (_ :: lexemes.map shape) = some (_ :: lexemes'.map shape)
        rw [htail]
        rfl
    | case5 pos c rest hspace kind more hbegin fault hscan ih =>
      intro pos'
      have hmore := ih (pos' + 1 + more)
      rw [hscan] at hmore
      rw [scanFrom, if_neg hspace, hbegin]
      dsimp only
      cases hscan' : scanFrom (pos' + 1 + more) (rest.drop more) with
      | error fault' => rfl
      | ok lexemes' =>
        rw [hscan'] at hmore
        cases hmore
  exact hsame 0

/-- A text that can be scanned. -/
lemma shapes?_eq_some {cs : List Char} {shapes : List Shape} :
    shapes? cs = some shapes ↔ ∃ lexemes, scanFrom 0 cs = .ok lexemes ∧ lexemes.map shape = shapes := by
  unfold shapes?
  cases scanFrom 0 cs <;> simp [Except.toOption]

/-- A text that cannot be scanned. -/
lemma shapes?_eq_none {cs : List Char} :
    shapes? cs = none ↔ ∃ fault, scanFrom 0 cs = .error fault := by
  unfold shapes?
  cases scanFrom 0 cs <;> simp [Except.toOption]

/-- There are no lexemes in an empty text. -/
lemma shapes?_nil : shapes? [] = some [] := by
  unfold shapes?
  rw [scanFrom]
  rfl

/-- White space is passed. -/
lemma shapes?_space {c : Char} (hc : isSpace c = true) (rest : List Char) :
    shapes? (c :: rest) = shapes? rest := by
  rw [← shapes?_eq 1 rest, shapes?, scanFrom, if_pos hc]

/-- A character at which no lexeme begins. -/
lemma shapes?_of_begin?_eq_none {c : Char} {rest : List Char} (hc : isSpace c = false)
    (h : begin? c rest = none) : shapes? (c :: rest) = none := by
  rw [shapes?, scanFrom, if_neg (by simp [hc]), h]
  rfl

/-- A lexeme, and those after it. -/
lemma shapes?_of_begin? {c : Char} {rest : List Char} {kind : LexKind} {more : ℕ}
    (hc : isSpace c = false) (h : begin? c rest = some (kind, more)) :
    shapes? (c :: rest) =
      (shapes? (rest.drop more)).map ((kind, String.ofList (c :: rest.take more)) :: ·) := by
  rw [← shapes?_eq (0 + 1 + more) (rest.drop more), shapes?, scanFrom, if_neg (by simp [hc]), h]
  dsimp only
  cases scanFrom (0 + 1 + more) (rest.drop more) <;> rfl

/-! ## Where numbers and identifiers end -/

/-- A text that does not continue a number. -/
def StopsNumber (rest : List Char) : Prop :=
  ∀ c ∈ rest.head?, isDecimal c = false ∧ c ∉ ['.', 'e', 'E', '+', '-']

/-- A text that does not continue an identifier. -/
def StopsIdent (rest : List Char) : Prop :=
  ∀ c ∈ rest.head?, isWord c = false

/-- A run ends where it ends without what follows. -/
lemma takeWhile_append_of_stops {p : Char → Bool} {rest : List Char}
    (h : ∀ c ∈ rest.head?, p c = false) (cs : List Char) :
    (cs ++ rest).takeWhile p = cs.takeWhile p := by
  induction cs with
  | nil =>
    cases rest with
    | nil => rfl
    | cons c rest => exact List.takeWhile_cons_of_neg (by simp [h c rfl])
  | cons c cs ih => simp only [List.cons_append, List.takeWhile_cons, ih]

variable {rest : List Char}

/-- Digits are counted up to their end. -/
lemma digitCount_append (h : StopsNumber rest) (cs : List Char) :
    digitCount (cs ++ rest) = digitCount cs := by
  unfold digitCount
  rw [takeWhile_append_of_stops fun c hc => (h c hc).1]

/-- No more digits are counted than there are characters. -/
lemma digitCount_le (cs : List Char) : digitCount cs ≤ cs.length :=
  (List.takeWhile_prefix isDecimal).length_le

/-- The length of a sign at the front. -/
def signLength : List Char → ℕ
  | sign :: _ => if sign = '+' ∨ sign = '-' then 1 else 0
  | [] => 0

/-- The length of an exponent: its mark, a sign perhaps, and digits. -/
lemma exponentLength_cons (mark : Char) (cs : List Char) :
    exponentLength (mark :: cs) =
      if mark = 'e' ∨ mark = 'E' then
        if digitCount (cs.drop (signLength cs)) = 0 then 0
        else 1 + signLength cs + digitCount (cs.drop (signLength cs))
      else 0 := by
  cases cs <;> rfl

/-- A sign is not longer than the text. -/
lemma signLength_le (cs : List Char) : signLength cs ≤ cs.length := by
  cases cs with
  | nil => exact le_refl 0
  | cons sign cs =>
    show (if sign = '+' ∨ sign = '-' then 1 else 0) ≤ cs.length + 1
    split_ifs <;> omega

/-- What does not continue a number does not begin with a sign. -/
lemma signLength_of_stops (h : StopsNumber rest) : signLength rest = 0 := by
  cases rest with
  | nil => rfl
  | cons c rest =>
    have hc := (h c rfl).2
    simp only [List.mem_cons, not_or] at hc
    exact if_neg (not_or.mpr ⟨hc.2.2.2.1, hc.2.2.2.2.1⟩)

/-- A sign is found in the text, or nowhere. -/
lemma signLength_append (h : StopsNumber rest) (cs : List Char) :
    signLength (cs ++ rest) = signLength cs := by
  cases cs with
  | nil => exact signLength_of_stops h
  | cons sign cs => rfl

/-- What does not continue a number has no exponent. -/
lemma exponentLength_of_stops (h : StopsNumber rest) : exponentLength rest = 0 := by
  cases rest with
  | nil => rfl
  | cons c rest =>
    have hc := (h c rfl).2
    simp only [List.mem_cons, not_or] at hc
    exact if_neg (not_or.mpr ⟨hc.2.1, hc.2.2.1⟩)

/-- An exponent is counted up to its end. -/
lemma exponentLength_append (h : StopsNumber rest) (cs : List Char) :
    exponentLength (cs ++ rest) = exponentLength cs := by
  cases cs with
  | nil => exact exponentLength_of_stops h
  | cons mark cs =>
    rw [List.cons_append, exponentLength_cons, exponentLength_cons, signLength_append h,
      List.drop_append_of_le_length (signLength_le cs), digitCount_append h]

/-- An exponent is not longer than the text. -/
lemma exponentLength_le (cs : List Char) : exponentLength cs ≤ cs.length := by
  cases cs with
  | nil => exact le_refl 0
  | cons mark cs =>
    have hsign := signLength_le cs
    have hdigits := digitCount_le (cs.drop (signLength cs))
    rw [List.length_drop] at hdigits
    rw [exponentLength_cons, List.length_cons]
    split_ifs <;> omega

/-- A mantissa is not longer than the text. -/
lemma mantissaLength_le (cs : List Char) : mantissaLength cs ≤ cs.length := by
  unfold mantissaLength
  dsimp only
  split
  · next fraction hdrop =>
    have hlength := congrArg List.length hdrop
    rw [List.length_drop, List.length_cons] at hlength
    have hle := digitCount_le fraction
    split_ifs <;> omega
  · exact digitCount_le cs

/-- A mantissa is counted up to its end. -/
lemma mantissaLength_append (h : StopsNumber rest) (cs : List Char) :
    mantissaLength (cs ++ rest) = mantissaLength cs := by
  have hle := digitCount_le cs
  have hdrop : (cs ++ rest).drop (digitCount cs) = cs.drop (digitCount cs) ++ rest :=
    List.drop_append_of_le_length hle
  unfold mantissaLength
  simp only [digitCount_append h, hdrop]
  cases hafter : cs.drop (digitCount cs) with
  | nil =>
    rw [List.nil_append]
    split
    · next fraction =>
      have hc := (h '.' rfl).2
      exact absurd List.mem_cons_self hc
    · rfl
  | cons c after =>
    by_cases hc : c = '.'
    · subst hc
      simp only [List.cons_append, digitCount_append h]
    · rw [List.cons_append]
      split
      · next hpoint => exact absurd (List.cons.inj hpoint).1 hc
      · split
        · next hpoint => exact absurd (List.cons.inj hpoint).1 hc
        · rfl

/-- A number is counted up to its end. -/
lemma numberLength_append (h : StopsNumber rest) (cs : List Char) :
    numberLength (cs ++ rest) = numberLength cs := by
  unfold numberLength
  simp only [mantissaLength_append h, List.drop_append_of_le_length (mantissaLength_le cs),
    exponentLength_append h]

/-- A number is not longer than the text. -/
lemma numberLength_le (cs : List Char) : numberLength cs ≤ cs.length := by
  unfold numberLength
  dsimp only
  have hmantissa := mantissaLength_le cs
  have hexponent := exponentLength_le (cs.drop (mantissaLength cs))
  rw [List.length_drop] at hexponent
  split_ifs <;> omega

/-- A lexeme is not longer than the text. -/
lemma le_length_of_begin? {c : Char} {kind : LexKind} {more : ℕ}
    (h : begin? c rest = some (kind, more)) : more ≤ rest.length := by
  unfold begin? at h
  dsimp only at h
  split_ifs at h with hnumber hident
  · cases h
    have hle := numberLength_le (c :: rest)
    rw [List.length_cons] at hle
    omega
  · cases h
    exact (List.takeWhile_prefix isWord).length_le
  · obtain ⟨kind', -, heq⟩ := Option.map_eq_some_iff.mp h
    cases heq
    exact Nat.zero_le _

/-- Which lexeme begins does not depend on what follows, if neither a number nor the identifier goes
on there. -/
lemma begin?_append {c : Char} {cs : List Char} (hnumber : StopsNumber rest)
    (hident : startsIdent c = true → (cs ++ rest).takeWhile isWord = cs.takeWhile isWord) :
    begin? c (cs ++ rest) = begin? c cs := by
  have hlength : numberLength (c :: (cs ++ rest)) = numberLength (c :: cs) :=
    numberLength_append hnumber (c :: cs)
  unfold begin?
  simp only [hlength]
  by_cases hc : startsIdent c = true
  · simp only [hident hc]
  · simp only [if_neg hc]

/-- A text that continues neither numbers nor identifiers is scanned apart from what stands before
it. -/
theorem shapes?_append (hnumber : StopsNumber rest) (hident : StopsIdent rest) (cs : List Char) :
    shapes? (cs ++ rest) = (shapes? cs).bind fun before => (shapes? rest).map (before ++ ·) := by
  -- A lexeme takes several characters, so the rest is shorter by more than one.
  induction hlength : cs.length using Nat.strong_induction_on generalizing cs with
  | _ n ih =>
    cases cs with
    | nil =>
      rw [shapes?_nil, List.nil_append]
      cases shapes? rest <;> rfl
    | cons c cs =>
      rw [List.cons_append]
      cases hspace : isSpace c with
      | true =>
        rw [shapes?_space hspace, shapes?_space hspace]
        exact ih cs.length (by simp [← hlength]) cs rfl
      | false =>
        have hbegin : begin? c (cs ++ rest) = begin? c cs :=
          begin?_append hnumber fun _ => takeWhile_append_of_stops hident cs
        cases hkind : begin? c cs with
        | none =>
          rw [shapes?_of_begin?_eq_none hspace hkind,
            shapes?_of_begin?_eq_none hspace (hbegin.trans hkind)]
          rfl
        | some found =>
          obtain ⟨kind, more⟩ := found
          have hle := le_length_of_begin? hkind
          have hshorter : (cs.drop more).length < n := by
            rw [← hlength, List.length_drop, List.length_cons]
            omega
          rw [shapes?_of_begin? hspace hkind, shapes?_of_begin? hspace (hbegin.trans hkind),
            List.drop_append_of_le_length hle, List.take_append_of_le_length hle,
            ih _ hshorter (cs.drop more) rfl]
          cases shapes? (cs.drop more) with
          | none => rfl
          | some before => cases shapes? rest <;> rfl

/-- A text is scanned in two parts where a blank stands. -/
lemma shapes?_append_blank (cs rest : List Char) :
    shapes? (cs ++ ' ' :: rest) =
      (shapes? cs).bind fun before => (shapes? rest).map (before ++ ·) := by
  have hnumber : StopsNumber (' ' :: rest) := by
    intro c hc
    obtain rfl := Option.some.inj hc
    decide
  have hident : StopsIdent (' ' :: rest) := by
    intro c hc
    obtain rfl := Option.some.inj hc
    decide
  rw [shapes?_append hnumber hident, shapes?_space (by decide)]

/-! ## Identifiers -/

/-- The characters that begin an identifier, by their numbers. -/
lemma toNat_of_startsIdent {c : Char} (hc : startsIdent c = true) :
    (65 ≤ c.toNat ∧ c.toNat ≤ 90) ∨ (97 ≤ c.toNat ∧ c.toNat ≤ 122) ∨ c.toNat = 95 := by
  unfold startsIdent Char.isAlpha Char.isUpper Char.isLower at hc
  simp only [Bool.or_eq_true, Bool.and_eq_true, decide_eq_true_eq, beq_iff_eq] at hc
  rcases hc with (⟨h, h'⟩ | ⟨h, h'⟩) | rfl
  · exact Or.inl ⟨UInt32.le_iff_toNat_le.mp h, UInt32.le_iff_toNat_le.mp h'⟩
  · exact Or.inr (Or.inl ⟨UInt32.le_iff_toNat_le.mp h, UInt32.le_iff_toNat_le.mp h'⟩)
  · exact Or.inr (Or.inr rfl)

/-- No digit begins an identifier. -/
lemma isDecimal_of_startsIdent {c : Char} (hc : startsIdent c = true) : isDecimal c = false := by
  have hrange := toNat_of_startsIdent hc
  have hascii : Text.isAscii c = true := by
    unfold Text.isAscii
    rw [decide_eq_true_eq]
    omega
  have hdigit : ¬ c.isDigit = true := by
    intro h
    have hdigits := Text.toNat_of_isDigit h
    omega
  unfold isDecimal
  rw [if_pos hascii]
  exact Bool.eq_false_iff.mpr hdigit

/-- No white space begins an identifier. -/
lemma isSpace_of_startsIdent {c : Char} (hc : startsIdent c = true) : isSpace c = false := by
  have hrange := toNat_of_startsIdent hc
  refine Bool.eq_false_iff.mpr fun hspace => ?_
  unfold isSpace at hspace
  simp only [Bool.or_eq_true, Bool.and_eq_true, decide_eq_true_eq, beq_iff_eq] at hspace
  omega

/-- The numbers of the characters that are white space. -/
def spaceNumbers : List ℕ :=
  [0x20, 0x09, 0x0A, 0x0B, 0x0C, 0x0D, 0x1C, 0x1D, 0x1E, 0x1F, 0x85, 0xA0, 0x1680, 0x2000, 0x2001,
    0x2002, 0x2003, 0x2004, 0x2005, 0x2006, 0x2007, 0x2008, 0x2009, 0x200A, 0x2028, 0x2029, 0x202F,
    0x205F, 0x3000]

/-- No word character is white space. -/
lemma isSpace_of_isWord {c : Char} (hc : isWord c = true) : isSpace c = false := by
  refine Bool.eq_false_iff.mpr fun hspace => ?_
  have hmem : c.toNat ∈ spaceNumbers := by
    unfold isSpace at hspace
    unfold spaceNumbers
    simp only [Bool.or_eq_true, Bool.and_eq_true, decide_eq_true_eq, beq_iff_eq] at hspace
    simp only [List.mem_cons, List.not_mem_nil, or_false]
    omega
  have hall : ∀ n ∈ spaceNumbers, isWord (Char.ofNat n) = false := by
    decide +kernel
  have hchar := hall _ hmem
  rw [Char.ofNat_toNat, hc] at hchar
  cases hchar

/-- No number begins with a character that is neither a digit nor a point. -/
lemma numberLength_cons_eq_zero {c : Char} (hc : isDecimal c = false) (hpoint : c ≠ '.')
    (cs : List Char) : numberLength (c :: cs) = 0 := by
  have hcount : digitCount (c :: cs) = 0 := by
    unfold digitCount
    rw [List.takeWhile_cons_of_neg (by rw [hc]; decide)]
    rfl
  unfold numberLength mantissaLength
  simp only [hcount, List.drop_zero]
  split
  · next hfirst => exact absurd (List.cons.inj hfirst).1 hpoint
  · rfl

/-- What begins an identifier begins no number. -/
lemma numberLength_of_startsIdent {c : Char} (hc : startsIdent c = true) (cs : List Char) :
    numberLength (c :: cs) = 0 := by
  refine numberLength_cons_eq_zero (isDecimal_of_startsIdent hc) ?_ cs
  rintro rfl
  exact absurd hc (by decide)

/-- An identifier goes as far as word characters follow. -/
lemma begin?_ident {c : Char} (hc : startsIdent c = true) (cs : List Char) :
    begin? c cs = some (.ident, (cs.takeWhile isWord).length) := by
  unfold begin?
  simp only [numberLength_of_startsIdent hc, Nat.lt_irrefl, if_false, if_pos hc]

/-- An identifier is scanned apart from what follows it. -/
lemma shapes?_ident {c : Char} {word : List Char} (hc : startsIdent c = true)
    (hword : ∀ d ∈ word, isWord d = true) (hrest : StopsIdent rest) :
    shapes? (c :: (word ++ rest)) =
      (shapes? rest).map ((LexKind.ident, String.ofList (c :: word)) :: ·) := by
  have hall : (word ++ rest).takeWhile isWord = word := by
    rw [takeWhile_append_of_stops hrest]
    exact List.takeWhile_eq_self_iff.mpr hword
  have hbegin := begin?_ident hc (word ++ rest)
  rw [hall] at hbegin
  rw [shapes?_of_begin? (isSpace_of_startsIdent hc) hbegin, List.drop_left, List.take_left]

end Lexeme

end DesignTokens

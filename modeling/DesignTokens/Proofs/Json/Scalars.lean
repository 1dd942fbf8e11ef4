import DesignTokens.Json.Reader
import DesignTokens.Json.Writer
import DesignTokens.Proofs.Decimal.Numerals
import DesignTokens.Proofs.Separators

/-!
# Written texts and numbers are read back

A JSON string is read as the text that it was written for (`readString_stringText`), and a number as
the number (`readsScalar_int`, `readsScalar_float`), whatever follows that does not go on with the
number (`EndsNumber`), and if a whole number has not too many digits.
-/

namespace DesignTokens

namespace Json

/-- The four hexadecimal digits of a number. -/
lemma hexDigits_four (n : ℕ) :
    Text.hexDigits 4 n = [Text.hexDigit (n / 16 / 16 / 16 % 16), Text.hexDigit (n / 16 / 16 % 16),
      Text.hexDigit (n / 16 % 16), Text.hexDigit (n % 16)] :=
  rfl

/-- Four hexadecimal digits are read as the number that they were written for. -/
lemma readHex4_hexDigits {n : ℕ} (hn : n < 65536) (rest : List Char) :
    readHex4 (Text.hexDigits 4 n ++ rest) = some (n, rest) := by
  have hvalue : ∀ k, Text.hexValue? (Text.hexDigit (k % 16)) = some (k % 16) :=
    fun k => Text.hexValue?_hexDigit (Nat.mod_lt k (by decide))
  rw [hexDigits_four]
  unfold readHex4
  simp only [List.cons_append, List.nil_append, hvalue, Option.bind_eq_bind, Option.bind_some,
    Option.pure_def, Option.some.injEq, Prod.mk.injEq, and_true]
  omega

/-! ## Strings -/

/-- A character stands for itself, or its escape is read back. -/
lemma escapeChar_cases (c : Char) :
    (escapeChar c = [c] ∧ c ≠ '"' ∧ c ≠ '\\' ∧ ¬ c.toNat < 0x20) ∨
      ∃ code, escapeChar c = '\\' :: code ∧
        ∀ rest, readEscape (code ++ rest) = some (some c, rest) := by
  unfold escapeChar
  split_ifs with hquote hslash hline hreturn htab hback hfeed hcontrol
  · exact Or.inr ⟨_, rfl, fun rest => by rw [hquote]; rfl⟩
  · exact Or.inr ⟨_, rfl, fun rest => by rw [hslash]; rfl⟩
  · exact Or.inr ⟨_, rfl, fun rest => by rw [hline]; rfl⟩
  · exact Or.inr ⟨_, rfl, fun rest => by rw [hreturn]; rfl⟩
  · exact Or.inr ⟨_, rfl, fun rest => by rw [htab]; rfl⟩
  · exact Or.inr ⟨_, rfl, fun rest => by rw [hback]; rfl⟩
  · exact Or.inr ⟨_, rfl, fun rest => by rw [hfeed]; rfl⟩
  · refine Or.inr ⟨_, rfl, fun rest => ?_⟩
    have hhigh : ¬ (0xD800 ≤ c.toNat ∧ c.toNat < 0xDC00) := by omega
    have hlow : ¬ (0xDC00 ≤ c.toNat ∧ c.toNat < 0xE000) := by omega
    rw [List.cons_append, readEscape, readHex4_hexDigits (by omega)]
    dsimp only
    rw [if_neg hhigh, if_neg hlow, Char.ofNat_toNat]
  · exact Or.inl ⟨rfl, hquote, hslash, hcontrol⟩

/-- Writing a text makes it no shorter. -/
lemma length_le_flatMap_escapeChar (s : List Char) : s.length ≤ (s.flatMap escapeChar).length := by
  induction s with
  | nil => exact Nat.zero_le _
  | cons c rest ih =>
    have hone : 1 ≤ (escapeChar c).length := by
      rcases escapeChar_cases c with ⟨hself, _⟩ | ⟨code, hcode, _⟩
      · rw [hself]
        exact le_rfl
      · rw [hcode, List.length_cons]
        omega
    rw [List.flatMap_cons, List.length_append, List.length_cons]
    omega

/-- The characters of a string are read up to its closing quote. -/
lemma readString_flatMap_escapeChar {fuel : ℕ} {s : List Char} (hfuel : s.length < fuel)
    (rest : List Char) :
    readString fuel (s.flatMap escapeChar ++ '"' :: rest) = some (some s, rest) := by
  induction s generalizing fuel with
  | nil =>
    obtain ⟨fuel, rfl⟩ : ∃ n, fuel = n + 1 := ⟨fuel - 1, by rw [List.length_nil] at hfuel; omega⟩
    rfl
  | cons c more ih =>
    obtain ⟨fuel, rfl⟩ : ∃ n, fuel = n + 1 := ⟨fuel - 1, by rw [List.length_cons] at hfuel; omega⟩
    have hmoreFuel : more.length < fuel := by rw [List.length_cons] at hfuel; omega
    have hmore := ih hmoreFuel
    rw [List.flatMap_cons, List.append_assoc]
    rcases escapeChar_cases c with ⟨hself, hquote, hslash, hcontrol⟩ | ⟨code, hcode, hread⟩
    · rw [hself, List.singleton_append, readString, if_neg hquote, if_neg hslash, if_neg hcontrol,
        hmore]
      rfl
    · rw [hcode, List.cons_append, readString, if_neg (by decide), if_pos rfl, hread]
      dsimp only [Option.bind_eq_bind, Option.bind_some]
      rw [hmore]
      rfl

/-- The characters of a written text. -/
lemma toList_stringText (s : String) :
    (stringText s).toList = '"' :: (s.toList.flatMap escapeChar ++ ['"']) := by
  unfold stringText
  rw [String.toList_ofList]
  rfl

/-- A written text is read back. -/
theorem readString_stringText {fuel : ℕ} {s : String}
    (hfuel : (stringText s).toList.length ≤ fuel + 1) (rest : List Char) :
    ∃ code, (stringText s).toList = '"' :: code ∧
      readString fuel (code ++ rest) = some (some s.toList, rest) := by
  rw [toList_stringText, List.length_cons, List.length_append, List.length_singleton] at hfuel
  refine ⟨_, toList_stringText s, ?_⟩
  have hlength := length_le_flatMap_escapeChar s.toList
  rw [List.append_assoc, List.singleton_append]
  exact readString_flatMap_escapeChar (by omega) rest

/-! ## Digits, fractions and exponents -/

/-- A text that does not go on with a number in front of it. -/
def EndsNumber (rest : List Char) : Prop :=
  ∀ c ∈ rest.head?, c.isDigit = false ∧ c ≠ '.' ∧ c ≠ 'e' ∧ c ≠ 'E'

section digits

variable {digits rest : List Char}

/-- Digits are read up to their end. -/
lemma readDigits_append (hdigits : ∀ c ∈ digits, c.isDigit = true) (hne : digits ≠ [])
    (hrest : ∀ c ∈ rest.head?, c.isDigit = false) :
    readDigits (digits ++ rest) = some (digits, rest) := by
  unfold readDigits
  dsimp only
  rw [takeWhile_run hdigits hrest, dropWhile_run hdigits hrest,
    if_neg (Bool.not_eq_true _ ▸ List.isEmpty_eq_false_iff.mpr hne)]

/-- Without a point there is no fraction. -/
lemma readFraction_of_no_point (h : ∀ c ∈ rest.head?, c ≠ '.') :
    readFraction rest = (none, rest) := by
  unfold readFraction
  split
  · exact absurd rfl (h '.' rfl)
  · rfl

/-- A fraction is read up to its end. -/
lemma readFraction_append (hdigits : ∀ c ∈ digits, c.isDigit = true) (hne : digits ≠ [])
    (hrest : ∀ c ∈ rest.head?, c.isDigit = false) :
    readFraction ('.' :: digits ++ rest) = (some digits, rest) := by
  rw [List.cons_append, readFraction, readDigits_append hdigits hne hrest]

/-- Without a mark there is no exponent. -/
lemma readExponent_of_no_mark (h : ∀ c ∈ rest.head?, c ≠ 'e' ∧ c ≠ 'E') :
    readExponent rest = (none, rest) := by
  cases rest with
  | nil => rfl
  | cons mark more =>
    obtain ⟨hlower, hupper⟩ := h mark rfl
    unfold readExponent
    exact if_neg (not_or.mpr ⟨hlower, hupper⟩)

/-- An exponent is read up to its end. -/
lemma readExponent_append (width : ℕ) (e : ℤ) (hrest : ∀ c ∈ rest.head?, c.isDigit = false) :
    readExponent ('e' :: Decimal.exponentText width e ++ rest) = (some e, rest) := by
  obtain ⟨zeros, hzeros⟩ : ∃ k, k = width - (Decimal.digitsOf e.natAbs).length := ⟨_, rfl⟩
  have hdigits : ∀ c ∈ List.replicate zeros '0' ++ Decimal.digitsOf e.natAbs,
      c.isDigit = true := by
    intro c hc
    rcases List.mem_append.mp hc with hzero | hdigit
    · rw [List.eq_of_mem_replicate hzero]
      rfl
    · exact Decimal.isDigit_of_mem_digitsOf hdigit
  have hne : List.replicate zeros '0' ++ Decimal.digitsOf e.natAbs ≠ [] :=
    List.append_ne_nil_of_right_ne_nil _ Nat.toDigits_ne_nil
  have hvalue : Decimal.natOfDigits (List.replicate zeros '0' ++ Decimal.digitsOf e.natAbs) =
      e.natAbs := by
    rw [Decimal.natOfDigits_append, Decimal.natOfDigits_replicate_zero, Nat.zero_mul, Nat.zero_add,
      Decimal.natOfDigits_digitsOf]
  have htext : Decimal.exponentText width e =
      (if e < 0 then '-' else '+') :: (List.replicate zeros '0' ++ Decimal.digitsOf e.natAbs) := by
    rw [hzeros]
    rfl
  rw [htext]
  by_cases hneg : e < 0
  · rw [if_pos hneg, List.cons_append, List.cons_append, readExponent, if_pos (Or.inl rfl)]
    dsimp only
    rw [readDigits_append hdigits hne hrest]
    dsimp only
    rw [if_pos rfl, hvalue, Int.ofNat_natAbs_of_nonpos hneg.le, Int.neg_neg]
  · rw [if_neg hneg, List.cons_append, List.cons_append, readExponent, if_pos (Or.inl rfl)]
    dsimp only
    rw [readDigits_append hdigits hne hrest]
    dsimp only
    rw [if_neg (by decide), hvalue, Int.natAbs_of_nonneg (Int.not_lt.mp hneg)]

end digits

/-! ## Numbers -/

/-- A number begins with its whole digits, which have no zero in front. -/
lemma readMagnitude_append (negative : Bool) {whole rest : List Char}
    (hdigits : ∀ c ∈ whole, c.isDigit = true)
    (hleading : whole = ['0'] ∨ ∃ c more, whole = c :: more ∧ c ≠ '0')
    (hrest : ∀ c ∈ rest.head?, c.isDigit = false) :
    readMagnitude negative (whole ++ rest) = readBehind negative whole rest := by
  have hwhole : readWhole (whole ++ rest) = some (whole, rest) := by
    rcases hleading with rfl | ⟨c, more, rfl, hc⟩
    · rfl
    · have hread := readDigits_append hdigits (List.cons_ne_nil c more) hrest
      unfold readWhole
      rw [List.cons_append] at hread ⊢
      split
      · rename_i hzero
        exact absurd (List.cons.inj hzero).1 hc
      · exact hread
  unfold readMagnitude
  rw [hwhole]
  rfl

/-- Digits that nothing goes on are read as a whole number, unless there are too many. -/
lemma readMagnitude_whole (negative : Bool) {whole rest : List Char}
    (hdigits : ∀ c ∈ whole, c.isDigit = true)
    (hleading : whole = ['0'] ∨ ∃ c more, whole = c :: more ∧ c ≠ '0')
    (hlength : whole.length ≤ Decimal.maxDigits) (hrest : EndsNumber rest) :
    readMagnitude negative (whole ++ rest) =
      .ok (.int (if negative then -(Decimal.natOfDigits whole : ℤ) else Decimal.natOfDigits whole),
        rest) := by
  rw [readMagnitude_append negative hdigits hleading fun c hc => (hrest c hc).1]
  unfold readBehind
  rw [readFraction_of_no_point fun c hc => (hrest c hc).2.1]
  dsimp only
  rw [readExponent_of_no_mark fun c hc => (hrest c hc).2.2]
  exact if_neg (Nat.not_lt.mpr hlength)

/-- The decimal point of a numeral with the digits after it, as far as there are any. -/
def pointChars (fraction : Option (List Char)) : List Char :=
  (fraction.map ('.' :: ·)).getD []

/-- The exponent of a numeral, as far as there is one. -/
def markChars (exponent : Option ℤ) : List Char :=
  (exponent.map fun e => 'e' :: Decimal.exponentText 2 e).getD []

section parts

variable {rest : List Char}

/-- Neither an exponent nor the end of a number goes on with a digit or a point. -/
lemma head_markChars (exponent : Option ℤ) (hrest : EndsNumber rest) :
    ∀ c ∈ (markChars exponent ++ rest).head?, c.isDigit = false ∧ c ≠ '.' := by
  intro c hc
  cases exponent with
  | none => exact ⟨(hrest c hc).1, (hrest c hc).2.1⟩
  | some e =>
    cases hc
    exact ⟨rfl, by decide⟩

/-- A decimal point, or what follows it, is no digit. -/
lemma head_pointChars (fraction : Option (List Char))
    (hrest : ∀ c ∈ rest.head?, c.isDigit = false ∧ c ≠ '.') :
    ∀ c ∈ (pointChars fraction ++ rest).head?, c.isDigit = false := by
  intro c hc
  cases fraction with
  | none => exact (hrest c hc).1
  | some digits =>
    cases hc
    rfl

/-- The exponent is read as it was written. -/
lemma readExponent_markChars (exponent : Option ℤ) (hrest : EndsNumber rest) :
    readExponent (markChars exponent ++ rest) = (exponent, rest) := by
  cases exponent with
  | none => exact readExponent_of_no_mark fun c hc => (hrest c hc).2.2
  | some e => exact readExponent_append 2 e fun c hc => (hrest c hc).1

/-- The digits after the point are read as they were written. -/
lemma readFraction_pointChars {fraction : Option (List Char)}
    (hfraction : ∀ digits, fraction = some digits → digits ≠ [] ∧ ∀ c ∈ digits, c.isDigit = true)
    (hrest : ∀ c ∈ rest.head?, c.isDigit = false ∧ c ≠ '.') :
    readFraction (pointChars fraction ++ rest) = (fraction, rest) := by
  cases fraction with
  | none => exact readFraction_of_no_point fun c hc => (hrest c hc).2
  | some digits =>
    obtain ⟨hne, hall⟩ := hfraction digits rfl
    exact readFraction_append hall hne fun c hc => (hrest c hc).1

end parts

/-- A numeral is read as the floating-point number nearest to it. -/
lemma readMagnitude_chars (negative : Bool) (n : Decimal.Spelling) {rest : List Char}
    (hrest : EndsNumber rest) :
    readMagnitude negative (n.chars ++ rest) =
      .ok (.float (if negative then -n.numeral.toFloat else n.numeral.toFloat), rest) := by
  have hmark := head_markChars n.exponent hrest
  have hchars : n.chars ++ rest =
      n.whole ++ (pointChars n.fraction ++ (markChars n.exponent ++ rest)) := by
    show n.whole ++ (pointChars n.fraction ++ markChars n.exponent) ++ rest = _
    rw [List.append_assoc, List.append_assoc]
  rw [hchars, readMagnitude_append negative n.isDigit_whole n.leading
    (head_pointChars n.fraction hmark)]
  unfold readBehind
  rw [readFraction_pointChars n.isDigit_fraction hmark]
  dsimp only
  rw [readExponent_markChars n.exponent hrest]
  dsimp only
  split
  · rename_i hfraction hexponent
    exact absurd hexponent (n.isFloat.resolve_left fun h => h hfraction)
  · rfl

/-! ## Scalars -/

/-- A character that begins a constant or a number: no blank, quote or bracket. -/
def BeginsScalar (c : Char) : Prop :=
  isBlank c = false ∧ c ∉ ['"', '[', ']', '\x7b', '\x7d']

instance (c : Char) : Decidable (BeginsScalar c) :=
  inferInstanceAs (Decidable (_ ∧ _))

/-- A text is read as a constant or a number, whatever follows that does not go on with a number. -/
def ReadsScalar (text : List Char) (j : Json) : Prop :=
  (∃ c more, text = c :: more ∧ BeginsScalar c) ∧
    ∀ rest, EndsNumber rest → readScalar (text ++ rest) = .ok (j, rest)

/-- A digit begins a number. -/
lemma beginsScalar_of_isDigit {c : Char} (hc : c.isDigit = true) : BeginsScalar c := by
  have hne : ∀ d : Char, d.isDigit = false → c ≠ d := by
    rintro d hd rfl
    exact Bool.noConfusion (hc.symm.trans hd)
  refine ⟨?_, ?_⟩
  · unfold isBlank
    rw [beq_false_of_ne (hne ' ' rfl), beq_false_of_ne (hne '\t' rfl),
      beq_false_of_ne (hne '\n' rfl), beq_false_of_ne (hne '\r' rfl)]
    rfl
  · intro hmem
    have hnone : ['"', '[', ']', '\x7b', '\x7d'].all (fun d => d.isDigit == false) = true := by
      decide
    exact hne c (beq_iff_eq.mp (List.all_eq_true.mp hnone c hmem)) rfl

/-- A digit with or without a sign in front begins a number. -/
lemma readScalar_signed (negative : Bool) {c : Char} (hc : c.isDigit = true) (cs : List Char) :
    readScalar (Decimal.signed negative (c :: cs)) = readMagnitude negative (c :: cs) := by
  have hne : ∀ d : Char, d.isDigit = false → c ≠ d := by
    rintro d hd rfl
    exact Bool.noConfusion (hc.symm.trans hd)
  unfold Decimal.signed
  cases negative with
  | false =>
    rw [if_neg (by decide)]
    unfold readScalar
    split
    · exact absurd (List.cons.inj ‹_›).1 (hne 'n' rfl)
    · exact absurd (List.cons.inj ‹_›).1 (hne 't' rfl)
    · exact absurd (List.cons.inj ‹_›).1 (hne 'f' rfl)
    · exact absurd (List.cons.inj ‹_›).1 (hne 'N' rfl)
    · exact absurd (List.cons.inj ‹_›).1 (hne 'I' rfl)
    · exact absurd (List.cons.inj ‹_›).1 (hne '-' rfl)
    · rfl
  | true =>
    have hword : afterWord? "Infinity" (c :: cs) = none := by
      have hfirst : ('I' == c) = false := beq_false_of_ne (hne 'I' rfl).symm
      have hchars : "Infinity".toList = 'I' :: "nfinity".toList := by decide
      unfold afterWord?
      rw [hchars, List.isPrefixOf?, hfirst]
      rfl
    rw [if_pos rfl, readScalar, hword]

/-- A number with its sign is read when its magnitude is. -/
lemma ReadsScalar.signed {negative : Bool} {magnitude : List Char} {j : Json}
    (hbegins : ∃ c more, magnitude = c :: more ∧ c.isDigit = true)
    (hread : ∀ rest, EndsNumber rest →
      readMagnitude negative (magnitude ++ rest) = .ok (j, rest)) :
    ReadsScalar (Decimal.signed negative magnitude) j := by
  obtain ⟨c, more, rfl, hc⟩ := hbegins
  refine ⟨?_, fun rest hrest => ?_⟩
  · cases negative with
    | false => exact ⟨c, more, rfl, beginsScalar_of_isDigit hc⟩
    | true => exact ⟨'-', c :: more, rfl, by decide⟩
  · have happend : Decimal.signed negative (c :: more) ++ rest =
        Decimal.signed negative (c :: (more ++ rest)) := by
      cases negative <;> rfl
    rw [happend, readScalar_signed negative hc, ← hread rest hrest]
    rfl

/-- The digits of a number have no zero in front. -/
lemma digitsOf_leading (n : ℕ) :
    Decimal.digitsOf n = ['0'] ∨ ∃ c more, Decimal.digitsOf n = c :: more ∧ c ≠ '0' := by
  rcases Nat.eq_zero_or_pos n with rfl | hn
  · exact Or.inl rfl
  · exact Or.inr (Decimal.exists_digitsOf_cons hn)

/-- Digits without a zero in front begin with a digit. -/
lemma exists_cons_of_leading {whole : List Char} (hdigits : ∀ c ∈ whole, c.isDigit = true)
    (hleading : whole = ['0'] ∨ ∃ c more, whole = c :: more ∧ c ≠ '0') :
    ∃ c more, whole = c :: more ∧ c.isDigit = true := by
  rcases hleading with rfl | ⟨c, more, rfl, -⟩
  · exact ⟨'0', [], rfl, rfl⟩
  · exact ⟨c, more, rfl, hdigits c List.mem_cons_self⟩

/-- A whole number is written as its digits with its sign. -/
lemma toList_toString_int (n : ℤ) :
    (toString n).toList = Decimal.signed (decide (n < 0)) (Decimal.digitsOf n.natAbs) := by
  cases n with
  | ofNat n =>
    have hsign : decide (Int.ofNat n < 0) = false :=
      decide_eq_false (Int.not_lt.mpr (Int.natCast_nonneg n))
    show (Nat.repr n).toList = _
    rw [Nat.toList_repr, hsign]
    rfl
  | negSucc n =>
    show ("-" ++ Nat.repr (n + 1)).toList = _
    rw [String.toList_append, Nat.toList_repr, decide_eq_true (by omega)]
    rfl

/-- A written whole number is read back, unless it has too many digits. -/
theorem readsScalar_int {n : ℤ} (hlength : (Decimal.digitsOf n.natAbs).length ≤ Decimal.maxDigits) :
    ReadsScalar (toString n).toList (.int n) := by
  have hdigits : ∀ c ∈ Decimal.digitsOf n.natAbs, c.isDigit = true :=
    fun _ => Decimal.isDigit_of_mem_digitsOf
  have hleading := digitsOf_leading n.natAbs
  have hvalue : (if decide (n < 0) = true then -(Decimal.natOfDigits (Decimal.digitsOf n.natAbs) : ℤ)
      else Decimal.natOfDigits (Decimal.digitsOf n.natAbs)) = n := by
    rw [Decimal.natOfDigits_digitsOf]
    split_ifs with hneg
    · have hneg' := of_decide_eq_true hneg
      omega
    · have hneg' := of_decide_eq_false (Bool.not_eq_true _ ▸ hneg)
      omega
  rw [toList_toString_int]
  refine ReadsScalar.signed (exists_cons_of_leading hdigits hleading) fun rest hrest => ?_
  rw [readMagnitude_whole _ hdigits hleading hlength hrest, hvalue]

/-- A written floating-point number is read back, be it none. -/
theorem readsScalar_float (x : Float) :
    ReadsScalar (Decimal.text "NaN" "Infinity" x).toList (.float x) := by
  unfold Decimal.text
  cases hx : Exact.ofFloat x with
  | nan =>
    have hchars : "NaN".toList = ['N', 'a', 'N'] := by decide
    rw [← Decimal.eq_of_nan hx]
    refine ⟨⟨'N', ['a', 'N'], hchars, by decide⟩, fun rest _ => ?_⟩
    dsimp only
    rw [hchars]
    rfl
  | infinite negative =>
    have hchars : "Infinity".toList = ['I', 'n', 'f', 'i', 'n', 'i', 't', 'y'] := by decide
    rw [← Decimal.eq_of_infinite hx]
    dsimp only
    rw [String.toList_ofList, hchars]
    cases negative with
    | false => exact ⟨⟨'I', _, rfl, by decide⟩, fun rest _ => rfl⟩
    | true => exact ⟨⟨'-', _, rfl, by decide⟩, fun rest _ => rfl⟩
  | finite negative m e =>
    obtain ⟨n, hchars, hvalue⟩ := Decimal.exists_spelling_magnitudeText hx
    dsimp only
    rw [String.toList_ofList, hchars]
    refine ReadsScalar.signed ?_ fun rest hrest => ?_
    · obtain ⟨c, more, hwhole, hc⟩ := exists_cons_of_leading n.isDigit_whole n.leading
      exact ⟨c, _, by unfold Decimal.Spelling.chars; rw [hwhole]; rfl, hc⟩
    · rw [readMagnitude_chars negative n hrest, hvalue]

end Json

end DesignTokens

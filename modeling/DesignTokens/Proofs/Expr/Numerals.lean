import DesignTokens.Decimal.Text
import DesignTokens.Expr.Lexer
import DesignTokens.Proofs.Separators
import Mathlib.Data.List.TakeWhile
import Mathlib.Tactic.Lemma

/-!
# Scanned numbers are numerals

The scanner decides how far a number goes by counting characters (`Lexeme.numberLength`), and the
reader of numerals takes the whole of a text apart (`Decimal.Numeral.ofChars?`).  What a number is
made of (`Lexeme.IsNumber`) stands between the two: what is counted is a number, and a number is
read.  A lexeme of kind `number` therefore always has a value, and the value is that of its text.
-/

namespace DesignTokens

open Text (isDecimal)

namespace Lexeme

/-! ## Runs of digits -/

/-- A list whose first character is no digit; the empty one is such a list. -/
def StopsDigits (cs : List Char) : Prop :=
  ∀ c ∈ cs.head?, isDecimal c = false

/-- The characters that are counted as digits are the run of digits at the front. -/
lemma take_digitCount (cs : List Char) : cs.take (digitCount cs) = cs.takeWhile isDecimal := by
  have hsplit : cs.takeWhile isDecimal ++ cs.dropWhile isDecimal = cs :=
    List.takeWhile_append_dropWhile
  calc cs.take (digitCount cs)
      = (cs.takeWhile isDecimal ++ cs.dropWhile isDecimal).take (digitCount cs) := by rw [hsplit]
    _ = cs.takeWhile isDecimal := List.take_left

/-- What follows the characters that are counted as digits. -/
lemma drop_digitCount (cs : List Char) : cs.drop (digitCount cs) = cs.dropWhile isDecimal := by
  have hsplit : cs.takeWhile isDecimal ++ cs.dropWhile isDecimal = cs :=
    List.takeWhile_append_dropWhile
  calc cs.drop (digitCount cs)
      = (cs.takeWhile isDecimal ++ cs.dropWhile isDecimal).drop (digitCount cs) := by rw [hsplit]
    _ = cs.dropWhile isDecimal := List.drop_left

/-! ## Exponents -/

/-- A sign and digits spell an exponent when there are digits. -/
lemma exponent?_mark {mark : Char} (hmark : mark = 'e' ∨ mark = 'E') {sign ds : List Char}
    (hsign : sign = [] ∨ sign = ['+'] ∨ sign = ['-']) (hne : ds ≠ [])
    (hds : ∀ c ∈ ds, isDecimal c = true) :
    ∃ n, Decimal.exponent? (mark :: (sign ++ ds)) = some n := by
  have hall : (ds.isEmpty || !ds.all isDecimal) = false := by
    rw [List.all_eq_true.mpr hds, List.isEmpty_eq_false_iff.mpr hne]
    rfl
  have hmark' : (mark == 'e' || mark == 'E') = true := by
    rcases hmark with rfl | rfl <;> rfl
  rcases hsign with rfl | rfl | rfl
  · obtain ⟨d, more, rfl⟩ := List.exists_cons_of_ne_nil hne
    have hdigit : isDecimal d = true := hds d (List.mem_cons_self ..)
    have hminus : ∀ r, d :: more ≠ '-' :: r := by
      rintro r ⟨⟩
      exact absurd hdigit (by decide)
    have hplus : ∀ r, d :: more ≠ '+' :: r := by
      rintro r ⟨⟩
      exact absurd hdigit (by decide)
    rw [List.nil_append, Decimal.exponent?, if_pos hmark']
    · exact ⟨_, if_neg (Bool.eq_false_iff.mp hall)⟩
    · exact hminus
    · exact hplus
  · rw [List.singleton_append, Decimal.exponent?, if_pos hmark']
    exact ⟨_, if_neg (Bool.eq_false_iff.mp hall)⟩
  · rw [List.singleton_append, Decimal.exponent?, if_pos hmark']
    exact ⟨_, if_neg (Bool.eq_false_iff.mp hall)⟩

/-- The length of an exponent after its mark: a sign perhaps, and the digits after it. -/
lemma exponentLength_mark {mark : Char} (hmark : mark = 'e' ∨ mark = 'E') (rest : List Char) :
    ∃ sign tail, rest = sign ++ tail ∧ (sign = [] ∨ sign = ['+'] ∨ sign = ['-']) ∧
      exponentLength (mark :: rest) =
        if digitCount tail = 0 then 0 else 1 + sign.length + digitCount tail := by
  unfold exponentLength
  dsimp only
  rw [if_pos hmark]
  cases rest with
  | nil => exact ⟨[], [], rfl, Or.inl rfl, rfl⟩
  | cons c tail =>
    by_cases hsign : c = '+' ∨ c = '-'
    · refine ⟨[c], tail, rfl, Or.inr ?_, ?_⟩
      · rcases hsign with rfl | rfl
        · exact Or.inl rfl
        · exact Or.inr rfl
      · simp only [if_pos hsign, List.drop_succ_cons, List.drop_zero, List.length_singleton]
    · refine ⟨[], c :: tail, rfl, Or.inl rfl, ?_⟩
      simp only [if_neg hsign, List.drop_zero, List.length_nil]

/-- An exponent, which may be missing: a mark, a sign perhaps, and digits. -/
def IsExponent (cs : List Char) : Prop :=
  cs = [] ∨ ∃ mark sign ds, cs = mark :: (sign ++ ds) ∧ (mark = 'e' ∨ mark = 'E') ∧
    (sign = [] ∨ sign = ['+'] ∨ sign = ['-']) ∧ ds ≠ [] ∧ ∀ c ∈ ds, isDecimal c = true

/-- The text that is counted as an exponent is one. -/
lemma isExponent_take (cs : List Char) : IsExponent (cs.take (exponentLength cs)) := by
  cases cs with
  | nil => exact Or.inl rfl
  | cons mark rest =>
    by_cases hmark : mark = 'e' ∨ mark = 'E'
    · obtain ⟨sign, tail, hrest, hsign, hlength⟩ := exponentLength_mark hmark rest
      rw [hlength]
      by_cases hzero : digitCount tail = 0
      · rw [if_pos hzero]
        exact Or.inl rfl
      · rw [if_neg hzero]
        refine Or.inr ⟨mark, sign, tail.takeWhile isDecimal, ?_, hmark, hsign, ?_, ?_⟩
        · have hcount : 1 + sign.length + digitCount tail = sign.length + digitCount tail + 1 := by
            omega
          rw [hcount, List.take_succ_cons, hrest, List.take_length_add_append, take_digitCount]
        · exact fun hnil => hzero (List.length_eq_zero_iff.mpr hnil)
        · exact fun c hc => List.mem_takeWhile_imp hc
    · have hlength : exponentLength (mark :: rest) = 0 := if_neg hmark
      rw [hlength]
      exact Or.inl rfl

/-- An exponent is read. -/
lemma IsExponent.read {cs : List Char} (h : IsExponent cs) :
    ∃ n, Decimal.exponent? cs = some n := by
  rcases h with rfl | ⟨mark, sign, ds, rfl, hmark, hsign, hne, hds⟩
  · exact ⟨0, rfl⟩
  · exact exponent?_mark hmark hsign hne hds

/-- An exponent does not begin with a digit or a point. -/
lemma IsExponent.begins {cs : List Char} (h : IsExponent cs) :
    ∀ c ∈ cs.head?, c = 'e' ∨ c = 'E' := by
  intro c hc
  rcases h with rfl | ⟨mark, sign, ds, rfl, hmark, _⟩
  · cases hc
  · obtain rfl := Option.some.inj hc
    exact hmark

/-! ## Numbers -/

/-- The characters of a number before its exponent: digits, and perhaps a point with digits. -/
def mantissaText (whole fraction : List Char) (point : Bool) : List Char :=
  whole ++ (if point then '.' :: fraction else [])

/-- A number: digits with perhaps a point and more digits, or a point with digits after it; then
perhaps an exponent. -/
inductive IsNumber : List Char → Prop
  | intro {whole fraction expo : List Char} {point : Bool}
      (hwhole : ∀ c ∈ whole, isDecimal c = true) (hfraction : ∀ c ∈ fraction, isDecimal c = true)
      (hsome : whole ≠ [] ∨ point = true ∧ fraction ≠ []) (hexpo : IsExponent expo) :
      IsNumber (mantissaText whole fraction point ++ expo)

/-- A mantissa with a digit and an exponent are a numeral. -/
lemma ofChars?_mantissa {whole fraction expo : List Char} {point : Bool}
    (hwhole : ∀ c ∈ whole, isDecimal c = true) (hfraction : ∀ c ∈ fraction, isDecimal c = true)
    (hsome : whole ≠ [] ∨ point = true ∧ fraction ≠ [])
    (hexpo : IsExponent expo) :
    ∃ n, Decimal.Numeral.ofChars? (mantissaText whole fraction point ++ expo) = some n := by
  obtain ⟨n, hn⟩ := hexpo.read
  have hbegin := hexpo.begins
  have hstop : StopsDigits expo := by
    intro c hc
    rcases hbegin c hc with rfl | rfl <;> decide
  unfold mantissaText Decimal.Numeral.ofChars?
  rw [List.append_assoc]
  cases point with
  | true =>
    have hpoint : StopsDigits ('.' :: (fraction ++ expo)) := by
      intro c hc
      obtain rfl := Option.some.inj hc
      decide
    rw [if_pos rfl, List.cons_append, takeWhile_run hwhole hpoint,
      dropWhile_run hwhole hpoint]
    show ∃ n, (if (whole.isEmpty && ((fraction ++ expo).takeWhile isDecimal).isEmpty) = true
      then none
      else (Decimal.exponent? ((fraction ++ expo).dropWhile isDecimal)).map fun e =>
        (⟨whole, (fraction ++ expo).takeWhile isDecimal, e⟩ : Decimal.Numeral)) = some n
    rw [takeWhile_run hfraction hstop, dropWhile_run hfraction hstop, hn]
    have hsome' : (whole.isEmpty && fraction.isEmpty) = false := by
      rcases hsome with h | ⟨_, h⟩
      · rw [List.isEmpty_eq_false_iff.mpr h]
        rfl
      · rw [List.isEmpty_eq_false_iff.mpr h]
        exact Bool.and_false _
    exact ⟨_, if_neg (Bool.eq_false_iff.mp hsome')⟩
  | false =>
    have hne : whole ≠ [] := by
      rcases hsome with h | ⟨h, _⟩
      · exact h
      · cases h
    rw [if_neg (by decide), List.nil_append, takeWhile_run hwhole hstop,
      dropWhile_run hwhole hstop]
    have hnumeral : ∃ m, (Decimal.exponent? expo).map
        (fun e => (⟨whole, [], e⟩ : Decimal.Numeral)) = some m := by
      rw [hn]
      exact ⟨_, rfl⟩
    obtain ⟨d, ds, rfl⟩ := List.exists_cons_of_ne_nil hne
    cases expo with
    | nil => exact hnumeral
    | cons c more =>
      rcases hbegin c rfl with rfl | rfl <;> exact hnumeral

/-- The length of a mantissa with a point. -/
lemma mantissaLength_point {cs more : List Char} (h : cs.dropWhile isDecimal = '.' :: more) :
    mantissaLength cs = if digitCount cs = 0 ∧ digitCount more = 0 then 0
      else digitCount cs + 1 + digitCount more := by
  unfold mantissaLength
  dsimp only
  rw [drop_digitCount, h]
  rfl

/-- The length of a mantissa without a point. -/
lemma mantissaLength_plain {cs : List Char} (h : ∀ more, cs.dropWhile isDecimal ≠ '.' :: more) :
    mantissaLength cs = digitCount cs := by
  unfold mantissaLength
  dsimp only
  rw [drop_digitCount]
  split
  · next more hmore => exact absurd hmore (h more)
  · rfl

/-- The characters that are counted as a mantissa are one, with a digit in it. -/
lemma mantissaLength_split {cs : List Char} (hpos : mantissaLength cs ≠ 0) :
    ∃ whole fraction point tail, cs = mantissaText whole fraction point ++ tail ∧
      mantissaLength cs = (mantissaText whole fraction point).length ∧
      (∀ c ∈ whole, isDecimal c = true) ∧ (∀ c ∈ fraction, isDecimal c = true) ∧
      (whole ≠ [] ∨ point = true ∧ fraction ≠ []) := by
  have hsplit : cs.takeWhile isDecimal ++ cs.dropWhile isDecimal = cs :=
    List.takeWhile_append_dropWhile
  have hdigits : ∀ c ∈ cs.takeWhile isDecimal, isDecimal c = true := fun c hc =>
    List.mem_takeWhile_imp hc
  by_cases hpoint : ∃ more, cs.dropWhile isDecimal = '.' :: more
  · obtain ⟨more, hmore⟩ := hpoint
    have hlength := mantissaLength_point hmore
    by_cases hnone : digitCount cs = 0 ∧ digitCount more = 0
    · rw [hlength, if_pos hnone] at hpos
      exact absurd rfl hpos
    · rw [if_neg hnone] at hlength
      refine ⟨cs.takeWhile isDecimal, more.takeWhile isDecimal, true, more.dropWhile isDecimal,
        ?_, ?_, hdigits, fun c hc => List.mem_takeWhile_imp hc, ?_⟩
      · unfold mantissaText
        rw [if_pos rfl, List.append_assoc, List.cons_append, List.takeWhile_append_dropWhile,
          ← hmore, hsplit]
      · unfold mantissaText
        rw [hlength, if_pos rfl, List.length_append, List.length_cons]
        unfold digitCount
        omega
      · by_cases hwhole : cs.takeWhile isDecimal = []
        · refine Or.inr ⟨rfl, fun hfraction => hnone ⟨?_, ?_⟩⟩
          · exact List.length_eq_zero_iff.mpr hwhole
          · exact List.length_eq_zero_iff.mpr hfraction
        · exact Or.inl hwhole
  · have hlength := mantissaLength_plain fun more hmore => hpoint ⟨more, hmore⟩
    rw [hlength] at hpos ⊢
    have htext : mantissaText (cs.takeWhile isDecimal) [] false = cs.takeWhile isDecimal :=
      List.append_nil _
    refine ⟨cs.takeWhile isDecimal, [], false, cs.dropWhile isDecimal, ?_, ?_, hdigits, nofun,
      Or.inl fun hnil => hpos (List.length_eq_zero_iff.mpr hnil)⟩
    · rw [htext, hsplit]
    · rw [htext]
      rfl

/-- What is counted as a number is one. -/
theorem isNumber_take {cs : List Char} (hpos : 0 < numberLength cs) :
    IsNumber (cs.take (numberLength cs)) := by
  have hmantissa : mantissaLength cs ≠ 0 := by
    intro hzero
    unfold numberLength at hpos
    rw [hzero] at hpos
    exact absurd hpos (Nat.lt_irrefl 0)
  obtain ⟨whole, fraction, point, tail, hcs, hlength, hwhole, hfraction, hsome⟩ :=
    mantissaLength_split hmantissa
  have hnumber : numberLength cs =
      (mantissaText whole fraction point).length + exponentLength tail := by
    unfold numberLength
    dsimp only
    rw [if_neg hmantissa, hlength]
    have hdrop : cs.drop (mantissaText whole fraction point).length = tail := by
      rw [hcs]
      exact List.drop_left
    rw [hdrop]
  rw [hnumber, hcs, List.take_length_add_append]
  exact .intro hwhole hfraction hsome (isExponent_take tail)

/-- A number is a numeral. -/
lemma IsNumber.isNumeral {cs : List Char} (h : IsNumber cs) :
    ∃ n, Decimal.Numeral.ofChars? cs = some n := by
  cases h with
  | intro hwhole hfraction hsome hexpo => exact ofChars?_mantissa hwhole hfraction hsome hexpo

/-- No punctuation is a number. -/
lemma punctuation?_ne_number (c : Char) : punctuation? c ≠ some .number := by
  unfold punctuation?
  repeat' split
  all_goals nofun

/-- A number that begins with a character has the length of a number. -/
lemma begin?_number {c : Char} {rest : List Char} {more : Nat}
    (h : begin? c rest = some (.number, more)) :
    0 < numberLength (c :: rest) ∧ more = numberLength (c :: rest) - 1 := by
  unfold begin? at h
  dsimp only at h
  by_cases hnumber : 0 < numberLength (c :: rest)
  · rw [if_pos hnumber] at h
    exact ⟨hnumber, (Prod.ext_iff.mp (Option.some.inj h)).2.symm⟩
  · rw [if_neg hnumber] at h
    by_cases hident : startsIdent c = true
    · rw [if_pos hident] at h
      cases h
    · rw [if_neg hident] at h
      obtain ⟨kind, hkind, hpair⟩ := Option.map_eq_some_iff.mp h
      cases hpair
      exact absurd hkind (punctuation?_ne_number c)

/-- Every lexeme of kind `number` that is scanned is a numeral. -/
theorem scanFrom_number {pos : Nat} {cs : List Char} {lexemes : List Lexeme}
    (h : scanFrom pos cs = .ok lexemes) :
    ∀ t ∈ lexemes, t.kind = .number → ∃ n, Decimal.Numeral.ofChars? t.text.toList = some n := by
  fun_induction scanFrom pos cs generalizing lexemes with
  | case1 pos =>
    obtain rfl := Except.ok.inj h
    nofun
  | case2 pos c rest hspace ih => exact ih h
  | case3 pos c rest hspace hbegin => cases h
  | case4 pos c rest hspace kind more hbegin later hscan ih =>
    obtain rfl := Except.ok.inj h
    intro t ht hkind
    rcases List.mem_cons.mp ht with rfl | hlater
    · obtain rfl : kind = .number := hkind
      obtain ⟨hpos, rfl⟩ := begin?_number hbegin
      obtain ⟨n, hlength⟩ := Nat.exists_eq_add_one_of_ne_zero (Nat.ne_of_gt hpos)
      have htake : c :: rest.take (numberLength (c :: rest) - 1) =
          (c :: rest).take (numberLength (c :: rest)) := by
        rw [hlength]
        rfl
      have hnumeral := (isNumber_take hpos).isNumeral
      rw [← htake] at hnumeral
      rw [String.toList_ofList]
      exact hnumeral
    · exact ih hscan t hlater hkind
  | case5 => cases h

end Lexeme

end DesignTokens

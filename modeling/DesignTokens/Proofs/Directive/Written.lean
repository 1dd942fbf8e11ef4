import DesignTokens.Proofs.Decimal.Numerals
import DesignTokens.Proofs.Directive.Keywords

/-!
# Written directives

Each kind of directive has its keyword, and a directive is written as the keyword, a blank and what
it says (`Written.chars`).  The keyword of a kind stands in no directive of another kind
(`not_occurs_chars`).  A directive that ends at a semicolon, at a line break or at the end of the
text is read as it is written, whatever follows (`unit?_chars`, `format?_chars`,
`calculation?_chars`, `precision?_chars`).

Letters are compared as keywords are matched: by their simple lower-case forms, or because they have
a capital in common.  So the third letter of the keyword of units is also found without its dot.
-/

namespace DesignTokens

open Text (afterLetters? afterChar? isSpace isDecimal run? trim)
open ColorText (IsRun IsBlank afterLetters?_eq_some_iff afterChar?_eq_some_iff run?_append
  skipSpaces_append)

namespace Directive

/-! ## Directives as they are written -/

/-- The kinds of directives. -/
inductive Kind where
  | unit
  | format
  | calculation
  | precision
deriving DecidableEq

/-- The keyword of a kind. -/
def Kind.keyword : Kind → List Char
  | unit => "unit:".toList
  | format => "format:".toList
  | calculation => "calc:".toList
  | precision => "precision:".toList

/-- No keyword occurs in a text. -/
def HasNoKeyword (cs : List Char) : Prop :=
  ∀ k : Kind, ¬ Occurs k.keyword cs

/-- A whole number of at most fifteen digits. -/
def IsShortNumber (digits : List Char) : Prop :=
  digits ≠ [] ∧ (∀ c ∈ digits, c.isDigit = true) ∧ digits.length ≤ 15

/-- A base above zero, or a path that can be quoted and has no keyword. -/
def UnitArgument.IsProper : UnitArgument → Prop
  | .number digits => IsShortNumber digits ∧ 0 < Decimal.natOfDigits digits
  | .path raw => raw ≠ [] ∧ '\'' ∉ raw ∧ HasNoKeyword raw

/-- The text of the argument of a unit. -/
def UnitArgument.chars : UnitArgument → List Char
  | .number digits => '(' :: (digits ++ [')'])
  | .path raw => '(' :: '\'' :: (raw ++ ['\'', ')'])

/-- A directive with what it says. -/
inductive Written where
  | unit (u : CssUnit) (argument : Option UnitArgument)
  | format (f : ColorFormat)
  | calculation (e : List Char)
  | precision (digits : List Char)

namespace Written

def kind : Written → Kind
  | unit _ _ => .unit
  | format _ => .format
  | calculation _ => .calculation
  | precision _ => .precision

/-- What stands behind the keyword. -/
def body : Written → List Char
  | unit u argument => u.name.toList ++ argument.elim [] UnitArgument.chars
  | format f => f.name.toList
  | calculation e => e
  | precision digits => digits

/-- The text of a directive. -/
def chars (w : Written) : List Char :=
  w.kind.keyword ++ ' ' :: w.body

/-- A directive that can be told from others: a calculation is not empty, has no white space around
it, no semicolon and no line break, and neither a calculation nor a path has a keyword. -/
def IsProper : Written → Prop
  | unit _ argument => ∀ a ∈ argument, a.IsProper
  | format _ => True
  | calculation e => e ≠ [] ∧ trim e = e ∧ ';' ∉ e ∧ '\n' ∉ e ∧ HasNoKeyword e
  | precision digits => IsShortNumber digits

end Written

/-! ## Keywords of other kinds -/

lemma keyword_ne_nil (k : Kind) : k.keyword ≠ [] := by
  cases k <;> decide

/-- The marks between and in directives are in no keyword. -/
lemma foreign_mark (k : Kind) {c : Char} (h : c ∈ [' ', ';', '\n', '(', ')', '\'']) :
    Foreign k.keyword c := by
  have hall : [' ', ';', '\n', '(', ')', '\''].all
      (fun c => decide (Foreign k.keyword c)) = true := by
    cases k <;> decide
  exact of_decide_eq_true (List.all_eq_true.mp hall c h)

lemma foreign_marks (k : Kind) {marks : List Char}
    (h : marks ⊆ [' ', ';', '\n', '(', ')', '\'']) : ∀ c ∈ marks, Foreign k.keyword c :=
  fun _ hc => foreign_mark k (h hc)

lemma foreign_head? (k : Kind) {c : Char} (h : c ∈ [' ', ';', '\n', '(', ')', '\''])
    (cs : List Char) : ∀ d ∈ (c :: cs).head?, Foreign k.keyword d := by
  rintro _ ⟨⟩
  exact foreign_mark k h

/-- Digits are in no keyword. -/
lemma foreign_of_isDigit (k : Kind) {c : Char} (h : c.isDigit = true) : Foreign k.keyword c := by
  have hdigits : ∀ n < 10, Foreign k.keyword (Char.ofNat (48 + n)) := by
    cases k <;> decide
  have hrange := Text.toNat_of_isDigit h
  have hc : Char.ofNat (48 + (c.toNat - 48)) = c := by
    rw [Nat.add_sub_cancel' hrange.1, Char.ofNat_toNat]
  rw [← hc]
  exact hdigits _ (by omega)

/-- No keyword occurs in another one. -/
lemma not_occurs_keyword {k k' : Kind} (h : k ≠ k') : ¬ Occurs k.keyword k'.keyword := by
  revert h
  cases k <;> cases k' <;> decide

lemma hasNoKeyword_unitName (u : CssUnit) : HasNoKeyword u.name.toList := by
  intro k
  cases k <;> cases u <;> decide

lemma hasNoKeyword_formatName (f : ColorFormat) : HasNoKeyword f.name.toList := by
  intro k
  cases k <;> cases f <;> decide

lemma IsShortNumber.isRun {digits : List Char} (h : IsShortNumber digits) :
    IsRun isDecimal digits :=
  ⟨h.1, fun c hc => Text.isDecimal_of_isDigit (h.2.1 c hc)⟩

/-- Digits have no keyword. -/
lemma IsShortNumber.hasNoKeyword {digits : List Char} (h : IsShortNumber digits) :
    HasNoKeyword digits := fun k =>
  not_occurs_of_foreign (keyword_ne_nil k) fun c hc => foreign_of_isDigit k (h.2.1 c hc)

lemma UnitArgument.head?_chars (argument : UnitArgument) : argument.chars.head? = some '(' := by
  cases argument <;> rfl

/-- The argument of a unit has no keyword. -/
lemma UnitArgument.hasNoKeyword_chars {argument : UnitArgument} (h : argument.IsProper) :
    HasNoKeyword argument.chars := by
  intro k
  have hword := keyword_ne_nil k
  cases argument with
  | number digits =>
    have hclose : ∀ c ∈ [')'], Foreign k.keyword c := foreign_marks k (by decide)
    refine not_occurs_cons hword (foreign_mark k (by decide)) ?_
    exact not_occurs_append (h.1.hasNoKeyword k) (not_occurs_of_foreign hword hclose)
      (foreign_head? k (by decide) [])
  | path raw =>
    have hclose : ∀ c ∈ ['\'', ')'], Foreign k.keyword c := foreign_marks k (by decide)
    refine not_occurs_cons hword (foreign_mark k (by decide)) ?_
    refine not_occurs_cons hword (foreign_mark k (by decide)) ?_
    exact not_occurs_append (h.2.2 k) (not_occurs_of_foreign hword hclose)
      (foreign_head? k (by decide) [')'])

/-- Behind the keyword of a directive there is no other keyword. -/
lemma Written.hasNoKeyword_body {w : Written} (h : w.IsProper) : HasNoKeyword w.body := by
  intro k
  cases w with
  | unit u argument =>
    have hname := hasNoKeyword_unitName u k
    cases argument with
    | none =>
      show ¬ Occurs k.keyword (u.name.toList ++ [])
      rwa [List.append_nil]
    | some argument =>
      refine not_occurs_append hname (UnitArgument.hasNoKeyword_chars (h argument rfl) k) ?_
      intro c hc
      rw [Option.elim_some, argument.head?_chars] at hc
      obtain rfl := Option.some.inj hc
      exact foreign_mark k (by decide)
  | format f => exact hasNoKeyword_formatName f k
  | calculation e => exact h.2.2.2.2 k
  | precision digits => exact h.hasNoKeyword k

/-- The keyword of a kind stands in no directive of another kind. -/
theorem not_occurs_chars {w : Written} (h : w.IsProper) {k : Kind} (hk : k ≠ w.kind) :
    ¬ Occurs k.keyword w.chars := by
  have hbody : ¬ Occurs k.keyword (' ' :: w.body) :=
    not_occurs_cons (keyword_ne_nil k) (foreign_mark k (by decide)) (Written.hasNoKeyword_body h k)
  exact not_occurs_append (not_occurs_keyword hk) hbody (foreign_head? k (by decide) w.body)

/-! ## Reading -/

/-- A directive ends at a semicolon, at a line break or at the end of the text. -/
def Ends (rest : List Char) : Prop :=
  ∀ c ∈ rest.head?, c = ';' ∨ c = '\n'

lemma ends_nil : Ends [] := by
  intro c hc
  simp at hc

lemma Ends.foreign {rest : List Char} (h : Ends rest) (k : Kind) :
    ∀ c ∈ rest.head?, Foreign k.keyword c := by
  intro c hc
  rcases h c hc with rfl | rfl
  · exact foreign_mark k (by decide)
  · exact foreign_mark k (by decide)

lemma Written.chars_append (w : Written) (rest : List Char) :
    w.chars ++ rest = w.kind.keyword ++ ' ' :: (w.body ++ rest) := by
  unfold Written.chars
  rw [List.append_assoc, List.cons_append]

/-- A text without white space around it does not begin with any. -/
lemma isSpace_head_of_trim {e : List Char} (h : trim e = e) : ∀ c ∈ e.head?, isSpace c = false := by
  intro c hc
  cases e with
  | nil => simp at hc
  | cons d e =>
    obtain rfl := Option.some.inj hc
    refine Bool.eq_false_iff.mpr fun hspace => ?_
    have hskip : Text.skipSpaces (d :: e) = Text.skipSpaces e := List.dropWhile_cons_of_pos hspace
    have hshort : (trim (d :: e)).length ≤ e.length := by
      unfold trim Text.trimEnd
      rw [hskip, List.length_reverse]
      refine (List.length_dropWhile_le _ _).trans ?_
      rw [List.length_reverse]
      exact List.length_dropWhile_le _ _
    rw [h] at hshort
    exact absurd hshort (Nat.not_succ_le_self _)

/-- Behind the blank there is something, and it begins with no white space. -/
lemma Written.exists_head?_body {w : Written} (h : w.IsProper) :
    ∃ c, w.body.head? = some c ∧ isSpace c = false := by
  cases w with
  | unit u argument =>
    cases u <;> exact ⟨_, rfl, by decide⟩
  | format f => cases f <;> exact ⟨_, rfl, by decide⟩
  | calculation e =>
    obtain ⟨c, hc⟩ := Option.ne_none_iff_exists'.mp (mt List.head?_eq_none_iff.mp h.1)
    exact ⟨c, hc, isSpace_head_of_trim h.2.1 c hc⟩
  | precision digits =>
    obtain ⟨c, hc⟩ := Option.ne_none_iff_exists'.mp (mt List.head?_eq_none_iff.mp h.1)
    exact ⟨c, hc, Text.isSpace_of_isDecimal (h.isRun.2 c (List.mem_of_mem_head? hc))⟩

/-- The body of a directive is what follows the keyword and white space. -/
lemma afterKeyword?_chars {w : Written} (h : w.IsProper) {keyword : String}
    (hkeyword : w.kind.keyword = keyword.toList) (rest : List Char) :
    afterKeyword? keyword (w.chars ++ rest) = some (w.body ++ rest) := by
  have hword : afterLetters? keyword.toList (w.chars ++ rest) = some (' ' :: (w.body ++ rest)) := by
    rw [w.chars_append, hkeyword]
    exact afterLetters?_eq_some_iff.mpr ⟨_, isWord_self _, rfl⟩
  have hblank : IsBlank [' '] := List.forall_mem_singleton.mpr (by decide)
  obtain ⟨c, hc, hspace⟩ := Written.exists_head?_body h
  have hhead : ∀ d ∈ (w.body ++ rest).head?, isSpace d = false := by
    rw [List.head?_append, hc]
    rintro _ ⟨⟩
    exact hspace
  unfold afterKeyword?
  rw [hword, Option.map_some, ← List.singleton_append, skipSpaces_append hblank hhead]

section reading

variable {rest : List Char}

/-- A run without semicolons and line breaks does not go on behind a directive. -/
lemma Ends.stops (hrest : Ends rest) {p : Char → Bool} (hsemicolon : p ';' = false)
    (hline : p '\n' = false) : ∀ c ∈ rest.head?, p c = false := by
  intro c hc
  rcases hrest c hc with rfl | rfl
  · exact hsemicolon
  · exact hline

/-- The digits of a precision are read as they are written. -/
theorem precision?_chars (hrest : Ends rest) {digits : List Char} (h : IsShortNumber digits) :
    precision? ((Written.precision digits).chars ++ rest) = some digits := by
  unfold precision?
  rw [afterKeyword?_chars (w := .precision digits) h rfl]
  show (run? isDecimal (digits ++ rest)).map _ = _
  rw [run?_append h.isRun (hrest.stops (by decide) (by decide)), Option.map_some]

/-- A calculation is read as it is written. -/
theorem calculation?_chars (hrest : Ends rest) {e : List Char}
    (h : (Written.calculation e).IsProper) :
    calculation? ((Written.calculation e).chars ++ rest) = some e := by
  have hbody := afterKeyword?_chars h (rfl : _ = "calc:".toList) rest
  obtain ⟨hne, htrim, hsemicolon, hline, -⟩ := h
  obtain ⟨behind, hbehind, hskip⟩ := Option.map_eq_some_iff.mp hbody
  obtain ⟨c, more, rfl⟩ := List.exists_cons_of_ne_nil hne
  have hmore : ∀ d ∈ more, (d != ';' && d != '\n') = true := by
    intro d hd
    rw [Bool.and_eq_true, bne_iff_ne, bne_iff_ne]
    exact ⟨fun h => hsemicolon (h ▸ List.mem_cons_of_mem c hd),
      fun h => hline (h ▸ List.mem_cons_of_mem c hd)⟩
  have htake : (more ++ rest).takeWhile (fun d => d != ';' && d != '\n') = more :=
    takeWhile_run hmore (hrest.stops (by decide) (by decide))
  unfold calculation?
  rw [hbehind, Option.bind_eq_bind, Option.bind_some, hskip]
  show some (trim (c :: (more ++ rest).takeWhile fun d => d != ';' && d != '\n')) = _
  rw [htake, htrim]

/-- The name of a color format is read as it is written. -/
theorem format?_chars (hrest : Ends rest) (f : ColorFormat) :
    format? ((Written.format f).chars ++ rest) = some f.name.toList := by
  have hread : formatNames.findSome? (fun name => (afterLetters? name.toList
      (f.name.toList ++ rest)).map fun _ => (f.name.toList ++ rest).take name.length) =
      some f.name.toList := by
    cases rest with
    | nil => cases f <;> rfl
    | cons c rest =>
      rcases hrest c rfl with rfl | rfl
      · cases f <;> rfl
      · cases f <;> rfl
  unfold format?
  rw [afterKeyword?_chars (w := .format f) trivial rfl]
  exact hread

lemma unitArgument?_none (hrest : Ends rest) : unitArgument? rest = none := by
  cases rest with
  | nil => rfl
  | cons c rest =>
    rcases hrest c rfl with rfl | rfl
    · rfl
    · rfl

/-- Digits up to a parenthesis are a numeral. -/
lemma numeral?_append {digits : List Char} (h : IsRun isDecimal digits) (rest : List Char) :
    numeral? (digits ++ ')' :: rest) = some (digits, ')' :: rest) := by
  have hrun : run? isDecimal (digits ++ ')' :: rest) = some (digits, ')' :: rest) :=
    run?_append h (by rintro _ ⟨⟩; decide)
  unfold numeral?
  rw [hrun]
  rfl

/-- A path without quotes is read from between quotes. -/
lemma quotedPath?_append {raw : List Char} (hne : raw ≠ []) (hquote : '\'' ∉ raw)
    (rest : List Char) : quotedPath? ('\'' :: (raw ++ '\'' :: rest)) = some (raw, rest) := by
  have hraw : IsRun (· != '\'') raw :=
    ⟨hne, fun c hc => bne_iff_ne.mpr fun heq => hquote (heq ▸ hc)⟩
  have hrun : run? (· != '\'') (raw ++ '\'' :: rest) = some (raw, '\'' :: rest) :=
    run?_append hraw (by rintro _ ⟨⟩; decide)
  unfold quotedPath?
  rw [afterChar?_eq_some_iff.mpr rfl]
  show (run? (· != '\'') (raw ++ '\'' :: rest)).bind _ = _
  rw [hrun]
  rfl

/-- The argument of a unit is read as it is written. -/
lemma unitArgument?_chars {argument : UnitArgument} (h : argument.IsProper) :
    unitArgument? (argument.chars ++ rest) = some argument := by
  unfold unitArgument?
  cases argument with
  | number digits =>
    have hchars : (UnitArgument.number digits).chars ++ rest = '(' :: (digits ++ ')' :: rest) := by
      simp [UnitArgument.chars]
    rw [hchars, afterChar?_eq_some_iff.mpr rfl, Option.bind_eq_bind, Option.bind_some,
      numeral?_append h.1.isRun]
    rfl
  | path raw =>
    have hchars : (UnitArgument.path raw).chars ++ rest =
        '(' :: '\'' :: (raw ++ '\'' :: ')' :: rest) := by
      simp [UnitArgument.chars]
    have hnumeral : numeral? ('\'' :: (raw ++ '\'' :: ')' :: rest)) = none := rfl
    rw [hchars, afterChar?_eq_some_iff.mpr rfl, Option.bind_eq_bind, Option.bind_some, hnumeral,
      quotedPath?_append h.1 h.2.1]
    rfl

/-- The name of a unit and its argument are read as they are written. -/
theorem unit?_chars (hrest : Ends rest) (u : CssUnit) {argument : Option UnitArgument}
    (h : ∀ a ∈ argument, a.IsProper) :
    unit? ((Written.unit u argument).chars ++ rest) = some (u.name.toList, argument) := by
  have hargument : unitArgument? (argument.elim [] UnitArgument.chars ++ rest) = argument := by
    cases argument with
    | none => exact unitArgument?_none hrest
    | some argument => exact unitArgument?_chars (h argument rfl)
  have hhead : ∀ c ∈ (argument.elim [] UnitArgument.chars ++ rest).head?,
      Text.isWord c = false := by
    cases argument with
    | none => exact hrest.stops (by decide) (by decide)
    | some argument =>
      rw [Option.elim_some, List.head?_append, argument.head?_chars]
      rintro _ ⟨⟩
      decide
  have hname : u ≠ .percent → u.name.toList ≠ [] ∧ u.name.toList.all Text.isWord = true := by
    cases u <;> decide
  unfold unit?
  rw [afterKeyword?_chars (w := .unit u argument) h rfl]
  unfold Written.body
  rw [List.append_assoc]
  -- The percent sign is the only name that is not a word.
  rcases eq_or_ne u .percent with rfl | hu
  · show some (_, unitArgument? (argument.elim [] UnitArgument.chars ++ rest)) = _
    rw [hargument]
    rfl
  · have hrun : IsRun Text.isWord u.name.toList :=
      ⟨(hname hu).1, List.all_eq_true.mp (hname hu).2⟩
    rw [Option.bind_eq_bind, Option.bind_some, run?_append hrun hhead]
    show some (_, unitArgument? _) = _
    rw [hargument]

end reading

end Directive

end DesignTokens

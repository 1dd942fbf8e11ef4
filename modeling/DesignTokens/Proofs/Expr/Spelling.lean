import DesignTokens.Proofs.Expr.Numerals
import DesignTokens.Proofs.Expr.Scanning

/-!
# How lexemes are spelled

The scanner decides by counting characters which lexeme begins at a place and how far it goes
(`Lexeme.begin?`).  Here lexemes are described without any scanning: `Lexeme.Spells` says which
texts are lexemes of a kind, and `Lexeme.Longest` that a lexeme is not the beginning of a longer
one.

The two agree.  What begins at a place is the longest lexeme there (`Lexeme.longest_of_begin?`), and
nothing begins where no lexeme stands (`Lexeme.not_spells_of_begin?_eq_none`).  The scanner is
therefore a walk over white space and longest lexemes (`Lexeme.Scans`), which ends at the end of the
text or gets stuck where neither of the two goes on.
-/

namespace DesignTokens

open Text (isDecimal isSpace isWord)

namespace Lexeme

/-! ## The texts of lexemes -/

/-- The texts of the lexemes of a kind. -/
inductive Spells : LexKind → List Char → Prop
  | number {cs : List Char} (h : IsNumber cs) : Spells .number cs
  | ident {c : Char} {word : List Char} (hc : startsIdent c = true)
      (hword : ∀ d ∈ word, isWord d = true) : Spells .ident (c :: word)
  | punctuation {c : Char} {kind : LexKind} (h : punctuation? c = some kind) : Spells kind [c]

/-- Punctuation is not white space, and neither a number nor an identifier begins with it. -/
lemma apart_of_punctuation? {c : Char} {kind : LexKind} (h : punctuation? c = some kind) :
    isSpace c = false ∧ isDecimal c = false ∧ c ≠ '.' ∧ startsIdent c = false := by
  unfold punctuation? at h
  split_ifs at h <;> subst c <;> decide

/-- The digits and the point of a number are not missing. -/
lemma mantissaText_ne_nil {whole fraction : List Char} {point : Bool}
    (hsome : whole ≠ [] ∨ point = true ∧ fraction ≠ []) :
    mantissaText whole fraction point ≠ [] := by
  rcases hsome with hwhole | ⟨rfl, -⟩
  · exact List.append_ne_nil_of_left_ne_nil hwhole _
  · exact List.append_ne_nil_of_right_ne_nil _ (List.cons_ne_nil _ _)

/-- A number is not empty and has no white space in it. -/
lemma IsNumber.solid {cs : List Char} (h : IsNumber cs) :
    cs ≠ [] ∧ ∀ c ∈ cs, isSpace c = false := by
  have hdigits : ∀ {ds : List Char}, (∀ c ∈ ds, isDecimal c = true) →
      ∀ c ∈ ds, isSpace c = false := fun hds c hc => Text.isSpace_of_isDecimal (hds c hc)
  obtain @⟨whole, fraction, expo, point, hwhole, hfraction, hsome, hexpo⟩ := h
  refine ⟨List.append_ne_nil_of_left_ne_nil (mantissaText_ne_nil hsome) _,
    List.forall_mem_append.mpr ⟨List.forall_mem_append.mpr ⟨hdigits hwhole, ?_⟩, ?_⟩⟩
  · cases point with
    | true => exact List.forall_mem_cons.mpr ⟨by decide, hdigits hfraction⟩
    | false => exact List.forall_mem_nil _
  · rcases hexpo with rfl | ⟨mark, sign, ds, rfl, hmark, hsign, -, hds⟩
    · exact List.forall_mem_nil _
    · refine List.forall_mem_cons.mpr ⟨?_, List.forall_mem_append.mpr ⟨?_, hdigits hds⟩⟩
      · rcases hmark with rfl | rfl <;> decide
      · rcases hsign with rfl | rfl | rfl
        · exact List.forall_mem_nil _
        · exact List.forall_mem_singleton.mpr (by decide)
        · exact List.forall_mem_singleton.mpr (by decide)

/-- No lexeme is empty, and none has white space in it. -/
lemma Spells.solid {kind : LexKind} {cs : List Char} (h : Spells kind cs) :
    cs ≠ [] ∧ ∀ c ∈ cs, isSpace c = false := by
  cases h with
  | number h => exact h.solid
  | ident hc hword =>
    exact ⟨List.cons_ne_nil _ _, List.forall_mem_cons.mpr
      ⟨isSpace_of_startsIdent hc, fun d hd => isSpace_of_isWord (hword d hd)⟩⟩
  | punctuation h =>
    exact ⟨List.cons_ne_nil _ _, List.forall_mem_singleton.mpr (apart_of_punctuation? h).1⟩

/-! ## Numbers are counted to their end -/

/-- Digits are counted, and those after them. -/
lemma digitCount_run {ds : List Char} (hds : ∀ c ∈ ds, isDecimal c = true) (rest : List Char) :
    digitCount (ds ++ rest) = ds.length + digitCount rest := by
  unfold digitCount
  rw [List.takeWhile_append_of_pos hds, List.length_append]

/-- No digits are counted where none stands. -/
lemma digitCount_of_stops {cs : List Char} (h : StopsDigits cs) : digitCount cs = 0 := by
  cases cs with
  | nil => rfl
  | cons c cs =>
    unfold digitCount
    rw [List.takeWhile_cons_of_neg (by simp [h c rfl])]
    rfl

/-- An exponent is counted to its end at least. -/
lemma IsExponent.le_exponentLength {expo : List Char} (h : IsExponent expo) (rest : List Char) :
    expo.length ≤ exponentLength (expo ++ rest) := by
  rcases h with rfl | ⟨mark, sign, ds, rfl, hmark, hsign, hne, hds⟩
  · exact Nat.zero_le _
  · have hlength : signLength (sign ++ (ds ++ rest)) = sign.length := by
      rcases hsign with rfl | rfl | rfl
      · obtain ⟨d, more, rfl⟩ := List.exists_cons_of_ne_nil hne
        have hdigit : isDecimal d = true := hds d List.mem_cons_self
        refine if_neg ?_
        rintro (rfl | rfl)
        · exact absurd hdigit (by decide)
        · exact absurd hdigit (by decide)
      · rfl
      · rfl
    have hdigits := List.length_pos_iff.mpr hne
    rw [List.cons_append, List.append_assoc, exponentLength_cons, if_pos hmark, hlength,
      List.drop_left, digitCount_run hds, if_neg (by omega), List.length_cons, List.length_append]
    omega

/-- The digits and the point of a number are counted to their end at least, and no further when
neither a digit nor a point follows. -/
lemma mantissaLength_mantissaText {whole fraction : List Char} {point : Bool} (tail : List Char)
    (hwhole : ∀ c ∈ whole, isDecimal c = true) (hfraction : ∀ c ∈ fraction, isDecimal c = true)
    (hsome : whole ≠ [] ∨ point = true ∧ fraction ≠ []) :
    (mantissaText whole fraction point).length ≤
        mantissaLength (mantissaText whole fraction point ++ tail) ∧
      ((∀ c ∈ tail.head?, isDecimal c = false ∧ c ≠ '.') →
        mantissaLength (mantissaText whole fraction point ++ tail) =
          (mantissaText whole fraction point).length) := by
  unfold mantissaText
  cases point with
  | true =>
    have hpoint : StopsDigits ('.' :: (fraction ++ tail)) := by
      intro c hc
      obtain rfl := Option.some.inj hc
      decide
    have hcount : digitCount (whole ++ '.' :: (fraction ++ tail)) = whole.length := by
      rw [digitCount_run hwhole, digitCount_of_stops hpoint, Nat.add_zero]
    have hdrop : (whole ++ '.' :: (fraction ++ tail)).dropWhile isDecimal =
        '.' :: (fraction ++ tail) := dropWhile_run hwhole hpoint
    have hdigits : ¬ (whole.length = 0 ∧ fraction.length + digitCount tail = 0) := by
      rintro ⟨h, h'⟩
      rcases hsome with hne | ⟨-, hne⟩
      · exact hne (List.length_eq_zero_iff.mp h)
      · exact hne (List.length_eq_zero_iff.mp (Nat.eq_zero_of_add_eq_zero_right h'))
    rw [if_pos rfl, List.append_assoc, List.cons_append, mantissaLength_point hdrop, hcount,
      digitCount_run hfraction, if_neg hdigits, List.length_append, List.length_cons]
    refine ⟨by omega, fun hstop => ?_⟩
    rw [digitCount_of_stops fun c hc => (hstop c hc).1]
    omega
  | false =>
    rw [if_neg (by decide), List.append_nil]
    constructor
    · have hle : digitCount (whole ++ tail) ≤ mantissaLength (whole ++ tail) := by
        by_cases hpoint : ∃ more, (whole ++ tail).dropWhile isDecimal = '.' :: more
        · obtain ⟨more, hmore⟩ := hpoint
          rw [mantissaLength_point hmore]
          split_ifs <;> omega
        · rw [mantissaLength_plain fun more hmore => hpoint ⟨more, hmore⟩]
      rw [digitCount_run hwhole] at hle
      omega
    · intro hstop
      have hdrop : (whole ++ tail).dropWhile isDecimal = tail :=
        dropWhile_run hwhole fun c hc => (hstop c hc).1
      rw [mantissaLength_plain, digitCount_run hwhole,
        digitCount_of_stops fun c hc => (hstop c hc).1, Nat.add_zero]
      intro more hmore
      rw [hdrop] at hmore
      rw [hmore] at hstop
      exact (hstop '.' rfl).2 rfl

/-- A number at the front of a text is counted to its end at least. -/
theorem IsNumber.le_numberLength {cs : List Char} (h : IsNumber cs) (rest : List Char) :
    cs.length ≤ numberLength (cs ++ rest) := by
  obtain @⟨whole, fraction, expo, point, hwhole, hfraction, hsome, hexpo⟩ := h
  have hpos := List.length_pos_iff.mpr (mantissaText_ne_nil hsome)
  obtain ⟨hle, heq⟩ := mantissaLength_mantissaText (expo ++ rest) hwhole hfraction hsome
  have hexponent := hexpo.le_exponentLength rest
  unfold numberLength
  rw [List.append_assoc, List.length_append]
  by_cases hnone : expo = []
  · subst hnone
    rw [List.nil_append] at hle ⊢
    rw [List.length_nil]
    dsimp only
    split_ifs <;> omega
  · have hstop : ∀ c ∈ (expo ++ rest).head?, isDecimal c = false ∧ c ≠ '.' := by
      obtain ⟨c, more, rfl⟩ := List.exists_cons_of_ne_nil hnone
      intro d hd
      obtain rfl := Option.some.inj hd
      rcases hexpo.begins c rfl with rfl | rfl <;> decide
    rw [heq hstop]
    dsimp only
    rw [List.drop_left]
    split_ifs <;> omega

/-! ## What begins at a place -/

/-- Where punctuation stands, it is the lexeme that begins there. -/
lemma begin?_punctuation {c : Char} {kind : LexKind} (h : punctuation? c = some kind)
    (rest : List Char) : begin? c rest = some (kind, 0) := by
  obtain ⟨-, hdigit, hpoint, hident⟩ := apart_of_punctuation? h
  unfold begin?
  simp only [numberLength_cons_eq_zero hdigit hpoint, hident, h, Nat.lt_irrefl, if_false,
    Bool.false_eq_true, Option.map_some]

/-- Where a lexeme stands, a lexeme of its kind begins, and it is not shorter. -/
lemma Spells.begins {c : Char} {text : List Char} {kind : LexKind} (h : Spells kind (c :: text))
    (rest : List Char) :
    ∃ more, begin? c (text ++ rest) = some (kind, more) ∧ text.length ≤ more := by
  cases h with
  | number h =>
    have hle := h.le_numberLength rest
    rw [List.length_cons, List.cons_append] at hle
    exact ⟨_, if_pos (by omega), by omega⟩
  | ident hc hword =>
    refine ⟨_, begin?_ident hc _, ?_⟩
    rw [List.takeWhile_append_of_pos hword, List.length_append]
    exact Nat.le_add_right _ _
  | punctuation h => exact ⟨0, begin?_punctuation h rest, le_refl 0⟩

/-- What begins at a place is a lexeme. -/
lemma spells_of_begin? {c : Char} {rest : List Char} {kind : LexKind} {more : ℕ}
    (h : begin? c rest = some (kind, more)) : Spells kind (c :: rest.take more) := by
  by_cases hnumber : 0 < numberLength (c :: rest)
  · obtain ⟨rfl, rfl⟩ : kind = .number ∧ more = numberLength (c :: rest) - 1 := by
      unfold begin? at h
      rw [if_pos hnumber] at h
      cases h
      exact ⟨rfl, rfl⟩
    have hspells := Spells.number (isNumber_take hnumber)
    rwa [← Nat.sub_add_cancel hnumber, List.take_succ_cons] at hspells
  · unfold begin? at h
    rw [if_neg hnumber] at h
    split_ifs at h with hident
    · cases h
      refine .ident hident fun d hd => ?_
      have htake : rest.take (rest.takeWhile isWord).length = rest.takeWhile isWord :=
        (List.prefix_iff_eq_take.mp (List.takeWhile_prefix _)).symm
      rw [htake] at hd
      exact List.mem_takeWhile_imp hd
    · obtain ⟨kind', hkind, heq⟩ := Option.map_eq_some_iff.mp h
      cases heq
      exact .punctuation hkind

/-- A lexeme and what follows it, where no lexeme begins with this one and goes on. -/
structure Longest (kind : LexKind) (text rest : List Char) : Prop where
  spells : Spells kind text
  stops : ∀ (more : List Char) (kind' : LexKind), more <+: rest → Spells kind' (text ++ more) →
    more = []

/-- What begins at a place is the longest lexeme that stands there. -/
theorem longest_of_begin? {c : Char} {rest : List Char} {kind : LexKind} {more : ℕ}
    (h : begin? c rest = some (kind, more)) :
    Longest kind (c :: rest.take more) (rest.drop more) := by
  refine ⟨spells_of_begin? h, ?_⟩
  rintro next kind' ⟨after, hafter⟩ hspells
  rw [List.cons_append] at hspells
  obtain ⟨more', hbegin, hle⟩ := hspells.begins after
  rw [List.append_assoc, hafter, List.take_append_drop, h] at hbegin
  cases hbegin
  rw [List.length_append, List.length_take, Nat.min_eq_left (le_length_of_begin? h)] at hle
  exact List.length_eq_zero_iff.mp (by omega)

/-- Where the longest lexeme stands, it is the one that begins. -/
lemma Longest.begins {c : Char} {text rest : List Char} {kind : LexKind}
    (h : Longest kind (c :: text) rest) : begin? c (text ++ rest) = some (kind, text.length) := by
  obtain ⟨more, hbegin, hle⟩ := h.spells.begins rest
  have htake : (text ++ rest).take more = text ++ rest.take (more - text.length) := by
    rw [List.take_append, List.take_of_length_le hle]
  have hspells := spells_of_begin? hbegin
  rw [htake] at hspells
  have hnone := h.stops _ kind (List.take_prefix _ _) hspells
  have hlength := le_length_of_begin? hbegin
  rw [List.length_append] at hlength
  have hmin := congrArg List.length hnone
  rw [List.length_take, List.length_nil] at hmin
  have hmore : more = text.length := by omega
  rw [hbegin, hmore]

/-- Where no lexeme stands, none begins. -/
lemma not_spells_of_begin?_eq_none {c : Char} {rest : List Char} (h : begin? c rest = none)
    (kind : LexKind) {text : List Char} (htext : text <+: c :: rest) : ¬ Spells kind text := by
  intro hspells
  obtain ⟨d, word, rfl⟩ := List.exists_cons_of_ne_nil hspells.solid.1
  obtain ⟨after, hafter⟩ := htext
  obtain ⟨rfl, rfl⟩ := List.cons.inj hafter
  obtain ⟨more, hbegin, -⟩ := hspells.begins after
  cases h.symm.trans hbegin

/-! ## Walks over a text -/

/-- From a place in a text, white space and longest lexemes are passed up to another place; the
lexemes are listed with their positions. -/
inductive Scans : ℕ → List Char → List Lexeme → List Char → Prop
  | stop (pos : ℕ) (cs : List Char) : Scans pos cs [] cs
  | space {pos : ℕ} {c : Char} {cs rest : List Char} {ls : List Lexeme} (hc : isSpace c = true)
      (h : Scans (pos + 1) cs ls rest) : Scans pos (c :: cs) ls rest
  | lexeme {pos : ℕ} {kind : LexKind} {text cs rest : List Char} {ls : List Lexeme}
      (ht : Longest kind text cs) (h : Scans (pos + text.length) cs ls rest) :
      Scans pos (text ++ cs) (⟨kind, String.ofList text, pos⟩ :: ls) rest

/-- A place that is not the end of the text, where neither white space nor a lexeme stands. -/
def Stuck (cs : List Char) : Prop :=
  (∃ c rest, cs = c :: rest ∧ isSpace c = false) ∧
    ∀ (kind : LexKind) (text : List Char), text <+: cs → ¬ Spells kind text

/-- After a lexeme the walk goes on behind it. -/
lemma Scans.of_begin? {pos : ℕ} {c : Char} {cs rest : List Char} {kind : LexKind} {more : ℕ}
    {ls : List Lexeme} (hbegin : begin? c cs = some (kind, more))
    (h : Scans (pos + 1 + more) (cs.drop more) ls rest) :
    Scans pos (c :: cs) (⟨kind, String.ofList (c :: cs.take more), pos⟩ :: ls) rest := by
  have hlength : (c :: cs.take more).length = 1 + more := by
    rw [List.length_cons, List.length_take, Nat.min_eq_left (le_length_of_begin? hbegin)]
    omega
  rw [Nat.add_assoc, ← hlength] at h
  have hwalk := Scans.lexeme (longest_of_begin? hbegin) h
  rwa [List.cons_append, List.take_append_drop] at hwalk

/-- A text that can be scanned is walked over to its end. -/
theorem scans_of_scanFrom {pos : ℕ} {cs : List Char} {ls : List Lexeme}
    (h : scanFrom pos cs = .ok ls) : Scans pos cs ls [] := by
  fun_induction scanFrom pos cs generalizing ls with
  | case1 pos =>
    cases h
    exact .stop pos []
  | case2 pos c rest hspace ih => exact .space hspace (ih h)
  | case3 => cases h
  | case4 pos c rest hspace kind more hbegin later hscan ih =>
    cases h
    exact .of_begin? hbegin (ih hscan)
  | case5 => cases h

/-- A text that cannot be scanned is walked over to the place where the scanner is stuck. -/
theorem exists_scans_of_scanFrom {pos : ℕ} {cs : List Char} {fault : LexFault}
    (h : scanFrom pos cs = .error fault) :
    ∃ before ls rest, cs = before ++ rest ∧ fault.pos = pos + before.length ∧
      Scans pos cs ls rest ∧ Stuck rest := by
  fun_induction scanFrom pos cs with
  | case1 => cases h
  | case2 pos c rest hspace ih =>
    obtain ⟨before, ls, after, hsplit, hpos, hwalk, hstuck⟩ := ih h
    refine ⟨c :: before, ls, after, by rw [hsplit]; rfl, ?_, .space hspace hwalk, hstuck⟩
    rw [hpos, List.length_cons]
    omega
  | case3 pos c rest hspace hbegin =>
    cases h
    exact ⟨[], [], c :: rest, rfl, rfl, .stop pos _, ⟨c, rest, rfl, Bool.eq_false_iff.mpr hspace⟩,
      fun kind _ => not_spells_of_begin?_eq_none hbegin kind⟩
  | case4 => cases h
  | case5 pos c rest hspace kind more hbegin fault hscan ih =>
    cases h
    obtain ⟨before, ls, after, hsplit, hpos, hwalk, hstuck⟩ := ih hscan
    refine ⟨c :: rest.take more ++ before, _, after, ?_, ?_, .of_begin? hbegin hwalk, hstuck⟩
    · rw [List.append_assoc, ← hsplit, List.cons_append, List.take_append_drop]
    · rw [hpos, List.length_append, List.length_cons, List.length_take,
        Nat.min_eq_left (le_length_of_begin? hbegin)]
      omega

/-- The scanner goes on from every place that a walk comes to. -/
theorem Scans.scanFrom_eq {pos : ℕ} {cs rest : List Char} {ls : List Lexeme}
    (h : Scans pos cs ls rest) (pos' : ℕ) (hpos : pos' + rest.length = pos + cs.length) :
    scanFrom pos cs = (scanFrom pos' rest).map (ls ++ ·) := by
  induction h with
  | stop pos cs =>
    obtain rfl : pos' = pos := by omega
    cases scanFrom pos' cs <;> rfl
  | space hc h ih =>
    rw [scanFrom, if_pos hc]
    exact ih (by rw [hpos, List.length_cons]; omega)
  | @lexeme pos kind text cs rest ls ht h ih =>
    obtain ⟨c, word, rfl⟩ := List.exists_cons_of_ne_nil ht.spells.solid.1
    have hspace : isSpace c = false := ht.spells.solid.2 c List.mem_cons_self
    have hlater := ih (by rw [hpos, List.length_append]; omega)
    rw [List.length_cons, ← Nat.add_assoc, Nat.add_right_comm] at hlater
    rw [List.cons_append, scanFrom, if_neg (by simp [hspace]), ht.begins]
    dsimp only
    rw [List.drop_left, List.take_left, hlater]
    cases scanFrom pos' rest <;> rfl

end Lexeme

end DesignTokens

import DesignTokens.Proofs.Expr.Acceptance
import DesignTokens.Proofs.Expr.Spelling
import DesignTokens.Proofs.Outcome

/-!
# Lexemes and the white space between them

Scanning loses nothing: the lexemes of a text stand in it at their positions, one after the other,
and all that is left of the text is white space.

It also does not depend on how much white space there is.  In `Lexeme.IsRespaced` white space is put
between lexemes and taken for other white space; two lexemes with white space between them keep
some.  A lexeme holds no white space, so what could make a lexeme longer stands before the first
white space behind it, and that part of a text does not grow (`Lexeme.SolidlyExtends`).  Hence the
lexemes stay the longest ones (`Lexeme.Respaced.scans`), and as the parser does not look at
positions the calculation stays the same, too (`Lexeme.terminals_lossless_and_stable`).
-/

namespace DesignTokens

open Text (isSpace)

namespace Lexeme

variable {pos : ℕ} {cs cs' rest text gap gap' : List Char} {t : Lexeme} {ls : List Lexeme}

/-! ## Where lexemes stand -/

/-- A lexeme that is passed is spelled as its kind is, and stands in the text at its position. -/
lemma Scans.of_mem (h : Scans pos cs ls rest) (ht : t ∈ ls) :
    pos ≤ t.pos ∧ Spells t.kind t.text.toList ∧ t.text.toList <+: cs.drop (t.pos - pos) := by
  induction h with
  | stop => cases ht
  | @space pos c cs rest ls hc h ih =>
    obtain ⟨hle, hspells, hbegins⟩ := ih ht
    have hdrop : t.pos - pos = t.pos - (pos + 1) + 1 := by omega
    rw [hdrop, List.drop_succ_cons]
    exact ⟨by omega, hspells, hbegins⟩
  | @lexeme pos kind text cs rest ls hlongest h ih =>
    rcases List.mem_cons.mp ht with rfl | ht
    · rw [String.toList_ofList, Nat.sub_self, List.drop_zero]
      exact ⟨le_refl pos, hlongest.spells, List.prefix_append text cs⟩
    · obtain ⟨hle, hspells, hbegins⟩ := ih ht
      have hdrop : t.pos - pos = text.length + (t.pos - (pos + text.length)) := by omega
      rw [hdrop, List.drop_length_add_append]
      exact ⟨by omega, hspells, hbegins⟩

/-- Every lexeme ends before the next one begins. -/
lemma Scans.pairwise (h : Scans pos cs ls rest) :
    ls.Pairwise fun t u => t.pos + t.text.length ≤ u.pos := by
  induction h with
  | stop => exact .nil
  | space hc h ih => exact ih
  | lexeme hlongest h ih =>
    refine List.pairwise_cons.mpr ⟨fun u hu => ?_, ih⟩
    rw [String.length_ofList]
    exact (h.of_mem hu).1

/-- A character is white space exactly if it does not stand in a lexeme. -/
lemma Scans.isSpace_iff (h : Scans pos cs ls rest) (hrest : rest = []) {i : ℕ} {c : Char}
    (hc : cs[i]? = some c) :
    isSpace c = true ↔ ∀ t ∈ ls, ¬ (t.pos ≤ pos + i ∧ pos + i < t.pos + t.text.length) := by
  induction h generalizing i with
  | stop =>
    rw [hrest] at hc
    cases hc
  | @space pos d cs rest ls hd h ih =>
    cases i with
    | zero =>
      obtain rfl := Option.some.inj hc
      refine iff_of_true hd fun t ht hcovers => ?_
      have hle := (h.of_mem ht).1
      omega
    | succ i =>
      rw [ih hrest hc, Nat.add_right_comm, ← Nat.add_assoc]
  | @lexeme pos kind text cs rest ls hlongest h ih =>
    rw [List.forall_mem_cons, String.length_ofList]
    rcases lt_or_ge i text.length with hi | hi
    · rw [List.getElem?_append_left hi] at hc
      have hsolid := hlongest.spells.solid.2 c (List.mem_of_getElem? hc)
      refine iff_of_false (by simp [hsolid]) fun hnone => hnone.1 ?_
      dsimp only
      omega
    · rw [List.getElem?_append_right hi] at hc
      have hindex : pos + text.length + (i - text.length) = pos + i := by omega
      rw [ih hrest hc, hindex]
      refine (and_iff_right ?_).symm
      dsimp only
      omega

/-! ## White space around a walk -/

/-- White space in front of a walk is passed. -/
lemma Scans.blank (hgap : ∀ c ∈ gap, isSpace c = true) (h : Scans (pos + gap.length) cs ls rest) :
    Scans pos (gap ++ cs) ls rest := by
  induction gap generalizing pos with
  | nil => exact h
  | cons c gap ih =>
    obtain ⟨hc, hgap⟩ := List.forall_mem_cons.mp hgap
    rw [List.length_cons, ← Nat.add_assoc, Nat.add_right_comm] at h
    exact .space hc (ih hgap h)

/-- A walk to the end of a text passes the white space in front. -/
lemma Scans.of_blank (hgap : ∀ c ∈ gap, isSpace c = true) (h : Scans pos (gap ++ cs) ls []) :
    Scans (pos + gap.length) cs ls [] := by
  induction gap generalizing pos with
  | nil => exact h
  | cons c gap ih =>
    obtain ⟨hc, hgap⟩ := List.forall_mem_cons.mp hgap
    rw [List.length_cons, ← Nat.add_assoc, Nat.add_right_comm]
    refine ih hgap ?_
    generalize hall : c :: gap ++ cs = all at h
    cases h with
    | stop => cases hall
    | space hd h =>
      obtain ⟨rfl, rfl⟩ := List.cons.inj hall
      exact h
    | lexeme hlongest h =>
      obtain ⟨d, word, rfl⟩ := List.exists_cons_of_ne_nil hlongest.spells.solid.1
      obtain ⟨rfl, -⟩ := List.cons.inj hall
      rw [hlongest.spells.solid.2 c List.mem_cons_self] at hc
      cases hc

/-- A walk that begins with the text of its first lexeme passes this lexeme. -/
lemma Scans.of_lexeme (h : Scans pos (t.text.toList ++ cs) (t :: ls) rest) :
    Longest t.kind t.text.toList cs ∧ Scans (pos + t.text.toList.length) cs ls rest := by
  obtain ⟨-, hspells, -⟩ := h.of_mem List.mem_cons_self
  generalize hall : t.text.toList ++ cs = all at h
  cases h with
  | space hc h =>
    obtain ⟨d, word, hword⟩ := List.exists_cons_of_ne_nil hspells.solid.1
    rw [hword] at hall hspells
    obtain ⟨rfl, -⟩ := List.cons.inj hall
    rw [hspells.solid.2 d List.mem_cons_self] at hc
    cases hc
  | lexeme hlongest h =>
    rw [String.toList_ofList] at hall ⊢
    obtain rfl := List.append_cancel_left hall
    exact ⟨hlongest, h⟩

/-! ## Other white space -/

/-- Two texts with the same words in the same order and white space behind each.  Where there is
white space between two words of the first text, there is some in the second. -/
inductive Respaced : List (List Char) → List Char → List Char → Prop
  | nil : Respaced [] [] []
  | word {text gap gap' cs cs' : List Char} {texts : List (List Char)}
      (hgap : ∀ c ∈ gap, isSpace c = true) (hgap' : ∀ c ∈ gap', isSpace c = true)
      (hkept : texts ≠ [] → gap ≠ [] → gap' ≠ []) (h : Respaced texts cs cs') :
      Respaced (text :: texts) (text ++ (gap ++ cs)) (text ++ (gap' ++ cs'))

/-- Two texts with the same lexemes, the second one with white space put between the lexemes of the
first or in place of other white space.  There may be any white space at both ends. -/
def IsRespaced (ls : List Lexeme) (source source' : String) : Prop :=
  ∃ gap gap' cs cs', (∀ c ∈ gap, isSpace c = true) ∧ (∀ c ∈ gap', isSpace c = true) ∧
    source.toList = gap ++ cs ∧ source'.toList = gap' ++ cs' ∧
    Respaced (ls.map (·.text.toList)) cs cs'

/-- What stands at the front of a text before any white space stands at the front of another. -/
def SolidlyExtends (cs cs' : List Char) : Prop :=
  ∀ more, more <+: cs' → (∀ c ∈ more, isSpace c = false) → more <+: cs

/-- White space ends what stands before it. -/
lemma solidlyExtends_blank (hgap' : ∀ c ∈ gap', isSpace c = true) (hne : gap' ≠ []) :
    SolidlyExtends cs (gap' ++ cs') := by
  obtain ⟨d, gap', rfl⟩ := List.exists_cons_of_ne_nil hne
  intro more hmore hsolid
  cases more with
  | nil => exact List.nil_prefix
  | cons c more =>
    obtain ⟨rfl, -⟩ := List.cons_prefix_cons.mp hmore
    cases (hsolid c List.mem_cons_self).symm.trans (hgap' c List.mem_cons_self)

/-- The same word may stand in front of both texts. -/
lemma SolidlyExtends.append (h : SolidlyExtends cs cs') (text : List Char) :
    SolidlyExtends (text ++ cs) (text ++ cs') := by
  intro more hmore hsolid
  rcases List.prefix_or_prefix_of_prefix hmore (List.prefix_append text cs') with hshort | hlong
  · exact hshort.trans (List.prefix_append text cs)
  · obtain ⟨later, rfl⟩ := hlong
    have hlater := (List.prefix_append_right_inj text).mp hmore
    exact (List.prefix_append_right_inj text).mpr
      (h later hlater fun c hc => hsolid c (List.mem_append_right text hc))

/-- A text extends another one when the words keep the white space between them. -/
lemma Respaced.solidlyExtends {texts : List (List Char)} (h : Respaced texts cs cs') :
    SolidlyExtends cs cs' := by
  induction h with
  | nil => exact fun _ hmore _ => hmore
  | @word text gap gap' cs cs' texts hgap hgap' hkept h ih =>
    refine SolidlyExtends.append ?_ text
    rcases eq_or_ne gap' [] with rfl | hne
    · rcases eq_or_ne texts [] with rfl | htexts
      · cases h
        exact fun _ hmore _ => (List.prefix_nil.mp hmore) ▸ List.nil_prefix
      · obtain rfl : gap = [] := of_not_not fun hgap => hkept htexts hgap rfl
        exact ih
    · exact solidlyExtends_blank hgap' hne

/-- A lexeme stays the longest one in front of a text that is extended solidly. -/
lemma Longest.of_solidlyExtends {kind : LexKind} (h : Longest kind text cs)
    (hextends : SolidlyExtends cs cs') : Longest kind text cs' := by
  refine ⟨h.spells, fun more kind' hmore hspells => ?_⟩
  have hsolid : ∀ c ∈ more, isSpace c = false := fun c hc =>
    hspells.solid.2 c (List.mem_append_right text hc)
  exact h.stops more kind' (hextends more hmore hsolid) hspells

/-- With other white space the same lexemes are passed. -/
theorem Respaced.scans {texts : List (List Char)} (h : Respaced texts cs cs')
    (hscans : Scans pos cs ls []) (htexts : ls.map (·.text.toList) = texts) (pos' : ℕ) :
    ∃ ls', Scans pos' cs' ls' [] ∧ ls'.map shape = ls.map shape := by
  induction h generalizing ls pos pos' with
  | nil =>
    obtain rfl := List.map_eq_nil_iff.mp htexts
    exact ⟨[], .stop pos' [], rfl⟩
  | @word text gap gap' cs cs' texts hgap hgap' hkept h ih =>
    obtain ⟨t, later, rfl, rfl, hlater⟩ := List.map_eq_cons_iff.mp htexts
    obtain ⟨hlongest, hwalk⟩ := hscans.of_lexeme
    obtain ⟨ls', hwalk', hshapes⟩ := ih (hwalk.of_blank hgap) hlater
      (pos' + t.text.toList.length + gap'.length)
    have hextends : SolidlyExtends (gap ++ cs) (gap' ++ cs') := by
      have hword : Respaced ([] :: texts) (gap ++ cs) (gap' ++ cs') := .word hgap hgap' hkept h
      exact hword.solidlyExtends
    refine ⟨_, .lexeme (hlongest.of_solidlyExtends hextends) (hwalk'.blank hgap'), ?_⟩
    rw [List.map_cons, List.map_cons, hshapes]
    unfold shape
    rw [String.ofList_toList]

/-- A text can be scanned with other white space, and has the same lexemes then. -/
theorem IsRespaced.scan {source source' : String} (h : IsRespaced ls source source')
    (hscan : scan source = .ok ls) :
    ∃ ls', Lexeme.scan source' = .ok ls' ∧ ls'.map shape = ls.map shape := by
  obtain ⟨gap, gap', cs, cs', hgap, hgap', hsource, hsource', hwords⟩ := h
  have hwalk : Scans 0 (gap ++ cs) ls [] := hsource ▸ scans_of_scanFrom hscan
  obtain ⟨ls', hwalk', hshapes⟩ := hwords.scans (hwalk.of_blank hgap) rfl (0 + gap'.length)
  refine ⟨ls', ?_, hshapes⟩
  unfold Lexeme.scan
  rw [hsource', (hwalk'.blank hgap').scanFrom_eq (gap' ++ cs').length (by simp), scanFrom]
  exact congrArg Except.ok (List.append_nil ls')

/-- In a walk to the end of a text, single spaces may be put between the lexemes in place of all
white space. -/
lemma Scans.respaced (h : Scans pos cs ls rest) (hrest : rest = []) :
    ∃ gap later, cs = gap ++ later ∧ (∀ c ∈ gap, isSpace c = true) ∧
      Respaced (ls.map (·.text.toList)) later ([' '].intercalate (ls.map (·.text.toList))) := by
  induction h with
  | stop =>
    rw [hrest]
    exact ⟨[], [], rfl, List.forall_mem_nil _, .nil⟩
  | space hc h ih =>
    obtain ⟨gap, later, rfl, hgap, hwords⟩ := ih hrest
    exact ⟨_ :: gap, later, rfl, List.forall_mem_cons.mpr ⟨hc, hgap⟩, hwords⟩
  | @lexeme pos kind text cs rest ls hlongest h ih =>
    obtain ⟨gap, later, rfl, hgap, hwords⟩ := ih hrest
    refine ⟨[], text ++ (gap ++ later), rfl, List.forall_mem_nil _, ?_⟩
    rw [List.map_cons, String.toList_ofList]
    rcases eq_or_ne (ls.map (·.text.toList)) [] with hnone | hsome
    · rw [hnone] at hwords ⊢
      have hlast : Respaced [text] (text ++ (gap ++ later)) (text ++ ([] ++ [])) :=
        .word hgap (List.forall_mem_nil _) (fun hne => absurd rfl hne) hwords
      simpa using hlast
    · rw [List.intercalate_cons_of_ne_nil hsome, List.append_assoc]
      exact .word hgap (List.forall_mem_singleton.mpr rfl) (fun _ _ => List.cons_ne_nil _ _) hwords

/-- The texts of the lexemes joined with single spaces are the text with other white space. -/
lemma isRespaced_intercalate {source : String} (hscan : scan source = .ok ls) :
    IsRespaced ls source (" ".intercalate (ls.map (·.text))) := by
  obtain ⟨gap, later, hsource, hgap, hwords⟩ := (scans_of_scanFrom hscan).respaced rfl
  refine ⟨gap, [], later, _, hgap, List.forall_mem_nil _, hsource, ?_, hwords⟩
  rw [String.toList_intercalate, List.map_map]
  rfl

end Lexeme

/-! ## The parser does not look at positions -/

namespace Expr

open Lexeme (shape)

namespace ParseState

section positions

variable (s : ParseState) (kind : LexKind) (text : String) (pos pos' : ℕ)

/-- The fault of a misplaced lexeme is the same at every position. -/
lemma problem_misplaced :
    (s.misplaced ⟨kind, text, pos⟩).problem = (s.misplaced ⟨kind, text, pos'⟩).problem := by
  unfold misplaced
  split_ifs <;> rfl

/-- Where an operand has to begin, only a fault shows the position. -/
lemma takeOperand_position :
    (s.takeOperand ⟨kind, text, pos⟩).mapError ParseFault.problem =
      (s.takeOperand ⟨kind, text, pos'⟩).mapError ParseFault.problem := by
  unfold takeOperand
  cases kind <;> rfl

/-- After an operand only a fault shows the position. -/
lemma takeOperator_position (e : Expr) :
    (s.takeOperator e ⟨kind, text, pos⟩).mapError ParseFault.problem =
      (s.takeOperator e ⟨kind, text, pos'⟩).mapError ParseFault.problem := by
  have hmisplaced := congrArg (Except.error (α := ParseState))
    (s.problem_misplaced kind text pos pos')
  unfold takeOperator
  cases kind with
  | rightParen =>
    unfold close
    rcases s.opened with _ | ⟨⟨_ | _, outer⟩, opened⟩
    · exact hmisplaced
    · rfl
    · rfl
  | comma =>
    unfold nextArgument
    rcases s.opened with _ | ⟨⟨_ | _, outer⟩, opened⟩
    · exact hmisplaced
    · exact hmisplaced
    · rfl
  | number => exact hmisplaced
  | ident => exact hmisplaced
  | leftParen => exact hmisplaced
  | plus => rfl
  | minus => rfl
  | star => rfl
  | slash => rfl

/-- Only a fault shows the position of a lexeme. -/
lemma step_position :
    (s.step ⟨kind, text, pos⟩).mapError ParseFault.problem =
      (s.step ⟨kind, text, pos'⟩).mapError ParseFault.problem := by
  unfold step
  cases s.phase with
  | operand => exact s.takeOperand_position kind text pos pos'
  | arguments =>
    unfold takeArgument
    dsimp only
    split
    · rfl
    · exact s.takeOperand_position _ text pos pos'
  | ident word =>
    dsimp only
    split_ifs
    · rfl
    · exact s.takeOperator_position kind text pos pos' (.name word)
  | value e => exact s.takeOperator_position kind text pos pos' e

end positions

/-- Lexemes of the same kinds and texts take the machine to the same state, or to faults that differ
in their positions only. -/
lemma run_of_shapes {ls ls' : List Lexeme} (h : ls.map shape = ls'.map shape) (s : ParseState) :
    (s.run ls).mapError ParseFault.problem = (s.run ls').mapError ParseFault.problem := by
  induction ls generalizing ls' s with
  | nil =>
    obtain rfl := List.map_eq_nil_iff.mp h.symm
    rfl
  | cons t ls ih =>
    obtain ⟨t', ls', rfl, hshape, hlater⟩ := List.map_eq_cons_iff.mp h.symm
    obtain ⟨kind, text, pos⟩ := t
    obtain ⟨kind', text', pos'⟩ := t'
    obtain ⟨rfl, rfl⟩ := Prod.mk.inj hshape
    rw [run_cons, run_cons]
    exact mapError_bind_congr (s.step_position kind' text' pos pos') fun next => ih hlater.symm next

/-- Only a fault shows the length of a text. -/
lemma finish_length (s : ParseState) (length length' : ℕ) :
    (s.finish length).mapError ParseFault.problem =
      (s.finish length').mapError ParseFault.problem := by
  unfold finish complete
  cases s.phase with
  | operand => rfl
  | arguments => rfl
  | ident word =>
    dsimp only
    split_ifs <;> rfl
  | value e =>
    dsimp only
    split_ifs <;> rfl

/-- Lexemes of the same kinds and texts have the same result, or faults that differ in their
positions only. -/
lemma outcome_of_shapes {ls ls' : List Lexeme} (h : ls.map shape = ls'.map shape) (s : ParseState)
    (length length' : ℕ) :
    (s.outcome ls length).mapError ParseFault.problem =
      (s.outcome ls' length').mapError ParseFault.problem := by
  rw [outcome_eq, outcome_eq]
  exact mapError_bind_congr (run_of_shapes h s) fun last => last.finish_length length length'

end ParseState

/-- Texts with lexemes of the same kinds and texts have the same tree, or faults that differ in
their positions only. -/
theorem parse_of_shapes {source source' : String} {ls ls' : List Lexeme}
    (hscan : Lexeme.scan source = .ok ls) (hscan' : Lexeme.scan source' = .ok ls')
    (h : ls.map shape = ls'.map shape) :
    (parse source).mapError ParseFault.problem = (parse source').mapError ParseFault.problem := by
  unfold parse
  rw [hscan, hscan']
  cases ls with
  | nil =>
    obtain rfl := List.map_eq_nil_iff.mp h.symm
    rfl
  | cons t ls =>
    obtain ⟨t', ls', rfl, -, -⟩ := List.map_eq_cons_iff.mp h.symm
    exact ParseState.outcome_of_shapes h {} source.length source'.length

end Expr

/-! ## Lexemes and white space -/

namespace Lexeme

/-- Scanning is lossless and stable.  The terminals of a text are its lexemes and the end behind its
last character.  No lexeme is empty; each stands in the text at its position and ends before the
next terminal begins; and a character of the text is white space exactly if it stands in none of
them.  The texts of the lexemes joined with single spaces have lexemes of the same kinds and texts,
and so has every text with other white space around and between the lexemes; the parser gives the
same tree for it, or the same fault at another position. -/
theorem terminals_lossless_and_stable {source : String} {ts : List Terminal}
    (h : Terminal.scan source = .ok ts) :
    ∃ ls, scan source = .ok ls ∧ ts = ls.map .lexeme ++ [.finish source.length] ∧
      (∀ t ∈ ls, t.text ≠ "" ∧ t.text.toList <+: source.toList.drop t.pos) ∧
      ts.Pairwise (fun t u => t.pos + t.text.length ≤ u.pos) ∧
      (∀ i c, source.toList[i]? = some c →
        (isSpace c = true ↔ ∀ t ∈ ls, ¬ (t.pos ≤ i ∧ i < t.pos + t.text.length))) ∧
      ∀ source', source' = " ".intercalate (ls.map (·.text)) ∨ IsRespaced ls source source' →
        (∃ ls', scan source' = .ok ls' ∧ ls'.map shape = ls.map shape) ∧
        (Expr.parse source').mapError ParseFault.problem =
          (Expr.parse source).mapError ParseFault.problem := by
  unfold Terminal.scan at h
  cases hscan : scan source with
  | error fault =>
    rw [hscan] at h
    cases h
  | ok ls =>
    rw [hscan] at h
    obtain rfl := Except.ok.inj h
    have hwalk := scans_of_scanFrom hscan
    have hmem : ∀ t ∈ ls, t.text ≠ "" ∧ t.text.toList <+: source.toList.drop t.pos := by
      intro t ht
      obtain ⟨-, hspells, hbegins⟩ := hwalk.of_mem ht
      exact ⟨fun hnone => hspells.solid.1 (by rw [hnone]; rfl), hbegins⟩
    refine ⟨ls, rfl, rfl, hmem, ?_, ?_, ?_⟩
    · refine List.pairwise_append.mpr ⟨List.pairwise_map.mpr hwalk.pairwise,
        List.pairwise_singleton _ _, fun u hu v hv => ?_⟩
      obtain ⟨t, ht, rfl⟩ := List.mem_map.mp hu
      obtain rfl := List.mem_singleton.mp hv
      obtain ⟨hne, hbegins⟩ := hmem t ht
      have hlength := hbegins.length_le
      rw [List.length_drop, String.length_toList, String.length_toList] at hlength
      have hpos : 0 < t.text.length :=
        Nat.pos_of_ne_zero fun hzero => hne (String.length_eq_zero_iff.mp hzero)
      show t.pos + t.text.length ≤ source.length
      omega
    · intro i c hc
      simpa using hwalk.isSpace_iff rfl hc
    · intro source' hsource'
      have hrespaced : IsRespaced ls source source' :=
        hsource'.elim (fun hjoined => hjoined ▸ isRespaced_intercalate hscan) id
      obtain ⟨ls', hscan', hshapes⟩ := hrespaced.scan hscan
      exact ⟨⟨ls', hscan', hshapes⟩, Expr.parse_of_shapes hscan' hscan hshapes⟩

/-- In `1.5.5*2e` lexemes stand side by side that go on as numbers and words do.  They are the same
with single spaces between them. -/
theorem terminals_lossless_and_stable_adjacent :
    Terminal.scan "1.5.5*2e" = .ok [.lexeme ⟨.number, "1.5", 0⟩, .lexeme ⟨.number, ".5", 3⟩,
      .lexeme ⟨.star, "*", 5⟩, .lexeme ⟨.number, "2", 6⟩, .lexeme ⟨.ident, "e", 7⟩, .finish 8] ∧
    ∃ ls, scan "1.5 .5 * 2 e" = .ok ls ∧ ls.map shape =
      [(.number, "1.5"), (.number, ".5"), (.star, "*"), (.number, "2"), (.ident, "e")] := by
  have hscan : Terminal.scan "1.5.5*2e" = .ok [.lexeme ⟨.number, "1.5", 0⟩,
      .lexeme ⟨.number, ".5", 3⟩, .lexeme ⟨.star, "*", 5⟩, .lexeme ⟨.number, "2", 6⟩,
      .lexeme ⟨.ident, "e", 7⟩, .finish 8] := by
    decide +kernel
  obtain ⟨ls, hls, -, -, -, -, hstable⟩ := terminals_lossless_and_stable hscan
  have hlexemes : scan "1.5.5*2e" = .ok [⟨.number, "1.5", 0⟩, ⟨.number, ".5", 3⟩, ⟨.star, "*", 5⟩,
      ⟨.number, "2", 6⟩, ⟨.ident, "e", 7⟩] := by
    decide +kernel
  obtain rfl := Except.ok.inj (hls.symm.trans hlexemes)
  exact ⟨hscan, (hstable "1.5 .5 * 2 e" (Or.inl (by decide +kernel))).1⟩

end Lexeme

end DesignTokens

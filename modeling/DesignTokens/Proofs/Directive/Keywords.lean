import DesignTokens.Directive
import DesignTokens.Proofs.Color.Forms
import Mathlib.Data.List.Infix

/-!
# Where keywords stand

A directive is looked for by its keyword, with the letters in either case, anywhere in a text
(`Occurs`).  A character that agrees with no letter of a keyword (`Foreign`) ends every occurrence
of it: where a part of a text begins with one, the keyword stands in one of the parts alone
(`not_occurs_append`).  A search therefore passes the parts without its keyword
(`firstMatch?_append`, `firstMatch?_skip`), and finds nothing where the keyword does not occur
(`firstMatch?_eq_none`).
-/

namespace DesignTokens

open Text (sameLetter afterLetters? firstMatch?)
open ColorText (IsWord afterLetters?_eq_some_iff)

/-- A letter agrees with itself. -/
lemma Text.sameLetter_self (c : Char) : sameLetter c c = true := by
  unfold sameLetter
  split_ifs
  · simp
  · simp

namespace Directive

/-- A word occurs in a text, with its letters in either case. -/
def Occurs (word cs : List Char) : Prop :=
  ∃ before found after, cs = before ++ (found ++ after) ∧ IsWord word found

/-- A character agrees with no letter of a word. -/
def Foreign (word : List Char) (c : Char) : Prop :=
  ∀ l ∈ word, sameLetter l c = false

variable {word cs rest : List Char} {c : Char}

instance (word : List Char) (c : Char) : Decidable (Foreign word c) :=
  decidable_of_iff (word.all (fun l => !sameLetter l c) = true) <| by
    simp only [List.all_eq_true, Bool.not_eq_true', Foreign]

/-- A word is read as it is written. -/
lemma isWord_self (word : List Char) : IsWord word word :=
  List.forall₂_same.mpr fun c _ => Text.sameLetter_self c

/-- Each character of a word that has been found agrees with some letter. -/
lemma not_foreign {found : List Char} (h : IsWord word found) (hc : c ∈ found) :
    ¬ Foreign word c := by
  induction h with
  | nil => cases hc
  | cons hsame _ ih =>
    intro hforeign
    rcases List.mem_cons.mp hc with rfl | hc
    · exact Bool.noConfusion ((hforeign _ List.mem_cons_self).symm.trans hsame)
    · exact ih hc fun l hl => hforeign l (List.mem_cons_of_mem _ hl)

/-! ## Occurrences -/

/-- A word occurs where it can be read from some place on. -/
lemma occurs_iff : Occurs word cs ↔ ∃ tail ∈ cs.tails, (afterLetters? word tail).isSome = true := by
  constructor
  · rintro ⟨before, found, after, rfl, hfound⟩
    refine ⟨found ++ after, (List.mem_tails _ _).mpr (List.suffix_append _ _), ?_⟩
    exact Option.isSome_iff_exists.mpr ⟨after, afterLetters?_eq_some_iff.mpr ⟨found, hfound, rfl⟩⟩
  · rintro ⟨tail, htail, hsome⟩
    obtain ⟨before, rfl⟩ := (List.mem_tails _ _).mp htail
    obtain ⟨after, hafter⟩ := Option.isSome_iff_exists.mp hsome
    obtain ⟨found, hfound, rfl⟩ := afterLetters?_eq_some_iff.mp hafter
    exact ⟨before, found, after, rfl, hfound⟩

instance (word cs : List Char) : Decidable (Occurs word cs) :=
  decidable_of_iff _ occurs_iff.symm

lemma Occurs.append_left (h : Occurs word cs) (before : List Char) :
    Occurs word (before ++ cs) := by
  obtain ⟨before', found, after, rfl, hfound⟩ := h
  exact ⟨before ++ before', found, after, (List.append_assoc _ _ _).symm, hfound⟩

/-- A word that begins in a part of a text ends in it, if a character that is foreign to the word
follows. -/
lemma exists_end {found after : List Char} (hfound : IsWord word found)
    (hforeign : ∀ c ∈ rest.head?, Foreign word c) (heq : cs ++ rest = found ++ after) :
    ∃ more, cs = found ++ more := by
  rcases List.append_eq_append_iff.mp heq with ⟨beyond, rfl, hbeyond⟩ | ⟨more, rfl, -⟩
  · cases beyond with
    | nil => exact ⟨[], by simp only [List.append_nil]⟩
    | cons c beyond =>
      -- The word would reach into the second part by its first character.
      rw [hbeyond] at hforeign
      have hc : c ∈ cs ++ c :: beyond := List.mem_append_right cs List.mem_cons_self
      exact absurd (hforeign c rfl) (not_foreign hfound hc)
  · exact ⟨more, rfl⟩

/-- A word that does not occur in two parts does not occur in the whole, if the second part begins
with a character that is foreign to it. -/
lemma not_occurs_append (hcs : ¬ Occurs word cs) (hrest : ¬ Occurs word rest)
    (hforeign : ∀ c ∈ rest.head?, Foreign word c) : ¬ Occurs word (cs ++ rest) := by
  rintro ⟨before, found, after, heq, hfound⟩
  rcases List.append_eq_append_iff.mp heq with ⟨middle, rfl, hmiddle⟩ | ⟨middle, rfl, hmiddle⟩
  · exact hrest ⟨middle, found, after, hmiddle, hfound⟩
  · obtain ⟨more, rfl⟩ := exists_end hfound hforeign hmiddle.symm
    exact hcs ⟨before, found, more, rfl, hfound⟩

/-- A word that is not empty does not begin with a character that is foreign to it. -/
lemma afterLetters?_cons_of_foreign (hword : word ≠ []) (hc : Foreign word c) (cs : List Char) :
    afterLetters? word (c :: cs) = none := by
  cases word with
  | nil => exact absurd rfl hword
  | cons l word => exact if_neg (Bool.eq_false_iff.mp (hc l List.mem_cons_self))

/-- A word that does not occur in a part of a text is not read at its front, if a character that is
foreign to the word follows. -/
lemma afterLetters?_append_eq_none (hcs : ¬ Occurs word cs)
    (hforeign : ∀ c ∈ rest.head?, Foreign word c) : afterLetters? word (cs ++ rest) = none := by
  cases hread : afterLetters? word (cs ++ rest) with
  | none => rfl
  | some after =>
    obtain ⟨found, hfound, heq⟩ := afterLetters?_eq_some_iff.mp hread
    obtain ⟨more, hmore⟩ := exists_end hfound hforeign heq
    exact absurd ⟨[], found, more, hmore, hfound⟩ hcs

/-- A character that is foreign to a word makes no occurrence of it. -/
lemma not_occurs_cons (hword : word ≠ []) (hc : Foreign word c) (h : ¬ Occurs word cs) :
    ¬ Occurs word (c :: cs) := by
  rintro ⟨before, found, after, heq, hfound⟩
  cases before with
  | nil =>
    have hread : afterLetters? word (c :: cs) = some after :=
      afterLetters?_eq_some_iff.mpr ⟨found, hfound, heq⟩
    rw [afterLetters?_cons_of_foreign hword hc] at hread
    cases hread
  | cons d before =>
    obtain ⟨rfl, rfl⟩ := List.cons.inj heq
    exact h ⟨before, found, after, rfl, hfound⟩

lemma not_occurs_nil (hword : word ≠ []) : ¬ Occurs word [] := by
  rintro ⟨before, found, after, heq, hfound⟩
  obtain ⟨-, hboth⟩ := List.append_eq_nil_iff.mp heq.symm
  obtain ⟨rfl, -⟩ := List.append_eq_nil_iff.mp hboth
  cases hfound
  exact hword rfl

/-- A word does not occur among characters that are all foreign to it. -/
lemma not_occurs_of_foreign (hword : word ≠ []) (h : ∀ c ∈ cs, Foreign word c) :
    ¬ Occurs word cs := by
  induction cs with
  | nil => exact not_occurs_nil hword
  | cons c cs ih =>
    exact not_occurs_cons hword (h c List.mem_cons_self)
      (ih fun d hd => h d (List.mem_cons_of_mem c hd))

/-! ## Searches -/

section search

variable {β : Type} {reader : List Char → Option β}

/-- What a reader finds at the front of a text is the first that it finds. -/
lemma firstMatch?_of_some {found : β} (h : reader cs = some found) :
    firstMatch? reader cs = some found := by
  cases cs with
  | nil => exact h
  | cons c cs =>
    unfold firstMatch?
    rw [h]

lemma firstMatch?_cons_of_none (h : reader (c :: cs) = none) :
    firstMatch? reader (c :: cs) = firstMatch? reader cs := by
  rw [firstMatch?, h]

variable (hreader : ∀ cs, afterLetters? word cs = none → reader cs = none)
include hreader

/-- A reader that begins with a keyword passes characters that are foreign to the keyword. -/
lemma firstMatch?_skip (hword : word ≠ []) {skipped : List Char}
    (hskipped : ∀ c ∈ skipped, Foreign word c) (rest : List Char) :
    firstMatch? reader (skipped ++ rest) = firstMatch? reader rest := by
  induction skipped with
  | nil => rfl
  | cons c skipped ih =>
    have hc : afterLetters? word (c :: (skipped ++ rest)) = none :=
      afterLetters?_cons_of_foreign hword (hskipped c List.mem_cons_self) _
    rw [List.cons_append, firstMatch?_cons_of_none (hreader _ hc)]
    exact ih fun d hd => hskipped d (List.mem_cons_of_mem c hd)

/-- A reader that begins with a keyword passes a part of a text in which the keyword does not occur,
if a character that is foreign to the keyword follows. -/
lemma firstMatch?_append (hcs : ¬ Occurs word cs)
    (hforeign : ∀ c ∈ rest.head?, Foreign word c) :
    firstMatch? reader (cs ++ rest) = firstMatch? reader rest := by
  induction cs with
  | nil => rfl
  | cons c cs ih =>
    have hfront := hreader _ (afterLetters?_append_eq_none hcs hforeign)
    rw [List.cons_append] at hfront ⊢
    rw [firstMatch?_cons_of_none hfront]
    exact ih fun hoccurs => hcs (hoccurs.append_left [c])

/-- A reader that begins with a keyword finds nothing in a text in which the keyword does not occur.
-/
lemma firstMatch?_eq_none (hword : word ≠ []) (hcs : ¬ Occurs word cs) :
    firstMatch? reader cs = none := by
  have hend : ∀ c ∈ ([] : List Char).head?, Foreign word c := fun c hc => absurd hc (by simp)
  have hnil : afterLetters? word [] = none :=
    afterLetters?_append_eq_none (not_occurs_nil hword) hend
  rw [← List.append_nil cs, firstMatch?_append hreader hcs hend]
  exact hreader [] hnil

end search

end Directive

end DesignTokens

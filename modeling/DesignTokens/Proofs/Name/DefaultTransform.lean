import DesignTokens.Proofs.Name.Characters

/-!
# The default transform of names

A character that is no letter and no digit divides a name: the words before it and those after it
are the words of the name.  So the words of a joined path are those of its segments, and a name of small
letters and digits with single hyphens between them has these as its words, which the transform
leaves as they are (`CssName.normalizes_ofText`).

The transform may be done in steps that replace characters one after the other.  Each of them puts
one character that divides a name for others, so that the words stay
(`CssName.ofText_eq_steps`).
-/

namespace DesignTokens

namespace CssName

/-- A word of a name in the default form. -/
def IsPlainWord (word : List Char) : Prop :=
  word ≠ [] ∧ ∀ c ∈ word, isPlain c = true

/-- A name in the default form: words with single hyphens between them, or nothing. -/
def IsPlainName (name : String) : Prop :=
  ∃ parts, (∀ word ∈ parts, IsPlainWord word) ∧ name.toList = ['-'].intercalate parts

variable {separator : Char} {word : List Char}

/-! ## Words -/

/-- The parts of a text are those before and behind each character that names do not have. -/
def IsDivided (parts : List Char → List (List Char)) : Prop :=
  parts [] = [] ∧ ∀ {c}, isNameChar c = false →
    ∀ cs ds, parts (cs ++ c :: ds) = parts cs ++ parts ds

/-- The runs of letters and digits of a text. -/
def nameRuns (cs : List Char) : List (List Char) :=
  (cs.splitOnP (!isNameChar ·)).filter (!·.isEmpty)

lemma isDivided_nameRuns : IsDivided nameRuns := by
  refine ⟨rfl, fun {c} hc cs ds => ?_⟩
  unfold nameRuns
  rw [List.splitOnP_append_cons _ _ (by rw [hc, Bool.not_false]), List.filter_append]

/-- Letters and digits are one run. -/
lemma nameRuns_of_isNameChar (hne : word ≠ []) (h : ∀ c ∈ word, isNameChar c = true) :
    nameRuns word = [word] := by
  unfold nameRuns
  rw [List.splitOnP_eq_singleton fun c hc => by rw [h c hc, Bool.not_true]]
  simp [hne]

lemma ne_nil_of_mem_nameRuns {cs : List Char} (h : word ∈ nameRuns cs) : word ≠ [] := by
  unfold nameRuns at h
  simpa using (List.mem_filter.mp h).2

/-- Text is divided at capital letters on both sides of a character that is no letter. -/
lemma divideCamel_append_cons (h : separator.isAlpha = false) (cs ds : List Char) :
    divideCamel (cs ++ separator :: ds) = divideCamel cs ++ separator :: divideCamel ds := by
  obtain ⟨hupper, hlower⟩ : separator.isUpper = false ∧ separator.isLower = false := by
    unfold Char.isAlpha at h
    simpa using h
  have hfirst : divideCamel (separator :: ds) = separator :: divideCamel ds := by
    cases ds with
    | nil => rfl
    | cons d rest => simp [divideCamel, hlower]
  induction cs using divideCamel.induct with
  | case1 => exact hfirst
  | case2 c => simp [divideCamel, hupper, hfirst]
  | case3 c d rest hcamel ih =>
    rw [List.cons_append, List.cons_append, divideCamel, if_pos hcamel, divideCamel,
      if_pos hcamel, ← List.cons_append, ih]
    rfl
  | case4 c d rest hcamel ih =>
    rw [List.cons_append, List.cons_append, divideCamel, if_neg hcamel, divideCamel,
      if_neg hcamel, ← List.cons_append, ih]
    rfl

/-- Small letters and digits are not divided. -/
lemma divideCamel_of_isPlain (h : ∀ c ∈ word, isPlain c = true) : divideCamel word = word := by
  induction word using divideCamel.induct with
  | case1 => rfl
  | case2 c => rfl
  | case3 c d rest hcamel _ =>
    have hupper := isUpper_of_isPlain (h d (List.mem_cons_of_mem _ List.mem_cons_self))
    rw [hupper, Bool.and_false] at hcamel
    cases hcamel
  | case4 c d rest hcamel ih =>
    rw [divideCamel, if_neg hcamel, ih fun a ha => h a (List.mem_cons_of_mem _ ha)]

/-- The words of a text are those on both sides of a character that is no letter and no digit. -/
lemma isDivided_words : IsDivided words := by
  refine ⟨rfl, fun {c} hc cs ds => ?_⟩
  have halpha : c.isAlpha = false := by
    unfold isNameChar Char.isAlphanum at hc
    exact (Bool.or_eq_false_iff.mp hc).1
  show nameRuns (divideCamel (cs ++ c :: ds)) =
    nameRuns (divideCamel cs) ++ nameRuns (divideCamel ds)
  rw [divideCamel_append_cons halpha, isDivided_nameRuns.2 hc]

/-- The words of joined texts are the words of each of them. -/
theorem words_intercalate (h : isNameChar separator = false) (texts : List (List Char)) :
    words ([separator].intercalate texts) = texts.flatMap words := by
  induction texts with
  | nil => rfl
  | cons first rest ih =>
    rcases List.eq_nil_or_concat rest with rfl | ⟨_, _, hrest⟩
    · rw [List.intercalate_singleton, List.flatMap_singleton]
    · rw [List.intercalate_cons_of_ne_nil (by simp [hrest]), List.append_assoc,
        List.singleton_append, isDivided_words.2 h, ih, List.flatMap_cons]

/-- A word is its only word. -/
lemma words_of_isPlainWord (h : IsPlainWord word) : words word = [word] := by
  show nameRuns (divideCamel word) = [word]
  rw [divideCamel_of_isPlain h.2,
    nameRuns_of_isNameChar h.1 fun c hc => isNameChar_of_isPlain (h.2 c hc)]

/-- In lower case, the words of a text are words of a name. -/
lemma isPlainWord_of_mem_words {cs : List Char} (h : word ∈ words cs) :
    IsPlainWord (word.map Char.toLower) := by
  unfold words at h
  obtain ⟨hpart, hne⟩ := List.mem_filter.mp h
  constructor
  · simpa using hne
  · intro c hc
    obtain ⟨d, hd, rfl⟩ := List.mem_map.mp hc
    exact isPlain_toLower (by simpa using not_of_mem_splitOnP hpart hd)

/-- The words of a text as they stand in its name. -/
def plainWords (cs : List Char) : List (List Char) :=
  (words cs).map (·.map Char.toLower)

lemma isPlainWord_of_mem_plainWords {cs : List Char} (h : word ∈ plainWords cs) :
    IsPlainWord word := by
  obtain ⟨original, horiginal, rfl⟩ := List.mem_map.mp h
  exact isPlainWord_of_mem_words horiginal

lemma plainWords_of_isPlainWord (h : IsPlainWord word) : plainWords word = [word] := by
  unfold plainWords
  rw [words_of_isPlainWord h, List.map_singleton,
    List.map_congr_left fun c hc => toLower_of_isPlain (h.2 c hc), List.map_id']

lemma plainWords_intercalate (h : isNameChar separator = false) (texts : List (List Char)) :
    plainWords ([separator].intercalate texts) = texts.flatMap plainWords := by
  unfold plainWords
  rw [words_intercalate h, List.map_flatMap]

/-! ## Names -/

lemma toList_ofText (name : String) :
    (ofText name).toList = ['-'].intercalate (plainWords name.toList) :=
  String.toList_ofList

/-- The name of any text is in the default form. -/
lemma isPlainName_ofText (name : String) : IsPlainName (ofText name) :=
  ⟨_, fun _ => isPlainWord_of_mem_plainWords, toList_ofText name⟩

/-- The transform leaves a name in the default form as it is. -/
lemma ofText_of_isPlainName {name : String} (h : IsPlainName name) : ofText name = name := by
  obtain ⟨parts, hparts, hname⟩ := h
  apply String.toList_injective
  rw [toList_ofText, hname, plainWords_intercalate (by decide), List.flatMap_def,
    List.map_congr_left fun part hpart => plainWords_of_isPlainWord (hparts part hpart),
    ← List.flatMap_def, List.flatMap_singleton']

/-- The name of texts joined with characters that are no letters and no digits. -/
lemma toList_ofText_intercalate {joined : String} {segments : List String}
    (h : isNameChar separator = false)
    (hjoined : joined.toList = [separator].intercalate (segments.map String.toList)) :
    (ofText joined).toList = ['-'].intercalate (segments.flatMap (plainWords ·.toList)) := by
  rw [toList_ofText, hjoined, plainWords_intercalate h, List.flatMap_map]

/-- The names of the segments that have one, with hyphens between them. -/
lemma toList_intercalate_ofText (segments : List String) :
    ("-".intercalate ((segments.map ofText).filter (· ≠ ""))).toList =
      ['-'].intercalate (segments.flatMap (plainWords ·.toList)) := by
  have hsome : (fun name : String => decide (name ≠ "")) = fun name => !name.toList.isEmpty := by
    funext name
    rw [Bool.eq_iff_iff]
    simp
  have hwords : String.toList ∘ ofText =
      fun segment => ['-'].intercalate (plainWords segment.toList) := funext toList_ofText
  have hmap : ((segments.map ofText).filter (· ≠ "")).map String.toList =
      ((segments.map (plainWords ·.toList)).map ['-'].intercalate).filter (!·.isEmpty) := by
    rw [hsome, ← Function.comp_def (!·.isEmpty) String.toList, ← List.filter_map, List.map_map,
      hwords, List.map_map]
    rfl
  rw [String.toList_intercalate, hmap, List.flatMap_def, intercalate_flatten]
  · rfl
  · intro texts htexts text htext
    obtain ⟨segment, _, rfl⟩ := List.mem_map.mp htexts
    exact (isPlainWord_of_mem_plainWords htext).1

/-- The default transform brings every text into the default form, and leaves what has it as it is.
The name of joined segments is what the names of the single ones are joined to, without those that
have none, and it is the same whether the segments are joined by slashes or by hyphens. -/
theorem normalizes_ofText (name : String) (segments : List String) :
    IsPlainName (ofText name) ∧ ofText (ofText name) = ofText name ∧
      ofText ("/".intercalate segments) =
        "-".intercalate ((segments.map ofText).filter (· ≠ "")) ∧
      ofText ("/".intercalate segments) = ofText ("-".intercalate segments) := by
  refine ⟨isPlainName_ofText name, ofText_of_isPlainName (isPlainName_ofText name),
    String.toList_injective ?_, String.toList_injective ?_⟩
  · rw [toList_intercalate_ofText]
    exact toList_ofText_intercalate (by decide) String.toList_intercalate
  · rw [toList_ofText_intercalate (by decide) String.toList_intercalate,
      toList_ofText_intercalate (by decide) String.toList_intercalate]

/-! ## The transform in steps -/

/-- A text with single hyphens for its runs of characters of a class, from inside or outside of such
a run. -/
def hyphenRuns (p : Char → Bool) : Bool → List Char → List Char
  | _, [] => []
  | inside, c :: rest =>
    if p c then
      if inside then hyphenRuns p true rest else '-' :: hyphenRuns p true rest
    else c :: hyphenRuns p false rest

/-- A text with hyphens for its characters of a class. -/
def hyphenEach (p : Char → Bool) (cs : List Char) : List Char :=
  cs.map fun c => if p c then '-' else c

/-- A text without hyphens at its end. -/
def trimHyphens (cs : List Char) : List Char :=
  (cs.reverse.dropWhile (· == '-')).reverse

/-- The default transform in steps: slashes, runs of white space, places between a small letter and
a capital one, and all characters that names do not have become hyphens, then runs of hyphens become
single ones, and those at both ends are taken away. -/
def steps (cs : List Char) : List Char :=
  let divided := divideCamel (hyphenRuns Text.isSpace false (hyphenEach (· == '/') cs))
  let valid := hyphenEach (fun c => !isNameChar c && c != '-') divided
  let single := hyphenRuns (· == '-') false valid
  (trimHyphens (single.dropWhile (· == '-'))).map Char.toLower

section steps

variable {parts : List Char → List (List Char)} {p : Char → Bool}

/-- A character that names do not have is as good as any other such character. -/
lemma parts_hyphenEach (hparts : IsDivided parts) (hp : ∀ c, p c = true → isNameChar c = false)
    (before cs : List Char) : parts (before ++ hyphenEach p cs) = parts (before ++ cs) := by
  induction cs generalizing before with
  | nil => rfl
  | cons c rest ih =>
    unfold hyphenEach at ih ⊢
    rw [List.map_cons]
    split_ifs with hc
    · rw [hparts.2 (by decide), hparts.2 (hp c hc)]
      exact congrArg _ (ih [])
    · rw [List.append_cons, ih, List.append_assoc, List.singleton_append]

/-- Runs of characters that names do not have are as good as single ones. -/
lemma parts_hyphenRuns (hparts : IsDivided parts) (hp : ∀ c, p c = true → isNameChar c = false)
    (cs : List Char) : parts (hyphenRuns p true cs) = parts cs ∧
      ∀ before, parts (before ++ hyphenRuns p false cs) = parts (before ++ cs) := by
  induction cs with
  | nil => exact ⟨rfl, fun _ => rfl⟩
  | cons c rest ih =>
    obtain ⟨hinside, houtside⟩ := ih
    unfold hyphenRuns
    by_cases hc : p c = true
    · have hskipped : parts (c :: rest) = parts rest := by
        have hdivided := hparts.2 (hp c hc) [] rest
        rwa [hparts.1, List.nil_append, List.nil_append] at hdivided
      refine ⟨?_, fun before => ?_⟩
      · rw [if_pos hc, if_pos rfl, hinside, hskipped]
      · rw [if_pos hc, if_neg Bool.false_ne_true, hparts.2 (by decide), hparts.2 (hp c hc), hinside]
    · refine ⟨?_, fun before => ?_⟩
      · rw [if_neg hc]
        exact houtside [c]
      · rw [if_neg hc, List.append_cons, houtside, List.append_assoc, List.singleton_append]

end steps

section hyphens

variable {cs ds : List Char}

/-- Outside of a run, a run of hyphens at the start is left out. -/
lemma dropWhile_hyphenRuns (inside : Bool) (cs : List Char) :
    (hyphenRuns (· == '-') inside cs).dropWhile (· == '-') = hyphenRuns (· == '-') true cs := by
  induction cs generalizing inside with
  | nil => rfl
  | cons c rest ih =>
    unfold hyphenRuns
    by_cases hc : (c == '-') = true
    · rw [if_pos hc, if_pos hc, if_pos rfl]
      cases inside with
      | true => exact ih true
      | false => exact ih true
    · rw [if_neg hc, if_neg hc]
      exact List.dropWhile_cons_of_neg hc

/-- A text without hyphens stays in front. -/
lemma hyphenRuns_append {inside : Bool} (hcs : ∀ c ∈ cs, c ≠ '-') (hne : cs ≠ []) :
    hyphenRuns (· == '-') inside (cs ++ ds) = cs ++ hyphenRuns (· == '-') false ds := by
  induction cs generalizing inside with
  | nil => exact absurd rfl hne
  | cons c rest ih =>
    have hc : ¬ (c == '-') = true := fun heq => hcs c List.mem_cons_self (beq_iff_eq.mp heq)
    rw [List.cons_append, hyphenRuns, if_neg hc, List.cons_append]
    rcases eq_or_ne rest [] with rfl | hrest
    · rfl
    · rw [ih (fun d hd => hcs d (List.mem_cons_of_mem _ hd)) hrest]

/-- A text that does not end in a hyphen stays when hyphens are taken from the end. -/
lemma trimHyphens_eq_self (hcs : ∀ c ∈ cs, c ≠ '-') : trimHyphens cs = cs := by
  have hnone : ∀ c ∈ ([] : List Char), (c == '-') = true :=
    fun c hc => absurd hc List.not_mem_nil
  have hlast : cs.reverse.dropWhile (· == '-') = cs.reverse := by
    refine dropWhile_run hnone fun c hc => beq_eq_false_iff_ne.mpr (hcs c ?_)
    exact List.mem_reverse.mp (List.mem_of_mem_head? hc)
  unfold trimHyphens
  rw [hlast, List.reverse_reverse]

/-- A hyphen stays exactly if something else follows. -/
lemma trimHyphens_append_cons (hcs : ∀ c ∈ cs, c ≠ '-') (ds : List Char) :
    trimHyphens (cs ++ '-' :: ds) =
      if trimHyphens ds = [] then cs else cs ++ '-' :: trimHyphens ds := by
  have hstays := trimHyphens_eq_self hcs
  unfold trimHyphens at hstays ⊢
  rw [List.reverse_append, List.reverse_cons, List.append_assoc, List.singleton_append,
    List.dropWhile_append]
  simp only [List.isEmpty_iff, List.reverse_eq_nil_iff]
  split_ifs with hnone
  · rw [List.dropWhile_cons_of_pos (by decide), hstays]
  · simp

/-- Runs of letters and digits with hyphens between them are joined with single ones. -/
lemma trimHyphens_intercalate {pieces : List (List Char)}
    (h : ∀ piece ∈ pieces, ∀ c ∈ piece, isNameChar c = true) :
    trimHyphens (hyphenRuns (· == '-') true (['-'].intercalate pieces)) =
      ['-'].intercalate (nameRuns (['-'].intercalate pieces)) := by
  induction pieces with
  | nil => rfl
  | cons piece rest ih =>
    have hpiece : ∀ c ∈ piece, isNameChar c = true := h piece List.mem_cons_self
    have hplain : ∀ c ∈ piece, c ≠ '-' := by
      rintro c hc rfl
      exact absurd (hpiece _ hc) (by decide)
    have ih := ih fun other hother => h other (List.mem_cons_of_mem _ hother)
    rcases eq_or_ne rest [] with rfl | hrest
    · rw [List.intercalate_singleton]
      rcases eq_or_ne piece [] with rfl | hne
      · rfl
      · have hstays : hyphenRuns (· == '-') true piece = piece := by
          have happended := @hyphenRuns_append piece [] true hplain hne
          rwa [hyphenRuns, List.append_nil] at happended
        rw [hstays, nameRuns_of_isNameChar hne hpiece, List.intercalate_singleton,
          trimHyphens_eq_self hplain]
    · rw [List.intercalate_cons_of_ne_nil hrest, List.append_assoc, List.singleton_append]
      generalize ['-'].intercalate rest = later at ih ⊢
      rw [isDivided_nameRuns.2 (by decide)]
      rcases eq_or_ne piece [] with rfl | hne
      · exact ih
      · have hruns : hyphenRuns (· == '-') true (piece ++ '-' :: later) =
            piece ++ '-' :: hyphenRuns (· == '-') true later := hyphenRuns_append hplain hne
        rw [hruns, trimHyphens_append_cons hplain, ih, nameRuns_of_isNameChar hne hpiece,
          List.singleton_append]
        simp only [intercalate_eq_nil_iff fun _ => ne_nil_of_mem_nameRuns]
        split_ifs with hnone
        · rw [hnone, List.intercalate_singleton]
        · rw [List.intercalate_cons_of_ne_nil hnone, List.append_assoc, List.singleton_append]

/-- With hyphens only between letters and digits, a text is its runs of these, joined with single
hyphens, when the other hyphens are taken away. -/
lemma trimHyphens_hyphenRuns (hcs : ∀ c ∈ cs, isNameChar c = true ∨ c = '-') :
    trimHyphens (hyphenRuns (· == '-') true cs) = ['-'].intercalate (nameRuns cs) := by
  have hjoined : ['-'].intercalate (cs.splitOn '-') = cs := List.intercalate_splitOn '-'
  rw [← hjoined]
  refine trimHyphens_intercalate fun piece hpiece c hc => ?_
  have hmem : c ∈ cs := hjoined ▸ mem_intercalate hpiece hc
  exact (hcs c hmem).resolve_right fun heq => by simpa [heq] using not_of_mem_splitOnP hpiece hc

end hyphens

/-- The default transform is these steps. -/
theorem ofText_eq_steps (name : String) : ofText name = String.ofList (steps name.toList) := by
  have hslash : ∀ c, (c == '/') = true → isNameChar c = false := by
    intro c hc
    rw [beq_iff_eq.mp hc]
    decide
  have hspace : ∀ c, Text.isSpace c = true → isNameChar c = false := by
    intro c hc
    rw [← Bool.not_eq_true]
    intro hname
    rw [isSpace_of_isNameChar hname] at hc
    cases hc
  have hother : ∀ c, (!isNameChar c && c != '-') = true → isNameChar c = false := by
    intro c hc
    simpa using (Bool.and_eq_true_iff.mp hc).1
  unfold steps
  extract_lets divided valid single
  -- the words of the text are the runs of letters and digits after the steps up to hyphens
  have hdivided : nameRuns divided = words name.toList := by
    show words (hyphenRuns Text.isSpace false (hyphenEach (· == '/') name.toList)) = _
    exact ((parts_hyphenRuns isDivided_words hspace _).2 []).trans
      (parts_hyphenEach isDivided_words hslash [] _)
  have hvalid : nameRuns valid = words name.toList :=
    (parts_hyphenEach isDivided_nameRuns hother [] divided).trans hdivided
  have hchars : ∀ c ∈ valid, isNameChar c = true ∨ c = '-' := by
    intro c hc
    obtain ⟨d, _, rfl⟩ := List.mem_map.mp hc
    split_ifs with hd
    · exact Or.inr rfl
    · simpa [or_iff_not_imp_left] using hd
  apply String.toList_injective
  rw [toList_ofText, String.toList_ofList, dropWhile_hyphenRuns, trimHyphens_hyphenRuns hchars,
    hvalid, map_intercalate]
  rfl

end CssName

end DesignTokens

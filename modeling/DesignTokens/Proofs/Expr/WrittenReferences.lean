import DesignTokens.Resolve.Passthrough
import Mathlib.Data.List.Infix
import Mathlib.Data.List.TakeWhile

/-!
# References in calculations that are written out

When a calculation is written out, references to custom properties take the place of quoted paths,
and the text around them stays as it is.  Reading the references of the result finds those that have
been put in and those of the text itself, if no reference of the text is left open where another one
is put in (`mem_pieces_chars_iff`).
-/

namespace DesignTokens

/-! ## Reading references to custom properties -/

namespace Reference

/-- What a reference to a custom property begins with. -/
def opening : List Char := "var(--".toList

/-- An opening, with its first character apart. -/
lemma opening_eq : opening = 'v' :: "ar(--".toList :=
  rfl

/-- A name goes up to the first parenthesis that closes it. -/
lemma takeWhile_closing {raw : List Char} (h : ')' ∉ raw) (rest : List Char) :
    (raw ++ ')' :: rest).takeWhile (· != ')') = raw := by
  have hall : ∀ c ∈ raw, (c != ')') = true :=
    fun c hc => bne_iff_ne.mpr (ne_of_mem_of_not_mem hc h)
  rw [List.takeWhile_append_of_pos hall]
  simp

/-- A reference to a custom property is read where a name that is not empty stands between an opening
and the first parenthesis that closes it. -/
lemma property?_eq_some_iff {cs : List Char} {r : Reference} :
    property? cs = some r ↔ ∃ raw rest, r = property raw ∧ cs = opening ++ (raw ++ ')' :: rest) ∧
      raw ≠ [] ∧ ')' ∉ raw := by
  unfold property?
  constructor
  · intro h
    split at h
    · cases h
    · rename_i rest hrest
      have hcs := List.isPrefixOf?_eq_some_iff_append_eq.mp hrest
      dsimp only at h
      split_ifs at h with hnone
      cases h
      obtain ⟨hne, hlength⟩ := not_or.mp hnone
      by_cases hclosing : ')' ∈ rest
      · obtain ⟨raw, later, rfl, hraw⟩ := List.eq_append_cons_of_mem hclosing
        rw [takeWhile_closing hraw] at hne ⊢
        exact ⟨raw, later, rfl, hcs.symm, fun heq => hne (heq ▸ rfl), hraw⟩
      · have hall : rest.takeWhile (· != ')') = rest := List.takeWhile_eq_self_iff.mpr
          fun c hc => bne_iff_ne.mpr (ne_of_mem_of_not_mem hc hclosing)
        exact absurd (congrArg List.length hall.symm) hlength
  · rintro ⟨raw, rest, rfl, rfl, hne, hclosing⟩
    have hrest : "var(--".toList.isPrefixOf? (opening ++ (raw ++ ')' :: rest)) =
        some (raw ++ ')' :: rest) :=
      List.isPrefixOf?_eq_some_iff_append_eq.mpr rfl
    rw [hrest]
    dsimp only
    rw [takeWhile_closing hclosing, if_neg]
    simp [hne]

/-- No reference is read where no opening stands. -/
lemma property?_eq_none {cs : List Char} (h : ∀ rest, cs ≠ opening ++ rest) :
    property? cs = none := by
  cases hread : property? cs with
  | none => rfl
  | some r =>
    obtain ⟨_, _, _, hcs, _⟩ := property?_eq_some_iff.mp hread
    exact absurd hcs (h _)

end Reference

/-- Where nothing is read, a character stands for itself. -/
lemma pieces_cons_of_none {reader : List Char → Option Reference} {c : Char} {rest : List Char}
    (h : reader (c :: rest) = none) : pieces reader (c :: rest) = .plain c :: pieces reader rest := by
  rw [pieces, h]

/-- Nothing is read in a text without the first character of an opening. -/
lemma pieces_append_of_not_mem {word : List Char} (h : 'v' ∉ word) (rest : List Char) :
    pieces Reference.property? (word ++ rest) =
      word.map .plain ++ pieces Reference.property? rest := by
  induction word with
  | nil => rfl
  | cons c word ih =>
    obtain ⟨hc, hword⟩ := not_or.mp (mt List.mem_cons.mpr h)
    have hnone : Reference.property? (c :: (word ++ rest)) = none :=
      Reference.property?_eq_none fun _ hcs => hc (List.cons.inj hcs).1.symm
    rw [List.cons_append, pieces_cons_of_none hnone, ih hword, List.map_cons, List.cons_append]

/-- Where a reference is read, it is one piece, and the text behind it makes up the others. -/
lemma pieces_append_of_read {reader : List Char → Option Reference} {r : Reference}
    {rest : List Char} (h : reader (r.chars ++ rest) = some r) :
    pieces reader (r.chars ++ rest) = .reference r :: pieces reader rest := by
  obtain ⟨c, cs, hchars⟩ : ∃ c cs, r.chars = c :: cs := by
    cases r with
    | path raw => exact ⟨_, _, rfl⟩
    | property raw => exact ⟨_, _, rfl⟩
  rw [hchars, List.cons_append] at h ⊢
  rw [pieces, h]
  dsimp only
  rw [hchars, List.length_cons, Nat.add_sub_cancel, List.drop_left]

/-- Where a reference to a custom property stands, it is read. -/
lemma pieces_property {raw rest : List Char} (hne : raw ≠ []) (hclosing : ')' ∉ raw) :
    pieces Reference.property? (Reference.opening ++ (raw ++ ')' :: rest)) =
      .reference (.property raw) :: pieces Reference.property? rest := by
  have hread : Reference.property? (Reference.opening ++ (raw ++ ')' :: rest)) =
      some (.property raw) :=
    Reference.property?_eq_some_iff.mpr ⟨raw, rest, rfl, rfl, hne, hclosing⟩
  have hchars : Reference.opening ++ (raw ++ ')' :: rest) =
      (Reference.property raw).chars ++ rest := by
    show _ = Reference.opening ++ raw ++ [')'] ++ rest
    simp only [List.append_assoc, List.cons_append, List.nil_append]
  rw [hchars] at hread ⊢
  exact pieces_append_of_read hread

/-! ## Parts of written calculations -/

/-- A part of a calculation that is written out: a character of its text, or a reference to a custom
property that has taken the place of a quoted path. -/
inductive WrittenPart where
  | char (c : Char)
  | property (name : String)

namespace WrittenPart

/-- A part as it is written, with a given text for each reference that has been put in. -/
def charsWith (shown : String → List Char) : WrittenPart → List Char
  | char c => [c]
  | property name => shown name

/-- A part as it is written. -/
def chars : WrittenPart → List Char :=
  charsWith fun name => (CssName.reference name).toList

/-- A part of the text itself, with a blank for each reference that has been put in. -/
def ownChars : WrittenPart → List Char :=
  charsWith fun _ => [' ']

/-- No reference of the text itself is left open where a reference is put in, or at the end. -/
def Closes (parts : List WrittenPart) : Prop :=
  ∀ before inside after, parts = before ++ (Reference.opening ++ inside).map char ++ after →
    (after = [] ∨ ∃ name rest, after = property name :: rest) → ')' ∈ inside

/-- What a reference that is put in begins with does not go on with an opening. -/
def StartsAnew (shown : String → List Char) : Prop :=
  ∀ name, ∃ c rest, shown name = c :: rest ∧ c ∉ "ar(--".toList

/-- Where nothing is put in, every opening has to be closed later on. -/
lemma closes_map_char {cs : List Char}
    (h : ∀ rest ∈ cs.tails, Reference.opening <+: rest → ')' ∈ rest) : Closes (cs.map char) := by
  intro before inside after hparts hafter
  have hnil : after = [] := by
    refine hafter.resolve_right ?_
    rintro ⟨name, rest, rfl⟩
    have hmem : property name ∈ cs.map char := by
      rw [hparts]
      exact List.mem_append_right _ List.mem_cons_self
    obtain ⟨_, _, heq⟩ := List.mem_map.mp hmem
    cases heq
  rw [hnil, List.append_nil] at hparts
  obtain ⟨first, rest, rfl, _, hrest⟩ := List.map_eq_append_iff.mp hparts
  have hinjective : Function.Injective char := fun _ _ heq => WrittenPart.char.inj heq
  have hsame : rest = Reference.opening ++ inside := hinjective.list_map hrest
  have hclosed := h rest ((List.mem_tails _ _).mpr (List.suffix_append first rest)) (by simp [hsame])
  rw [hsame] at hclosed
  exact (List.mem_append.mp hclosed).resolve_left (by decide)

/-- What comes later leaves no reference open, if the whole leaves none open. -/
lemma Closes.of_append {before parts : List WrittenPart} (h : Closes (before ++ parts)) :
    Closes parts := by
  rintro first inside after rfl hafter
  refine h (before ++ first) inside after ?_ hafter
  simp

/-- A reference as it is put in. -/
lemma toList_reference (name : String) :
    (CssName.reference name).toList = Reference.opening ++ (name.toList ++ [')']) := by
  change ("var(--" ++ name ++ ")").toList = _
  rw [String.toList_append, String.toList_append, List.append_assoc]
  rfl

/-- References that are put in begin with an opening of their own. -/
lemma startsAnew_reference : StartsAnew fun name => (CssName.reference name).toList :=
  fun name => ⟨'v', _, toList_reference name, by decide⟩

/-- Blanks are no part of an opening. -/
lemma startsAnew_blank : StartsAnew fun _ => [' '] :=
  fun _ => ⟨' ', [], rfl, by decide⟩

/-- Parts begin with a run of characters up to the next reference that is put in. -/
lemma exists_run (parts : List WrittenPart) :
    ∃ (inside : List Char) (after : List WrittenPart), parts = inside.map char ++ after ∧
      (after = [] ∨ ∃ name rest, after = property name :: rest) := by
  induction parts with
  | nil => exact ⟨[], [], rfl, Or.inl rfl⟩
  | cons part parts ih =>
    cases part with
    | char c =>
      obtain ⟨inside, after, rfl, hafter⟩ := ih
      exact ⟨c :: inside, after, rfl, hafter⟩
    | property name => exact ⟨[], _, rfl, Or.inr ⟨name, parts, rfl⟩⟩

variable {shown : String → List Char} {parts : List WrittenPart} {tail : List Char}

/-- Characters of the text are written as they are. -/
lemma flatMap_map_char (cs : List Char) (later : List WrittenPart) :
    (cs.map char ++ later).flatMap (charsWith shown) = cs ++ later.flatMap (charsWith shown) := by
  rw [List.flatMap_append, List.flatMap_map]
  congr 1
  exact List.flatMap_singleton' cs

/-- Characters alone are written as they are. -/
lemma flatMap_chars_map_char (cs : List Char) : (cs.map char).flatMap chars = cs := by
  rw [List.flatMap_map]
  exact List.flatMap_singleton' cs

/-- The later characters of an opening in what is written are characters of the text itself. -/
lemma exists_of_flatMap_eq (hshown : StartsAnew shown) (htail : tail = [] ∨ tail = [')'])
    {word rest : List Char} (hword : ∀ c ∈ word, c ∈ "ar(--".toList)
    (h : parts.flatMap (charsWith shown) ++ tail = word ++ rest) :
    ∃ later, parts = word.map char ++ later ∧ later.flatMap (charsWith shown) ++ tail = rest := by
  induction word generalizing parts with
  | nil => exact ⟨parts, rfl, h⟩
  | cons a word ih =>
    have ha : a ∈ "ar(--".toList := hword a List.mem_cons_self
    cases parts with
    | nil =>
      rcases htail with rfl | rfl
      · exact absurd h.symm (List.cons_ne_nil _ _)
      · obtain ⟨rfl, _⟩ := List.cons.inj h
        exact absurd ha (by decide)
    | cons part parts =>
      rw [List.flatMap_cons, List.append_assoc] at h
      cases part with
      | char c =>
        have hcons : c :: (parts.flatMap (charsWith shown) ++ tail) = a :: (word ++ rest) := h
        obtain ⟨rfl, hrest⟩ := List.cons.inj hcons
        obtain ⟨later, rfl, hlater⟩ :=
          ih (fun c hc => hword c (List.mem_cons_of_mem _ hc)) hrest
        exact ⟨later, rfl, hlater⟩
      | property name =>
        obtain ⟨c, more, hname, hc⟩ := hshown name
        have hfirst : charsWith shown (property name) = c :: more := hname
        rw [hfirst] at h
        obtain ⟨rfl, _⟩ := List.cons.inj h
        exact absurd ha hc

/-- Where a character comes first, either a reference of the text itself stands there, or the
character stands for itself, whatever is put in later on. -/
lemma Closes.cases_char {c : Char} (h : Closes (char c :: parts)) :
    (∃ raw later, char c :: parts = (Reference.opening ++ (raw ++ [')'])).map char ++ later ∧
      raw ≠ [] ∧ ')' ∉ raw) ∨
    ∀ shown tail, StartsAnew shown → (tail = [] ∨ tail = [')']) →
      pieces Reference.property? ((char c :: parts).flatMap (charsWith shown) ++ tail) =
        .plain c :: pieces Reference.property? (parts.flatMap (charsWith shown) ++ tail) := by
  by_cases hread : ∃ raw later,
      char c :: parts = (Reference.opening ++ (raw ++ [')'])).map char ++ later ∧
        raw ≠ [] ∧ ')' ∉ raw
  · exact Or.inl hread
  · refine Or.inr fun shown tail hshown htail => pieces_cons_of_none ?_
    by_contra hsome
    obtain ⟨r, hr⟩ := Option.ne_none_iff_exists'.mp hsome
    obtain ⟨raw, rest, _, hwritten, hne, hclosing⟩ := Reference.property?_eq_some_iff.mp hr
    have hcons : c :: (parts.flatMap (charsWith shown) ++ tail) =
        'v' :: ("ar(--".toList ++ (raw ++ ')' :: rest)) := hwritten
    obtain ⟨rfl, hrest⟩ := List.cons.inj hcons
    obtain ⟨later, hlaterParts, hlater⟩ := exists_of_flatMap_eq hshown htail (fun _ ha => ha) hrest
    obtain ⟨inside, after, rfl, hafter⟩ := exists_run later
    have hparts : char 'v' :: parts = (Reference.opening ++ inside).map char ++ after := by
      rw [hlaterParts, Reference.opening_eq]
      simp
    obtain ⟨own, more, rfl, hown⟩ :=
      List.eq_append_cons_of_mem (h [] inside after hparts hafter)
    -- What the text itself closes first is the name that is read.
    obtain rfl : own = raw := by
      rw [flatMap_map_char, List.append_assoc, List.append_assoc, List.cons_append] at hlater
      rw [← Reference.takeWhile_closing hown, hlater, Reference.takeWhile_closing hclosing]
    refine hread ⟨own, more.map char ++ after, hparts.trans ?_, hne, hclosing⟩
    simp

/-- No reference has an empty name. -/
lemma pieces_empty (rest : List Char) (ref : Reference) :
    .reference ref ∈ pieces Reference.property? (Reference.opening ++ ')' :: rest) ↔
      .reference ref ∈ pieces Reference.property? rest := by
  have hnone : Reference.property? (Reference.opening ++ ')' :: rest) = none := by
    by_contra hsome
    obtain ⟨_, hread⟩ := Option.ne_none_iff_exists'.mp hsome
    obtain ⟨raw, later, _, hcs, hne, hclosing⟩ := Reference.property?_eq_some_iff.mp hread
    have hrest : ')' :: rest = raw ++ ')' :: later := List.append_cancel_left hcs
    cases raw with
    | nil => exact hne rfl
    | cons c raw => exact hclosing ((List.cons.inj hrest).1 ▸ List.mem_cons_self)
  have hwritten : Reference.opening ++ ')' :: rest = 'v' :: ("ar(--)".toList ++ rest) := by
    simp [Reference.opening_eq]
  rw [hwritten] at hnone ⊢
  rw [pieces_cons_of_none hnone, pieces_append_of_not_mem (by decide)]
  simp

/-- A reference that is put in is read, unless its name is empty. -/
lemma mem_pieces_reference {name : String} (hclosing : ')' ∉ name.toList) (rest : List Char)
    (ref : Reference) :
    .reference ref ∈ pieces Reference.property? ((CssName.reference name).toList ++ rest) ↔
      (name ≠ "" ∧ ref = .property name.toList) ∨
        .reference ref ∈ pieces Reference.property? rest := by
  rw [toList_reference, List.append_assoc, List.append_assoc, List.singleton_append]
  by_cases hname : name = ""
  · subst hname
    simp [pieces_empty]
  · rw [pieces_property (by simpa using hname) hclosing]
    simp [hname]

/-- The references that are read in what is written are those of the text itself and those that have
been put in. -/
theorem mem_pieces_chars_iff (hcloses : Closes parts)
    (hnames : ∀ name, property name ∈ parts → ')' ∉ name.toList)
    (htail : tail = [] ∨ tail = [')']) (ref : Reference) :
    .reference ref ∈ pieces Reference.property? (parts.flatMap chars ++ tail) ↔
      .reference ref ∈ pieces Reference.property? (parts.flatMap ownChars) ∨
        ∃ name, property name ∈ parts ∧ name ≠ "" ∧ ref = .property name.toList := by
  -- A reference of the text itself is read as a whole, so that the rest is shorter by several parts.
  induction hlength : parts.length using Nat.strong_induction_on generalizing parts with
  | _ n ih =>
    cases parts with
    | nil =>
      have hplain : 'v' ∉ tail := by rcases htail with rfl | rfl <;> simp
      have hpieces := pieces_append_of_not_mem hplain []
      rw [List.append_nil] at hpieces
      simp [hpieces, pieces]
    | cons part rest =>
      have hrest : Closes rest := @Closes.of_append [part] rest hcloses
      have hnamesRest : ∀ name, property name ∈ rest → ')' ∉ name.toList :=
        fun name hname => hnames name (List.mem_cons_of_mem _ hname)
      have ihRest := ih rest.length (by simp [← hlength]) hrest hnamesRest rfl
      cases part with
      | char c =>
        rcases hcloses.cases_char with ⟨raw, later, hparts, hne, hclosing⟩ | hplain
        · rw [hparts] at hcloses hnames hlength ⊢
          have ihLater := ih later.length (by simp [← hlength]; omega) hcloses.of_append
            (fun name hname => hnames name (List.mem_append_right _ hname)) rfl
          rw [chars, ownChars] at ihLater ⊢
          rw [flatMap_map_char, flatMap_map_char]
          simp only [List.append_assoc, List.cons_append, List.nil_append]
          rw [pieces_property hne hclosing, pieces_property hne hclosing]
          simp only [List.mem_cons, ihLater]
          simp [or_assoc]
        · have hown := hplain _ [] startsAnew_blank (Or.inl rfl)
          rw [List.append_nil, List.append_nil] at hown
          rw [chars, ownChars] at ihRest ⊢
          rw [hplain _ tail startsAnew_reference htail, hown]
          simpa using ihRest
      | property name =>
        have hblank : 'v' ∉ [' '] := by decide
        rw [List.flatMap_cons, List.append_assoc, List.flatMap_cons]
        rw [show chars (property name) = (CssName.reference name).toList from rfl,
          show ownChars (property name) = [' '] from rfl,
          mem_pieces_reference (hnames name List.mem_cons_self), ihRest,
          pieces_append_of_not_mem hblank]
        simp [or_and_right, exists_or, or_left_comm]

end WrittenPart

/-! ## References of texts -/

/-- A text refers to a custom property. -/
def RefersTo (text name : String) : Prop :=
  .property name.toList ∈ referencesOf Reference.property? text

/-- A text refers to a custom property where a reference to it is read. -/
lemma refersTo_iff {text name : String} : RefersTo text name ↔
    .reference (.property name.toList) ∈ pieces Reference.property? text.toList := by
  unfold RefersTo referencesOf
  rw [List.mem_filterMap]
  constructor
  · rintro ⟨piece, hpiece, heq⟩
    cases piece with
    | plain c => cases heq
    | reference ref =>
      cases heq
      exact hpiece
  · exact fun hmem => ⟨_, hmem, rfl⟩

/-- A reference refers to its name, unless the name is empty. -/
lemma refersTo_reference {name other : String} (hclosing : ')' ∉ name.toList) :
    RefersTo (CssName.reference name) other ↔ name ≠ "" ∧ other = name := by
  have hread := WrittenPart.mem_pieces_reference hclosing [] (.property other.toList)
  rw [List.append_nil] at hread
  rw [refersTo_iff, hread]
  simp [pieces, String.toList_inj]

namespace WrittenPart

variable {parts : List WrittenPart}

/-- The text of a calculation itself, with blanks for the references that have been put in. -/
def ownText (parts : List WrittenPart) : String :=
  String.ofList (parts.flatMap ownChars)

/-- A calculation that is written out refers to what its own text refers to, and to what has been put
in. -/
lemma refersTo_finish (hcloses : Closes parts)
    (hnames : ∀ name, property name ∈ parts → ')' ∉ name.toList) {name : String} :
    RefersTo (CalcSyntax.css.finish (String.ofList (parts.flatMap chars))) name ↔
      RefersTo (ownText parts) name ∨ (property name ∈ parts ∧ name ≠ "") := by
  have hput : (∃ other, property other ∈ parts ∧ other ≠ "" ∧
      Reference.property name.toList = .property other.toList) ↔
        (property name ∈ parts ∧ name ≠ "") := by
    simp [String.toList_inj]
  have hread : ∀ tail, (tail = [] ∨ tail = [')']) →
      (.reference (.property name.toList) ∈
          pieces Reference.property? (parts.flatMap chars ++ tail) ↔
        RefersTo (ownText parts) name ∨ (property name ∈ parts ∧ name ≠ "")) := by
    intro tail htail
    rw [mem_pieces_chars_iff hcloses hnames htail, hput, refersTo_iff, ownText,
      String.toList_ofList]
  show RefersTo (wrapCalc _) name ↔ _
  rw [refersTo_iff]
  unfold wrapCalc
  split_ifs with hcalculation
  · have hwrapped : ("calc(" ++ String.ofList (parts.flatMap chars) ++ ")").toList =
        "calc(".toList ++ (parts.flatMap chars ++ [')']) := by
      rw [String.toList_append, String.toList_append, List.append_assoc,
        @String.toList_ofList (parts.flatMap chars)]
      rfl
    change .reference (.property name.toList) ∈ pieces Reference.property?
      ("calc(" ++ String.ofList (parts.flatMap chars) ++ ")").toList ↔ _
    rw [hwrapped, pieces_append_of_not_mem (by decide), List.mem_append, hread _ (Or.inr rfl)]
    simp
  · have hplain := hread [] (Or.inl rfl)
    rw [List.append_nil] at hplain
    rw [String.toList_ofList]
    exact hplain

end WrittenPart

end DesignTokens

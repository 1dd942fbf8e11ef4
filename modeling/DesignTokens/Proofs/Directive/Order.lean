import DesignTokens.Proofs.Decimal.Positive
import DesignTokens.Proofs.Directive.Written
import Mathlib.Data.List.Perm.Basic

/-!
# The order of directives

A description may hold one directive of each kind (`Choice`).  The directives are read in the same
way in every order, with semicolons or line breaks between them: the search for a kind of directive
finds the first one of the kind (`firstMatch?_joins`), because each directive is read as it is
written and because the keyword of a kind stands in no other directive.
-/

namespace DesignTokens

open Text (afterLetters? firstMatch?)

namespace Directive

/-- Semicolons, each with a blank behind it, and line breaks. -/
inductive IsSeparator : List Char → Prop
  | semicolon : IsSeparator [';', ' ']
  | lineBreak : IsSeparator ['\n']
  | append {s t : List Char} : IsSeparator s → IsSeparator t → IsSeparator (s ++ t)

/-- A text is that of directives with separators between them, and perhaps one at the end. -/
inductive Joins : List Written → List Char → Prop
  | nil : Joins [] []
  | single (w : Written) : Joins [w] w.chars
  | cons (w : Written) {s text : List Char} {ds : List Written} : IsSeparator s → Joins ds text →
      Joins (w :: ds) (w.chars ++ (s ++ text))

/-- A choice of at most one directive of each kind. -/
structure Choice where
  unit : Option (CssUnit × Option UnitArgument) := none
  format : Option ColorFormat := none
  calculation : Option (List Char) := none
  precision : Option (List Char) := none

/-- The base that an argument gives. -/
def UnitArgument.base? : UnitArgument → Option ℕ
  | .number digits => some (Decimal.natOfDigits digits)
  | .path _ => none

/-- The path of the variable that an argument names. -/
def UnitArgument.path? : UnitArgument → Option String
  | .number _ => none
  | .path raw => some (String.ofList raw)

namespace Choice

/-- The chosen directives. -/
def directives (choice : Choice) : List Written :=
  (choice.unit.map fun (u, argument) => Written.unit u argument).toList ++
    ((choice.format.map Written.format).toList ++
      ((choice.calculation.map Written.calculation).toList ++
        (choice.precision.map Written.precision).toList))

/-- What the chosen directives say. -/
def overrides (choice : Choice) : Directives where
  unit := choice.unit.map Prod.fst
  remBase := (choice.unit.bind Prod.snd).bind UnitArgument.base?
  remBasePath := (choice.unit.bind Prod.snd).bind UnitArgument.path?
  colorFormat := choice.format
  expression := choice.calculation.map String.ofList
  precision := choice.precision.map Decimal.natOfDigits

end Choice

/-! ## Separators -/

/-- Separators are in no keyword. -/
lemma IsSeparator.foreign {s : List Char} (h : IsSeparator s) (k : Kind) :
    ∀ c ∈ s, Foreign k.keyword c := by
  induction h with
  | semicolon => exact foreign_marks k (by decide)
  | lineBreak => exact foreign_marks k (by decide)
  | append _ _ ihs iht => exact List.forall_mem_append.mpr ⟨ihs, iht⟩

/-- A directive ends where a separator begins. -/
lemma IsSeparator.ends {s : List Char} (h : IsSeparator s) (rest : List Char) :
    Ends (s ++ rest) := by
  induction h generalizing rest with
  | semicolon =>
    rintro _ ⟨⟩
    exact Or.inl rfl
  | lineBreak =>
    rintro _ ⟨⟩
    exact Or.inr rfl
  | append _ _ ihs _ => exact (List.append_assoc _ _ _).symm ▸ ihs _

/-! ## Searches in joined directives -/

/-- A reader of one kind of directives: it needs the keyword, and it reads each directive of the
kind in the same way whatever follows. -/
structure Reads {β : Type} (k : Kind) (reader : List Char → Option β)
    (content : Written → Option β) : Prop where
  needs : ∀ cs, afterLetters? k.keyword cs = none → reader cs = none
  reads : ∀ w : Written, w.IsProper → w.kind = k → ∀ rest, Ends rest →
    ∃ found, content w = some found ∧ reader (w.chars ++ rest) = some found
  others : ∀ w : Written, w.kind ≠ k → content w = none

/-- The search for a kind of directive finds the first one of the kind. -/
theorem firstMatch?_joins {β : Type} {k : Kind} {reader : List Char → Option β}
    {content : Written → Option β} (hreads : Reads k reader content) {ds : List Written}
    {text : List Char} (hproper : ∀ w ∈ ds, w.IsProper) (h : Joins ds text) :
    firstMatch? reader text = ds.findSome? content := by
  have hword := keyword_ne_nil k
  induction h with
  | nil => exact firstMatch?_eq_none hreads.needs hword (not_occurs_nil hword)
  | single w =>
    have hw := hproper w List.mem_cons_self
    rw [List.findSome?_singleton]
    rcases eq_or_ne w.kind k with hk | hk
    · obtain ⟨found, hcontent, hread⟩ := hreads.reads w hw hk [] ends_nil
      rw [List.append_nil] at hread
      rw [firstMatch?_of_some hread, hcontent]
    · rw [firstMatch?_eq_none hreads.needs hword (not_occurs_chars hw hk.symm), hreads.others w hk]
  | cons w hs _ ih =>
    have hw := hproper w List.mem_cons_self
    have ih := ih fun v hv => hproper v (List.mem_cons_of_mem w hv)
    rw [List.findSome?_cons]
    rcases eq_or_ne w.kind k with hk | hk
    · obtain ⟨found, hcontent, hread⟩ := hreads.reads w hw hk _ (hs.ends _)
      rw [firstMatch?_of_some hread, hcontent]
    · -- The keyword is neither in this directive nor in the separator, so the search passes both.
      rw [firstMatch?_append hreads.needs (not_occurs_chars hw hk.symm) ((hs.ends _).foreign k),
        firstMatch?_skip hreads.needs hword (hs.foreign k), ih, hreads.others w hk]

/-! ## The four searches -/

/-- The name of a unit and its argument. -/
def unitOf? : Written → Option (List Char × Option UnitArgument)
  | .unit u argument => some (u.name.toList, argument)
  | _ => none

/-- The name of a color format. -/
def formatOf? : Written → Option (List Char)
  | .format f => some f.name.toList
  | _ => none

/-- A calculation. -/
def calculationOf? : Written → Option (List Char)
  | .calculation e => some e
  | _ => none

/-- The digits of a precision. -/
def precisionOf? : Written → Option (List Char)
  | .precision digits => some digits
  | _ => none

lemma afterKeyword?_eq_none {keyword : String} {cs : List Char}
    (h : afterLetters? keyword.toList cs = none) : afterKeyword? keyword cs = none := by
  unfold afterKeyword?
  rw [h, Option.map_none]

lemma reads_unit : Reads .unit unit? unitOf? where
  needs cs h := by
    unfold unit?
    rw [afterKeyword?_eq_none h]
    rfl
  reads w hw hk rest hrest := by
    cases w with
    | unit u argument => exact ⟨_, rfl, unit?_chars hrest u hw⟩
    | format | calculation | precision => cases hk
  others w hk := by
    cases w with
    | unit => exact absurd rfl hk
    | format | calculation | precision => rfl

lemma reads_format : Reads .format format? formatOf? where
  needs cs h := by
    unfold format?
    rw [afterKeyword?_eq_none h]
    rfl
  reads w _ hk rest hrest := by
    cases w with
    | format f => exact ⟨_, rfl, format?_chars hrest f⟩
    | unit | calculation | precision => cases hk
  others w hk := by
    cases w with
    | format => exact absurd rfl hk
    | unit | calculation | precision => rfl

lemma reads_calculation : Reads .calculation calculation? calculationOf? where
  needs cs h := by
    unfold calculation?
    rw [show afterLetters? "calc:".toList cs = none from h]
    rfl
  reads w hw hk rest hrest := by
    cases w with
    | calculation e => exact ⟨_, rfl, calculation?_chars hrest hw⟩
    | unit | format | precision => cases hk
  others w hk := by
    cases w with
    | calculation => exact absurd rfl hk
    | unit | format | precision => rfl

lemma reads_precision : Reads .precision precision? precisionOf? where
  needs cs h := by
    unfold precision?
    rw [afterKeyword?_eq_none h]
    rfl
  reads w hw hk rest hrest := by
    cases w with
    | precision digits => exact ⟨_, rfl, precision?_chars hrest hw⟩
    | unit | format | calculation => cases hk
  others w hk := by
    cases w with
    | precision => exact absurd rfl hk
    | unit | format | calculation => rfl

/-! ## Chosen directives -/

/-- What only one directive at most has is found in every order. -/
lemma findSome?_of_perm {α β : Type} {content : α → Option β} {items items' : List α}
    (hperm : items.Perm items') {found : Option β} (h : items'.filterMap content = found.toList) :
    items.findSome? content = found := by
  have hfound : (items.filterMap content).Perm found.toList := h ▸ hperm.filterMap content
  rw [← List.head?_filterMap]
  cases found with
  | none => rw [hfound.eq_nil, List.head?_nil]
  | some b => rw [List.perm_singleton.mp hfound]; rfl

section choice

variable {choice : Choice} {ds : List Written} {text : List Char}

/-- What a search finds in the directives of a choice does not depend on their order. -/
lemma Reads.firstMatch?_eq {β : Type} {k : Kind} {reader : List Char → Option β}
    {content : Written → Option β} (hreads : Reads k reader content)
    (hproper : ∀ w ∈ choice.directives, w.IsProper) (hperm : ds.Perm choice.directives)
    (htext : Joins ds text) {found : Option β}
    (h : choice.directives.filterMap content = found.toList) : firstMatch? reader text = found := by
  have hds : ∀ w ∈ ds, w.IsProper := fun w hw => hproper w (hperm.mem_iff.mp hw)
  rw [firstMatch?_joins hreads hds htext, findSome?_of_perm hperm h]

lemma filterMap_unitOf? (choice : Choice) : choice.directives.filterMap unitOf? =
    (choice.unit.map fun (u, argument) => (u.name.toList, argument)).toList := by
  obtain ⟨unit, format, calculation, precision⟩ := choice
  cases unit <;> cases format <;> cases calculation <;> cases precision <;> rfl

lemma filterMap_formatOf? (choice : Choice) : choice.directives.filterMap formatOf? =
    (choice.format.map fun f => f.name.toList).toList := by
  obtain ⟨unit, format, calculation, precision⟩ := choice
  cases unit <;> cases format <;> cases calculation <;> cases precision <;> rfl

lemma filterMap_calculationOf? (choice : Choice) :
    choice.directives.filterMap calculationOf? = choice.calculation.toList := by
  obtain ⟨unit, format, calculation, precision⟩ := choice
  cases unit <;> cases format <;> cases calculation <;> cases precision <;> rfl

lemma filterMap_precisionOf? (choice : Choice) :
    choice.directives.filterMap precisionOf? = choice.precision.toList := by
  obtain ⟨unit, format, calculation, precision⟩ := choice
  cases unit <;> cases format <;> cases calculation <;> cases precision <;> rfl

/-- The base or the path of a unit is taken as it is written. -/
lemma ofUnit_eq (u : CssUnit) {argument : Option UnitArgument} (h : ∀ a ∈ argument, a.IsProper) :
    ofUnit u argument {} = .ok {
      unit := some u
      remBase := argument.bind UnitArgument.base?
      remBasePath := argument.bind UnitArgument.path? } := by
  cases argument with
  | none => rfl
  | some argument =>
    cases argument with
    | path raw => rfl
    | number digits =>
      obtain ⟨hshort, hpos⟩ := h _ rfl
      have hbelow : Decimal.natOfDigits digits < 2 ^ 53 := calc
        Decimal.natOfDigits digits < 10 ^ digits.length := Decimal.natOfDigits_lt hshort.2.1
        _ ≤ 10 ^ 15 := Nat.pow_le_pow_right (by decide) hshort.2.2
        _ < 2 ^ 53 := by decide
      have hvalue : ((Decimal.Numeral.ofChars? digits).map Decimal.Numeral.toFloat).getD 0.0 =
          Decimal.toFloat (Decimal.natOfDigits digits) 0 := by
        rw [ColorText.ofChars?_whole hshort.isRun]
        show Decimal.toFloat (Decimal.natOfDigits (digits ++ [])) 0 = _
        rw [List.append_nil]
      unfold ofUnit
      dsimp only
      rw [hvalue, Binary64.floorFloat_toFloat hpos hbelow]
      show Except.ok (if 0 < (Decimal.natOfDigits digits : ℤ) then _ else _) = _
      rw [if_pos (Int.natCast_pos.mpr hpos)]
      rfl

/-- The unit of a choice is set with its argument. -/
lemma withUnit_eq {unit : Option (CssUnit × Option UnitArgument)}
    (h : ∀ pair ∈ unit, ∀ a ∈ pair.2, a.IsProper)
    (hfound : firstMatch? unit? text = unit.map fun (u, argument) => (u.name.toList, argument)) :
    withUnit text {} = .ok {
      unit := unit.map Prod.fst
      remBase := (unit.bind Prod.snd).bind UnitArgument.base?
      remBasePath := (unit.bind Prod.snd).bind UnitArgument.path? } := by
  unfold withUnit
  rw [hfound]
  cases unit with
  | none => rfl
  | some pair =>
    obtain ⟨u, argument⟩ := pair
    have hname : CssUnit.ofName? (Text.lower (String.ofList u.name.toList)) = some u := by
      cases u <;> decide
    dsimp only [Option.map_some]
    rw [hname]
    exact ofUnit_eq u (h _ rfl)

/-- The color format of a choice is set. -/
lemma withFormat_eq {format : Option ColorFormat} {d : Directives} (hd : d.colorFormat = none)
    (hfound : firstMatch? format? text = format.map fun f => f.name.toList) :
    withFormat text d = .ok { d with colorFormat := format } := by
  unfold withFormat
  rw [hfound]
  cases format with
  | none =>
    show Except.ok d = .ok { d with colorFormat := none }
    rw [← hd]
  | some f =>
    have hname : ColorFormat.ofName? (Text.lower (String.ofList f.name.toList)) = some f := by
      cases f <;> decide
    dsimp only [Option.map_some]
    rw [hname]

/-- The calculation of a choice is set. -/
lemma withCalculation_eq {e : Option (List Char)} {d : Directives} (hd : d.expression = none)
    (hfound : firstMatch? calculation? text = e) :
    withCalculation text d = { d with expression := e.map String.ofList } := by
  unfold withCalculation
  rw [hfound]
  cases e with
  | none =>
    show d = { d with expression := none }
    rw [← hd]
  | some e => rfl

/-- The precision of a choice is set. -/
lemma withPrecision_eq {digits : Option (List Char)} {d : Directives} (hd : d.precision = none)
    (h : ∀ ds ∈ digits, IsShortNumber ds) (hfound : firstMatch? precision? text = digits) :
    withPrecision text d = .ok { d with precision := digits.map Decimal.natOfDigits } := by
  unfold withPrecision
  rw [hfound]
  cases digits with
  | none =>
    show Except.ok d = .ok { d with precision := none }
    rw [← hd]
  | some digits =>
    have hlength : ¬ Decimal.maxDigits < digits.length :=
      Nat.not_lt.mpr ((h digits rfl).2.2.trans (by decide))
    dsimp only
    unfold wholeNumber
    rw [if_neg hlength]
    rfl

/-- The directives of a choice are read in the same way in every order, with semicolons or line
breaks between them: each one gives its own value, and nothing else is set. -/
theorem parse_joins (hproper : ∀ w ∈ choice.directives, w.IsProper)
    (hperm : ds.Perm choice.directives) (htext : Joins ds text) :
    Directives.parse (String.ofList text) = .ok choice.overrides := by
  have hunit := reads_unit.firstMatch?_eq hproper hperm htext (filterMap_unitOf? choice)
  have hformat := reads_format.firstMatch?_eq hproper hperm htext (filterMap_formatOf? choice)
  have hcalculation :=
    reads_calculation.firstMatch?_eq hproper hperm htext (filterMap_calculationOf? choice)
  have hprecision :=
    reads_precision.firstMatch?_eq hproper hperm htext (filterMap_precisionOf? choice)
  have harguments : ∀ pair ∈ choice.unit, ∀ a ∈ pair.2, a.IsProper := fun pair hpair =>
    hproper (.unit pair.1 pair.2) (by simp [Choice.directives, Option.mem_def.mp hpair])
  have hdigits : ∀ digits ∈ choice.precision, IsShortNumber digits := fun digits hmem =>
    hproper (.precision digits) (by simp [Choice.directives, Option.mem_def.mp hmem])
  unfold Directives.parse
  rw [String.toList_ofList]
  dsimp only
  rw [withUnit_eq harguments hunit]
  show (withFormat text _ >>= fun d => withPrecision text (withCalculation text d)) = _
  rw [withFormat_eq rfl hformat]
  show withPrecision text (withCalculation text _) = _
  rw [withCalculation_eq rfl hcalculation, withPrecision_eq rfl hdigits hprecision]
  rfl

end choice

/-- All four kinds of directives, the calculation first. -/
theorem parse_joins_calculationFirst :
    Directives.parse "calc: 'gap' * 2; precision: 3\nunit: rem('base size'); format: oklch" = .ok {
      unit := some .rem
      remBasePath := some "base size"
      colorFormat := some .oklch
      expression := some "'gap' * 2"
      precision := some 3 } := by
  let path := UnitArgument.path "base size".toList
  let e := "'gap' * 2".toList
  let choice : Choice := ⟨some (.rem, some path), some .oklch, some e, some ['3']⟩
  let first : List Written := [.calculation e, .precision ['3']]
  let second : List Written := [.unit .rem (some path), .format .oklch]
  have hpath : ∀ a ∈ some path, a.IsProper := by
    rintro _ ⟨⟩
    exact ⟨by decide, by decide, fun k => by cases k <;> decide⟩
  have he : (Written.calculation e).IsProper :=
    ⟨by decide, by decide, by decide, by decide, fun k => by cases k <;> decide⟩
  have hdigits : IsShortNumber ['3'] :=
    ⟨by decide, List.forall_mem_singleton.mpr (by decide), by decide⟩
  have hproper : ∀ w ∈ choice.directives, w.IsProper :=
    List.forall_mem_cons.mpr ⟨hpath, List.forall_mem_cons.mpr ⟨trivial,
      List.forall_mem_cons.mpr ⟨he, List.forall_mem_singleton.mpr hdigits⟩⟩⟩
  have hperm : (first ++ second).Perm choice.directives := List.perm_append_comm
  have htext : Joins (first ++ second) _ :=
    .cons _ .semicolon (.cons _ .lineBreak (.cons _ .semicolon (.single _)))
  refine Eq.trans (congrArg Directives.parse ?_) (parse_joins hproper hperm htext)
  decide +kernel

end Directive

end DesignTokens

import DesignTokens.Proofs.Name.Characters
import DesignTokens.Proofs.Rename.Matching
import DesignTokens.Proofs.Sync.CodeNames
import DesignTokens.Proofs.Text.CaseRows

/-!
# Names by the default rule

The default rule describes every name of one line, as a whole, and its template is the prefix and
the name in a casing.  Most casings divide a name into words, so that neither a slash nor white space
is left in it.  Lowering and raising the name as a whole keep what stands between the words, and the
default rule does so where there is no prefix (`CssName.format_default_outcomes`).
-/

namespace DesignTokens

/-! ## Gaps -/

namespace Text

/-- A single character has no case if no row moves it. -/
lemma caseless_beq {d : Char} (hrows : CaseRows.every.isApart [⟨d.toNat, d.toNat⟩] = true)
    (hzero : inSpans [⟨d.toNat, d.toNat⟩] 0 = false) : Caseless (· == d) := by
  have hspan : (· == d) = fun c : Char => inSpans [⟨d.toNat, d.toNat⟩] c.toNat := by
    funext c
    rw [Bool.eq_iff_iff]
    simp only [beq_iff_eq, inSpans, Span.holds, List.any_cons, List.any_nil, Bool.or_false,
      Bool.and_eq_true, decide_eq_true_eq, ← Char.toNat_inj]
    omega
  rw [hspan]
  exact caseless_of_isApart hrows hzero

/-- A slash or white space, which no identifier holds. -/
def isGap (c : Char) : Bool :=
  c == '/' || isSpace c

/-- A text has a slash or white space. -/
def hasGap (s : String) : Bool :=
  s.toList.any isGap

lemma caseless_isGap : Caseless isGap := by
  have hslash : Caseless (· == '/') := caseless_beq (by decide +kernel) (by decide)
  exact hslash.or caseless_isSpace

lemma hasGap_eq_false_iff {s : String} : hasGap s = false ↔ ∀ c ∈ s.toList, isGap c = false := by
  unfold hasGap
  simp

lemma hasGap_append (s t : String) : hasGap (s ++ t) = (hasGap s || hasGap t) := by
  unfold hasGap
  rw [String.toList_append, List.any_append]

lemma hasGap_intercalate {separator : String} {parts : List String}
    (hseparator : hasGap separator = false) (hparts : ∀ part ∈ parts, hasGap part = false) :
    hasGap (separator.intercalate parts) = false := by
  rw [hasGap_eq_false_iff] at hseparator ⊢
  intro c hc
  rw [String.toList_intercalate] at hc
  rcases mem_of_mem_intercalate hc with hc | ⟨part, hpart, hc⟩
  · exact hseparator c hc
  · obtain ⟨original, horiginal, rfl⟩ := List.mem_map.mp hpart
    exact hasGap_eq_false_iff.mp (hparts original horiginal) c hc

lemma hasGap_join {parts : List String} (hparts : ∀ part ∈ parts, hasGap part = false) :
    hasGap (String.join parts) = false := by
  rw [hasGap_eq_false_iff]
  intro c hc
  rw [String.toList_join] at hc
  obtain ⟨part, hpart, hc⟩ := List.mem_flatMap.mp hc
  exact hasGap_eq_false_iff.mp (hparts part hpart) c hc

lemma hasGap_lower (s : String) : hasGap (lower s) = hasGap s :=
  (caseless_isGap.keepsText_lower s).any_eq

end Text

/-! ## Casings -/

namespace Template

open CssName (Casing)
open Text (lower upper hasGap Caseless KeepsText)

/-- A word with its first letter raised is changed in case only. -/
lemma keepsText_capitalize {p : Char → Bool} (hp : Caseless p) (s : String) :
    KeepsText p s.toList (capitalize s).toList := by
  have hfirst := hp.keepsText_upper (String.ofList (s.toList.take 1))
  have hlater := hp.keepsText_lower (String.ofList (s.toList.drop 1))
  rw [String.toList_ofList] at hfirst hlater
  have hboth := hfirst.append hlater
  rwa [List.take_append_drop, ← String.toList_append] at hboth

/-- The words of a name have no gaps. -/
lemma hasGap_of_mem_words {value word : String} (h : word ∈ words value) :
    hasGap word = false := by
  unfold words at h
  obtain ⟨part, hpart, rfl⟩ := List.mem_map.mp h
  rw [Text.hasGap_eq_false_iff, String.toList_ofList]
  intro c hc
  have hdivides := not_of_mem_splitOnP (List.mem_filter.mp hpart).1 hc
  unfold dividesWords at hdivides
  unfold Text.isGap
  simp only [Bool.or_eq_false_iff] at hdivides ⊢
  exact ⟨hdivides.1.1.1, hdivides.2⟩

/-- A value in a casing. -/
def cased (casing : Casing) (value : String) : String :=
  match casing with
  | .kebab => "-".intercalate ((words value).map lower)
  | .snake => "_".intercalate ((words value).map lower)
  | .camel => camel (words value)
  | .pascal => String.join ((words value).map capitalize)
  | .lower => lower value
  | .upper => upper value

/-- The casing changes a name as a whole. -/
def IsWhole (casing : Casing) : Prop :=
  casing = .lower ∨ casing = .upper

/-- Each casing is found under its name. -/
lemma applyCasing_name (casing : Casing) (value : String) :
    applyCasing value (some casing.name) = cased casing value := by
  have hname : lower casing.name = casing.name := by cases casing <;> decide +kernel
  have hempty : cased casing "" = "" := by cases casing <;> decide +kernel
  unfold applyCasing
  dsimp only
  rw [hname]
  cases casing <;> simp_all [Casing.name, cased]

/-- A casing that divides a name into words leaves no gaps. -/
lemma hasGap_cased_of_not_isWhole {casing : Casing} (h : ¬ IsWhole casing) (value : String) :
    hasGap (cased casing value) = false := by
  have hlowered : ∀ word ∈ (words value).map lower, hasGap word = false := by
    intro word hword
    obtain ⟨original, horiginal, rfl⟩ := List.mem_map.mp hword
    rw [Text.hasGap_lower, hasGap_of_mem_words horiginal]
  have hcapitalized : ∀ parts ⊆ words value,
      hasGap (String.join (parts.map capitalize)) = false := by
    intro parts hparts
    refine Text.hasGap_join fun word hword => ?_
    obtain ⟨original, horiginal, rfl⟩ := List.mem_map.mp hword
    have hkept := (keepsText_capitalize Text.caseless_isGap original).any_eq
    exact hkept.trans (hasGap_of_mem_words (hparts horiginal))
  cases casing with
  | kebab => exact Text.hasGap_intercalate (by decide) hlowered
  | snake => exact Text.hasGap_intercalate (by decide) hlowered
  | camel =>
    unfold cased
    cases hwords : words value with
    | nil => rfl
    | cons first rest =>
      have hfirst : hasGap first = false := hasGap_of_mem_words (hwords ▸ List.mem_cons_self)
      have hrest := hcapitalized rest (hwords ▸ List.subset_cons_self _ _)
      unfold camel
      rw [Text.hasGap_append, Text.hasGap_lower, hfirst, hrest, Bool.or_false]
  | pascal => exact hcapitalized _ (List.Subset.refl _)
  | lower => exact absurd (Or.inl rfl) h
  | upper => exact absurd (Or.inr rfl) h

/-- A casing that changes a name as a whole keeps what has no case. -/
lemma keepsText_cased_of_isWhole {casing : Casing} (h : IsWhole casing) {p : Char → Bool}
    (hp : Caseless p) (value : String) : KeepsText p value.toList (cased casing value).toList := by
  rcases h with rfl | rfl
  · exact hp.keepsText_lower value
  · exact hp.keepsText_upper value

/-! ## Templates -/

/-- What stands before the first reference of a template stands for itself. -/
lemma parts_append {lead : List Char} (hlead : '$' ∉ lead) (cs : List Char) :
    parts (lead ++ cs) = lead.map TemplatePart.plain ++ parts cs := by
  induction lead with
  | nil => rfl
  | cons c rest ih =>
    have hc : c ≠ '$' := fun heq => hlead (heq ▸ List.mem_cons_self)
    rw [List.cons_append, parts, if_neg hc, ih fun hmem => hlead (List.mem_cons_of_mem _ hmem),
      List.map_cons, List.cons_append]

/-- The parts of a template of a text and a reference to the only capture. -/
lemma parts_captured {lead : String} (hlead : '$' ∉ lead.toList) (casing : Casing) :
    parts (lead ++ CssName.captured casing).toList =
      lead.toList.map TemplatePart.plain ++ [.reference ⟨1, some casing.name, 1⟩] := by
  obtain ⟨inner, hinner, href⟩ : ∃ inner, (CssName.captured casing).toList = '$' :: inner ∧
      reference? inner = some (⟨1, some casing.name, 1⟩, inner.length) := by
    cases casing <;> exact ⟨_, rfl, rfl⟩
  rw [String.toList_append, parts_append hlead, hinner, parts, if_pos rfl, href]
  dsimp only
  rw [List.drop_length, parts]

/-- A template of a text and a reference to the only capture. -/
lemma render_captured {lead : String} (hlead : '$' ∉ lead.toList) (casing : Casing)
    (value : String) :
    render (lead ++ CssName.captured casing) [value] = lead ++ cased casing value := by
  have hplain : (lead.toList.map TemplatePart.plain).flatMap (textOf [value]) = lead.toList := by
    rw [List.flatMap_map]
    exact List.flatMap_singleton' _
  have hvalue : valueOf [value] ⟨1, some casing.name, 1⟩ = cased casing value :=
    applyCasing_name casing value
  apply String.toList_injective
  unfold render expand
  rw [String.toList_ofList, parts_captured hlead, List.flatMap_append, hplain,
    List.flatMap_singleton, textOf, hvalue, String.toList_append]

/-- Such a template can be read. -/
lemma isReadable_captured {lead : String} (hlead : '$' ∉ lead.toList) (casing : Casing) :
    isReadable (lead ++ CssName.captured casing) = true := by
  unfold isReadable
  rw [parts_captured hlead, List.all_append, List.all_map, Bool.and_eq_true]
  exact ⟨List.all_eq_true.mpr fun _ _ => rfl, rfl⟩

end Template

/-! ## The default rule -/

namespace CssName

open Text (isBlank isGap hasGap Caseless KeepsText)
open Template (cased IsWhole)

/-- A character that prefixes have. -/
def isPrefixChar (c : Char) : Bool :=
  c.isAlphanum || c == '_' || c == '-'

/-- A gap, or the beginning of a reference in a template. -/
def isMark (c : Char) : Bool :=
  c == '$' || isGap c

lemma caseless_isMark : Caseless isMark := by
  have hdollar : Caseless (· == '$') := Text.caseless_beq (by decide +kernel) (by decide)
  exact hdollar.or Text.caseless_isGap

lemma isMark_of_isNameChar {c : Char} (h : isNameChar c = true) : isMark c = false := by
  have hother : ∀ d, isNameChar d = false → (c == d) = false := fun d hd =>
    beq_eq_false_iff_ne.mpr fun heq => by simp [heq, hd] at h
  unfold isMark isGap
  rw [hother '$' (by decide), hother '/' (by decide), isSpace_of_isNameChar h]
  rfl

lemma isMark_of_isPrefixChar {c : Char} (h : isPrefixChar c = true) : isMark c = false := by
  unfold isPrefixChar at h
  rw [Bool.or_eq_true, Bool.or_eq_true, beq_iff_eq, beq_iff_eq] at h
  rcases h with (hname | rfl) | rfl
  · exact isMark_of_isNameChar hname
  · decide
  · decide

lemma isGap_of_not_isMark {c : Char} (h : isMark c = false) : isGap c = false :=
  (Bool.or_eq_false_iff.mp h).2

variable {namePrefix name : String}

/-- The template of the default rule with a prefix: the prefix in some case, and the words of the
name. -/
lemma exists_defaultTemplate (hne : namePrefix ≠ "")
    (hallowed : ∀ c ∈ namePrefix.toList, isPrefixChar c = true) (casing : Casing) :
    ∃ lead inner, defaultTemplate namePrefix casing = lead ++ captured inner ∧
      lead.toList.any isMark = false ∧ ¬ IsWhole inner := by
  have hplain : namePrefix.toList.any isMark = false := by
    simpa using fun c hc => isMark_of_isPrefixChar (hallowed c hc)
  have hlead : ∀ {changed separator : String}, KeepsText isMark namePrefix.toList changed.toList →
      separator.toList.any isMark = false → (changed ++ separator).toList.any isMark = false := by
    intro changed separator hkept hseparator
    rw [String.toList_append, List.any_append, hkept.any_eq, hplain, hseparator, Bool.or_false]
  have hsame : KeepsText isMark namePrefix.toList namePrefix.toList := by
    simpa using Text.keepsText_flatMap (fun c => (caseless_isMark .same : Text.Keeps _ c [c])) _
  unfold defaultTemplate
  rw [if_neg hne]
  cases casing with
  | kebab => exact ⟨_, .kebab, rfl, hlead hsame (by decide), by simp [IsWhole]⟩
  | snake => exact ⟨_, .snake, rfl, hlead hsame (by decide), by simp [IsWhole]⟩
  | camel => exact ⟨_, .pascal, rfl, hplain, by simp [IsWhole]⟩
  | pascal =>
    refine ⟨_, .pascal, rfl, ?_, by simp [IsWhole]⟩
    rw [(Template.keepsText_capitalize caseless_isMark namePrefix).any_eq, hplain]
  | lower =>
    exact ⟨_, .kebab, rfl, hlead (caseless_isMark.keepsText_lower _) (by decide), by simp [IsWhole]⟩
  | upper =>
    exact ⟨_, .snake, rfl, hlead (caseless_isMark.keepsText_upper _) (by decide), by simp [IsWhole]⟩

/-- The default rule captures every name of one line as a whole. -/
lemma rename?_defaultRule (hname : '\n' ∉ name.toList) (namePrefix : String) (casing : Casing) :
    (defaultRule namePrefix casing).rename? name =
      some (Template.render (defaultTemplate namePrefix casing) [name]) := by
  have hcompiled : Glob.compile "**" = .ok [.globstar] := rfl
  have hreads : Glob.Reads [.globstar] [name.toList] name.toList := by
    simpa using Glob.Reads.cons (GlobPart.Reads.globstar hname) .nil
  obtain ⟨found, hfound⟩ := Option.isSome_iff_exists.mp
    (Glob.isSome_matchParts_iff.mpr ⟨_, hreads⟩)
  have hwhole : found = [name.toList] := by
    obtain ⟨first, later, piece, rest, rfl, hpieces, hpart, hrest⟩ :=
      Glob.reads_cons_iff.mp (Glob.reads_of_matchParts hfound)
    cases hrest
    cases hpart
    rw [hpieces, List.append_nil, List.append_nil]
  have hcaptures : Glob.captures "**" name = .ok (some [name]) := by
    unfold Glob.captures
    rw [hcompiled]
    show Except.ok ((Glob.matchParts [.globstar] name.toList).map _) = _
    rw [hfound, hwhole]
    simp
  unfold RenameRule.rename? defaultRule
  dsimp only
  rw [if_pos rfl, hcaptures]

/-- The template of the default rule can be read. -/
lemma isReadable_defaultTemplate (hallowed : ∀ c ∈ namePrefix.toList, isPrefixChar c = true)
    (casing : Casing) : Template.isReadable (defaultTemplate namePrefix casing) = true := by
  by_cases hempty : namePrefix = ""
  · subst hempty
    have hcaptured := @Template.isReadable_captured "" List.not_mem_nil casing
    rwa [String.empty_append] at hcaptured
  · obtain ⟨lead, inner, htemplate, hlead, -⟩ := exists_defaultTemplate hempty hallowed casing
    rw [htemplate]
    exact Template.isReadable_captured (fun hmem => List.any_eq_false.mp hlead _ hmem rfl) inner

/-- Where no other rule is given, the templates of all names can be read. -/
lemma isReadable_default (hallowed : ∀ c ∈ namePrefix.toList, isPrefixChar c = true)
    (casing : Casing) (name : String) :
    RenameRule.isReadable (rulesWithDefault [] namePrefix casing) name = true := by
  unfold RenameRule.isReadable
  refine (Option.all_eq_true _ _).mpr fun found hfound => ?_
  have hfirst : List.findSome? (fun rule => (RenameRule.rename? rule name).map fun renamed =>
      (rule, renamed)) [defaultRule namePrefix casing] = some found := hfound
  rw [List.findSome?_singleton] at hfirst
  obtain ⟨renamed, -, rfl⟩ := Option.map_eq_some_iff.mp hfirst
  exact isReadable_defaultTemplate hallowed casing

/-- The default rule decides on every name of one line where no other rule is given. -/
lemma first?_default (hname : '\n' ∉ name.toList) (namePrefix : String) (casing : Casing) :
    RenameRule.first? (rulesWithDefault [] namePrefix casing) name =
      some (defaultRule namePrefix casing,
        Template.render (defaultTemplate namePrefix casing) [name]) := by
  show List.findSome? _ [defaultRule namePrefix casing] = _
  rw [List.findSome?_singleton, rename?_defaultRule hname]
  rfl

/-- The name is what the template gives, unless this is blank. -/
lemma format_default (hname : '\n' ∉ name.toList) (namePrefix : String) (casing : Casing) :
    format (rulesWithDefault [] namePrefix casing) namePrefix name =
      let renamed := Template.render (defaultTemplate namePrefix casing) [name]
      if isBlank renamed then withPrefix namePrefix (ofText name) else renamed := by
  unfold format
  rw [first?_default hname]
  rfl

/-- A name by the default transform has no gaps, and neither has it after a prefix. -/
lemma hasGap_withPrefix_ofText (hallowed : ∀ c ∈ namePrefix.toList, isPrefixChar c = true)
    (name : String) : hasGap (withPrefix namePrefix (ofText name)) = false := by
  have hname : hasGap (ofText name) = false := by
    refine Text.hasGap_eq_false_iff.mpr fun c hc => ?_
    rcases mem_ofText hc with rfl | hc
    · decide
    · exact isGap_of_not_isMark (isMark_of_isNameChar hc)
  have hplain : hasGap namePrefix = false := Text.hasGap_eq_false_iff.mpr fun c hc =>
    isGap_of_not_isMark (isMark_of_isPrefixChar (hallowed c hc))
  have hhyphen : hasGap "-" = false := by decide
  unfold withPrefix
  split_ifs
  · exact hname
  · rw [Text.hasGap_append, Text.hasGap_append, hplain, hhyphen, hname]
    rfl

/-- A name is left with a gap by the default rule: there is no prefix, and the name is not blank,
has a gap and is changed as a whole. -/
def LeavesGap (namePrefix : String) (casing : Casing) (name : String) : Prop :=
  namePrefix = "" ∧ IsWhole casing ∧ isBlank name = false ∧ hasGap name = true

/-- The default rule gives names without gaps, with one exception. -/
lemma hasGap_format_default (hallowed : ∀ c ∈ namePrefix.toList, isPrefixChar c = true)
    (hname : '\n' ∉ name.toList) (casing : Casing) :
    hasGap (format (rulesWithDefault [] namePrefix casing) namePrefix name) = true ↔
      LeavesGap namePrefix casing name := by
  have hfallback := hasGap_withPrefix_ofText hallowed name
  rw [format_default hname]
  dsimp only
  by_cases hempty : namePrefix = ""
  · subst hempty
    have hrendered : Template.render (defaultTemplate "" casing) [name] = cased casing name := by
      have happended := @Template.render_captured "" List.not_mem_nil casing name
      rwa [String.empty_append, String.empty_append] at happended
    rw [hrendered]
    by_cases hwhole : IsWhole casing
    · have hblank : isBlank (cased casing name) = isBlank name :=
        (Template.keepsText_cased_of_isWhole hwhole Text.caseless_isSpace name).all_eq
      have hgap : hasGap (cased casing name) = hasGap name :=
        (Template.keepsText_cased_of_isWhole hwhole Text.caseless_isGap name).any_eq
      rw [hblank]
      unfold LeavesGap
      cases isBlank name with
      | true => simp [hfallback]
      | false => simp [hgap, hwhole]
    · have hgap := Template.hasGap_cased_of_not_isWhole hwhole name
      unfold LeavesGap
      split_ifs <;> simp [hfallback, hgap, hwhole]
  · obtain ⟨lead, inner, htemplate, hlead, hinner⟩ := exists_defaultTemplate hempty hallowed casing
    have hleadGap : hasGap lead = false := by
      refine Text.hasGap_eq_false_iff.mpr fun c hc => isGap_of_not_isMark ?_
      exact Bool.eq_false_iff.mpr (List.any_eq_false.mp hlead c hc)
    have hdollar : '$' ∉ lead.toList := fun hmem => List.any_eq_false.mp hlead _ hmem rfl
    have hgap : hasGap (Template.render (defaultTemplate namePrefix casing) [name]) = false := by
      rw [htemplate, Template.render_captured hdollar, Text.hasGap_append, hleadGap,
        Template.hasGap_cased_of_not_isWhole hinner, Bool.false_or]
    unfold LeavesGap
    split_ifs <;> simp [hfallback, hgap, hempty]

/-- What the default rule makes of names of one line, where no other rules are given and the prefix
has letters, digits, underscores and hyphens only.  The given name has neither a slash nor white
space, except that lowering and raising without a prefix keep those of a name that is not blank.
Every variable of the name gets the reference to the given name, from which a name without gaps is
read back, and which refers to nothing else unless the given name is empty or has a parenthesis. -/
theorem format_default_outcomes (hallowed : ∀ c ∈ namePrefix.toList, isPrefixChar c = true)
    (hname : '\n' ∉ name.toList) (casing : Casing) :
    let rules := rulesWithDefault [] namePrefix casing
    let given := format rules namePrefix name
    (hasGap given = false ↔ ¬ LeavesGap namePrefix casing name) ∧
    (hasGap given = false → ofCodeSyntax (reference given) = given) ∧
    (given ≠ "" → ')' ∉ given.toList → ∀ other, RefersTo (reference given) other ↔ other = given) ∧
    ∀ vars v, (vars.map Variable.id).Nodup → v ∈ vars → v.name = name →
      ∃ r, CodeSyntaxReport.ofRules vars namePrefix rules = .ok r ∧
        OrderedMap.find? v.id r.codeSyntax = some (some (reference given)) := by
  intro rules given
  refine ⟨?_, fun hgap => ?_, fun hne hclosing other => ?_, fun vars v hids hv hvname => ?_⟩
  · rw [← hasGap_format_default hallowed hname casing, Bool.not_eq_true]
  · rw [ofCodeSyntax_reference_eq_iff]
    unfold Text.endsInSpace
    cases hlast : given.toList.getLast? with
    | none => rfl
    | some c =>
      have hno := Text.hasGap_eq_false_iff.mp hgap c (List.mem_of_mem_getLast? hlast)
      exact (Bool.or_eq_false_iff.mp hno).2
  · rw [refersTo_reference hclosing]
    exact and_iff_right hne
  · have hdescribed : (RenameRule.first? rules v.name).isSome = true := by
      rw [hvname, first?_default hname]
      rfl
    refine ⟨_, CodeSyntaxReport.ofRules_of_readable fun w _ =>
      isReadable_default hallowed casing w.name, ?_⟩
    rw [CodeSyntaxReport.find?_recorded_of_mem namePrefix rules hids hv, if_pos hdescribed]
    unfold CodeSyntaxReport.referenceTo
    rw [hvname]

/-- With a prefix the words of a name in capital letters are divided, without one they are not. -/
theorem format_default_outcomes_upper :
    (∀ c ∈ "ds".toList, isPrefixChar c = true) ∧ '\n' ∉ "color/primary blue".toList ∧
      hasGap (format (rulesWithDefault [] "ds" .upper) "ds" "color/primary blue") = false ∧
      hasGap (format (rulesWithDefault [] "" .upper) "" "color/primary blue") = true := by
  have hallowed : ∀ c ∈ "ds".toList, isPrefixChar c = true :=
    List.all_eq_true.mp (by decide)
  have hname : '\n' ∉ "color/primary blue".toList := by decide
  have hgap : LeavesGap "" .upper "color/primary blue" :=
    ⟨rfl, Or.inr rfl, by decide, by decide⟩
  refine ⟨hallowed, hname, ?_, ?_⟩
  · exact (format_default_outcomes hallowed hname .upper).1.mpr fun hleaves =>
      absurd hleaves.1 (by decide)
  · have hfree := (@format_default_outcomes "" _ (by simp) hname .upper).1
    rw [← Bool.not_eq_false, hfree]
    exact not_not_intro hgap

example : format (rulesWithDefault [] "" .lower) "" "Color/Primary" = "color/primary" := by
  decide +kernel

end CssName

end DesignTokens

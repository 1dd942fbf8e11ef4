import DesignTokens.Proofs.Export.PropertyNames

/-!
# Rules of stylesheets

A sheet is read rule by rule.  The rules of the layout by modes are those of the modes, collection by
collection, and the styles join the first of them that has the plain selector, or make a rule of
their own where there is none (`Layout.rulesOf_byMode`).  The sheet of a document has two parts, the
custom properties and the utility classes, and the styles of the document are written in one of them
(`Document.cssItems_eq_ok_iff`).
-/

namespace DesignTokens

/-! ## Rules -/

/-- A rule of a sheet. -/
structure CssRule where
  selector : String
  body : List BodyItem
deriving DecidableEq, Repr

/-- The declarations of a rule. -/
def CssRule.declarations (rule : CssRule) : List Declaration :=
  rule.body.filterMap BodyItem.declaration?

/-- An item of a sheet as a rule. -/
def CssItem.rule? : CssItem → Option CssRule
  | rule selector body => some ⟨selector, body⟩
  | blank | comment _ => none

/-- The rules of a sheet in order. -/
def rulesOf (items : List CssItem) : List CssRule :=
  items.filterMap CssItem.rule?

/-- The rules of joined sheets are joined. -/
lemma rulesOf_append (a b : List CssItem) : rulesOf (a ++ b) = rulesOf a ++ rulesOf b :=
  List.filterMap_append

/-- A comment that may stand over a rule is no rule. -/
lemma rulesOf_comment (shown : Bool) (text : String) :
    rulesOf (if shown then [.comment text] else []) = [] := by
  cases shown <;> rfl

/-- The rule of a mode without the styles that join it. -/
def ModeBlock.rule (s : Settings) (b : ModeBlock) : CssRule :=
  ⟨modeSelector (Layout.selector s) b.mode b.isDefault, b.declarations.map .declaration⟩

/-- The rule of a mode declares what the mode does. -/
lemma ModeBlock.declarations_rule (s : Settings) (b : ModeBlock) :
    (b.rule s).declarations = b.declarations :=
  filterMap_declaration b.declarations

/-- The selector of a mode is the plain one for the default mode only. -/
lemma modeSelector_eq_iff {selector mode : String} {isDefault : Bool} :
    modeSelector selector mode isDefault = selector ↔ isDefault = true := by
  unfold modeSelector
  cases isDefault with
  | true => simp
  | false =>
    simp only [Bool.false_eq_true, if_false, iff_false]
    -- the selector of any other mode is longer
    intro h
    have hlength := congrArg String.length h
    simp only [toString, String.length_append] at hlength
    have hquoted : 0 < "[data-theme=\"".length := by decide
    omega

/-- The rule of a mode has the plain selector for the default mode only. -/
lemma ModeBlock.selector_rule_eq_iff {s : Settings} {b : ModeBlock} :
    (b.rule s).selector = Layout.selector s ↔ b.isDefault = true :=
  modeSelector_eq_iff

/-! ## Styles in the layout by modes -/

/-- Rules that styles have joined: the first one with the plain selector takes the styles, and the
styles make a rule of their own where there is none. -/
def joinStyles (plain : String) (styles : List BodyItem) : List CssRule → List CssRule
  | [] => if styles.isEmpty then [] else [⟨plain, styles⟩]
  | rule :: rest =>
    if rule.selector = plain then ⟨rule.selector, rule.body ++ styles⟩ :: rest
    else rule :: joinStyles plain styles rest

/-- A plain rule takes the styles. -/
lemma joinStyles_of_plain {plain : String} {styles : List BodyItem} {rule : CssRule}
    {rest : List CssRule} (h : rule.selector = plain) :
    joinStyles plain styles (rule :: rest) = ⟨rule.selector, rule.body ++ styles⟩ :: rest :=
  if_pos h

/-- Any other rule leaves them to the rules after it. -/
lemma joinStyles_of_other {plain : String} {styles : List BodyItem} {rule : CssRule}
    {rest : List CssRule} (h : rule.selector ≠ plain) :
    joinStyles plain styles (rule :: rest) = rule :: joinStyles plain styles rest :=
  if_neg h

/-- Without styles the rules stay as they are. -/
lemma joinStyles_nil (plain : String) (rules : List CssRule) : joinStyles plain [] rules = rules := by
  induction rules with
  | nil => rfl
  | cons rule rest ih =>
    unfold joinStyles
    rw [ih, List.append_nil]
    split_ifs <;> rfl

/-- Styles join the first plain rule, or come last. -/
lemma joinStyles_cases (plain : String) (styles : List BodyItem) (rules : List CssRule) :
    (∃ before body after, rules = before ++ ⟨plain, body⟩ :: after ∧
      (∀ rule ∈ before, rule.selector ≠ plain) ∧
      joinStyles plain styles rules = before ++ ⟨plain, body ++ styles⟩ :: after) ∨
    ((∀ rule ∈ rules, rule.selector ≠ plain) ∧
      joinStyles plain styles rules = rules ++ if styles.isEmpty then [] else [⟨plain, styles⟩]) := by
  induction rules with
  | nil => exact Or.inr ⟨List.forall_mem_nil _, rfl⟩
  | cons rule rest ih =>
    obtain ⟨selector, body⟩ := rule
    by_cases hplain : selector = plain
    · rw [joinStyles_of_plain hplain, hplain]
      exact Or.inl ⟨[], body, rest, rfl, List.forall_mem_nil _, rfl⟩
    · rw [joinStyles_of_other hplain]
      rcases ih with ⟨before, body', after, hrest, hbefore, hjoined⟩ | ⟨hrest, hjoined⟩
      · refine Or.inl ⟨⟨selector, body⟩ :: before, body', after, ?_, ?_, ?_⟩
        · rw [hrest]
          rfl
        · exact List.forall_mem_cons.mpr ⟨hplain, hbefore⟩
        · rw [hjoined]
          rfl
      · refine Or.inr ⟨List.forall_mem_cons.mpr ⟨hplain, hrest⟩, ?_⟩
        rw [hjoined]
        rfl

namespace Layout

variable {s : Settings}

/-- The items of the rule of a mode are one rule, with the styles at its end. -/
lemma rulesOf_blockItems (b : ModeBlock) (styles : List BodyItem) :
    rulesOf (blockItems s b styles) = [⟨(b.rule s).selector, (b.rule s).body ++ styles⟩] := by
  unfold blockItems
  rw [rulesOf_append, rulesOf_comment]
  rfl

/-- The rules of several modes take the styles up to the point where they are left to later rules. -/
lemma rulesOf_blocksItems (blocks : List ModeBlock) (styles : List BodyItem)
    (later : List CssRule) :
    rulesOf (blocksItems s blocks styles).1 ++
        joinStyles (selector s) (blocksItems s blocks styles).2 later =
      joinStyles (selector s) styles (blocks.map (ModeBlock.rule s) ++ later) := by
  induction blocks generalizing styles with
  | nil => rfl
  | cons b rest ih =>
    rw [List.map_cons, List.cons_append]
    unfold blocksItems
    dsimp only
    cases hdefault : b.isDefault with
    | true =>
      simp only [if_true]
      rw [joinStyles_of_plain (ModeBlock.selector_rule_eq_iff.mpr hdefault), rulesOf_append, rulesOf_blockItems,
        List.append_assoc, ih, joinStyles_nil]
      rfl
    | false =>
      have hother : (b.rule s).selector ≠ selector s := by
        rw [ne_eq, ModeBlock.selector_rule_eq_iff, hdefault]
        exact Bool.false_ne_true
      simp only [Bool.false_eq_true, if_false]
      rw [joinStyles_of_other hother, rulesOf_append, rulesOf_blockItems,
        List.append_assoc, ih, List.append_nil]
      rfl

/-- The rules of several collections take the styles up to the point where they are left to later
rules. -/
lemma rulesOf_collectionsItems (collections : List CollectionBlocks) (styles : List BodyItem) :
    rulesOf (collectionsItems s collections styles).1 ++
        joinStyles (selector s) (collectionsItems s collections styles).2 [] =
      joinStyles (selector s) styles
        (collections.flatMap fun c => c.blocks.map (ModeBlock.rule s)) := by
  induction collections generalizing styles with
  | nil => rfl
  | cons c rest ih =>
    unfold collectionsItems
    dsimp only
    rw [List.flatMap_cons, ← rulesOf_blocksItems, ← ih, rulesOf_append, rulesOf_append,
      rulesOf_comment, List.append_assoc]
    rfl

/-- The rules of the layout by modes are the rules of the modes after the styles have joined them. -/
theorem rulesOf_byMode (collections : List CollectionBlocks) (styles : List BodyItem) :
    rulesOf (byMode s collections styles) =
      joinStyles (selector s) styles
        (collections.flatMap fun c => c.blocks.map (ModeBlock.rule s)) := by
  rw [← rulesOf_collectionsItems]
  unfold byMode
  dsimp only
  rw [rulesOf_append]
  unfold joinStyles
  cases (collectionsItems s collections styles).2 with
  | nil => rfl
  | cons item rest => rfl

end Layout

/-! ## Parts of the sheet of a document -/

namespace Document

variable {d : Document} {s : Settings}

/-- The declarations of the styles of a document that are written as variables. -/
def styleDeclarations (d : Document) (s : Settings) : Except Fault (List Declaration) :=
  match s.styleOutput with
  | .vars => do
    let styles ← Renderer.styles { document := d, settings := s }
    return styles.map RenderedToken.flatDeclaration
  | .classes => .ok []

/-- The utility classes of a document, with a blank line before them. -/
def utilityItems (d : Document) (s : Settings) : Except Fault (List CssItem) :=
  match s.styleOutput with
  | .vars => .ok []
  | .classes => do
    let classes ← Renderer.classItems { document := d, settings := s } none (d.styleTokens s)
    return if classes.isEmpty then [] else [.blank] ++ classes

/-- The sheet of a document consists of its custom properties, those of the styles among them, and
of the utility classes. -/
theorem cssItems_eq_ok_iff {items : List CssItem} :
    d.cssItems s = .ok items ↔ ∃ styles properties classes,
      d.styleDeclarations s = .ok styles ∧
      propertyItems { document := d, settings := s } (styles.map .declaration) = .ok properties ∧
      d.utilityItems s = .ok classes ∧ properties ++ classes = items := by
  unfold styleDeclarations utilityItems
  rcases StyleOutput.eq_vars_or_eq_classes s.styleOutput with houtput | houtput
  · rw [cssItems_vars houtput, houtput]
    constructor
    · intro h
      obtain ⟨styles, hstyles, hproperties⟩ := bind_eq_ok.mp h
      refine ⟨_, items, [], bind_of_ok hstyles _, ?_, rfl, List.append_nil items⟩
      rw [List.map_map]
      exact hproperties
    · rintro ⟨_, properties, classes, hdeclared, hproperties, hclasses, rfl⟩
      obtain ⟨styles, hstyles, heq⟩ := bind_eq_ok.mp hdeclared
      cases heq
      cases hclasses
      rw [List.map_map] at hproperties
      rw [List.append_nil]
      exact (bind_of_ok hstyles _).trans hproperties
  · rw [cssItems_classes houtput, houtput]
    constructor
    · intro h
      obtain ⟨properties, hproperties, h⟩ := bind_eq_ok.mp h
      obtain ⟨classes, hclasses, h⟩ := bind_eq_ok.mp h
      exact ⟨[], properties, _, rfl, hproperties, bind_of_ok hclasses _, Except.ok.inj h⟩
    · rintro ⟨_, properties, classes, hdeclared, hproperties, hclasses, rfl⟩
      cases hdeclared
      obtain ⟨made, hmade, heq⟩ := bind_eq_ok.mp hclasses
      cases heq
      exact (bind_of_ok hproperties _).trans (bind_of_ok hmade _)

/-- The declarations of styles do not depend on the layout. -/
lemma styleDeclarations_laidOut (b : Bool) :
    d.styleDeclarations { s with modeSelectors := b } = d.styleDeclarations s := by
  have hstyles := Renderer.styles_laidOut (r := { document := d, settings := s }) b
  unfold styleDeclarations
  rw [← hstyles]
  rfl

/-- Neither do the utility classes. -/
lemma utilityItems_laidOut (b : Bool) :
    d.utilityItems { s with modeSelectors := b } = d.utilityItems s := by
  have hclasses := Renderer.classItems_laidOut (r := { document := d, settings := s }) b none
    (d.styleTokens s)
  unfold utilityItems
  rw [← hclasses]
  rfl

/-- Utility classes declare no custom properties. -/
lemma customProperties_utilityItems {classes : List CssItem} (h : d.utilityItems s = .ok classes) :
    customProperties classes = [] := by
  unfold utilityItems at h
  split at h
  · cases h
    rfl
  · obtain ⟨made, hmade, heq⟩ := bind_eq_ok.mp h
    cases heq
    split_ifs
    · rfl
    · exact customProperties_eq_nil fun name hname =>
        Renderer.not_declaresName_classItems hmade name hname

end Document

end DesignTokens

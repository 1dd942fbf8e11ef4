import DesignTokens.Proofs.Export.ModeBlocks

/-!
# Default values in both layouts

The flat layout picks a mode for each token, and the layout by modes picks one for each collection,
among the modes that its tokens have between them.  Where the tokens of a collection have the same
modes, both pick the same one: the rule of the default mode declares what the flat rule declares of
the collection, token by token (`declarationsUnder_modeBlocks`).  So the two sheets of a document
declare the same values under the plain selector, up to the place of the styles
(`Document.default_values_of_toCss`).
-/

namespace DesignTokens

/-! ## Preferred modes -/

/-- The first name that meets a condition is the same without repetitions. -/
lemma find?_eraseDups (p : String → Bool) (names : List String) :
    names.eraseDups.find? p = names.find? p := by
  -- the recursion is on the list without all copies of its first item
  match names with
  | [] => rfl
  | first :: rest =>
    rw [List.eraseDups_cons, List.find?_cons, List.find?_cons]
    cases hfirst : p first with
    | true => rfl
    | false =>
      have hother : ∀ name, decide ((!name == first) = true ∧ p name = true) = p name := by
        intro name
        by_cases heq : name = first
        · rw [heq, hfirst]
          simp
        · simp [heq]
      dsimp only
      rw [find?_eraseDups p (rest.filter fun b => !b == first), List.find?_filter]
      exact congrArg (rest.find? ·) (funext hother)
termination_by names.length
decreasing_by exact Nat.lt_succ_of_le (List.length_filter_le _ _)

/-- The preferred name is the same without repetitions. -/
lemma preferDefault?_eraseDups (names : List String) :
    preferDefault? id names.eraseDups = preferDefault? id names := by
  have hhead : names.eraseDups.head? = names.head? := by
    cases names with
    | nil => rfl
    | cons first rest =>
      rw [List.eraseDups_cons]
      rfl
  unfold preferDefault?
  rw [find?_eraseDups, hhead]

/-- Names that are repeated after a list do not change the preferred one. -/
lemma preferDefault?_append {modes rest : List String} (hne : modes ≠ []) (h : rest ⊆ modes) :
    preferDefault? id (modes ++ rest) = preferDefault? id modes := by
  have hhead : (modes ++ rest).head? = modes.head? := by
    cases modes with
    | nil => exact absurd rfl hne
    | cons first later => rfl
  have hfind : ∀ p : String → Bool, (modes ++ rest).find? p = modes.find? p := by
    intro p
    rw [List.find?_append]
    cases hfound : modes.find? p with
    | some mode => rfl
    | none =>
      refine List.find?_eq_none.mpr fun mode hmode => ?_
      exact List.find?_eq_none.mp hfound mode (h hmode)
  unfold preferDefault?
  rw [hhead, hfind]

/-- The preferred one of the names of items is the name of the preferred item. -/
lemma preferDefault?_map {α : Type} (name : α → String) (items : List α) :
    preferDefault? id (items.map name) = (preferDefault? name items).map name := by
  unfold preferDefault?
  rw [List.find?_map, List.head?_map]
  show (Option.map name (items.find? fun a => isDefaultName (name a)) <|>
    Option.map name items.head?) = _
  cases items.find? fun a => isDefaultName (name a) with
  | none => rfl
  | some first => rfl

namespace OrderedMap

variable {α : Type} {m : OrderedMap α} {e : String × α}

/-- The preferred key is that of the preferred entry. -/
lemma preferDefault?_keys (m : OrderedMap α) :
    preferDefault? id m.keys = (preferDefault? Prod.fst m).map Prod.fst :=
  preferDefault?_map Prod.fst m

/-- The value of the first entry with a key of some kind is found under the key. -/
lemma find?_of_find?_key {p : String → Bool} (h : List.find? (fun x => p x.1) m = some e) :
    find? e.1 m = some e.2 := by
  induction m with
  | nil => cases h
  | cons first rest ih =>
    obtain ⟨key, value⟩ := first
    rw [List.find?_cons] at h
    cases hkey : p key with
    | true =>
      rw [hkey] at h
      cases h
      exact if_pos rfl
    | false =>
      rw [hkey] at h
      have hkind : p e.1 = true := List.find?_some (p := fun x : String × α => p x.1) h
      have hne : key ≠ e.1 := by
        intro heq
        rw [heq, hkind] at hkey
        cases hkey
      exact (if_neg hne).trans (ih h)

/-- The value of the preferred entry is found under its key. -/
lemma find?_of_preferDefault? (h : preferDefault? Prod.fst m = some e) :
    find? e.1 m = some e.2 := by
  unfold preferDefault? at h
  cases hfound : List.find? (fun x => isDefaultName x.1) m with
  | some first =>
    rw [hfound] at h
    cases h
    exact find?_of_find?_key hfound
  | none =>
    rw [hfound] at h
    cases m with
    | nil => cases h
    | cons first rest =>
      cases h
      exact if_pos rfl

end OrderedMap

/-! ## Rules of default modes -/

section modes

variable {modes : List String} {tokens : List RenderedToken}

/-- Tokens with modes have all of the given ones. -/
def HaveModes (modes : List String) (tokens : List RenderedToken) : Prop :=
  ∀ t ∈ tokens, ∀ texts, t.value = .perMode texts → OrderedMap.keys texts = modes

/-- The modes of tokens that have the same ones begin with these. -/
lemma HaveModes.modeNames (h : HaveModes modes tokens) :
    tokens.flatMap (·.value.modeNames) = [] ∨
      ∃ rest ⊆ modes, tokens.flatMap (·.value.modeNames) = modes ++ rest := by
  induction tokens with
  | nil => exact Or.inl rfl
  | cons t later ih =>
    obtain ⟨ht, hlater⟩ := List.forall_mem_cons.mp h
    rw [List.flatMap_cons]
    cases hvalue : t.value with
    | single text => exact ih hlater
    | perMode texts =>
      have hkeys : (RenderedValue.perMode texts).modeNames = modes := ht texts hvalue
      rw [hkeys]
      refine Or.inr ⟨_, ?_, rfl⟩
      rcases ih hlater with hnil | ⟨rest, hrest, heq⟩
      · rw [hnil]
        exact List.nil_subset _
      · rw [heq]
        exact List.append_subset.mpr ⟨List.Subset.refl _, hrest⟩

/-- The preferred mode of tokens that have the same modes is the preferred one of these. -/
lemma HaveModes.preferDefault?_modesOf (h : HaveModes modes tokens) (hmodes : modes ≠ [])
    (hne : modesOf tokens ≠ []) : preferDefault? id (modesOf tokens) = preferDefault? id modes := by
  unfold modesOf at hne ⊢
  rw [preferDefault?_eraseDups]
  rcases h.modeNames with hnil | ⟨rest, hrest, heq⟩
  · rw [hnil] at hne
    exact absurd rfl hne
  · rw [heq, preferDefault?_append hmodes hrest]

/-- A token that has the same modes as the others has the same declaration in the rule of the default
mode and in the flat rule. -/
lemma HaveModes.declarationIn? (h : HaveModes modes tokens) (hmodes : modes ≠ []) {mode : String}
    (hmode : (mode, true) ∈ ruleModes tokens) {t : RenderedToken} (ht : t ∈ tokens) :
    t.declarationIn? mode true = some t.flatDeclaration := by
  obtain ⟨name, value⟩ := t
  cases value with
  | single text => rfl
  | perMode texts =>
    have hkeys : texts.keys = modes := h _ ht texts rfl
    -- the token has modes, so that the default mode is one of the modes of the collection
    have hne : modesOf tokens ≠ [] := by
      obtain ⟨first, hfirst⟩ := List.exists_mem_of_ne_nil modes hmodes
      rw [← hkeys] at hfirst
      exact List.ne_nil_of_mem (mem_modesOf.mpr ⟨_, ht, hfirst⟩)
    rw [ruleModes_of_modes hne] at hmode
    obtain ⟨preferred, _, heq⟩ := List.mem_map.mp hmode
    obtain ⟨rfl, hpreferred⟩ := Prod.mk.inj heq
    rw [h.preferDefault?_modesOf hmodes hne, ← hkeys, OrderedMap.preferDefault?_keys] at hpreferred
    obtain ⟨e, he, rfl⟩ := Option.map_eq_some_iff.mp (beq_iff_eq.mp hpreferred).symm
    have hfound := OrderedMap.find?_of_preferDefault? he
    show (OrderedMap.find? e.1 texts).map (Declaration.custom name) =
      some (.custom name (((preferDefault? Prod.fst texts).map (·.2)).getD ""))
    rw [hfound, he]
    rfl

end modes

/-! ## Declarations under a selector -/

/-- What the rules with a selector declare, in order. -/
def declarationsUnder (selector : String) (rules : List CssRule) : List Declaration :=
  (rules.filter fun rule => rule.selector = selector).flatMap CssRule.declarations

section rules

variable {plain : String} {s : Settings}

/-- A rule with the selector declares before the rules after it. -/
lemma declarationsUnder_cons_of_plain {rule : CssRule} (h : rule.selector = plain)
    (rest : List CssRule) :
    declarationsUnder plain (rule :: rest) = rule.declarations ++ declarationsUnder plain rest := by
  unfold declarationsUnder
  rw [List.filter_cons, if_pos (decide_eq_true h), List.flatMap_cons]

/-- A rule with another selector does not matter. -/
lemma declarationsUnder_cons_of_other {rule : CssRule} (h : rule.selector ≠ plain)
    (rest : List CssRule) : declarationsUnder plain (rule :: rest) = declarationsUnder plain rest := by
  unfold declarationsUnder
  rw [List.filter_cons, if_neg (mt of_decide_eq_true h)]

/-- Joined lists of rules declare one after the other. -/
lemma declarationsUnder_append (a b : List CssRule) :
    declarationsUnder plain (a ++ b) = declarationsUnder plain a ++ declarationsUnder plain b := by
  unfold declarationsUnder
  rw [List.filter_append, List.flatMap_append]

/-- The rules of the modes of a collection whose tokens have the same modes declare under the plain
selector what the flat rule declares of the collection. -/
theorem declarationsUnder_modeBlocks {modes : List String} {tokens : List RenderedToken}
    (h : HaveModes modes tokens) (hmodes : modes ≠ []) :
    declarationsUnder (Layout.selector s) ((modeBlocks tokens).map (ModeBlock.rule s)) =
      tokens.map RenderedToken.flatDeclaration := by
  by_cases hempty : tokens = []
  · rw [hempty]
    rfl
  · obtain ⟨t, ht⟩ := List.exists_mem_of_ne_nil tokens hempty
    obtain ⟨mode, hmode⟩ := exists_default_mem_ruleModes ht
    have hrules : modeBlocks tokens ≠ [] := List.ne_nil_of_mem (List.mem_map_of_mem hmode)
    have hone := Renderer.countP_plain_modeBlocks s hrules
    -- the filter that selects the plain rules leaves one, the rule of the default mode
    rw [List.countP_eq_length_filter] at hone
    obtain ⟨rule, hrule⟩ := List.length_eq_one_iff.mp hone
    have hmem : rule ∈ [rule] := List.mem_singleton_self rule
    rw [← hrule] at hmem
    obtain ⟨hmem, hplain⟩ := List.mem_filter.mp hmem
    obtain ⟨b, hb, rfl⟩ := List.mem_map.mp hmem
    obtain ⟨⟨mode, isDefault⟩, hmode, rfl⟩ := List.mem_map.mp hb
    have hdefault : isDefault = true := ModeBlock.selector_rule_eq_iff.mp (of_decide_eq_true hplain)
    rw [hdefault] at hmode
    unfold declarationsUnder
    rw [hrule, List.flatMap_singleton, ModeBlock.declarations_rule, hdefault]
    refine (List.filterMap_congr fun t ht => h.declarationIn? hmodes hmode ht).trans ?_
    exact congrFun List.filterMap_eq_map _

/-- Styles join the only plain rule of some rules, whatever rules come later. -/
lemma declarationsUnder_joinStyles_append {rules : List CssRule}
    (h : rules.countP (fun rule => rule.selector = plain) = 1) (styles : List Declaration)
    (later : List CssRule) :
    declarationsUnder plain (joinStyles plain (styles.map .declaration) (rules ++ later)) =
      declarationsUnder plain rules ++ styles ++ declarationsUnder plain later := by
  induction rules with
  | nil => cases h
  | cons rule rest ih =>
    rw [List.cons_append]
    by_cases hplain : rule.selector = plain
    · -- this is the one plain rule, so that those after it declare nothing
      rw [List.countP_cons, if_pos (decide_eq_true hplain), Nat.add_eq_right,
        List.countP_eq_zero] at h
      have hrest : declarationsUnder plain rest = [] := by
        unfold declarationsUnder
        rw [List.filter_eq_nil_iff.mpr h]
        rfl
      have hjoined : CssRule.declarations ⟨rule.selector, rule.body ++ styles.map .declaration⟩ =
          rule.declarations ++ styles := by
        unfold CssRule.declarations
        rw [List.filterMap_append, filterMap_declaration]
      have hstill : CssRule.selector ⟨rule.selector, rule.body ++ styles.map .declaration⟩ = plain :=
        hplain
      rw [joinStyles_of_plain hplain, declarationsUnder_cons_of_plain hplain,
        declarationsUnder_cons_of_plain hstill, declarationsUnder_append, hrest, hjoined,
        List.nil_append, List.append_nil]
    · rw [List.countP_cons, if_neg (mt of_decide_eq_true hplain)] at h
      rw [joinStyles_of_other hplain, declarationsUnder_cons_of_other hplain,
        declarationsUnder_cons_of_other hplain, ih h]

/-- Styles that join the rules of several collections come between what these declare, where each
collection with rules has one with the selector. -/
theorem declarationsUnder_joinStyles {α : Type} (rulesFor : α → List CssRule) {items : List α}
    (h : ∀ a ∈ items, rulesFor a ≠ [] →
      (rulesFor a).countP (fun rule => rule.selector = plain) = 1) (styles : List Declaration) :
    ∃ first later, items = first ++ later ∧
      declarationsUnder plain (joinStyles plain (styles.map .declaration)
        (items.flatMap rulesFor)) =
          first.flatMap (fun a => declarationsUnder plain (rulesFor a)) ++ styles ++
            later.flatMap fun a => declarationsUnder plain (rulesFor a) := by
  have hall : ∀ rest : List α, declarationsUnder plain (rest.flatMap rulesFor) =
      rest.flatMap fun a => declarationsUnder plain (rulesFor a) := by
    intro rest
    induction rest with
    | nil => rfl
    | cons a rest ih => rw [List.flatMap_cons, declarationsUnder_append, ih, List.flatMap_cons]
  induction items with
  | nil =>
    refine ⟨[], [], rfl, ?_⟩
    cases styles with
    | nil => rfl
    | cons first rest =>
      refine (declarationsUnder_cons_of_plain rfl []).trans ?_
      refine (List.append_nil _).trans ((filterMap_declaration (first :: rest)).trans ?_)
      exact (List.append_nil _).symm
  | cons a rest ih =>
    obtain ⟨ha, hrest⟩ := List.forall_mem_cons.mp h
    rw [List.flatMap_cons]
    -- a collection without rules, one without tokens, leaves the styles to the next one
    by_cases hnone : rulesFor a = []
    · obtain ⟨first, later, heq, hdeclared⟩ := ih hrest
      refine ⟨a :: first, later, congrArg (a :: ·) heq, ?_⟩
      rw [hnone, List.nil_append, hdeclared, List.flatMap_cons, hnone]
      rfl
    · refine ⟨[a], rest, rfl, ?_⟩
      rw [declarationsUnder_joinStyles_append (ha hnone), hall, List.flatMap_singleton]

end rules

/-! ## Both sheets of a document -/

/-- The tokens with values for modes have them for the same modes in the same order, and for at least
one. -/
def ShareModes (tokens : List (List String × Token)) : Prop :=
  ∃ modes, modes ≠ [] ∧
    ∀ x ∈ tokens, ∀ values, x.2.value = .perMode values → OrderedMap.keys values = modes

namespace Renderer

variable {r : Renderer}

/-- A rendered token with modes stands for a token with the same ones. -/
lemma exists_perMode_of_token {path : List String} {t : Token} {rendered : RenderedToken}
    (h : r.token path t = .ok rendered) {texts : OrderedMap String}
    (hvalue : rendered.value = .perMode texts) :
    ∃ values, t.value = .perMode values ∧ texts.keys = values.keys := by
  obtain ⟨value, hrendered, h⟩ := bind_eq_ok.mp h
  cases h
  unfold valueOf at hrendered
  split at hrendered
  · obtain ⟨text, _, rfl⟩ := map_eq_ok.mp hrendered
    cases hvalue
  · rename_i values hvalues
    obtain ⟨texts', htexts', rfl⟩ := map_eq_ok.mp hrendered
    refine ⟨values, hvalues, ?_⟩
    cases texts' with
    | nil => cases hvalue
    | cons first rest =>
      cases hvalue
      exact (matches_modeTexts htexts').keys.symm

/-- The tokens of a collection that share their modes are rendered with these. -/
lemma exists_haveModes_of_tokens {collection : String} {tree : TokenTree}
    {tokens : List RenderedToken} (h : r.tokens collection tree = .ok tokens)
    (hmodes : ShareModes (TokenTree.walk [collection] tree)) :
    ∃ modes, modes ≠ [] ∧ HaveModes modes tokens := by
  obtain ⟨modes, hne, hsame⟩ := hmodes
  obtain ⟨ordered, hperm, hrendered⟩ := exists_perm_of_tokens h
  refine ⟨modes, hne, fun t ht texts hvalue => ?_⟩
  obtain ⟨x, hx, htoken⟩ := exists_of_forall₂ hrendered.flip ht
  obtain ⟨values, hvalues, hkeys⟩ := exists_perMode_of_token htoken hvalue
  exact hkeys.trans (hsame x (hperm.mem_iff.mp hx) values hvalues)

/-- Where the tokens of each collection share their modes, the rules of a collection declare under the
plain selector what the flat rule declares of it. -/
lemma declarationsUnder_of_collections {collections : List (String × List RenderedToken)}
    (h : r.collections = .ok collections)
    (hshare : ∀ e ∈ r.document.selected r.settings, ShareModes (TokenTree.walk [e.1] e.2))
    {c : String × List RenderedToken} (hc : c ∈ collections) :
    declarationsUnder (Layout.selector r.settings)
      ((modeBlocks c.2).map (ModeBlock.rule r.settings)) =
        c.2.map RenderedToken.flatDeclaration := by
  unfold Renderer.collections at h
  obtain ⟨e, he, hcollection⟩ := exists_of_mem_mapM h hc
  obtain ⟨tokens, htokens, heq⟩ := bind_eq_ok.mp hcollection
  cases heq
  obtain ⟨modes, hmodes, hhave⟩ := exists_haveModes_of_tokens htokens (hshare e he)
  exact declarationsUnder_modeBlocks hhave hmodes

end Renderer

namespace Document

variable {d : Document} {s : Settings} {collections : List (String × List RenderedToken)}
  {styles : List Declaration} {classes : List CssItem}

/-- The flat sheet of a document whose parts are rendered. -/
lemma cssItems_flat
    (hcollections : Renderer.collections { document := d, settings := s } = .ok collections)
    (hstyles : d.styleDeclarations s = .ok styles) (hclasses : d.utilityItems s = .ok classes) :
    d.cssItems { s with modeSelectors := false } =
      .ok ([Layout.flat s (collections.map fun c => ⟨c.1, c.2.map RenderedToken.flatDeclaration⟩)
        (styles.map .declaration)] ++ classes) :=
  cssItems_eq_ok_iff.mpr ⟨styles, _, classes, (styleDeclarations_laidOut false).trans hstyles,
    bind_of_ok ((Renderer.collections_laidOut false).trans hcollections) _,
    (utilityItems_laidOut false).trans hclasses, rfl⟩

/-- The sheet with a rule for each mode of a document whose parts are rendered. -/
lemma cssItems_byMode
    (hcollections : Renderer.collections { document := d, settings := s } = .ok collections)
    (hstyles : d.styleDeclarations s = .ok styles) (hclasses : d.utilityItems s = .ok classes) :
    d.cssItems { s with modeSelectors := true } =
      .ok (Layout.byMode { s with modeSelectors := true }
        (collections.map fun c => ⟨c.1, modeBlocks c.2⟩) (styles.map .declaration) ++ classes) :=
  cssItems_eq_ok_iff.mpr ⟨styles, _, classes, (styleDeclarations_laidOut true).trans hstyles,
    bind_of_ok ((Renderer.collections_laidOut true).trans hcollections) _,
    (utilityItems_laidOut true).trans hclasses, rfl⟩

/-- Where the tokens of each collection share their modes, the two sheets of a document agree on the
default values.  The flat sheet declares the tokens collection by collection, and then the styles that
are written as variables.  In the sheet with a rule for each mode, the rules of a collection declare
the same for it under the plain selector, and the same styles stand between two collections, before
them all or after them all.  The utility classes of both sheets are the same. -/
theorem default_values_of_toCss {text : String} (h : d.toCss s = .ok text)
    (hshare : ∀ e ∈ d.selected s, ShareModes (TokenTree.walk [e.1] e.2)) :
    ∃ collections styles flat blocks classes,
      Renderer.collections { document := d, settings := s } = .ok collections ∧
      d.styleDeclarations s = .ok styles ∧
      d.utilityItems s = .ok classes ∧
      d.cssItems { s with modeSelectors := false } = .ok (flat ++ classes) ∧
      d.cssItems { s with modeSelectors := true } = .ok (blocks ++ classes) ∧
      flat.flatMap CssItem.declarations =
        (collections.flatMap fun c => c.2.map RenderedToken.flatDeclaration) ++ styles ∧
      rulesOf blocks = joinStyles (Layout.selector s) (styles.map .declaration)
        (collections.flatMap fun c => (modeBlocks c.2).map (ModeBlock.rule s)) ∧
      (∀ c ∈ collections, declarationsUnder (Layout.selector s)
        ((modeBlocks c.2).map (ModeBlock.rule s)) = c.2.map RenderedToken.flatDeclaration) ∧
      ∃ first later, collections = first ++ later ∧
        declarationsUnder (Layout.selector s) (rulesOf blocks) =
          (first.flatMap fun c => c.2.map RenderedToken.flatDeclaration) ++ styles ++
            later.flatMap fun c => c.2.map RenderedToken.flatDeclaration := by
  obtain ⟨items, hitems, _⟩ := bind_eq_ok.mp h
  obtain ⟨styles, properties, classes, hstyles, hproperties, hclasses, rfl⟩ :=
    cssItems_eq_ok_iff.mp hitems
  obtain ⟨collections, hcollections, _⟩ := bind_eq_ok.mp hproperties
  have hdeclared := fun c (hc : c ∈ collections) =>
    Renderer.declarationsUnder_of_collections hcollections hshare hc
  have hrules : rulesOf (Layout.byMode { s with modeSelectors := true }
      (collections.map fun c => ⟨c.1, modeBlocks c.2⟩) (styles.map .declaration)) =
        joinStyles (Layout.selector s) (styles.map .declaration)
          (collections.flatMap fun c => (modeBlocks c.2).map (ModeBlock.rule s)) := by
    rw [Layout.rulesOf_byMode, List.flatMap_map]
    rfl
  have hone : ∀ c ∈ collections, (modeBlocks c.2).map (ModeBlock.rule s) ≠ [] →
      ((modeBlocks c.2).map (ModeBlock.rule s)).countP
        (fun rule => rule.selector = Layout.selector s) = 1 :=
    fun c _ hne => Renderer.countP_plain_modeBlocks s (mt List.map_eq_nil_iff.mpr hne)
  obtain ⟨first, later, rfl, hunder⟩ := declarationsUnder_joinStyles
    (fun c : String × List RenderedToken => (modeBlocks c.2).map (ModeBlock.rule s)) hone styles
  refine ⟨_, styles, _, _, classes, hcollections, hstyles, hclasses,
    cssItems_flat hcollections hstyles hclasses, cssItems_byMode hcollections hstyles hclasses,
    ?_, hrules, hdeclared, first, later, rfl, ?_⟩
  · rw [Layout.declarations_flat, List.flatMap_map, filterMap_declaration]
  · have hfirst := fun c hc => hdeclared c (List.mem_append_left later hc)
    have hlater := fun c hc => hdeclared c (List.mem_append_right first hc)
    rw [hrules, hunder, List.flatMap_congr hfirst, List.flatMap_congr hlater]

/-- The default mode of the collection declares both tokens as the flat rule does, before the style. -/
theorem default_values_of_toCss_themed :
    (∀ e ∈ themedDocument.selected themedSettings, ShareModes (TokenTree.walk [e.1] e.2)) ∧
      ∃ flat blocks, themedDocument.cssItems { themedSettings with modeSelectors := false } =
          .ok flat ∧
        themedDocument.cssItems themedSettings = .ok blocks ∧
        flat.flatMap CssItem.declarations = [.custom "theme-dim" "0", .custom "theme-dim" "1",
          .custom "styles-paint-brand" "1"] ∧
        declarationsUnder ":root" (rulesOf blocks) = flat.flatMap CssItem.declarations := by
  have hshare : ∀ e ∈ themedDocument.selected themedSettings,
      ShareModes (TokenTree.walk [e.1] e.2) := by
    intro e he
    cases List.mem_singleton.mp he
    refine ⟨["Light", "Dark"], List.cons_ne_nil _ _, fun x hx values hvalues => ?_⟩
    rcases List.mem_cons.mp hx with rfl | hx
    · cases hvalues
      rfl
    · cases List.mem_singleton.mp hx
      cases hvalues
  have hcss := bind_of_ok cssItems_themedDocument fun items =>
    pure (cssText (themedDocument.header themedSettings cssTitle) items)
  obtain ⟨collections, styles, flat, blocks, classes, hcollections, hstyles, hclasses, hflat,
    hblocks, hdeclared, _⟩ := Document.default_values_of_toCss hcss hshare
  have hrendered : collections = [("Theme", dimTokens)] :=
    Except.ok.inj (hcollections.symm.trans collections_themedDocument)
  have hwritten : styles = [.custom "styles-paint-brand" "1"] := (Except.ok.inj hstyles).symm
  have hnone : classes = [] := (Except.ok.inj hclasses).symm
  rw [hnone, List.append_nil] at hflat hblocks
  rw [hrendered, hwritten] at hdeclared
  have hitems := Except.ok.inj (cssItems_themedDocument.symm.trans hblocks)
  refine ⟨hshare, flat, blocks, hflat, hblocks, hdeclared, ?_⟩
  rw [hdeclared, ← hitems]
  decide

end Document

end DesignTokens

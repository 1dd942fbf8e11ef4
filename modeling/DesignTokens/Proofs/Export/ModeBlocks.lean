import DesignTokens.Proofs.Export.FlatValues
import DesignTokens.Proofs.Export.Rules
import Mathlib.Data.List.Perm.Basic

/-!
# Tokens in the rules of modes

In the layout by modes a collection has a rule for each mode of its tokens, or a single rule of the
default mode where no token has modes.  The rules share out the tokens: a token with values for
several modes is declared once in the rule of each of these modes, and a token with one value for all
of them once, in the one rule with the plain selector (`sharesOut_modeBlocks`).  The styles of the
document join one rule with the plain selector, and nothing else is declared
(`Document.blocks_share_out_tokens`).
-/

namespace DesignTokens

/-! ## Modes that have rules -/

/-- A list without its repetitions has none. -/
lemma nodup_eraseDups (names : List String) : names.eraseDups.Nodup := by
  -- the recursion is on the list without all copies of its first item
  match names with
  | [] => exact List.nodup_nil
  | first :: rest =>
    rw [List.eraseDups_cons]
    refine List.nodup_cons.mpr ⟨fun hmem => ?_, nodup_eraseDups (rest.filter fun b => !b == first)⟩
    have hother := (List.mem_filter.mp (List.mem_eraseDups.mp hmem)).2
    simp at hother
termination_by names.length
decreasing_by exact Nat.lt_succ_of_le (List.length_filter_le _ _)

/-- The modes that tokens have values for, in the order of their first appearance. -/
def modesOf (tokens : List RenderedToken) : List String :=
  (tokens.flatMap (·.value.modeNames)).eraseDups

section modes

variable {tokens : List RenderedToken}

/-- A mode is one of several tokens if one of them has a value for it. -/
lemma mem_modesOf {mode : String} :
    mode ∈ modesOf tokens ↔ ∃ t ∈ tokens, mode ∈ t.value.modeNames :=
  List.mem_eraseDups.trans List.mem_flatMap

/-- Tokens with modes have a rule for each of them. -/
lemma ruleModes_of_modes (h : modesOf tokens ≠ []) :
    ruleModes tokens =
      (modesOf tokens).map fun mode => (mode, some mode == preferDefault? id (modesOf tokens)) := by
  unfold ruleModes
  split
  · rename_i hnone
    exact absurd hnone h
  · rfl

/-- Tokens without modes have one rule. -/
lemma ruleModes_of_no_modes (h : modesOf tokens = []) :
    ruleModes tokens = if tokens.isEmpty then [] else [("default", true)] := by
  unfold ruleModes
  split
  · rfl
  · rename_i hne
    exact absurd h hne

/-- No mode has two rules. -/
lemma nodup_ruleModes : ((ruleModes tokens).map Prod.fst).Nodup := by
  by_cases h : modesOf tokens = []
  · rw [ruleModes_of_no_modes h]
    split_ifs <;> simp
  · have hmodes : (ruleModes tokens).map Prod.fst = modesOf tokens := by
      rw [ruleModes_of_modes h, List.map_map]
      exact List.map_id _
    rw [hmodes]
    exact nodup_eraseDups _

/-- The modes with rules are those of the tokens, or the default mode if no token has modes. -/
lemma mem_map_fst_ruleModes {mode : String} :
    mode ∈ (ruleModes tokens).map Prod.fst ↔ (∃ t ∈ tokens, mode ∈ t.value.modeNames) ∨
      (mode = "default" ∧ tokens ≠ [] ∧ ∀ t ∈ tokens, t.value.modeNames = []) := by
  rw [← mem_modesOf]
  have hnone : modesOf tokens = [] ↔ ∀ t ∈ tokens, t.value.modeNames = [] := by
    simp only [List.eq_nil_iff_forall_not_mem, mem_modesOf]
    constructor
    · intro h t ht mode hmode
      exact h mode ⟨t, ht, hmode⟩
    · rintro h mode ⟨t, ht, hmode⟩
      exact h t ht mode hmode
  rw [← hnone]
  by_cases h : modesOf tokens = []
  · rw [ruleModes_of_no_modes h, h]
    cases tokens with
    | nil => simp
    | cons t rest => simp
  · rw [ruleModes_of_modes h, List.map_map]
    have hmodes : (modesOf tokens).map (Prod.fst ∘ fun mode =>
        (mode, some mode == preferDefault? id (modesOf tokens))) = modesOf tokens := List.map_id _
    rw [hmodes]
    simp [h]

/-- One of the rules is that of the default mode. -/
lemma countP_default_ruleModes (h : ruleModes tokens ≠ []) :
    (ruleModes tokens).countP Prod.snd = 1 := by
  by_cases hmodes : modesOf tokens = []
  · rw [ruleModes_of_no_modes hmodes] at h ⊢
    split_ifs at h ⊢ with hempty
    · exact absurd rfl h
    · rfl
  · obtain ⟨preferred, hpreferred⟩ := exists_preferDefault? id hmodes
    rw [ruleModes_of_modes hmodes, hpreferred, List.countP_map]
    have hcount := List.count_eq_one_of_mem (nodup_eraseDups _) (mem_of_preferDefault? hpreferred)
    rw [← hcount]
    exact List.countP_congr fun mode _ => by simp

end modes

/-! ## Values that tokens show -/

/-- The value that a token shows in the rule of a mode: the one for the mode, or its only value in
the rule of the default mode. -/
def Token.valueIn? (mode : String) (isDefault : Bool) (t : Token) : Option FlatValue :=
  match t.value with
  | .flat value => if isDefault then some value else none
  | .perMode modes => OrderedMap.find? mode modes

/-- The tokens that show a value in the rule of a mode, each with the value. -/
def shownIn (tokens : List (List String × Token)) (b : ModeBlock) :
    List ((List String × Token) × FlatValue) :=
  tokens.filterMap fun x => (x.2.valueIn? b.mode b.isDefault).map (Prod.mk x)

namespace Renderer

variable {r : Renderer}

/-- A declaration stands for a token that shows a value. -/
def Declares (r : Renderer) (e : (List String × Token) × FlatValue) (declared : Declaration) : Prop :=
  ∃ text, r.flatText e.1.2 e.2 = .ok text ∧ declared = .custom (r.cssName e.1.1) text

/-- The rules of the modes of a collection share out its tokens. -/
structure SharesOut (r : Renderer) (tokens : List (List String × Token)) (blocks : List ModeBlock) :
    Prop where
  /-- No two rules have one mode. -/
  nodup_modes : (blocks.map ModeBlock.mode).Nodup
  /-- The modes are those of the tokens, or a single default mode if no token has modes. -/
  mem_modes : ∀ mode, mode ∈ blocks.map ModeBlock.mode ↔ (∃ x ∈ tokens, mode ∈ x.2.modeNames) ∨
    (mode = "default" ∧ tokens ≠ [] ∧ ∀ x ∈ tokens, x.2.modeNames = [])
  /-- If there are rules, one has the plain selector. -/
  one_plain : blocks ≠ [] → (blocks.map (ModeBlock.rule r.settings)).countP
    (fun rule => rule.selector = Layout.selector r.settings) = 1
  /-- It is the rule of the default mode. -/
  plain_iff : ∀ b ∈ blocks,
    (b.rule r.settings).selector = Layout.selector r.settings ↔ b.isDefault = true
  /-- Each rule has one declaration for each token that shows a value in it, and no other. -/
  declares_each : ∀ b ∈ blocks, ∃ shown,
    shown.Perm (shownIn tokens b) ∧ List.Forall₂ r.Declares shown b.declarations

/-! ## Rendered tokens in rules -/

/-- A rendered token has the modes of the token. -/
lemma modeNames_of_token {path : List String} {t : Token} {rendered : RenderedToken}
    (h : r.token path t = .ok rendered) : rendered.value.modeNames = t.modeNames := by
  obtain ⟨value, hvalue, h⟩ := bind_eq_ok.mp h
  cases h
  unfold valueOf at hvalue
  split at hvalue
  · rename_i x hflat
    obtain ⟨text, _, rfl⟩ := map_eq_ok.mp hvalue
    unfold Token.modeNames
    rw [hflat]
    rfl
  · rename_i modes hmodes
    obtain ⟨texts, htexts, rfl⟩ := map_eq_ok.mp hvalue
    unfold Token.modeNames
    rw [hmodes]
    refine Eq.trans ?_ (matches_modeTexts htexts).keys.symm
    cases texts with
    | nil => rfl
    | cons first rest => rfl

/-- A rendered token is declared in the rule of a mode with the value that the token shows there. -/
lemma declarationIn?_of_token {path : List String} {t : Token} {rendered : RenderedToken}
    (h : r.token path t = .ok rendered) (hgiven : t.value ≠ .perMode []) (mode : String)
    (isDefault : Bool) :
    Option.Rel r.Declares ((t.valueIn? mode isDefault).map (Prod.mk (path, t)))
      (rendered.declarationIn? mode isDefault) := by
  obtain ⟨value, hvalue, h⟩ := bind_eq_ok.mp h
  cases h
  unfold valueOf at hvalue
  split at hvalue
  · rename_i x hflat
    obtain ⟨text, htext, rfl⟩ := map_eq_ok.mp hvalue
    unfold Token.valueIn? RenderedToken.declarationIn?
    rw [hflat]
    cases isDefault with
    | true => exact .some ⟨text, htext, rfl⟩
    | false => exact .none
  · rename_i modes hmodes
    obtain ⟨texts, htexts, rfl⟩ := map_eq_ok.mp hvalue
    have hmatch := matches_modeTexts htexts
    have hdeclared : RenderedToken.declarationIn? mode isDefault ⟨r.cssName path, .ofModes texts⟩ =
        (OrderedMap.find? mode texts).map (Declaration.custom (r.cssName path)) := by
      cases texts with
      | nil =>
        have hnil : modes = [] := List.map_eq_nil_iff.mp hmatch.keys
        rw [hmodes, hnil] at hgiven
        exact absurd rfl hgiven
      | cons first rest => rfl
    have hfound := hmatch.find? mode
    unfold Token.valueIn?
    rw [hdeclared, hmodes]
    dsimp only
    generalize OrderedMap.find? mode modes = shown at hfound ⊢
    generalize OrderedMap.find? mode texts = text at hfound ⊢
    cases hfound with
    | none => exact .none
    | some htext => exact .some ⟨_, htext, rfl⟩

/-- The rendered tokens of a tree are those of its tokens in some order. -/
lemma exists_perm_of_tokens {collection : String} {tree : TokenTree} {tokens : List RenderedToken}
    (h : r.tokens collection tree = .ok tokens) :
    ∃ ordered, ordered.Perm (TokenTree.walk [collection] tree) ∧
      List.Forall₂ (fun x t => r.token x.1 x.2 = .ok t) ordered tokens := by
  unfold Renderer.tokens at h
  obtain ⟨rendered, hrendered, hsorted⟩ := bind_eq_ok.mp h
  have hmatched := forall₂_of_mapM hrendered
  obtain ⟨ordered, hordered, hperm⟩ :=
    List.perm_comp_forall₂ (NaturalOrder.perm_sortBy hsorted) hmatched.flip
  exact ⟨ordered, hperm, hordered.flip⟩

/-- Rendered tokens have the modes of the tokens, token by token. -/
lemma map_modeNames {ordered : List (List String × Token)} {rendered : List RenderedToken}
    (h : List.Forall₂ (fun x t => r.token x.1 x.2 = .ok t) ordered rendered) :
    (rendered.map fun t => t.value.modeNames) = ordered.map fun x => x.2.modeNames := by
  induction h with
  | nil => rfl
  | cons hfirst _ ih => rw [List.map_cons, List.map_cons, ih, modeNames_of_token hfirst]

section rendered

variable {tokens ordered : List (List String × Token)} {rendered : List RenderedToken}

/-- The rules of rendered tokens have the modes of the tokens, or the default mode if no token has
modes. -/
lemma mem_modes_modeBlocks (hperm : ordered.Perm tokens)
    (hrendered : List.Forall₂ (fun x t => r.token x.1 x.2 = .ok t) ordered rendered)
    {mode : String} :
    mode ∈ (ruleModes rendered).map Prod.fst ↔ (∃ x ∈ tokens, mode ∈ x.2.modeNames) ∨
      (mode = "default" ∧ tokens ≠ [] ∧ ∀ x ∈ tokens, x.2.modeNames = []) := by
  -- both sides speak of the same mode names, up to their order
  have hsame : (rendered.map fun t => t.value.modeNames).Perm
      (tokens.map fun x => x.2.modeNames) := by
    rw [map_modeNames hrendered]
    exact hperm.map _
  have hempty : rendered = [] ↔ tokens = [] := by
    rw [← List.length_eq_zero_iff, ← List.length_eq_zero_iff, ← List.length_map, hsame.length_eq,
      List.length_map]
  have hsome : (∃ t ∈ rendered, mode ∈ t.value.modeNames) ↔ ∃ x ∈ tokens, mode ∈ x.2.modeNames := by
    have hmem : (∃ names ∈ rendered.map fun t => t.value.modeNames, mode ∈ names) ↔
        ∃ names ∈ tokens.map fun x => x.2.modeNames, mode ∈ names :=
      exists_congr fun names => and_congr_left' hsame.mem_iff
    simpa using hmem
  have hall : (∀ t ∈ rendered, t.value.modeNames = []) ↔ ∀ x ∈ tokens, x.2.modeNames = [] := by
    have hmem : (∀ names ∈ rendered.map fun t => t.value.modeNames, names = []) ↔
        ∀ names ∈ tokens.map fun x => x.2.modeNames, names = [] :=
      forall_congr' fun names => imp_congr_left hsame.mem_iff
    exact List.forall_mem_map.symm.trans (hmem.trans List.forall_mem_map)
  rw [mem_map_fst_ruleModes, hsome, hall, ne_eq, hempty]

/-- If tokens have rules, one of the rules has the plain selector. -/
lemma countP_plain_modeBlocks (s : Settings) (h : modeBlocks rendered ≠ []) :
    ((modeBlocks rendered).map (ModeBlock.rule s)).countP
      (fun rule => rule.selector = Layout.selector s) = 1 := by
  have hrules : ruleModes rendered ≠ [] := fun hnil => h (List.map_eq_nil_iff.mpr hnil)
  have hdefault : (modeBlocks rendered).countP ModeBlock.isDefault = 1 := by
    rw [← countP_default_ruleModes hrules]
    exact List.countP_map
  rw [← hdefault, List.countP_map]
  refine List.countP_congr fun b _ => ?_
  rw [Function.comp_apply, decide_eq_true_iff, ModeBlock.selector_rule_eq_iff]

/-- The rules of the modes of rendered tokens share out the tokens. -/
theorem sharesOut_modeBlocks (hperm : ordered.Perm tokens)
    (hrendered : List.Forall₂ (fun x t => r.token x.1 x.2 = .ok t) ordered rendered)
    (hgiven : ∀ x ∈ tokens, x.2.value ≠ .perMode []) :
    r.SharesOut tokens (modeBlocks rendered) := by
  have hmodes : (modeBlocks rendered).map ModeBlock.mode = (ruleModes rendered).map Prod.fst :=
    List.map_map
  refine ⟨?_, fun mode => ?_, countP_plain_modeBlocks r.settings, fun b _ => ModeBlock.selector_rule_eq_iff,
    fun b hb => ?_⟩
  · rw [hmodes]
    exact nodup_ruleModes
  · rw [hmodes]
    exact mem_modes_modeBlocks hperm hrendered
  · obtain ⟨⟨mode, isDefault⟩, _, rfl⟩ := List.mem_map.mp hb
    refine ⟨_, hperm.filterMap _, ?_⟩
    have hboth := (List.forall₂_and_left ordered rendered).mpr
      ⟨fun x hx => hgiven x (hperm.mem_iff.mp hx), hrendered⟩
    exact List.rel_filterMap
      (fun x t ⟨hx, ht⟩ => declarationIn?_of_token ht hx mode isDefault) hboth

end rendered

/-- Each selected collection has rules that share out its tokens. -/
lemma forall₂_sharesOut {collections : List (String × List RenderedToken)}
    (h : r.collections = .ok collections)
    (hgiven : ∀ e ∈ r.document.selected r.settings, ∀ x ∈ TokenTree.walk [e.1] e.2,
      x.2.value ≠ .perMode []) :
    List.Forall₂ (fun e blocks => r.SharesOut (TokenTree.walk [e.1] e.2) blocks)
      (r.document.selected r.settings) (collections.map fun c => modeBlocks c.2) := by
  unfold Renderer.collections at h
  have hboth := (List.forall₂_and_left _ _).mpr ⟨hgiven, forall₂_of_mapM h⟩
  refine List.forall₂_map_right_iff.mpr (hboth.imp fun e c ⟨hvalues, hcollection⟩ => ?_)
  obtain ⟨tokens, htokens, heq⟩ := bind_eq_ok.mp hcollection
  cases heq
  obtain ⟨ordered, hperm, hrendered⟩ := exists_perm_of_tokens htokens
  exact sharesOut_modeBlocks hperm hrendered hvalues

end Renderer

/-! ## The sheet of a document -/

/-- Styles that have joined the rules of collections stand in one rule with the plain selector, after
what the rule declares by itself.  It is the rule of a mode, unless no collection has any rule. -/
lemma exists_of_joinStyles {s : Settings} {sections : List (List ModeBlock)}
    (hplain : ∀ blocks ∈ sections, blocks ≠ [] → (blocks.map (ModeBlock.rule s)).countP
      (fun rule => rule.selector = Layout.selector s) = 1)
    {styles : List BodyItem} (hstyles : styles ≠ []) :
    ∃ before body after,
      joinStyles (Layout.selector s) styles (sections.flatten.map (ModeBlock.rule s)) =
        before ++ ⟨Layout.selector s, body ++ styles⟩ :: after ∧
      (sections.flatten.map (ModeBlock.rule s) = before ++ ⟨Layout.selector s, body⟩ :: after ∨
        sections.flatten = [] ∧ before = [] ∧ body = [] ∧ after = []) := by
  obtain ⟨before, body, after, hrules, _, hjoined⟩ | ⟨hother, hjoined⟩ :=
    joinStyles_cases (Layout.selector s) styles (sections.flatten.map (ModeBlock.rule s))
  · exact ⟨before, body, after, hjoined, Or.inl hrules⟩
  · -- a collection with rules would have one with the plain selector
    have hnone : sections.flatten = [] := by
      refine List.flatten_eq_nil_iff.mpr fun blocks hblocks => ?_
      by_contra hne
      have hcount := hplain blocks hblocks hne
      have hpos : 0 < (blocks.map (ModeBlock.rule s)).countP
          (fun rule => rule.selector = Layout.selector s) := by omega
      obtain ⟨rule, hrule, hselector⟩ := List.countP_pos_iff.mp hpos
      obtain ⟨b, hb, rfl⟩ := List.mem_map.mp hrule
      exact hother _ (List.mem_map_of_mem (List.mem_flatten_of_mem hblocks hb))
        (of_decide_eq_true hselector)
    have hempty : styles.isEmpty = false := List.isEmpty_eq_false_iff.mpr hstyles
    rw [hnone, hempty] at hjoined
    refine ⟨[], [], [], ?_, Or.inr ⟨hnone, rfl, rfl, rfl⟩⟩
    rw [hnone]
    exact hjoined

namespace Document

variable {d : Document} {s : Settings}

/-- In the layout by modes the rules of each selected collection share out its tokens.  The rules of
the sheet are those of the collections one after the other, and the styles that are written as
variables stand in one of them, which has the plain selector; they have a rule of their own, with the
plain selector, if no collection has any rule. -/
theorem blocks_share_out_tokens {text : String} (h : d.toCss s = .ok text)
    (hmodes : s.modeSelectors = true)
    (hgiven : ∀ e ∈ d.selected s, ∀ x ∈ TokenTree.walk [e.1] e.2, x.2.value ≠ .perMode []) :
    ∃ styles properties classes sections,
      d.styleDeclarations s = .ok styles ∧
      d.utilityItems s = .ok classes ∧
      d.cssItems s = .ok (properties ++ classes) ∧
      text = cssText (d.header s cssTitle) (properties ++ classes) ∧
      List.Forall₂ (fun e blocks => Renderer.SharesOut { document := d, settings := s }
        (TokenTree.walk [e.1] e.2) blocks) (d.selected s) sections ∧
      (styles = [] → rulesOf properties = sections.flatten.map (ModeBlock.rule s)) ∧
      (styles ≠ [] → ∃ before body after,
        rulesOf properties =
          before ++ ⟨Layout.selector s, body ++ styles.map .declaration⟩ :: after ∧
        (sections.flatten.map (ModeBlock.rule s) = before ++ ⟨Layout.selector s, body⟩ :: after ∨
          sections.flatten = [] ∧ before = [] ∧ body = [] ∧ after = [])) := by
  obtain ⟨items, hitems, htext⟩ := bind_eq_ok.mp h
  obtain ⟨styles, properties, classes, hstyles, hproperties, hclasses, rfl⟩ :=
    cssItems_eq_ok_iff.mp hitems
  obtain ⟨collections, hcollections, hlayout⟩ := bind_eq_ok.mp hproperties
  rw [hmodes] at hlayout
  have hshares := Renderer.forall₂_sharesOut hcollections hgiven
  have hrules : rulesOf properties = joinStyles (Layout.selector s) (styles.map .declaration)
      ((collections.map fun c => modeBlocks c.2).flatten.map (ModeBlock.rule s)) := by
    rw [← Except.ok.inj hlayout]
    refine (Layout.rulesOf_byMode _ _).trans ?_
    rw [List.flatMap_map, List.map_flatten, List.map_map, List.flatMap_def]
    rfl
  refine ⟨styles, properties, classes, _, hstyles, hclasses, hitems, (Except.ok.inj htext).symm,
    hshares, fun hnone => ?_, fun hne => ?_⟩
  · rw [hrules, hnone]
    exact joinStyles_nil _ _
  · rw [hrules]
    refine exists_of_joinStyles (fun blocks hblocks => ?_) (mt List.map_eq_nil_iff.mp hne)
    obtain ⟨e, _, hshared⟩ := exists_of_forall₂ hshares.flip hblocks
    exact hshared.one_plain

end Document

/-! ### Two modes and a style -/

/-- A document with a token of two modes and one without, of the same name, and a style. -/
def themedDocument : Document :=
  { dimDocument with
    styles := some { paint := some [("brand",
      .token { type := .boolean, value := .flat (.literal (.bool true)) })] } }

/-- Settings that ask for rules of modes and for styles. -/
def themedSettings : Settings := { modeSelectors := true, includeStyles := true }

/-- The rules of the document: the default mode also has the token without modes and the style. -/
def themedRules : List CssRule :=
  [⟨":root", [.declaration (.custom "theme-dim" "0"), .declaration (.custom "theme-dim" "1"),
      .declaration (.custom "styles-paint-brand" "1")]⟩,
    ⟨":root[data-theme=\"dark\"], .theme-dark", [.declaration (.custom "theme-dim" "1")]⟩]

/-- The tokens of the document. -/
def dimTree : TokenTree :=
  [("dim", .token dimmed),
    ("Dim", .token { type := .boolean, value := .flat (.literal (.bool true)) })]

/-- The tokens of the document are rendered in the order of their names. -/
lemma collections_themedDocument :
    Renderer.collections { document := themedDocument, settings := themedSettings } =
      .ok [("Theme", dimTokens)] := by
  have hrendered : (TokenTree.walk ["Theme"] dimTree).mapM (fun x =>
      Renderer.token { document := themedDocument, settings := themedSettings } x.1 x.2) =
        .ok dimTokens := rfl
  have htokens : Renderer.tokens { document := themedDocument, settings := themedSettings } "Theme"
      dimTree = .ok dimTokens := (bind_of_ok hrendered _).trans sortBy_dimTokens
  exact mapM_singleton (bind_of_ok htokens _)

/-- The sheet of the document. -/
lemma cssItems_themedDocument :
    themedDocument.cssItems themedSettings =
      .ok (Layout.byMode themedSettings [⟨"Theme", modeBlocks dimTokens⟩]
        [.declaration (.custom "styles-paint-brand" "1")]) := by
  rw [Document.cssItems_vars rfl]
  refine (bind_of_ok rfl _).trans ?_
  exact bind_of_ok collections_themedDocument _

/-- The rules share out both tokens, and the style joins the rule of the default mode. -/
theorem Document.blocks_share_out_tokens_themed :
    themedSettings.modeSelectors = true ∧
      (∀ e ∈ themedDocument.selected themedSettings, ∀ x ∈ TokenTree.walk [e.1] e.2,
        x.2.value ≠ .perMode []) ∧
      ∃ items, themedDocument.toCss themedSettings =
          .ok (cssText (themedDocument.header themedSettings cssTitle) items) ∧
        rulesOf items = themedRules ∧
        ∃ sections, List.Forall₂ (fun e blocks =>
          Renderer.SharesOut { document := themedDocument, settings := themedSettings }
            (TokenTree.walk [e.1] e.2) blocks) (themedDocument.selected themedSettings) sections := by
  have hgiven : ∀ e ∈ themedDocument.selected themedSettings, ∀ x ∈ TokenTree.walk [e.1] e.2,
      x.2.value ≠ .perMode [] := by
    intro e he x hx
    cases List.mem_singleton.mp he
    rcases List.mem_cons.mp hx with rfl | hx
    · exact nofun
    · cases List.mem_singleton.mp hx
      exact nofun
  have hcss := bind_of_ok cssItems_themedDocument fun items =>
    pure (cssText (themedDocument.header themedSettings cssTitle) items)
  obtain ⟨_, _, _, sections, _, _, _, _, hshares, _, _⟩ :=
    Document.blocks_share_out_tokens hcss rfl hgiven
  exact ⟨rfl, hgiven, _, hcss, by decide, sections, hshares⟩

end DesignTokens

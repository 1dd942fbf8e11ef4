import DesignTokens.Export.DirectStyles
import DesignTokens.Proofs.OrderedMap
import DesignTokens.Proofs.Outcome

/-!
# Classes and mixins of styles

The styles of a library are written as utility classes for CSS and as mixins for SCSS.  Both are
written whenever one of them is, kind by kind and style by style in the same order
(`StyleScope.exists_mixinItems_iff`).  The mixins of text and grid styles declare what the classes
do, each value turned into one for SCSS.  The class of an effect style has a declaration each for its
shadows, its blurs and those behind it, but its mixin always declares one box shadow; they declare
the same exactly for the styles that show shadows and no blurs (`StyleScope.mixins_of_classes`).
-/

namespace DesignTokens

/-! ## Lists that are matched item by item -/

/-- Three lists are matched item by item. -/
inductive Forall₃ {α β γ : Type} (R : α → β → γ → Prop) : List α → List β → List γ → Prop
  | nil : Forall₃ R [] [] []
  | cons {a : α} {b : β} {c : γ} {as : List α} {bs : List β} {cs : List γ} (first : R a b c)
      (rest : Forall₃ R as bs cs) : Forall₃ R (a :: as) (b :: bs) (c :: cs)

section matching

variable {ε α β γ δ η : Type} {f : α → Except ε β} {g : α → Except ε γ} {items : List α}

/-- Items are matched with the results of two conversions. -/
lemma forall₃_of_mapM {R : α → β → γ → Prop} {bs : List β} {cs : List γ}
    (hf : items.mapM f = .ok bs) (hg : items.mapM g = .ok cs)
    (hstep : ∀ a b c, f a = .ok b → g a = .ok c → R a b c) : Forall₃ R items bs cs := by
  induction items generalizing bs cs with
  | nil =>
    cases hf
    cases hg
    exact .nil
  | cons a rest ih =>
    rw [List.mapM_cons] at hf hg
    obtain ⟨b, hb, hf⟩ := bind_eq_ok.mp hf
    obtain ⟨_, hbs, hf⟩ := bind_eq_ok.mp hf
    obtain ⟨c, hc, hg⟩ := bind_eq_ok.mp hg
    obtain ⟨_, hcs, hg⟩ := bind_eq_ok.mp hg
    cases hf
    cases hg
    exact .cons (hstep a b c hb hc) (ih hbs hcs)

/-- Items that are shown one by one are matched with what is shown. -/
lemma forall₃_map {R : α → β → γ → Prop} {left : α → β} {right : α → γ}
    (h : ∀ a, R a (left a) (right a)) (items : List α) :
    Forall₃ R items (items.map left) (items.map right) := by
  induction items with
  | nil => exact .nil
  | cons a rest ih => exact .cons (h a) ih

/-- Two conversions of one list have a section for each item. -/
lemma exists_sections {left : α → β → δ} {right : α → γ → η} {ds : List δ} {es : List η}
    (hf : items.mapM (fun a => do return left a (← f a)) = .ok ds)
    (hg : items.mapM (fun a => do return right a (← g a)) = .ok es) :
    ∃ sections : List (α × β × γ), sections.map (·.1) = items ∧
      ds = sections.map (fun e => left e.1 e.2.1) ∧ es = sections.map (fun e => right e.1 e.2.2) ∧
      ∀ e ∈ sections, f e.1 = .ok e.2.1 ∧ g e.1 = .ok e.2.2 := by
  induction items generalizing ds es with
  | nil =>
    cases hf
    cases hg
    exact ⟨[], rfl, rfl, rfl, List.forall_mem_nil _⟩
  | cons a rest ih =>
    rw [List.mapM_cons] at hf hg
    obtain ⟨_, hd, hf⟩ := bind_eq_ok.mp hf
    obtain ⟨_, hds, hf⟩ := bind_eq_ok.mp hf
    obtain ⟨_, he, hg⟩ := bind_eq_ok.mp hg
    obtain ⟨_, hes, hg⟩ := bind_eq_ok.mp hg
    obtain ⟨b, hb, hd⟩ := bind_eq_ok.mp hd
    obtain ⟨c, hc, he⟩ := bind_eq_ok.mp he
    cases hf
    cases hg
    cases hd
    cases he
    obtain ⟨sections, rfl, rfl, rfl, hsections⟩ := ih hds hes
    exact ⟨(a, b, c) :: sections, rfl, rfl, rfl, List.forall_mem_cons.mpr ⟨⟨hb, hc⟩, hsections⟩⟩

end matching

/-! ## What a style declares -/

/-- The declarations inside a mixin. -/
def ScssItem.body : ScssItem → List Declaration
  | .mixin _ _ body => body
  | .blank | .comment _ | .declaration _ => []

/-- A style shows shadows and no blurs. -/
def EffectStyle.ShowsShadowsOnly (style : EffectStyle) : Prop :=
  style.hasShadow = true ∧ style.blurs = []

/-- A style is written as one class and one mixin under its name.  The mixin declares what the class
does, with the values for SCSS, in a certain case and in no other. -/
def IsClassAndMixin (name : String) (same : Prop) (rules : List CssItem) (mixin : ScssItem) : Prop :=
  ∃ declared applied, rules = [.ofDeclarations ("." ++ name) declared] ∧
    mixin = .mixin name "" applied ∧ (applied = declared.map Declaration.toScss ↔ same)

/-- The filter of a style without blurs is missing. -/
lemma EffectStyle.filter?_of_no_blurs {style : EffectStyle} (h : style.blurs = [])
    (names : VariableNames) (background : Bool) : style.filter? names background = none := by
  unfold EffectStyle.filter?
  rw [h]
  rfl

/-- A style with a blur has a filter for it. -/
lemma EffectStyle.exists_filter? {style : EffectStyle} (h : style.blurs ≠ [])
    (names : VariableNames) : ∃ background text, style.filter? names background = some text := by
  obtain ⟨blur, hblur⟩ := List.exists_mem_of_ne_nil _ h
  refine ⟨blur.1.background, _, if_neg fun hempty => ?_⟩
  rw [List.isEmpty_iff, List.map_eq_nil_iff] at hempty
  have hmem : blur ∈ style.blurs.filter (·.1.background == blur.1.background) :=
    List.mem_filter.mpr ⟨hblur, beq_self_eq_true _⟩
  rw [hempty] at hmem
  exact List.not_mem_nil hmem

namespace StyleScope

variable {s : StyleScope}

/-- A class without anything in front of its name. -/
lemma classRule_empty (s : StyleScope) (name : String) (properties : List Property) :
    s.classRule "" name properties =
      .ofDeclarations ("." ++ s.nameOf name) (Renderer.declarationsOf properties) := by
  unfold classRule
  rw [String.append_empty]

/-- A class and a mixin that set the same properties. -/
lemma isClassAndMixin_of_properties (s : StyleScope) (name : String) (properties : List Property) :
    IsClassAndMixin (s.nameOf name) True [s.classRule "" name properties]
      (.mixinOfCss (s.nameOf name) "" (Renderer.declarationsOf properties)) :=
  ⟨_, _, congrArg ([·]) (s.classRule_empty name properties), rfl, iff_of_true rfl trivial⟩

/-- One box shadow is all that the class of an effect style declares, exactly if the style shows
shadows and no blurs. -/
lemma effectProperties_eq_iff {style : EffectStyle} {text : String} {properties : List Property}
    (htext : s.effectText style = .ok text) (h : s.effectProperties style = .ok properties) :
    [(Declaration.mk "box-shadow" text).toScss] =
        (Renderer.declarationsOf properties).map Declaration.toScss ↔ style.ShowsShadowsOnly := by
  unfold effectProperties at h
  rw [bind_of_ok htext] at h
  cases h
  unfold EffectStyle.ShowsShadowsOnly
  by_cases hblurs : style.blurs = []
  · rw [EffectStyle.filter?_of_no_blurs hblurs, EffectStyle.filter?_of_no_blurs hblurs]
    cases style.hasShadow <;> simp [propertyList, Renderer.declarationsOf, hblurs]
  · refine ⟨fun heq => ?_, fun hshows => absurd hshows.2 hblurs⟩
    -- The class declares a filter, which is no box shadow.
    obtain ⟨background, filter, hfilter⟩ := EffectStyle.exists_filter? hblurs s.names
    have hall : ∀ p ∈ ["filter", "backdrop-filter"], ∀ declared ∈
        (Renderer.declarationsOf (propertyList "box-shadow"
          (if style.hasShadow then some text else none) ++
          propertyList "filter" (style.filter? s.names false) ++
          propertyList "backdrop-filter" (style.filter? s.names true))).map Declaration.toScss,
          declared.property ≠ p := by
      rw [← heq]
      simp [Declaration.toScss]
    cases background with
    | false =>
      refine absurd rfl (hall "filter" (by simp) (Declaration.mk "filter" filter).toScss ?_)
      rw [hfilter]
      simp [propertyList, Renderer.declarationsOf]
    | true =>
      refine absurd rfl
        (hall "backdrop-filter" (by simp) (Declaration.mk "backdrop-filter" filter).toScss ?_)
      rw [hfilter]
      simp [propertyList, Renderer.declarationsOf]

/-- The classes and mixins of the styles of a kind, style by style.  For text and grid styles the
mixins declare what the classes do, and for effect styles those do whose styles show shadows and no
blurs; their mixins always declare one box shadow. -/
def Correspond (s : StyleScope) : StyleKind → List (List CssItem) → List ScssItem → Prop
  | .paint => fun _ _ => True
  | .text => Forall₃ (fun style => IsClassAndMixin (s.nameOf style.name) True) s.styles.text
  | .effect => Forall₃ (fun style rules mixin =>
      IsClassAndMixin (s.nameOf style.name) style.ShowsShadowsOnly rules mixin ∧
        ∃ text, s.effectText style = .ok text ∧
          mixin.body = [(Declaration.mk "box-shadow" text).toScss]) s.styles.effect
  | .grid => Forall₃ (fun style => IsClassAndMixin (s.nameOf style.name) True) s.styles.grid

/-- The classes and mixins of the styles of a kind correspond. -/
theorem correspond_of_classRules {kind : StyleKind} {rules : List (List CssItem)}
    {mixins : List ScssItem} (hrules : s.classRules kind = .ok rules)
    (hmixins : s.mixins kind = .ok mixins) : s.Correspond kind rules mixins := by
  cases kind with
  | paint => exact trivial
  | text =>
    refine forall₃_of_mapM hrules hmixins fun style classes mixin hclasses hmixin => ?_
    obtain ⟨properties, hproperties, hclasses⟩ := bind_eq_ok.mp hclasses
    rw [bind_of_ok hproperties] at hmixin
    cases hclasses
    cases hmixin
    exact s.isClassAndMixin_of_properties style.name properties
  | effect =>
    refine forall₃_of_mapM hrules hmixins fun style classes mixin hclasses hmixin => ?_
    obtain ⟨properties, hproperties, hclasses⟩ := bind_eq_ok.mp hclasses
    obtain ⟨text, htext, hmixin⟩ := bind_eq_ok.mp hmixin
    cases hclasses
    cases hmixin
    exact ⟨⟨_, _, congrArg ([·]) (s.classRule_empty style.name properties), rfl,
      effectProperties_eq_iff htext hproperties⟩, text, htext, rfl⟩
  | grid =>
    cases hrules
    cases hmixins
    refine forall₃_map (fun style => ?_) _
    exact s.isClassAndMixin_of_properties style.name (gridProperties style)

/-! ## Sheets -/

/-- The classes of a kind are written if its mixins are. -/
lemma exists_classRules_iff (kind : StyleKind) :
    (∃ rules, s.classRules kind = .ok rules) ↔ ∃ mixins, s.mixins kind = .ok mixins := by
  cases kind with
  | paint => exact exists_mapM_congr fun style => exists_bind_pure_iff.trans exists_bind_pure_iff.symm
  | text => exact exists_mapM_congr fun style => exists_bind_pure_iff.trans exists_bind_pure_iff.symm
  | effect =>
    refine exists_mapM_congr fun style => ?_
    exact exists_bind_pure_iff.trans (exists_bind_pure_iff.trans exists_bind_pure_iff.symm)
  | grid => exact ⟨fun _ => ⟨_, rfl⟩, fun _ => ⟨_, rfl⟩⟩

/-- The classes of a library are written if its mixins are. -/
theorem exists_mixinItems_iff :
    (∃ css, s.classItems = .ok css) ↔ ∃ scss, s.mixinItems = .ok scss := by
  refine exists_bind_pure_iff.trans (Iff.trans ?_ exists_bind_pure_iff.symm)
  refine exists_mapM_congr fun kind => ?_
  exact exists_bind_pure_iff.trans ((exists_classRules_iff kind).trans exists_bind_pure_iff.symm)

/-- The styles of a library are written as classes whenever they are written as mixins.  Both sheets
have a section for each kind in the same order, with the classes and the mixins of the styles of the
kind one after the other.  The mixin of a text or grid style declares what its class does, in order
and with the values for SCSS.  The mixin of an effect style declares one box shadow, and this is what
the class declares exactly if the style shows shadows and no blurs. -/
theorem mixins_of_classes (s : StyleScope) :
    ((∃ css, s.classItems = .ok css) ↔ ∃ scss, s.mixinItems = .ok scss) ∧
    ∀ css scss, s.classItems = .ok css → s.mixinItems = .ok scss →
      ∃ sections : List (StyleKind × List (List CssItem) × List ScssItem),
        sections.map (·.1) = s.orderedKinds ∧
        css = sections.flatMap (fun e =>
          .comment (Renderer.classesTitle e.1) :: e.2.1.flatMap (· ++ [.blank])) ∧
        scss = sections.flatMap (fun e =>
          .comment (e.1.title ++ " Style Mixins") :: e.2.2.flatMap fun item => [item, .blank]) ∧
        ∀ e ∈ sections, s.Correspond e.1 e.2.1 e.2.2 := by
  refine ⟨exists_mixinItems_iff, fun css scss hcss hscss => ?_⟩
  obtain ⟨classes, hclasses, hcss⟩ := bind_eq_ok.mp hcss
  obtain ⟨mixins, hmixins, hscss⟩ := bind_eq_ok.mp hscss
  cases hcss
  cases hscss
  obtain ⟨sections, hkinds, rfl, rfl, hsections⟩ := exists_sections hclasses hmixins
  refine ⟨sections, hkinds, List.flatMap_def.symm, List.flatMap_def.symm, fun e he => ?_⟩
  exact correspond_of_classRules (hsections e he).1 (hsections e he).2

/-! ### A style that blurs its layer -/

/-- A library with one effect style, which blurs its layer. -/
def blurScope : StyleScope where
  styles := { effect := [{ id := "s", name := "blur", effects := [⟨.blur ⟨false, 4.0⟩, true⟩] }] }
  settings := {}

/-- The class of the style. -/
def blurClass : CssItem :=
  .ofDeclarations ".blur" [⟨"filter", "blur(" ++ pixels 4.0 ++ ")"⟩]

/-- The mixin of the style. -/
def blurMixin : ScssItem :=
  .mixinOfCss "blur" "" [⟨"box-shadow", "blur(" ++ pixels 4.0 ++ ")"⟩]

/-- The class of the style declares a filter, and its mixin a box shadow with the same text. -/
theorem mixins_of_classes_blur :
    blurScope.classItems = .ok [.comment "Effect Style Classes", blurClass, .blank] ∧
      blurScope.mixinItems = .ok [.comment "Effect Style Mixins", blurMixin, .blank] ∧
      (∀ style ∈ blurScope.styles.effect, ¬ style.ShowsShadowsOnly) ∧
      ∃ classes mixins, classes.flatMap (· ++ [.blank]) = [blurClass, .blank] ∧
        (mixins.flatMap fun item => [item, .blank]) = [blurMixin, .blank] ∧
        blurScope.Correspond .effect classes mixins := by
  have hclasses : blurScope.classItems =
      .ok [.comment "Effect Style Classes", blurClass, .blank] := rfl
  have hmixins : blurScope.mixinItems =
      .ok [.comment "Effect Style Mixins", blurMixin, .blank] := rfl
  obtain ⟨sections, hkinds, hcss, hscss, hsections⟩ :=
    blurScope.mixins_of_classes.2 _ _ hclasses hmixins
  refine ⟨hclasses, hmixins, ?_, ?_⟩
  · rintro style hstyle ⟨_, hblurs⟩
    rw [List.mem_singleton.mp hstyle] at hblurs
    exact absurd hblurs (List.cons_ne_nil _ _)
  · obtain ⟨e, rfl, hkind⟩ := List.map_eq_singleton_iff.mp hkinds
    obtain ⟨kind, classes, mixins⟩ := e
    cases hkind
    rw [List.flatMap_singleton] at hcss hscss
    exact ⟨classes, mixins, (List.cons.inj hcss).2.symm, (List.cons.inj hscss).2.symm,
      hsections _ (List.mem_singleton_self _)⟩

end StyleScope

end DesignTokens

import DesignTokens.Token.FromLibrary
import Mathlib.Data.List.Basic

/-!
# Styles without their hidden layers

The bindings of an effect style stand in a list of their own, by the positions of the effects, and
hidden effects take positions as well.  When the hidden effects are taken out together with the
bindings at their positions (`EffectStyle.withoutHidden`), every visible effect moves forward, and
its binding with it.  What is written for the style depends on the visible effects and their
bindings only (`EffectStyle.visible_withoutHidden`), and what is written for a grid style on the
visible grids only, so that hidden layers leave no trace (`values_withoutHidden`).
-/

namespace DesignTokens

/-! ## Effect styles -/

namespace EffectStyle

/-- The bindings that are left when the hidden ones of some effects are taken out together with the
bindings at their positions.  A visible effect whose binding is missing gets an empty one; bindings
behind the last effect stay. -/
def keptBindings : List Effect → List EffectBinding → List EffectBinding
  | [], bindings => bindings
  | effect :: rest, bindings =>
    if effect.visible then bindings.headD {} :: keptBindings rest bindings.tail
    else keptBindings rest bindings.tail

/-- A style without its hidden effects and the bindings at their positions. -/
def withoutHidden (style : EffectStyle) : EffectStyle :=
  { style with
    effects := style.effects.filter (·.visible)
    bindings := keptBindings style.effects style.bindings }

/-- The visible ones of some effects with the bindings at their positions. -/
def visibleOf : List Effect → List EffectBinding → List (EffectKind × EffectBinding)
  | [], _ => []
  | effect :: rest, bindings =>
    if effect.visible then (effect.kind, bindings.headD {}) :: visibleOf rest bindings.tail
    else visibleOf rest bindings.tail

/-- Looking bindings up by position is going through both lists at once. -/
lemma visible_eq (style : EffectStyle) :
    style.visible = visibleOf style.effects style.bindings := by
  have hfrom : ∀ (effects : List Effect) (start : ℕ),
      ((effects.zipIdx start).filter (·.1.visible)).map (fun e =>
        (e.1.kind, style.bindings[e.2]?.getD {})) =
        visibleOf effects (style.bindings.drop start) := by
    intro effects
    induction effects with
    | nil => exact fun _ => rfl
    | cons effect rest ih =>
      intro start
      have hhead : (style.bindings.drop start).headD {} = style.bindings[start]?.getD {} := by
        rw [List.headD_eq_head?_getD, List.head?_drop]
      rw [List.zipIdx_cons, List.filter_cons]
      unfold visibleOf
      rw [List.tail_drop, hhead]
      cases effect.visible with
      | false => exact ih (start + 1)
      | true => exact congrArg _ (ih (start + 1))
  exact hfrom style.effects 0

/-- Taking hidden effects out keeps the visible ones and their bindings. -/
lemma visibleOf_keptBindings (effects : List Effect) (bindings : List EffectBinding) :
    visibleOf (effects.filter (·.visible)) (keptBindings effects bindings) =
      visibleOf effects bindings := by
  induction effects generalizing bindings with
  | nil => rfl
  | cons effect rest ih =>
    rw [List.filter_cons]
    unfold keptBindings
    cases hvisible : effect.visible with
    | false =>
      rw [visibleOf, hvisible]
      exact ih bindings.tail
    | true =>
      rw [if_pos rfl, if_pos rfl, visibleOf, visibleOf, hvisible, if_pos rfl, if_pos rfl]
      exact congrArg _ (ih bindings.tail)

/-- A style shows the same effects with the same bindings without its hidden ones. -/
theorem visible_withoutHidden (style : EffectStyle) :
    style.withoutHidden.visible = style.visible := by
  rw [visible_eq, visible_eq]
  exact visibleOf_keptBindings style.effects style.bindings

/-! ### Positions -/

/-- The binding at a position, an empty one where it is missing. -/
def bindingAt (bindings : List EffectBinding) (index : ℕ) : EffectBinding :=
  bindings[index]?.getD {}

/-- How many of the effects before a position are visible. -/
def visibleBefore (effects : List Effect) (index : ℕ) : ℕ :=
  (effects.take index).countP (·.visible)

/-- A visible effect moves forward by the hidden ones before it, and its binding moves with it. -/
lemma bindingAt_keptBindings {effects : List Effect} {index : ℕ} {effect : Effect}
    (h : effects[index]? = some effect) (hvisible : effect.visible = true)
    (bindings : List EffectBinding) :
    (effects.filter (·.visible))[visibleBefore effects index]? = some effect ∧
      bindingAt (keptBindings effects bindings) (visibleBefore effects index) =
        bindingAt bindings index := by
  induction effects generalizing index bindings with
  | nil => cases h
  | cons first rest ih =>
    cases index with
    | zero =>
      obtain rfl := Option.some.inj h
      rw [List.filter_cons_of_pos hvisible, keptBindings, if_pos hvisible]
      cases bindings <;> exact ⟨rfl, rfl⟩
    | succ index =>
      obtain ⟨heffect, hbinding⟩ := ih h bindings.tail
      have htail : bindingAt bindings.tail index = bindingAt bindings (index + 1) := by
        cases bindings <;> rfl
      unfold visibleBefore
      rw [List.take_succ_cons, List.filter_cons, List.countP_cons, keptBindings, ← htail]
      cases first.visible with
      | false => exact ⟨heffect, hbinding⟩
      | true => exact ⟨heffect, hbinding⟩

end EffectStyle

/-! ## Grid styles -/

namespace GridStyle

/-- A style without its hidden grids. -/
def withoutHidden (style : GridStyle) : GridStyle :=
  { style with grids := style.grids.filter (·.visible) }

/-- A style shows the same grids without its hidden ones. -/
lemma visible_withoutHidden (style : GridStyle) : style.withoutHidden.visible = style.visible := by
  unfold visible withoutHidden
  rw [List.filter_filter]
  exact List.filter_congr fun grid _ => Bool.and_self grid.visible

end GridStyle

/-! ## Values and tokens -/

namespace EffectStyle

variable (style : EffectStyle)

lemma name_withoutHidden : style.withoutHidden.name = style.name := rfl

lemma shadows_withoutHidden : style.withoutHidden.shadows = style.shadows := by
  unfold shadows
  rw [visible_withoutHidden]

lemma blurs_withoutHidden : style.withoutHidden.blurs = style.blurs := by
  unfold blurs
  rw [visible_withoutHidden]

lemma text_withoutHidden (names : VariableNames) (f : Formatting) :
    style.withoutHidden.text names f = style.text names f := by
  unfold text
  rw [shadows_withoutHidden, blurs_withoutHidden]

lemma filter?_withoutHidden (names : VariableNames) (background : Bool) :
    style.withoutHidden.filter? names background = style.filter? names background := by
  unfold filter?
  rw [blurs_withoutHidden]

lemma hasShadow_withoutHidden : style.withoutHidden.hasShadow = style.hasShadow := by
  unfold hasShadow
  rw [shadows_withoutHidden]

lemma token?_withoutHidden : style.withoutHidden.token? = style.token? := by
  unfold token?
  rw [shadows_withoutHidden]
  rfl

end EffectStyle

namespace GridStyle

variable (style : GridStyle)

lemma name_withoutHidden : style.withoutHidden.name = style.name := rfl

lemma text_withoutHidden : style.withoutHidden.text = style.text := by
  unfold text
  rw [visible_withoutHidden]

lemma token?_withoutHidden : style.withoutHidden.token? = style.token? := by
  unfold token?
  rw [visible_withoutHidden]
  rfl

end GridStyle

/-- Styles without hidden effects and grids. -/
def Styles.withoutHidden (styles : Styles) : Styles :=
  { styles with
    effect := styles.effect.map EffectStyle.withoutHidden
    grid := styles.grid.map GridStyle.withoutHidden }

/-- Styles that are changed under their names and without a change of their tokens have the same
tree. -/
lemma styleTree?_map {α : Type} {name : α → String} {change : α → α}
    (token? : α → Except Fault (Option Token)) (hname : ∀ style, name (change style) = name style)
    (htoken : ∀ style, token? (change style) = token? style) (wanted : Bool) (styles : List α) :
    styleTree? wanted name token? (styles.map change) = styleTree? wanted name token? styles := by
  unfold styleTree? styleTree
  rw [List.foldlM_map, List.isEmpty_map]
  simp only [hname, htoken]

/-- The trees of styles have nothing of hidden layers. -/
lemma Styles.trees_withoutHidden (styles : Styles) (kinds : List StyleKind) :
    styles.withoutHidden.trees kinds = styles.trees kinds := by
  have heffect := styleTree?_map EffectStyle.token? EffectStyle.name_withoutHidden
    EffectStyle.token?_withoutHidden (kinds.contains .effect) styles.effect
  have hgrid := styleTree?_map (fun style => .ok style.token?) GridStyle.name_withoutHidden
    (fun style => congrArg Except.ok style.token?_withoutHidden) (kinds.contains .grid) styles.grid
  unfold Styles.trees withoutHidden
  dsimp only
  rw [heffect, hgrid]

/-- Hidden layers leave no trace.  An effect style without its hidden effects and the bindings at
their positions has the same value, the same two filters, a shadow if it had one, and the same
token; a grid style without its hidden grids has the same value and the same token; and so have the
trees that styles are written to.  Every visible effect keeps its binding: both move to the position
that is the number of visible effects before them. -/
theorem values_withoutHidden (style : EffectStyle) (grid : GridStyle) (styles : Styles) :
    (∀ names f, style.withoutHidden.text names f = style.text names f) ∧
    (∀ names background,
      style.withoutHidden.filter? names background = style.filter? names background) ∧
    style.withoutHidden.hasShadow = style.hasShadow ∧
    style.withoutHidden.token? = style.token? ∧
    (∀ index effect, style.effects[index]? = some effect → effect.visible = true →
      style.withoutHidden.effects[EffectStyle.visibleBefore style.effects index]? = some effect ∧
      EffectStyle.bindingAt style.withoutHidden.bindings
        (EffectStyle.visibleBefore style.effects index) =
          EffectStyle.bindingAt style.bindings index) ∧
    grid.withoutHidden.text = grid.text ∧
    grid.withoutHidden.token? = grid.token? ∧
    ∀ kinds, styles.withoutHidden.trees kinds = styles.trees kinds :=
  ⟨style.text_withoutHidden, style.filter?_withoutHidden, style.hasShadow_withoutHidden,
    style.token?_withoutHidden,
    fun _ _ heffect hvisible => EffectStyle.bindingAt_keptBindings heffect hvisible style.bindings,
    grid.text_withoutHidden, grid.token?_withoutHidden, styles.trees_withoutHidden⟩

/-- A hidden shadow, a shadow and a blur, of which the first two have bindings: the visible shadow
keeps the variable that gives its radius. -/
def shadowBehindHidden : EffectStyle where
  id := "s"
  name := "card"
  effects := [⟨.shadow ⟨false, ⟨0, 0, 0, 1⟩, 0, 0, 0, 0⟩, false⟩,
    ⟨.shadow ⟨true, ⟨0, 0, 0, 1⟩, 0, 0, 0, 0⟩, true⟩, ⟨.blur ⟨false, 4⟩, true⟩]
  bindings := [⟨none, some "hidden", none, none, none⟩, ⟨none, some "radius", none, none, none⟩]

/-- The visible shadow of the style moves to the front together with its binding. -/
theorem values_withoutHidden_shadow :
    shadowBehindHidden.effects[1]? = some ⟨.shadow ⟨true, ⟨0, 0, 0, 1⟩, 0, 0, 0, 0⟩, true⟩ ∧
      EffectStyle.bindingAt shadowBehindHidden.withoutHidden.bindings 0 =
        ⟨none, some "radius", none, none, none⟩ :=
  ⟨rfl, ((values_withoutHidden shadowBehindHidden ⟨"g", "grid", "", []⟩ {}).2.2.2.2.1 1 _ rfl rfl).2⟩

end DesignTokens

import DesignTokens.Proofs.Export.DefaultValues
import DesignTokens.Proofs.Token.Completeness
import DesignTokens.Proofs.Token.Places

/-!
# The mode of the plain selector

In the layout by modes one rule of each collection has the plain selector.  A token keeps the values
of its variable only, so that the modes of a collection come back in the order in which its tokens,
sorted by the names of their properties, mention them first, and the plain selector goes to the
preferred one in this order.  That is the default mode of the collection exactly if the first of the
variables that has a value for any mode that may be the default has one for the default mode itself
(`Document.plainMode_of_toCss`).
-/

namespace DesignTokens

/-! ## Items that contend for being preferred -/

section contending

variable {α : Type} {name : α → String} {items part : List α}

/-- An item contends for being the preferred one of several items if it has the preferred name, or
if none of them has it. -/
def contends (name : α → String) (items : List α) (a : α) : Bool :=
  isDefaultName (name a) || !items.any fun b => isDefaultName (name b)

/-- The preferred item is the first one that contends. -/
lemma preferDefault?_eq_find? (name : α → String) (items : List α) :
    preferDefault? name items = items.find? (contends name items) := by
  unfold preferDefault?
  cases hany : items.any fun b => isDefaultName (name b) with
  | true =>
    have hsome : (items.find? fun b => isDefaultName (name b)).isSome := by
      rw [List.find?_isSome]
      simpa using hany
    obtain ⟨first, hfirst⟩ := Option.isSome_iff_exists.mp hsome
    have hsame : contends name items = fun b => isDefaultName (name b) := by
      funext a
      unfold contends
      rw [hany]
      exact Bool.or_false _
    rw [hsame, hfirst]
    rfl
  | false =>
    have hnone : (items.find? fun b => isDefaultName (name b)) = none := by
      rw [List.find?_eq_none]
      simpa using hany
    have hall : contends name items = fun _ => true := by
      funext a
      unfold contends
      rw [hany]
      exact Bool.or_true _
    rw [hnone, hall]
    cases items with
    | nil => rfl
    | cons first rest => rfl

/-- Where some items of a part contend in the whole, the items of the part contend in the part
exactly if they do in the whole. -/
lemma contends_eq_of_mem (hpart : part ⊆ items) {a b : α} (ha : a ∈ part)
    (hcontends : contends name items a = true) :
    contends name part b = contends name items b := by
  unfold contends at hcontends ⊢
  cases hany : items.any fun b => isDefaultName (name b) with
  | true =>
    have hnamed : isDefaultName (name a) = true := by
      rw [hany] at hcontends
      simpa using hcontends
    have hpartAny : (part.any fun b => isDefaultName (name b)) = true :=
      List.any_eq_true.mpr ⟨a, ha, hnamed⟩
    rw [hpartAny]
  | false =>
    have hpartNone : (part.any fun b => isDefaultName (name b)) = false := by
      rw [List.any_eq_false] at hany ⊢
      intro c hc
      exact hany c (hpart hc)
    rw [hpartNone]

/-- A stronger condition is met first by the same item exactly if this item meets it. -/
lemma find?_eq_some_iff_of_imp {p q : α → Bool} (himp : ∀ a, p a = true → q a = true) {a : α}
    (ha : items.find? q = some a) : items.find? p = some a ↔ p a = true := by
  refine ⟨List.find?_some, fun hp => ?_⟩
  induction items with
  | nil => cases ha
  | cons first rest ih =>
    rw [List.find?_cons] at ha ⊢
    cases hfirst : q first with
    | true =>
      rw [hfirst] at ha
      obtain rfl : first = a := Option.some.inj ha
      rw [hp]
    | false =>
      have hnot : p first = false := by
        cases hpfirst : p first with
        | false => rfl
        | true => exact absurd (himp first hpfirst) (by rw [hfirst]; exact Bool.false_ne_true)
      rw [hfirst] at ha
      rw [hnot]
      exact ih ha

/-- The preferred item of a part is that of the whole exactly if the items of the part come to it
first among those that contend in the whole. -/
lemma preferDefault?_eq_some_iff (hpart : part ⊆ items) {a : α}
    (ha : preferDefault? name items = some a) :
    preferDefault? name part = some a ↔ part.find? (contends name items) = some a := by
  rw [preferDefault?_eq_find?] at ha ⊢
  have hcontends : contends name items a = true := List.find?_some ha
  by_cases hsome : ∃ b ∈ part, contends name items b = true
  · obtain ⟨b, hb, hcontendsB⟩ := hsome
    have hsame : contends name part = contends name items :=
      funext fun c => contends_eq_of_mem hpart hb hcontendsB
    rw [hsame]
  · have hnot : a ∉ part := fun hmem => hsome ⟨a, hmem, hcontends⟩
    exact iff_of_false (fun h => hnot (List.mem_of_find?_eq_some h))
      (fun h => hnot (List.mem_of_find?_eq_some h))

/-- In joined lists an item of the first list that has one is found. -/
lemma find?_flatMap {β : Type} (p : β → Bool) (f : α → List β) (items : List α) :
    (items.flatMap f).find? p = (items.find? fun a => (f a).any p).bind fun a => (f a).find? p := by
  induction items with
  | nil => rfl
  | cons first rest ih =>
    rw [List.flatMap_cons, List.find?_append, List.find?_cons, ih]
    cases hfound : (f first).find? p with
    | some found =>
      have hany : (f first).any p = true :=
        List.any_eq_true.mpr ⟨found, List.mem_of_find?_eq_some hfound, List.find?_some hfound⟩
      rw [hany]
      exact hfound.symm
    | none =>
      have hany : (f first).any p = false := by
        rw [List.any_eq_false]
        exact List.find?_eq_none.mp hfound
      rw [hany]
      rfl

end contending

/-! ## Modes that variables have values for -/

/-- The modes of a collection that a variable has a value for. -/
def Variable.modesIn (v : Variable) (c : Collection) : List Mode :=
  c.modes.filter fun m => OrderedMap.has v.values m.id

namespace Library

/-- The modes of a collection that one of its variables has a value for. -/
def valuedModes (l : Library) (c : Collection) : List Mode :=
  c.modes.filter fun m => (l.valued c).any fun v => OrderedMap.has v.values m.id

/-- The mode that stands for a collection: of the modes with a value the first one named default, or
the first one of all when none has that name. -/
def preferredMode? (l : Library) (c : Collection) : Option Mode :=
  preferDefault? Mode.name (l.valuedModes c)

/-- A mode may stand for a collection: it is named default, or no mode with a value is. -/
def mayBePreferred (l : Library) (c : Collection) (m : Mode) : Bool :=
  contends Mode.name (l.valuedModes c) m

variable {l : Library} {c : Collection} {shown : List Variable}

/-- The modes of variables with values are modes with a value. -/
lemma flatMap_modesIn_subset (hshown : ∀ v ∈ shown, v ∈ l.valued c) :
    shown.flatMap (Variable.modesIn · c) ⊆ l.valuedModes c := by
  intro m hm
  obtain ⟨v, hv, hmode⟩ := List.mem_flatMap.mp hm
  obtain ⟨hmode, hhas⟩ := List.mem_filter.mp hmode
  exact List.mem_filter.mpr ⟨hmode, List.any_eq_true.mpr ⟨v, hshown v hv, hhas⟩⟩

/-- A variable with a value in a collection of several modes has one for one of the modes. -/
lemma exists_mem_modesIn {v : Variable} (hmulti : 1 < c.modes.length) (hv : v ∈ l.valued c) :
    ∃ m, m ∈ v.modesIn c := by
  have hhas := (mem_valued.mp hv).2.2
  unfold Variable.isValuedIn Collection.shownModeIds at hhas
  rw [if_neg (by omega), List.any_map, List.any_eq_true] at hhas
  obtain ⟨m, hm, hhas⟩ := hhas
  exact ⟨m, List.mem_filter.mpr ⟨hm, hhas⟩⟩

/-- A collection of several modes that has a variable with a value has a preferred mode. -/
lemma exists_preferredMode? (hmulti : 1 < c.modes.length) (hvalued : l.valued c ≠ []) :
    ∃ m, l.preferredMode? c = some m := by
  obtain ⟨v, hv⟩ := List.exists_mem_of_ne_nil _ hvalued
  obtain ⟨m, hm⟩ := exists_mem_modesIn hmulti hv
  obtain ⟨hmode, hhas⟩ := List.mem_filter.mp hm
  have hmem : m ∈ l.valuedModes c :=
    List.mem_filter.mpr ⟨hmode, List.any_eq_true.mpr ⟨v, hv, hhas⟩⟩
  exact exists_preferDefault? Mode.name (List.ne_nil_of_mem hmem)

/-- Of the modes of variables, in the order of the variables, the preferred one is that of the
collection exactly if the first variable with a value for a mode that may be preferred has one for
the preferred mode. -/
theorem preferDefault?_modesIn_eq_iff (hshown : ∀ v ∈ shown, v ∈ l.valued c) {m : Mode}
    (hm : l.preferredMode? c = some m) :
    preferDefault? Mode.name (shown.flatMap (Variable.modesIn · c)) = some m ↔
      ∃ v, shown.find? (fun v => (v.modesIn c).any (l.mayBePreferred c)) = some v ∧
        m ∈ v.modesIn c := by
  rw [preferDefault?_eq_some_iff (flatMap_modesIn_subset hshown) hm, find?_flatMap,
    Option.bind_eq_some_iff]
  refine exists_congr fun v => and_congr_right fun hv => ?_
  have hvalued := hshown v (List.mem_of_find?_eq_some hv)
  unfold preferredMode? valuedModes at hm
  rw [preferDefault?_eq_find?, List.find?_filter] at hm
  have hmode := List.mem_of_find?_eq_some hm
  have hcontends : contends Mode.name (l.valuedModes c) m = true := by
    have hboth := List.find?_some hm
    simp only [decide_eq_true_eq] at hboth
    exact hboth.2
  unfold Variable.modesIn
  rw [List.find?_filter, find?_eq_some_iff_of_imp ?_ hm]
  · rw [List.mem_filter]
    simp [hmode, hcontends]
  · intro a ha
    simp only [decide_eq_true_eq] at ha ⊢
    exact ⟨List.any_eq_true.mpr ⟨v, hvalued, ha.1⟩, ha.2⟩

end Library

/-! ## Tokens of variables with several modes -/

namespace Scope

variable {s : Scope} {c : Collection} {v : Variable} {f : Formatting} {t : Token}

/-- The values of a variable in modes stand under the names of the modes that it has a value for. -/
lemma keys_modeValues {modes : List Mode} {values : List (String × FlatValue)}
    (h : s.modeValues v f modes = .ok values) :
    OrderedMap.keys values =
      (modes.filter fun m => OrderedMap.has v.values m.id).map Mode.name := by
  induction modes generalizing values with
  | nil =>
    cases h
    rfl
  | cons mode rest ih =>
    unfold modeValues at h
    split at h
    · rename_i hfind
      have hhas : ¬ OrderedMap.has v.values mode.id = true := by
        unfold OrderedMap.has
        rw [hfind]
        exact Bool.false_ne_true
      rw [List.filter_cons, if_neg hhas]
      exact ih h
    · rename_i value hfind
      obtain ⟨x, _, h⟩ := bind_eq_ok.mp h
      obtain ⟨tail, htail, h⟩ := bind_eq_ok.mp h
      cases h
      have hhas : OrderedMap.has v.values mode.id = true := by
        unfold OrderedMap.has
        rw [hfind]
        rfl
      rw [List.filter_cons, if_pos hhas, List.map_cons, ← ih htail]
      rfl

/-- The token of a variable of a collection of several modes has the modes that the variable has a
value for. -/
lemma modeNames_of_token? (h : s.token? c v = .ok (some t)) (hmulti : 1 < c.modes.length)
    (hnames : (c.modes.map Mode.name).Nodup) :
    t.modeNames = (v.modesIn c).map Mode.name := by
  unfold token? at h
  obtain ⟨directives, _, h⟩ := bind_eq_ok.mp h
  obtain ⟨value, hvalue, h⟩ := bind_eq_ok.mp h
  unfold tokenValue? at hvalue
  rw [if_neg (by omega)] at hvalue
  obtain ⟨values, hvalues, hvalue⟩ := bind_eq_ok.mp hvalue
  have hkeys := keys_modeValues hvalues
  have hdistinct : (OrderedMap.keys values).Nodup := by
    rw [hkeys]
    exact hnames.sublist (List.filter_sublist.map _)
  cases values with
  | nil =>
    cases hvalue
    cases h
  | cons first rest =>
    cases hvalue
    cases h
    unfold Token.modeNames Variable.modesIn
    dsimp only
    rw [OrderedMap.ofList_of_nodup hdistinct]
    exact hkeys

end Scope

/-! ## Rules of modes -/

/-- The modes whose rules have the plain selector. -/
def plainModes (s : Settings) (blocks : List ModeBlock) : List String :=
  (blocks.filter fun b => (b.rule s).selector = Layout.selector s).map ModeBlock.mode

/-- The rules of tokens with modes have the plain selector for the preferred mode in the order in
which the tokens mention their modes. -/
lemma plainModes_modeBlocks (s : Settings) {tokens : List RenderedToken}
    (h : modesOf tokens ≠ []) :
    plainModes s (modeBlocks tokens) =
      (preferDefault? id (tokens.flatMap fun t => t.value.modeNames)).toList := by
  have hplain : plainModes s (modeBlocks tokens) =
      (modesOf tokens).filter fun mode => some mode == preferDefault? id (modesOf tokens) := by
    unfold plainModes modeBlocks
    rw [ruleModes_of_modes h, List.map_map, List.filter_map, List.map_map]
    refine Eq.trans (List.map_id _) (List.filter_congr fun mode _ => ?_)
    rw [Function.comp_apply, Bool.eq_iff_iff, decide_eq_true_iff, ModeBlock.selector_rule_eq_iff]
    exact Iff.rfl
  have hsame : preferDefault? id (modesOf tokens) =
      preferDefault? id (tokens.flatMap fun t => t.value.modeNames) := preferDefault?_eraseDups _
  obtain ⟨preferred, hpreferred⟩ := exists_preferDefault? id h
  have hcount : (modesOf tokens).count preferred = 1 :=
    List.count_eq_one_of_mem (nodup_eraseDups _) (mem_of_preferDefault? hpreferred)
  rw [hplain, ← hsame, hpreferred]
  have hfilter : (fun mode => some mode == some preferred) = (· == preferred) := by
    funext mode
    exact Option.some_beq_some
  rw [hfilter, List.filter_beq, hcount]
  rfl

/-! ## Collections of documents -/

/-- The variables that the rules of a collection show, in the order of the names of their
properties.  Each has a value, no two have the same name, and a variable with a value that is not
among them shares its name with one that is. -/
structure Renderer.Lists (r : Renderer) (l : Library) (c : Collection) (shown : List Variable) :
    Prop where
  valued : ∀ v ∈ shown, v ∈ l.valued c
  nodup_names : (shown.map Variable.name).Nodup
  mem_names : ∀ v ∈ l.valued c, v.name ∈ shown.map Variable.name
  in_order : shown.Pairwise fun v w =>
    NaturalOrder.NotAfter (r.cssName (LibraryEntry.path ⟨v, c⟩))
      (r.cssName (LibraryEntry.path ⟨w, c⟩))

namespace Renderer

variable {r : Renderer} {s : Scope} {c : Collection} {e : String × TokenTree}
  {rendered : List RenderedToken}

/-- Rendered tokens have the names of the tokens, token by token. -/
lemma map_name {ordered : List (List String × Token)}
    (h : List.Forall₂ (fun x t => r.token x.1 x.2 = .ok t) ordered rendered) :
    rendered.map RenderedToken.name = (ordered.map Prod.fst).map r.cssName := by
  induction h with
  | nil => rfl
  | cons hfirst _ ih =>
    rw [List.map_cons, List.map_cons, List.map_cons, ih, (name_token hfirst).1]

/-- The rendered tokens of the tree of a collection are those of variables. -/
lemma exists_lists (h : s.IsEntryOf c e) (htokens : r.tokens e.1 e.2 = .ok rendered)
    (hmulti : 1 < c.modes.length) (hnames : (c.modes.map Mode.name).Nodup) :
    ∃ shown, r.Lists s.toLibrary c shown ∧
      rendered.map (fun t => t.value.modeNames) =
        shown.map fun v => (v.modesIn c).map Mode.name := by
  obtain ⟨ordered, hperm, hrendered⟩ := exists_perm_of_tokens htokens
  have hshows : ∀ x ∈ ordered, ∃ v ∈ s.valued c,
      LibraryEntry.path ⟨v, c⟩ = x.1 ∧ s.token? c v = .ok (some x.2) := by
    rintro ⟨path, token⟩ hx
    obtain ⟨rest, hpath, hwalk⟩ := TokenTree.mem_walk_singleton.mp (hperm.mem_iff.mp hx)
    obtain ⟨v, hv, hmember, hrest, htoken⟩ := Scope.exists_of_mem_tree h.2 hwalk
    have hvalued := (Scope.isSome_token? htoken).symm
    refine ⟨v, Library.mem_valued.mpr ⟨hv, hmember, hvalued⟩, ?_, htoken⟩
    exact (congrArg₂ List.cons h.1.symm hrest).trans hpath.symm
  obtain ⟨shown, hshown⟩ := exists_forall₂ hshows
  have hpaths : (shown.map fun v => LibraryEntry.path ⟨v, c⟩) = ordered.map Prod.fst :=
    map_eq_of_forall₂ (fun _ _ hrelated => hrelated.2.1) hshown
  refine ⟨shown, ⟨fun v hv => ?_, ?_, fun v hv => ?_, ?_⟩, ?_⟩
  · obtain ⟨_, _, hvalued, _⟩ := exists_of_forall₂ hshown hv
    exact hvalued
  · have hnodup : (ordered.map Prod.fst).Nodup :=
      (hperm.map Prod.fst).nodup_iff.mpr (TokenTree.nodup_walk (Scope.isKeyed_tree h.2) [e.1])
    rw [← hpaths] at hnodup
    refine List.Nodup.of_map (fun name => c.name :: nameSegments name) ?_
    rw [List.map_map]
    exact hnodup
  · obtain ⟨token, htoken⟩ := Scope.exists_token_of_valued h.2 hv
    obtain ⟨hvars, hmember, _⟩ := Library.mem_valued.mp hv
    obtain ⟨t, hwalk⟩ := (Scope.exists_mem_tree_iff h.2).mpr
      ⟨_, ⟨v, hvars, hmember, rfl, token, htoken⟩, rfl⟩
    have hx : (LibraryEntry.path ⟨v, c⟩, t) ∈ ordered :=
      hperm.mem_iff.mpr (TokenTree.mem_walk_singleton.mpr ⟨_, congrArg (· :: _) h.1.symm, hwalk⟩)
    have hpath : LibraryEntry.path ⟨v, c⟩ ∈ ordered.map Prod.fst := List.mem_map_of_mem hx
    rw [← hpaths] at hpath
    obtain ⟨w, hw, hsame⟩ := List.mem_map.mp hpath
    exact List.mem_map.mpr ⟨w, hw, nameSegments_injective (List.cons.inj hsame).2⟩
  · have hsorted : rendered.Pairwise fun t u => NaturalOrder.NotAfter t.name u.name := by
      obtain ⟨_, _, hsorted⟩ := bind_eq_ok.mp htokens
      exact NaturalOrder.pairwise_sortBy hsorted
    have hnames : rendered.map RenderedToken.name =
        (shown.map fun v => LibraryEntry.path ⟨v, c⟩).map r.cssName := by
      rw [hpaths]
      exact map_name hrendered
    rw [← List.pairwise_map (f := RenderedToken.name), hnames, List.map_map] at hsorted
    exact List.pairwise_map.mp hsorted
  · rw [map_modeNames hrendered]
    exact (map_eq_of_forall₂
      (fun _ _ hrelated => (Scope.modeNames_of_token? hrelated.2.2 hmulti hnames).symm) hshown).symm

/-- The rules of the modes of a collection give the plain selector to the preferred mode in the
order in which the variables of the collection mention their modes.  That is the preferred mode of
the collection if and only if the first variable with a value for a mode that may be preferred has
one for the preferred mode. -/
def PutsPlain (r : Renderer) (l : Library) (c : Collection) (blocks : List ModeBlock) : Prop :=
  ∃ shown, r.Lists l c shown ∧
    plainModes r.settings blocks =
      ((preferDefault? Mode.name (shown.flatMap (Variable.modesIn · c))).map Mode.name).toList ∧
    (plainModes r.settings blocks = ((l.preferredMode? c).map Mode.name).toList ↔
      ∃ m, l.preferredMode? c = some m ∧ ∃ v,
        shown.find? (fun v => (v.modesIn c).any (l.mayBePreferred c)) = some v ∧ m ∈ v.modesIn c)

/-- The rules of a collection of several modes put the plain selector on the preferred mode in the
order of its variables. -/
theorem putsPlain_modeBlocks (h : s.IsEntryOf c e) (htokens : r.tokens e.1 e.2 = .ok rendered)
    (hmulti : 1 < c.modes.length) (hnames : (c.modes.map Mode.name).Nodup)
    (hvalued : s.valued c ≠ []) : r.PutsPlain s.toLibrary c (modeBlocks rendered) := by
  obtain ⟨shown, hlists, hmodes⟩ := exists_lists h htokens hmulti hnames
  have hmentioned : (rendered.flatMap fun t => t.value.modeNames) =
      (shown.flatMap (Variable.modesIn · c)).map Mode.name := by
    rw [List.flatMap_def, hmodes, List.map_flatMap, List.flatMap_def]
  have hmodesNeNil : shown.flatMap (Variable.modesIn · c) ≠ [] := by
    obtain ⟨v, hv⟩ := List.exists_mem_of_ne_nil _ hvalued
    obtain ⟨w, hw, _⟩ := List.mem_map.mp (hlists.mem_names v hv)
    obtain ⟨m, hm⟩ := Library.exists_mem_modesIn hmulti (hlists.valued w hw)
    exact List.ne_nil_of_mem (List.mem_flatMap.mpr ⟨w, hw, hm⟩)
  have hplain : plainModes r.settings (modeBlocks rendered) =
      ((preferDefault? Mode.name (shown.flatMap (Variable.modesIn · c))).map Mode.name).toList := by
    have hne : modesOf rendered ≠ [] := by
      obtain ⟨m, hm⟩ := List.exists_mem_of_ne_nil _ hmodesNeNil
      have hmem : m.name ∈ modesOf rendered := by
        unfold modesOf
        rw [hmentioned]
        exact List.mem_eraseDups.mpr (List.mem_map_of_mem hm)
      exact List.ne_nil_of_mem hmem
    rw [plainModes_modeBlocks r.settings hne, hmentioned, preferDefault?_map]
  refine ⟨shown, hlists, hplain, ?_⟩
  obtain ⟨m, hm⟩ := Library.exists_preferredMode? hmulti hvalued
  obtain ⟨first, hfirst⟩ := exists_preferDefault? Mode.name hmodesNeNil
  -- modes of the collection are told apart by their names
  have hsame : [first.name] = [m.name] ↔ first = m := by
    have hsubset := Library.flatMap_modesIn_subset hlists.valued
    have hfirstMode := (List.mem_filter.mp (hsubset (mem_of_preferDefault? hfirst))).1
    have hmode := (List.mem_filter.mp (mem_of_preferDefault? hm)).1
    rw [List.singleton_inj]
    exact ⟨List.inj_on_of_nodup_map hnames hfirstMode hmode, congrArg Mode.name⟩
  have hiff := Library.preferDefault?_modesIn_eq_iff hlists.valued hm
  rw [hfirst, Option.some_inj] at hiff
  rw [hplain, hfirst, hm]
  refine hsame.trans (hiff.trans ⟨fun hv => ⟨m, rfl, hv⟩, ?_⟩)
  rintro ⟨_, heq, hv⟩
  cases heq
  exact hv

end Renderer

namespace Document

variable {d : Document} {library : Library} {settings s : Settings} {options : DocumentOptions}
  {styles : Option Styles} {sourceFile generatedAt : String}

/-- In the layout by modes the sheet of the document of a library has a section of rules for each
selected collection, in which the plain selector goes to the preferred mode in the order in which
the variables of the collection mention their modes. -/
theorem plainMode_of_toCss
    (h : Document.ofLibrary library settings options styles sourceFile generatedAt = .ok d)
    {text : String} (hcss : d.toCss s = .ok text) (hmodes : s.modeSelectors = true) :
    ∃ declared properties classes sections,
      d.styleDeclarations s = .ok declared ∧
      d.utilityItems s = .ok classes ∧
      text = cssText (d.header s cssTitle) (properties ++ classes) ∧
      rulesOf properties = joinStyles (Layout.selector s) (declared.map .declaration)
        (sections.flatten.map (ModeBlock.rule s)) ∧
      List.Forall₂ (fun e blocks => ∀ c ∈ Collection.lastNamed
          (Collection.select (options.selected.getD []) library.collections),
        c.name = e.1 → 1 < c.modes.length → (c.modes.map Mode.name).Nodup → library.valued c ≠ [] →
          Renderer.PutsPlain { document := d, settings := s } library c blocks)
        (d.selected s) sections := by
  obtain ⟨items, hitems, htext⟩ := bind_eq_ok.mp hcss
  obtain ⟨declared, properties, classes, hdeclared, hproperties, hclasses, rfl⟩ :=
    cssItems_eq_ok_iff.mp hitems
  obtain ⟨collections, hcollections, hlayout⟩ := bind_eq_ok.mp hproperties
  rw [hmodes] at hlayout
  refine ⟨declared, properties, classes, collections.map fun c => modeBlocks c.2, hdeclared,
    hclasses, (Except.ok.inj htext).symm, ?_, ?_⟩
  · rw [← Except.ok.inj hlayout]
    refine (Layout.rulesOf_byMode _ _).trans ?_
    rw [List.flatMap_map, List.map_flatten, List.map_map, List.flatMap_def]
    rfl
  · unfold Renderer.collections at hcollections
    refine List.forall₂_map_right_iff.mpr ?_
    have hselected := (List.forall₂_and_left _ _).mpr
      ⟨fun e he => he, forall₂_of_mapM hcollections⟩
    refine hselected.imp fun e rendered ⟨he, hrendered⟩ c hc hname hmulti hnames hvalued => ?_
    obtain ⟨tokens, htokens, heq⟩ := bind_eq_ok.mp hrendered
    cases heq
    obtain ⟨tree, htree, hmem⟩ := exists_tree_of_lastNamed h hc
    have hentry : (c.name, tree) = e :=
      List.inj_on_of_nodup_map (nodup_keys_collections h) hmem (mem_selected_iff.mp he).1 hname
    rw [← hentry] at htokens
    exact Renderer.putsPlain_modeBlocks (e := (c.name, tree)) ⟨rfl, htree⟩ htokens hmulti hnames
      hvalued

end Document

/-! ### A variable without a value for the first mode -/

/-- A collection with a light and a dark mode, the light one being the default. -/
def dayCollection : Collection :=
  { id := "day", name := "Day", modes := [⟨"1:0", "Light"⟩, ⟨"1:1", "Dark"⟩],
    defaultModeId := "1:0" }

/-- A variable with a value for the dark mode only. -/
def nightOnly : Variable :=
  { id := "a", name := "a", type := .text, values := [("1:1", .text "x")], collectionId := "day" }

/-- A variable with values for both modes. -/
def allDay : Variable :=
  { id := "b", name := "b", type := .text, values := [("1:0", .text "y"), ("1:1", .text "z")]
    collectionId := "day" }

/-- The library of the two variables. -/
def dayLibrary : Library := ⟨[nightOnly, allDay], [dayCollection]⟩

/-- Settings that ask for rules of modes. -/
def daySettings : Settings := { modeSelectors := true }

/-- The token of a text with values in modes. -/
def dayToken (texts : OrderedMap String) : Token :=
  { type := .string
    value := .perMode (texts.map fun e => (e.1, .literal (.text e.2)))
    origin := some { resolvedType := some "STRING" } }

/-- The tree of the collection. -/
def dayTree : TokenTree :=
  [("a", .token (dayToken [("Dark", "x")])),
    ("b", .token (dayToken [("Light", "y"), ("Dark", "z")]))]

/-- The document of the library. -/
def dayDocument : Document :=
  { collections := [("Day", dayTree)], generatedAt := fixedTimestamp }

/-- The tokens of the document as they are rendered. -/
def dayTokens : List RenderedToken :=
  [⟨"day-a", .perMode [("Dark", "\"x\"")]⟩,
    ⟨"day-b", .perMode [("Light", "\"y\""), ("Dark", "\"z\"")]⟩]

/-- The document is the one of the library. -/
lemma ofLibrary_day : Document.ofLibrary dayLibrary {} {} none "" "" = .ok dayDocument := by
  have hmembers :
      dayCollection.members Variable.name dayLibrary.vars = .ok [nightOnly, allDay] := by
    have hkeyed : ([nightOnly, allDay].mapM fun v => do return (← NaturalOrder.key v.name, v)) =
        .ok [([.text "a", .whole "a"], nightOnly), ([.text "b", .whole "b"], allDay)] := rfl
    exact NaturalOrder.sortBy_of_pairwise hkeyed (List.pairwise_pair.mpr (by decide))
  have htree : (Scope.ofSettings dayLibrary {}).tree dayCollection = .ok dayTree := by
    unfold Scope.tree
    exact (bind_of_ok hmembers _).trans rfl
  exact Document.ofLibrary_one rfl htree

/-- The sheet of the document. -/
lemma cssItems_dayDocument : dayDocument.cssItems daySettings =
    .ok (Layout.byMode daySettings [⟨"Day", modeBlocks dayTokens⟩] []) := by
  have hsorted : NaturalOrder.sortBy RenderedToken.name dayTokens = .ok dayTokens := by
    have hkeyed : (dayTokens.mapM fun t => do return (← NaturalOrder.key t.name, t)) =
        .ok (dayTokens.map fun t => ([.text t.name, .whole t.name], t)) := rfl
    exact NaturalOrder.sortBy_of_pairwise hkeyed (List.pairwise_pair.mpr (by decide))
  have htokens :
      Renderer.tokens { document := dayDocument, settings := daySettings } "Day" dayTree =
        .ok dayTokens := by
    unfold Renderer.tokens
    exact (bind_of_ok rfl _).trans hsorted
  have hcollections : Renderer.collections { document := dayDocument, settings := daySettings } =
      .ok [("Day", dayTokens)] :=
    mapM_singleton (bind_of_ok htokens _)
  show Document.propertyItems { document := dayDocument, settings := daySettings } [] = _
  unfold Document.propertyItems
  exact bind_of_ok hcollections _

/-- The light mode is the preferred one of the collection, but the plain selector goes to the dark
mode, since the first variable has a value for that mode only. -/
theorem Document.plainMode_of_toCss_day :
    Document.ofLibrary dayLibrary {} {} none "" "" = .ok dayDocument ∧
      dayDocument.toCss daySettings = .ok (cssText (dayDocument.header daySettings cssTitle)
        (Layout.byMode daySettings [⟨"Day", modeBlocks dayTokens⟩] [])) ∧
      daySettings.modeSelectors = true ∧
      dayCollection ∈ Collection.lastNamed dayLibrary.collections ∧
      1 < dayCollection.modes.length ∧ (dayCollection.modes.map Mode.name).Nodup ∧
      dayLibrary.valued dayCollection ≠ [] ∧
      dayLibrary.preferredMode? dayCollection = some ⟨"1:0", "Light"⟩ ∧
      (modeBlocks dayTokens).map (ModeBlock.rule daySettings) =
        [⟨":root", [.declaration (.custom "day-a" "\"x\""), .declaration (.custom "day-b" "\"z\"")]⟩,
          ⟨":root[data-theme=\"light\"], .theme-light",
            [.declaration (.custom "day-b" "\"y\"")]⟩] ∧
      ∃ blocks, Renderer.PutsPlain { document := dayDocument, settings := daySettings } dayLibrary
        dayCollection blocks := by
  have hcss : dayDocument.toCss daySettings = .ok (cssText (dayDocument.header daySettings cssTitle)
      (Layout.byMode daySettings [⟨"Day", modeBlocks dayTokens⟩] [])) :=
    bind_of_ok cssItems_dayDocument _
  have hlast : dayCollection ∈ Collection.lastNamed dayLibrary.collections := by decide
  have hmulti : 1 < dayCollection.modes.length := by decide
  have hnames : (dayCollection.modes.map Mode.name).Nodup := by decide
  have hvalued : dayLibrary.valued dayCollection ≠ [] := by decide
  obtain ⟨_, _, _, sections, _, _, _, _, hsections⟩ :=
    Document.plainMode_of_toCss ofLibrary_day hcss rfl
  obtain ⟨blocks, _, hblocks⟩ := exists_of_forall₂ hsections (x := ("Day", dayTree))
    List.mem_cons_self
  exact ⟨ofLibrary_day, hcss, rfl, hlast, hmulti, hnames, hvalued, rfl, by decide, blocks,
    hblocks _ hlast rfl hmulti hnames hvalued⟩

end DesignTokens

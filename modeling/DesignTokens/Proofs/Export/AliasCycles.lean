import DesignTokens.Proofs.Export.Sheets
import DesignTokens.Proofs.Resolve.AliasWalk
import Mathlib.Logic.Relation

/-!
# Cycles of aliases in flat sheets

The flat sheet of a library shows each alias in the mode that stands for the collection of its
variable, and a chain of aliases is followed in the mode of the first one.  A variable of another
collection has its default value there.  So both walks are the same where the mode that stands for a
collection is its default mode, and is not shared with a collection that another mode stands for
(`Library.ShowsDefaults`).  Then the declarations that refer to each other make no cycle, and the
aliases that lead into a cycle show a comment.  Without that condition there are cycles
(`DirectExport.exists_flat_cycle`).
-/

namespace DesignTokens

/-! ## Texts of aliases -/

/-- References to two names are the same only if the names are. -/
lemma CssName.reference_injective : Function.Injective CssName.reference := by
  intro a b h
  exact (String.append_right_inj "var(--").mp ((String.append_left_inj ")").mp h)

/-- The comment in place of a value that is not found is no reference. -/
lemma AliasFailure.sentinel_ne_reference (failure : AliasFailure) (name : String) :
    failure.sentinel ≠ CssName.reference name := by
  intro h
  have hhead := congrArg (fun text => text.toList.head?) h
  cases failure with
  | unresolved => simp [sentinel, CssName.reference, toString] at hhead
  | circular => simp [sentinel, CssName.reference, toString] at hhead

namespace Scope

variable {s : Scope} {modeId id name : String} {origin : Option String}

/-- An alias that is shown as a reference is shown as one to the variable that it names. -/
lemma exists_target_of_aliasText (h : s.aliasText modeId id origin = CssName.reference name) :
    ∃ target, s.byId? id = some target ∧ s.cssName target = name := by
  unfold aliasText at h
  dsimp only at h
  split at h
  · exact absurd h (AliasFailure.sentinel_ne_reference _ _)
  · rename_i target htarget _
    refine ⟨target, ?_, CssName.reference_injective h⟩
    unfold follow at htarget
    dsimp only at htarget
    split_ifs at htarget
    exact htarget
  · exact absurd h (AliasFailure.sentinel_ne_reference _ _)

/-- The text of a variable that is an alias in a mode is that of the alias, unless a calculation takes
its place. -/
lemma text_of_alias {v : Variable} {f : Except Fault Formatting} {text? : Option String}
    (hvalue : OrderedMap.find? modeId v.values = some (.aliasOf id))
    (hcalculation : ∀ formatting, f = .ok formatting → v.type = .number →
      formatting.calculation? = none)
    (h : s.variableText? modeId f v = .ok text?) :
    text? = some (s.aliasText modeId id (some v.id)) := by
  unfold variableText? at h
  rw [hvalue] at h
  obtain ⟨formatting, hformatting, h⟩ := bind_eq_ok.mp h
  obtain ⟨text, htext, h⟩ := bind_eq_ok.mp h
  have hplain : (if v.type = .number then formatting.calculation? else none) = none := by
    split_ifs with htype
    · exact hcalculation formatting hformatting htype
    · rfl
  unfold valueText at htext
  rw [hplain] at htext
  rw [← Except.ok.inj h, ← Except.ok.inj htext]

/-- A circular alias is shown as a comment. -/
lemma aliasText_of_circular (h : (s.follow modeId id origin).failure? = some .circular) :
    s.aliasText modeId id origin = AliasFailure.circular.sentinel := by
  unfold aliasText
  dsimp only
  rw [h]

end Scope

/-! ## Aliases that are shown -/

namespace Library

/-- Variables have values for modes of their own collections only. -/
def HasOwnModes (l : Library) : Prop :=
  ∀ c ∈ l.collections, ∀ v ∈ l.vars, v.collectionId = c.id →
    ∀ modeId ∈ OrderedMap.keys v.values, modeId ∈ c.modes.map (·.id)

/-- The mode that stands for a collection is its default mode, and it stands for every collection
that has it. -/
structure ShowsDefaults (l : Library) : Prop where
  flat_eq_default : ∀ c ∈ l.collections, c.flatModeId = c.defaultModeId
  flat_of_mem : ∀ c ∈ l.collections, ∀ c' ∈ l.collections, c.flatModeId ∈ c'.modes.map (·.id) →
    c'.flatModeId = c.flatModeId

end Library

namespace DirectExport

variable {e : DirectExport} {c first : Collection} {v w : Variable} {id a b : String}
  {items : List CssItem}

/-- A variable of a selected collection is an alias in the mode that stands for the collection. -/
structure ShowsAlias (e : DirectExport) (c : Collection) (v : Variable) (id : String) : Prop where
  selected : c ∈ e.selected
  known : v ∈ e.library.vars
  member : v.collectionId = c.id
  value : OrderedMap.find? c.flatModeId v.values = some (.aliasOf id)

/-- A variable is shown as an alias of another one. -/
def Leads (e : DirectExport) (v w : Variable) : Prop :=
  ∃ c id, e.ShowsAlias c v id ∧ e.library.byId? id = some w

/-- A sheet declares a custom property as a reference to another one that is made from an alias. -/
def RefersTo (e : DirectExport) (items : List CssItem) (a b : String) : Prop :=
  ∃ c v id, e.ShowsAlias c v id ∧ (e.scope .css).cssName v = a ∧
    (e.scope .css).aliasText c.flatModeId id (some v.id) = CssName.reference b ∧
    Declares items a (CssName.reference b)

/-- A selected collection is one of the library. -/
lemma mem_of_mem_selected (h : c ∈ e.selected) : c ∈ e.library.collections := by
  unfold selected Collection.select at h
  split_ifs at h
  · exact h
  · exact List.mem_of_mem_filter h

section walks

variable (hcollections : (e.library.collections.map Collection.id).Nodup)
  (hmodes : e.library.HasOwnModes) (hdefaults : e.library.ShowsDefaults)

include hcollections hmodes hdefaults

/-- In the mode that stands for any selected collection, a variable that is shown as an alias has
that alias as its value. -/
lemma ShowsAlias.valueInMode? (h : e.ShowsAlias c v id) (hfirst : first ∈ e.selected) :
    e.library.valueInMode? v first.flatModeId = some (.aliasOf id) := by
  have hc := mem_of_mem_selected h.selected
  unfold Library.valueInMode?
  cases hfind : OrderedMap.find? first.flatModeId v.values with
  | some value =>
    -- the mode is one of the variable's collection, so that it stands for that collection too
    have hkey : first.flatModeId ∈ OrderedMap.keys v.values :=
      List.mem_map_of_mem (OrderedMap.mem_of_find? hfind)
    have hflat := hdefaults.flat_of_mem first (mem_of_mem_selected hfirst) c hc
      (hmodes c hc v h.known h.member _ hkey)
    show some value = _
    rw [← hfind, ← hflat]
    exact h.value
  | none =>
    rw [Library.home?_of_nodup hcollections hc h.member]
    show OrderedMap.find? c.defaultModeId v.values = _
    rw [← hdefaults.flat_eq_default c hc]
    exact h.value

/-- A chain of aliases that are shown is a walk in the mode that stands for any selected
collection. -/
lemma exists_walk_of_transGen (hfirst : first ∈ e.selected) (h : Relation.TransGen e.Leads v w) :
    ∃ n, e.library.Walk first.flatModeId v (n + 1) w := by
  induction h with
  | single hlink =>
    obtain ⟨c, id, hshown, hknown⟩ := hlink
    have hvalue := hshown.valueInMode? hcollections hmodes hdefaults hfirst
    exact ⟨0, Library.Walk.start.link hvalue hknown⟩
  | tail _ hlink ih =>
    obtain ⟨n, hwalk⟩ := ih
    obtain ⟨c, id, hshown, hknown⟩ := hlink
    have hvalue := hshown.valueInMode? hcollections hmodes hdefaults hfirst
    exact ⟨n + 1, hwalk.link hvalue hknown⟩

/-- An alias that leads into a cycle of aliases that are shown is shown as a comment. -/
lemma ShowsAlias.aliasText_of_cycle (hids : (e.library.vars.map Variable.id).Nodup)
    (h : e.ShowsAlias c v id) (hto : Relation.ReflTransGen e.Leads v w)
    (hcycle : Relation.TransGen e.Leads w w) :
    (e.scope .css).aliasText c.flatModeId id (some v.id) = AliasFailure.circular.sentinel := by
  have hvalue := h.valueInMode? hcollections hmodes hdefaults h.selected
  obtain ⟨k, hround⟩ := exists_walk_of_transGen hcollections hmodes hdefaults h.selected hcycle
  have hcycles : e.library.WalkCycles c.flatModeId v := by
    rcases Relation.reflTransGen_iff_eq_or_transGen.mp hto with rfl | hsteps
    · exact ⟨0, k, w, Library.Walk.start, hround⟩
    · obtain ⟨n, hwalk⟩ :=
        exists_walk_of_transGen hcollections hmodes hdefaults h.selected hsteps
      exact ⟨n + 1, k, w, hwalk, hround⟩
  have hfate : (e.scope .css).HasFate c.flatModeId v (maxAliasDepth + 1)
      ((e.scope .css).follow c.flatModeId id (some v.id)).ending :=
    Scope.follow_hasFate hids h.known rfl hvalue
  have hcircular := hfate.circular_iff.mpr (hcycles.goesOn _)
  exact Scope.aliasText_of_circular ((Scope.failure_circular_iff _).mpr hcircular)

end walks

/-! ## Flat sheets -/

/-- Custom properties that refer to each other belong to variables that are shown as aliases. -/
lemma exists_leads_of_refersTo (h : e.RefersTo items a b) :
    ∃ v w, e.Leads v w ∧ (e.scope .css).cssName v = a ∧ (e.scope .css).cssName w = b := by
  obtain ⟨c, v, id, hshown, hname, htext, _⟩ := h
  obtain ⟨w, hknown, hw⟩ := Scope.exists_target_of_aliasText htext
  exact ⟨v, w, ⟨c, id, hshown, hknown⟩, hname, hw⟩

/-- The target of an alias is a variable of the library. -/
lemma Leads.mem_right (h : e.Leads v w) : w ∈ e.library.vars := by
  obtain ⟨_, _, _, hknown⟩ := h
  exact List.mem_reverse.mp (List.mem_of_find?_eq_some hknown)

/-- The variable that is an alias is one of the library. -/
lemma Leads.mem_left (h : e.Leads v w) : v ∈ e.library.vars := by
  obtain ⟨_, _, hshown, _⟩ := h
  exact hshown.known

/-- Where no two variables have the same stylesheet name, a chain of references is a chain of
aliases. -/
lemma exists_transGen_leads (hnames : (e.library.vars.map (e.scope .css).cssName).Nodup)
    (h : Relation.TransGen (e.RefersTo items) a b) :
    ∃ v w, Relation.TransGen e.Leads v w ∧ v ∈ e.library.vars ∧ w ∈ e.library.vars ∧
      (e.scope .css).cssName v = a ∧ (e.scope .css).cssName w = b := by
  induction h with
  | single hlink =>
    obtain ⟨v, w, hleads, hv, hw⟩ := exists_leads_of_refersTo hlink
    exact ⟨v, w, .single hleads, hleads.mem_left, hleads.mem_right, hv, hw⟩
  | tail _ hlink ih =>
    obtain ⟨v, u, hchain, hvmem, humem, hv, hu⟩ := ih
    obtain ⟨u', w, hleads, hu', hw⟩ := exists_leads_of_refersTo hlink
    have hsame : u' = u :=
      List.inj_on_of_nodup_map hnames hleads.mem_left humem (hu'.trans hu.symm)
    rw [hsame] at hleads
    exact ⟨v, w, hchain.tail hleads, hvmem, hleads.mem_right, hv, hw⟩

/-- The references between the custom properties of a flat sheet make no cycle, where every
collection shows its default mode: a variable whose alias leads into a cycle of aliases is declared
with a comment, unless a calculation takes its place. -/
theorem flat_references_acyclic (hitems : e.cssItems = .ok items)
    (hflat : e.settings.modeSelectors = false)
    (hids : (e.library.vars.map Variable.id).Nodup)
    (hcollections : (e.library.collections.map Collection.id).Nodup)
    (hnames : (e.library.vars.map (e.scope .css).cssName).Nodup)
    (hmodes : e.library.HasOwnModes) (hdefaults : e.library.ShowsDefaults) :
    (∀ name, ¬ Relation.TransGen (e.RefersTo items) name name) ∧
      ∀ c v id w, e.ShowsAlias c v id → Relation.ReflTransGen e.Leads v w →
        Relation.TransGen e.Leads w w →
        (∀ f, (e.scope .css).formattingOf v = .ok f → v.type = .number → f.calculation? = none) →
        Declares items ((e.scope .css).cssName v) AliasFailure.circular.sentinel := by
  constructor
  · intro name hcycle
    obtain ⟨b, hfirst, _⟩ := Relation.TransGen.head'_iff.mp hcycle
    obtain ⟨c, v, id, hshown, hname, htext, _⟩ := hfirst
    obtain ⟨u, w, hchain, hu, hw, huname, hwname⟩ := exists_transGen_leads hnames hcycle
    have huv : u = v :=
      List.inj_on_of_nodup_map hnames hu hshown.known (huname.trans hname.symm)
    have hwv : w = v :=
      List.inj_on_of_nodup_map hnames hw hshown.known (hwname.trans hname.symm)
    rw [huv, hwv] at hchain
    have hcomment := hshown.aliasText_of_cycle hcollections hmodes hdefaults hids .refl hchain
    exact AliasFailure.sentinel_ne_reference _ _ (hcomment.symm.trans htext)
  · intro c v id w hshown hto hcycle hcalculation
    obtain ⟨text?, htext, hdeclared⟩ :=
      declares_cssItems hitems hflat hshown.selected hshown.known hshown.member
    refine hdeclared _ ((Scope.text_of_alias hshown.value hcalculation htext).trans ?_)
    rw [hshown.aliasText_of_cycle hcollections hmodes hdefaults hids hto hcycle]

end DirectExport

/-! ### Two variables that are aliases of each other -/

/-- A collection with two modes, the first of which is the default mode. -/
def pairCollection (id name base other otherName : String) : Collection :=
  { id, name, modes := [⟨base, "Base"⟩, ⟨other, otherName⟩], defaultModeId := base }

/-- A text variable with values in modes. -/
def pairVariable (id collectionId : String) (values : OrderedMap VariableValue) : Variable :=
  { id, name := id, type := .text, values, collectionId }

/-- The direct export of two collections with a variable each; their second modes have a name. -/
def pairExport (otherName : String) (first second : Variable) : DirectExport :=
  { library := ⟨[first, second], [pairCollection "one" "One" "1:0" "1:1" otherName,
      pairCollection "two" "Two" "2:0" "2:1" otherName]⟩
    settings := {} }

/-- The sheet that declares a text for each of the two variables. -/
def pairSheet (text text' : String) : List CssItem :=
  [Layout.flat {} [⟨"One", [.custom "a" text]⟩, ⟨"Two", [.custom "b" text']⟩] []]

/-- The sheet of the two collections declares the texts of their variables. -/
lemma cssItems_pairExport {otherName text text' : String} {first second : Variable}
    (hone : (pairExport otherName first second).flatSection
      (pairCollection "one" "One" "1:0" "1:1" otherName) = .ok ⟨"One", [.custom "a" text]⟩)
    (htwo : (pairExport otherName first second).flatSection
      (pairCollection "two" "Two" "2:0" "2:1" otherName) = .ok ⟨"Two", [.custom "b" text']⟩) :
    (pairExport otherName first second).cssItems = .ok (pairSheet text text') := by
  refine DirectExport.cssItems_flat rfl rfl ?_
  show [pairCollection "one" "One" "1:0" "1:1" otherName,
    pairCollection "two" "Two" "2:0" "2:1" otherName].mapM _ = _
  rw [List.mapM_cons, bind_of_ok hone, mapM_singleton htwo]
  rfl

/-- An alias of the second variable in the default mode. -/
def loopFirst : Variable := pairVariable "a" "one" [("1:0", .aliasOf "b")]

/-- An alias of the first variable in the default mode. -/
def loopSecond : Variable := pairVariable "b" "two" [("2:0", .aliasOf "a")]

/-- Two variables that are aliases of each other in the default modes. -/
def loopExport : DirectExport := pairExport "Other" loopFirst loopSecond

/-- The aliases in the default modes are shown as comments. -/
lemma cssItems_loopExport : loopExport.cssItems =
    .ok (pairSheet "/* circular reference */" "/* circular reference */") := by
  have hone : loopExport.members (pairCollection "one" "One" "1:0" "1:1" "Other") =
      .ok [loopFirst] := NaturalOrder.sortBy_singleton rfl
  have htwo : loopExport.members (pairCollection "two" "Two" "2:0" "2:1" "Other") =
      .ok [loopSecond] := NaturalOrder.sortBy_singleton rfl
  exact cssItems_pairExport (DirectExport.flatSection_singleton hone rfl rfl)
    (DirectExport.flatSection_singleton htwo rfl rfl)

/-- The two aliases are shown. -/
lemma showsAlias_loopExport :
    loopExport.ShowsAlias (pairCollection "one" "One" "1:0" "1:1" "Other") loopFirst "b" ∧
      loopExport.ShowsAlias (pairCollection "two" "Two" "2:0" "2:1" "Other") loopSecond "a" :=
  ⟨⟨List.mem_cons_self, List.mem_cons_self, rfl, rfl⟩,
    ⟨List.mem_cons_of_mem _ List.mem_cons_self, List.mem_cons_of_mem _ List.mem_cons_self, rfl, rfl⟩⟩

/-- The two aliases in the default modes lead into a cycle, so that the sheet declares a comment and
has no cycle. -/
theorem DirectExport.flat_references_acyclic_loop :
    loopExport.cssItems = .ok (pairSheet "/* circular reference */" "/* circular reference */") ∧
      loopExport.settings.modeSelectors = false ∧
      (loopExport.library.vars.map Variable.id).Nodup ∧
      (loopExport.library.collections.map Collection.id).Nodup ∧
      (loopExport.library.vars.map (loopExport.scope .css).cssName).Nodup ∧
      loopExport.library.HasOwnModes ∧ loopExport.library.ShowsDefaults ∧
      (∀ name, ¬ Relation.TransGen (loopExport.RefersTo
        (pairSheet "/* circular reference */" "/* circular reference */")) name name) ∧
      Declares (pairSheet "/* circular reference */" "/* circular reference */") "a"
        "/* circular reference */" := by
  have hids : (loopExport.library.vars.map Variable.id).Nodup := by decide
  have hcollections : (loopExport.library.collections.map Collection.id).Nodup := by decide
  have hnames : (loopExport.library.vars.map (loopExport.scope .css).cssName).Nodup := by decide
  have hmodes : loopExport.library.HasOwnModes := by
    unfold Library.HasOwnModes
    decide
  have hdefaults : loopExport.library.ShowsDefaults := ⟨by decide, by decide⟩
  obtain ⟨hacyclic, hcomments⟩ := DirectExport.flat_references_acyclic cssItems_loopExport rfl hids
    hcollections hnames hmodes hdefaults
  have htext : loopFirst.type ≠ .number := nofun
  have hto : loopExport.Leads loopFirst loopSecond := ⟨_, _, showsAlias_loopExport.1, rfl⟩
  have hback : loopExport.Leads loopSecond loopFirst := ⟨_, _, showsAlias_loopExport.2, rfl⟩
  exact ⟨cssItems_loopExport, rfl, hids, hcollections, hnames, hmodes, hdefaults, hacyclic,
    hcomments _ _ _ loopFirst showsAlias_loopExport.1 .refl (.tail (.single hto) hback)
      fun _ _ hnumber => absurd hnumber htext⟩

/-- An alias of the second variable in a mode that is not the default mode. -/
def otherFirst : Variable :=
  pairVariable "a" "one" [("1:0", .text "x"), ("1:1", .aliasOf "b")]

/-- An alias of the first variable in a mode that is not the default mode. -/
def otherSecond : Variable :=
  pairVariable "b" "two" [("2:0", .text "y"), ("2:1", .aliasOf "a")]

/-- Two variables that are aliases of each other in modes called "Default" that are not the default
modes. -/
def twoDefaultsExport : DirectExport := pairExport "Default" otherFirst otherSecond

/-- The aliases in the modes called "Default" are shown as references to each other. -/
lemma cssItems_twoDefaultsExport :
    twoDefaultsExport.cssItems = .ok (pairSheet "var(--b)" "var(--a)") := by
  have hone : twoDefaultsExport.members (pairCollection "one" "One" "1:0" "1:1" "Default") =
      .ok [otherFirst] := NaturalOrder.sortBy_singleton rfl
  have htwo : twoDefaultsExport.members (pairCollection "two" "Two" "2:0" "2:1" "Default") =
      .ok [otherSecond] := NaturalOrder.sortBy_singleton rfl
  exact cssItems_pairExport (DirectExport.flatSection_singleton hone rfl rfl)
    (DirectExport.flatSection_singleton htwo rfl rfl)

/-- Where the modes called "Default" are not the default modes, the declarations of a flat sheet may
refer to each other in a cycle. -/
theorem DirectExport.exists_flat_cycle :
    ∃ items, twoDefaultsExport.cssItems = .ok items ∧
      (twoDefaultsExport.library.vars.map Variable.id).Nodup ∧
      (twoDefaultsExport.library.collections.map Collection.id).Nodup ∧
      (twoDefaultsExport.library.vars.map (twoDefaultsExport.scope .css).cssName).Nodup ∧
      twoDefaultsExport.library.HasOwnModes ∧
      Relation.TransGen (twoDefaultsExport.RefersTo items) "a" "a" := by
  have hmodes : twoDefaultsExport.library.HasOwnModes := by
    unfold Library.HasOwnModes
    decide
  have hto : twoDefaultsExport.RefersTo (pairSheet "var(--b)" "var(--a)") "a" "b" := by
    refine ⟨pairCollection "one" "One" "1:0" "1:1" "Default", otherFirst, "b", ?_, rfl, rfl, ?_⟩
    · exact ⟨List.mem_cons_self, List.mem_cons_self, rfl, rfl⟩
    · exact declares_flat List.mem_cons_self (List.mem_singleton.mpr rfl)
  have hback : twoDefaultsExport.RefersTo (pairSheet "var(--b)" "var(--a)") "b" "a" := by
    refine ⟨pairCollection "two" "Two" "2:0" "2:1" "Default", otherSecond, "a", ?_, rfl, rfl, ?_⟩
    · exact ⟨List.mem_cons_of_mem _ List.mem_cons_self, List.mem_cons_of_mem _ List.mem_cons_self,
        rfl, rfl⟩
    · exact declares_flat (List.mem_cons_of_mem _ List.mem_cons_self) (List.mem_singleton.mpr rfl)
  exact ⟨_, cssItems_twoDefaultsExport, by decide, by decide, by decide, hmodes,
    .tail (.single hto) hback⟩

end DesignTokens

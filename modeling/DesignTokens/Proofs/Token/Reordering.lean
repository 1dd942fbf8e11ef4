import DesignTokens.Proofs.Resolve.AliasWalk
import DesignTokens.Proofs.Token.PathLookup

/-!
# The order of the variables of a library

A design file lists its variables in some order.  The document of a library does not depend on it:
variables are found by their ids, by their paths and by their custom properties, where no two of them
agree, and the tokens of a collection are made in the order of their names.  Only the message about an
ambiguous path repeats the order in which the variables are listed, in the names of the collections
(`Document.ofLibrary_perm`).
-/

namespace DesignTokens

/-! ## Outcomes -/

/-- Two computations end with the same result or the same fault, up to the order of the collections in
which a path is ambiguous. -/
inductive SameOutcome {α : Type} : Except Fault α → Except Fault α → Prop
  | same (x : Except Fault α) : SameOutcome x x
  | ambiguous (path : String) {names names' : List String} (hnames : names.Perm names') :
      SameOutcome (.error (.ambiguousReference path names))
        (.error (.ambiguousReference path names'))

namespace SameOutcome

variable {α β : Type} {x y : Except Fault α}

/-- Computations with the same outcome that go on alike have the same outcome. -/
lemma bind (h : SameOutcome x y) {f g : α → Except Fault β}
    (hstep : ∀ a, SameOutcome (f a) (g a)) : SameOutcome (x >>= f) (y >>= g) := by
  cases h with
  | same x =>
    cases x with
    | error e => exact .same _
    | ok a => exact hstep a
  | ambiguous path hnames => exact .ambiguous path hnames

/-- The same outcome is converted to the same outcome. -/
lemma map (h : SameOutcome x y) (f : α → β) : SameOutcome (x.map f) (y.map f) := by
  cases h with
  | same x => exact .same _
  | ambiguous path hnames => exact .ambiguous path hnames

/-- Folds whose steps have the same outcome have the same outcome. -/
lemma foldlM {f g : β → α → Except Fault β} (hstep : ∀ b a, SameOutcome (f b a) (g b a))
    (items : List α) (b : β) : SameOutcome (items.foldlM f b) (items.foldlM g b) := by
  induction items generalizing b with
  | nil => exact .same _
  | cons a rest ih =>
    rw [List.foldlM_cons, List.foldlM_cons]
    exact (hstep b a).bind ih

/-- What has the same outcome as a result is this result. -/
lemma eq_ok {a : α} (h : SameOutcome (.ok a) x) : x = .ok a := by
  cases h with
  | same x => rfl

end SameOutcome

/-! ## Finding in lists and maps -/

/-- The order of a list does not matter for what is found, if there is only one such item. -/
lemma find?_perm {α : Type} {p : α → Bool} {items items' : List α} (h : items.Perm items')
    (honly : ∀ a ∈ items, ∀ b ∈ items, p a = true → p b = true → a = b) :
    items.find? p = items'.find? p := by
  cases hfound : items.find? p with
  | none =>
    refine (List.find?_eq_none.mpr fun a ha => ?_).symm
    exact List.find?_eq_none.mp hfound a (h.mem_iff.mpr ha)
  | some a =>
    have ha := List.mem_of_find?_eq_some hfound
    have hfound' : (items'.find? p).isSome :=
      List.find?_isSome.mpr ⟨a, h.mem_iff.mp ha, List.find?_some hfound⟩
    obtain ⟨b, hb⟩ := Option.isSome_iff_exists.mp hfound'
    have hmem := h.mem_iff.mpr (List.mem_of_find?_eq_some hb)
    rw [hb, honly a ha b hmem (List.find?_some hfound) (List.find?_some hb)]

/-- The order of a list does not matter for the item with an id, if no two items have the same id. -/
lemma lastWith?_perm {α : Type} {id : α → String} {items items' : List α} (h : items.Perm items')
    (hids : (items.map id).Nodup) (key : String) :
    lastWith? id key items = lastWith? id key items' := by
  have hreverse : items.reverse.Perm items'.reverse :=
    (List.reverse_perm items).trans (h.trans (List.reverse_perm items').symm)
  refine find?_perm hreverse fun a ha b hb hkey hkey' => ?_
  refine List.inj_on_of_nodup_map hids (List.mem_reverse.mp ha) (List.mem_reverse.mp hb) ?_
  exact (eq_of_beq hkey).trans (eq_of_beq hkey').symm

/-- The order of entries does not matter for what is found under a key, if no two entries have the
same key. -/
lemma OrderedMap.find?_perm {α : Type} {m m' : OrderedMap α} (h : m.Perm m')
    (hkeys : m.keys.Nodup) (key : String) : find? key m = find? key m' := by
  have hkeys' : m'.keys.Nodup := (h.map _).nodup_iff.mp hkeys
  refine Option.ext fun value => ?_
  rw [find?_eq_some_iff_mem hkeys, find?_eq_some_iff_mem hkeys', h.mem_iff]

/-! ## Libraries -/

namespace Scope

/-- A scope whose variables are listed differently. -/
def withVars (s : Scope) (vars : List Variable) : Scope :=
  { s with vars }

/-- The variables of a scope are listed in another order, no two variables have the same id, path or
custom property, and no two collections the same name. -/
structure Reorders (s : Scope) (vars : List Variable) : Prop where
  perm : s.vars.Perm vars
  ids : (s.vars.map Variable.id).Nodup
  names : (s.vars.map fun v => (v.collectionId, v.name)).Nodup
  cssNames : (s.vars.map s.cssName).Nodup
  collections : (s.collections.map Collection.name).Nodup

namespace Reorders

variable {s : Scope} {vars : List Variable} (h : s.Reorders vars)
include h

/-- The same variables are found by their ids. -/
lemma byId?_eq : (s.withVars vars).byId? = s.byId? :=
  funext fun id => (lastWith?_perm h.perm h.ids id).symm

/-- The same variables are listed with their collections. -/
lemma perm_entries : s.entries.Perm (s.withVars vars).entries :=
  h.perm.filterMap _

/-- A path that begins with the name of a collection leads to the same variable. -/
lemma byFullPath?_eq (path : String) :
    (s.withVars vars).byFullPath? path = s.byFullPath? path := by
  unfold Library.byFullPath?
  split
  · rename_i first rest _
    refine (find?_perm h.perm_entries fun e he e' he' hnames hnames' => ?_).symm
    rw [Bool.and_eq_true, beq_iff_eq, beq_iff_eq] at hnames hnames'
    refine Library.entry_eq_of_path h.collections h.names he he' ?_
    unfold LibraryEntry.path
    rw [hnames.1, hnames.2, hnames'.1, hnames'.2]
  · rfl

/-- A path leads to the same variable, or is ambiguous between the same collections. -/
lemma sameOutcome_byPath (path : String) :
    SameOutcome (s.byPath path) ((s.withVars vars).byPath path) := by
  have hnamed : (s.byName path).Perm ((s.withVars vars).byName path) := h.perm_entries.filter _
  unfold Library.byPath
  rw [h.byFullPath?_eq]
  split
  · exact .same _
  · split
    · rename_i hnone
      rw [hnone] at hnamed
      rw [List.nil_perm.mp hnamed]
      exact .same _
    · rename_i entry hone
      rw [hone] at hnamed
      rw [← List.singleton_perm.mp hnamed]
      exact .same _
    · rename_i hnone hone
      split
      · rename_i hnone'
        rw [hnone'] at hnamed
        exact absurd (List.perm_nil.mp hnamed) hnone
      · rename_i entry hone'
        rw [hone'] at hnamed
        exact absurd (List.perm_singleton.mp hnamed) (hone entry)
      · exact .ambiguous path (hnamed.map _)

/-- The same variable has a custom property. -/
lemma byProperty?_eq (reference : String) :
    (s.withVars vars).byProperty? reference = s.byProperty? reference := by
  have hproperties : (s.vars.map fun v => "--" ++ s.cssName v).Nodup := by
    have hinjective : Function.Injective ("--" ++ · : String → String) :=
      fun _ _ heq => (String.append_right_inj _).mp heq
    have hall := h.cssNames.map hinjective
    rwa [List.map_map] at hall
  have hkeys : (OrderedMap.keys (s.entries.map fun e => ("--" ++ s.cssName e.item, e))).Nodup := by
    unfold OrderedMap.keys
    rw [List.map_map]
    refine hproperties.sublist (sublist_filterMap (fun v e hv => ?_) s.vars)
    obtain ⟨home, _, rfl⟩ := Option.map_eq_some_iff.mp hv
    rfl
  have hperm : (s.entries.map fun e => ("--" ++ s.cssName e.item, e)).Perm
      ((s.withVars vars).entries.map fun e => ("--" ++ s.cssName e.item, e)) :=
    h.perm_entries.map _
  have hfound : ∀ property, OrderedMap.find? property (s.withVars vars).properties =
      OrderedMap.find? property s.properties := by
    intro property
    have hstored : s.properties = s.entries.map fun e => ("--" ++ s.cssName e.item, e) :=
      OrderedMap.ofList_of_nodup hkeys
    have hstored' : (s.withVars vars).properties =
        (s.withVars vars).entries.map fun e => ("--" ++ s.cssName e.item, e) :=
      OrderedMap.ofList_of_nodup ((hperm.map Prod.fst).nodup_iff.mp hkeys)
    rw [hstored, hstored']
    exact (OrderedMap.find?_perm hperm hkeys property).symm
  unfold byProperty?
  simp only [hfound]

/-! ## Values -/

/-- A chain of aliases leads to the same end. -/
lemma chainEnd_eq (modeId : String) (links : ℕ) (visited : List String) (id : String) :
    (s.withVars vars).chainEnd modeId links visited id = s.chainEnd modeId links visited id := by
  induction links generalizing visited id with
  | zero => rfl
  | succ links ih =>
    unfold Library.chainEnd
    rw [h.byId?_eq]
    simp only [ih]
    rfl

/-- An alias is followed to the same end. -/
lemma follow_eq (modeId id : String) (origin : Option String) :
    (s.withVars vars).follow modeId id origin = s.follow modeId id origin := by
  unfold follow
  simp only [h.chainEnd_eq, h.byId?_eq]
  rfl

/-- A variable has the same number in a mode. -/
lemma numberInMode?_eq (v : Variable) (modeId : String) :
    (s.withVars vars).numberInMode? v modeId = s.numberInMode? v modeId := by
  unfold numberInMode?
  simp only [h.follow_eq]
  rfl

/-- A reference of a calculation leads to the same variable, or is ambiguous between the same
collections. -/
lemma sameOutcome_byReference (r : Reference) :
    SameOutcome (s.byReference r) ((s.withVars vars).byReference r) := by
  cases r with
  | path raw => exact h.sameOutcome_byPath _
  | property raw =>
    unfold byReference
    rw [h.byProperty?_eq]
    exact .same _

/-- The same is found for a reference of a calculation. -/
lemma sameOutcome_lookUp (modeId : String) (found : Found) (r : Reference) :
    SameOutcome (s.lookUp modeId found r) ((s.withVars vars).lookUp modeId found r) := by
  unfold lookUp
  split_ifs
  · exact .same _
  · refine (h.sameOutcome_byReference r).bind fun entry => ?_
    cases entry with
    | none => exact .same _
    | some entry =>
      simp only [addEntry, numberWithUnit, h.numberInMode?_eq]
      exact .same _

/-- A calculation has the same result. -/
lemma sameOutcome_calculated? (f : Formatting) (modeId : String) :
    SameOutcome (s.calculated? f modeId) ((s.withVars vars).calculated? f modeId) := by
  refine SameOutcome.bind ?_ fun c => .same _
  unfold calculate
  split
  · exact .same _
  · exact (SameOutcome.foldlM (h.sameOutcome_lookUp modeId) _ _).bind fun found => .same _

/-- An alias becomes the same reference. -/
lemma referenceTo_eq (id : String) : (s.withVars vars).referenceTo id = s.referenceTo id := by
  unfold Library.referenceTo
  rw [h.byId?_eq]
  rfl

/-- A value becomes the same token value. -/
lemma sameOutcome_flatValue (v : Variable) (f : Formatting) (modeId : String)
    (value : VariableValue) :
    SameOutcome (s.flatValue v f modeId value) ((s.withVars vars).flatValue v f modeId value) := by
  have hcalculated : SameOutcome (s.calculatedLiteral? v.type f modeId)
      ((s.withVars vars).calculatedLiteral? v.type f modeId) := by
    unfold calculatedLiteral?
    split_ifs
    · exact (h.sameOutcome_calculated? f modeId).bind fun result => .same _
    · exact .same _
  unfold flatValue
  split
  · rw [h.referenceTo_eq]
    exact .same _
  · exact hcalculated.bind fun result => .same _

/-- The values in modes become the same token values. -/
lemma sameOutcome_modeValues (v : Variable) (f : Formatting) (modes : List Mode) :
    SameOutcome (s.modeValues v f modes) ((s.withVars vars).modeValues v f modes) := by
  induction modes with
  | nil => exact .same _
  | cons mode rest ih =>
    unfold modeValues
    split
    · exact ih
    · exact (h.sameOutcome_flatValue v f mode.id _).bind fun value => ih.bind fun tail => .same _

/-- A variable has the same token. -/
lemma sameOutcome_token? (c : Collection) (v : Variable) :
    SameOutcome (s.token? c v) ((s.withVars vars).token? c v) := by
  unfold token?
  refine SameOutcome.bind (.same _) fun directives => SameOutcome.bind ?_ fun value => .same _
  unfold tokenValue?
  split_ifs
  · split
    · exact .same _
    · exact (h.sameOutcome_flatValue v _ _ _).map _
  · exact (h.sameOutcome_modeValues v _ _).bind fun values => .same _

/-! ## Documents -/

/-- A collection has the same tree. -/
lemma sameOutcome_tree (c : Collection) : SameOutcome (s.tree c) ((s.withVars vars).tree c) := by
  have hmembers : c.members Variable.name (s.withVars vars).vars = c.members Variable.name s.vars := by
    refine (NaturalOrder.sortBy_perm (h.perm.filter _) ?_).symm
    refine List.Nodup.map_on (fun v hv w hw hname => ?_) (h.names.of_map.filter _)
    obtain ⟨hv, hmember⟩ := List.mem_filter.mp hv
    obtain ⟨hw, hmember'⟩ := List.mem_filter.mp hw
    refine List.inj_on_of_nodup_map h.names hv hw (Prod.ext ?_ hname)
    exact (eq_of_beq hmember).trans (eq_of_beq hmember').symm
  unfold tree
  rw [hmembers]
  refine SameOutcome.bind (.same _) fun members => SameOutcome.foldlM (fun tree v => ?_) members []
  exact (h.sameOutcome_token? c v).bind fun token => .same _

end Reorders

end Scope

/-- The document of a library does not depend on the order in which variables with different ids, paths
and custom properties are listed, and where there is no document, the fault is the same up to the order
of the collections in which a path is ambiguous. -/
theorem Document.ofLibrary_perm {vars vars' : List Variable} {collections : List Collection}
    {settings : Settings} (hperm : vars.Perm vars') (hids : (vars.map Variable.id).Nodup)
    (hnames : (vars.map fun v => (v.collectionId, v.name)).Nodup)
    (hcssNames : (vars.map (Variable.cssName settings.rules settings.namePrefix)).Nodup)
    (hcollections : (collections.map Collection.name).Nodup)
    (options : DocumentOptions) (styles : Option Styles) (sourceFile generatedAt : String) :
    SameOutcome
      (Document.ofLibrary ⟨vars, collections⟩ settings options styles sourceFile generatedAt)
      (Document.ofLibrary ⟨vars', collections⟩ settings options styles sourceFile generatedAt) := by
  have h : (Scope.ofSettings ⟨vars, collections⟩ settings).Reorders vars' :=
    ⟨hperm, hids, hnames, hcssNames, hcollections⟩
  unfold Document.ofLibrary
  refine SameOutcome.bind ?_ fun document => .same _
  exact SameOutcome.foldlM (fun d c => (h.sameOutcome_tree c).bind fun tree => .same _) _ _

/-! ### Two variables listed in either order -/

/-- A text with the name `2` and an alias of it with the name `10`. -/
def countVars : List Variable :=
  [{ shortVariable "v" "a" with name := "2" },
    { shortVariable "w" "a" with name := "10", values := [("m", .aliasOf "v")] }]

/-- The document with both variables in the order of the numbers. -/
def countDocument : Document :=
  { collections := [("A", [("2", .token
      { type := .string
        value := .flat (.literal (.text "x"))
        origin := some { resolvedType := some "STRING" } }),
      ("10", .token
      { type := .string
        value := .flat (.reference "A.2")
        origin := some { resolvedType := some "STRING" } })])]
    generatedAt := fixedTimestamp }

/-- The variables are in order. -/
lemma sortBy_countVars : NaturalOrder.sortBy Variable.name countVars = .ok countVars := by
  have hkeyed : countVars.mapM (fun v => do return (← NaturalOrder.key v.name, v)) =
      .ok [([.number 2, .whole "2"], { shortVariable "v" "a" with name := "2" }),
        ([.number 10, .whole "10"],
          { shortVariable "w" "a" with name := "10", values := [("m", .aliasOf "v")] })] := rfl
  refine NaturalOrder.sortBy_of_pairwise hkeyed ?_
  simp [NaturalOrder.before, SortChunk.before]

/-- The document is the one of the library. -/
lemma ofLibrary_countVars :
    Document.ofLibrary ⟨countVars, [oneModeCollection "a" "A"]⟩ {} {} none "" "" =
      .ok countDocument := by
  have htree : (Scope.ofSettings ⟨countVars, [oneModeCollection "a" "A"]⟩ {}).tree
      (oneModeCollection "a" "A") = .ok [("2", .token
      { type := .string
        value := .flat (.literal (.text "x"))
        origin := some { resolvedType := some "STRING" } }),
      ("10", .token
      { type := .string
        value := .flat (.reference "A.2")
        origin := some { resolvedType := some "STRING" } })] := by
    unfold Scope.tree
    exact (bind_of_ok sortBy_countVars _).trans rfl
  exact Document.ofLibrary_one rfl htree

/-- The document is the same when the alias is listed first. -/
theorem Document.ofLibrary_perm_countVars :
    countVars.Perm countVars.reverse ∧ (countVars.map Variable.id).Nodup ∧
      (countVars.map fun v => (v.collectionId, v.name)).Nodup ∧
      (countVars.map (Variable.cssName ({} : Settings).rules ({} : Settings).namePrefix)).Nodup ∧
      ([oneModeCollection "a" "A"].map Collection.name).Nodup ∧
      Document.ofLibrary ⟨countVars.reverse, [oneModeCollection "a" "A"]⟩ {} {} none "" "" =
        .ok countDocument := by
  have hperm : countVars.Perm countVars.reverse := (List.reverse_perm countVars).symm
  have hids : (countVars.map Variable.id).Nodup := by decide
  have hnames : (countVars.map fun v => (v.collectionId, v.name)).Nodup := by decide
  have hcssNames : (countVars.map
      (Variable.cssName ({} : Settings).rules ({} : Settings).namePrefix)).Nodup := by decide
  have hcollections : ([oneModeCollection "a" "A"].map Collection.name).Nodup := by decide
  refine ⟨hperm, hids, hnames, hcssNames, hcollections, ?_⟩
  have hsame := Document.ofLibrary_perm hperm hids hnames hcssNames hcollections {} none "" ""
  rw [ofLibrary_countVars] at hsame
  exact hsame.eq_ok

end DesignTokens

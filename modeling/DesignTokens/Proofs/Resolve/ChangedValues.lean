import DesignTokens.Proofs.Resolve.Calculation
import DesignTokens.Proofs.Token.Reordering

/-!
# Calculations over changed values

When only the values of variables change, references go on naming the same variables.  A calculation
without a warning has read a number for each of its references (`Scope.exists_brings`).  It can be
made again after such a change, and comes to the same where each variable that it reads, directly or
along a chain of aliases, shows the value that it showed before (`Scope.calculate_mapVars`).
-/

namespace DesignTokens

/-! ## Variables with other values -/

/-- A change of variables that concerns their values only. -/
def ChangesValues (t : Variable → Variable) : Prop :=
  ∀ v, ∃ values, t v = { v with values }

/-- A variable of a library in its collection, changed. -/
def LibraryEntry.change (t : Variable → Variable) (e : LibraryEntry) : LibraryEntry :=
  ⟨t e.item, e.home⟩

namespace Scope

/-- A scope whose variables have been changed. -/
def mapVars (s : Scope) (t : Variable → Variable) : Scope :=
  s.withVars (s.vars.map t)

section changed

variable {s : Scope} {t : Variable → Variable} (ht : ChangesValues t)
include ht

/-- A changed variable has the id that it had. -/
lemma id_change (v : Variable) : (t v).id = v.id := by
  obtain ⟨values, hv⟩ := ht v
  rw [hv]

/-- A changed variable has the name that it had. -/
lemma name_change (v : Variable) : (t v).name = v.name := by
  obtain ⟨values, hv⟩ := ht v
  rw [hv]

/-- A changed variable has the description that it had. -/
lemma description_change (v : Variable) : (t v).description = v.description := by
  obtain ⟨values, hv⟩ := ht v
  rw [hv]

/-- A changed variable has the type that it had. -/
lemma type_change (v : Variable) : (t v).type = v.type := by
  obtain ⟨values, hv⟩ := ht v
  rw [hv]

/-- A changed variable belongs to the collection that it belonged to. -/
lemma collectionId_change (v : Variable) : (t v).collectionId = v.collectionId := by
  obtain ⟨values, hv⟩ := ht v
  rw [hv]

/-- A changed variable has the name in stylesheets that it had. -/
lemma cssName_change (v : Variable) : s.cssName (t v) = s.cssName v := by
  obtain ⟨values, hv⟩ := ht v
  rw [hv]
  rfl

/-- The ids of changed variables are those that they had. -/
lemma ids_mapVars : (s.mapVars t).vars.map Variable.id = s.vars.map Variable.id := by
  show (s.vars.map t).map Variable.id = _
  rw [List.map_map]
  exact List.map_congr_left fun v _ => id_change ht v

/-- By an id the changed variable is found. -/
lemma byId?_mapVars (id : String) : (s.mapVars t).byId? id = (s.byId? id).map t := by
  show (s.vars.map t).reverse.find? _ = (s.vars.reverse.find? _).map t
  rw [← List.map_reverse, List.find?_map]
  have hsame : ((fun v : Variable => v.id == id) ∘ t) = fun v => v.id == id :=
    funext fun v => congrArg (· == id) (id_change ht v)
  rw [hsame]

/-- The entries are the changed variables in their collections. -/
lemma entries_mapVars : (s.mapVars t).entries = s.entries.map (LibraryEntry.change t) := by
  show (s.vars.map t).filterMap _ = (s.vars.filterMap _).map _
  rw [List.filterMap_map, List.map_filterMap]
  refine List.filterMap_congr fun v _ => ?_
  have hhome : (s.mapVars t).home? (t v) = s.home? v :=
    congrArg s.collection? (collectionId_change ht v)
  show ((s.mapVars t).home? (t v)).map _ = _
  rw [hhome, Option.map_map]
  rfl

/-- By a path the changed variable is found. -/
lemma byPath_mapVars (path : String) :
    (s.mapVars t).byPath path = (s.byPath path).map (Option.map (LibraryEntry.change t)) := by
  have hfull : (s.mapVars t).byFullPath? path =
      (s.byFullPath? path).map (LibraryEntry.change t) := by
    unfold Library.byFullPath?
    rw [entries_mapVars ht]
    cases Library.divide? path with
    | none => rfl
    | some parts =>
      dsimp only
      rw [List.find?_map]
      refine congrArg (Option.map _ <| List.find? · s.entries) (funext fun e => ?_)
      show (e.home.name == parts.1 && (t e.item).name == parts.2) = _
      rw [name_change ht]
  have hnamed : (s.mapVars t).byName path = (s.byName path).map (LibraryEntry.change t) := by
    unfold Library.byName
    rw [entries_mapVars ht, List.filter_map]
    refine congrArg (List.map _ <| List.filter · s.entries) (funext fun e => ?_)
    show ((t e.item).name == path) = _
    rw [name_change ht]
  unfold Library.byPath
  rw [hfull, hnamed]
  cases s.byFullPath? path with
  | some entry => rfl
  | none =>
    cases s.byName path with
    | nil => rfl
    | cons first rest =>
      cases rest with
      | nil => rfl
      | cons second others =>
        show Except.error _ = Except.error _
        simp [LibraryEntry.change, Function.comp_def]

/-- By a custom property the changed variable is found. -/
lemma byProperty?_mapVars (reference : String) :
    (s.mapVars t).byProperty? reference =
      (s.byProperty? reference).map (LibraryEntry.change t) := by
  have hproperties : (s.mapVars t).properties =
      s.properties.map fun e => (e.1, LibraryEntry.change t e.2) := by
    have hnames : ((s.mapVars t).entries.map fun e => ("--" ++ (s.mapVars t).cssName e.item, e)) =
        (s.entries.map fun e => ("--" ++ s.cssName e.item, e)).map
          fun e => (e.1, LibraryEntry.change t e.2) := by
      rw [entries_mapVars ht, List.map_map, List.map_map]
      refine List.map_congr_left fun e _ => ?_
      show ("--" ++ s.cssName (t e.item), _) = _
      rw [cssName_change ht]
      rfl
    unfold properties
    rw [hnames, OrderedMap.ofList_map]
  unfold byProperty?
  rw [hproperties]
  cases propertyIn? reference with
  | none => rfl
  | some property => exact OrderedMap.find?_map (LibraryEntry.change t) s.properties property

/-- A reference that names a variable names the changed one. -/
lemma byReference_mapVars {r : Reference} {entry : LibraryEntry}
    (h : s.byReference r = .ok (some entry)) :
    (s.mapVars t).byReference r = .ok (some (entry.change t)) := by
  cases r with
  | path raw =>
    have hpath : s.byPath (Reference.pathText raw) = .ok (some entry) := h
    show (s.mapVars t).byPath _ = _
    rw [byPath_mapVars ht, hpath]
    rfl
  | property raw =>
    have hproperty : s.byProperty? (Reference.property raw).text = some entry := Except.ok.inj h
    show Except.ok ((s.mapVars t).byProperty? _) = _
    rw [byProperty?_mapVars ht, hproperty]
    rfl

/-- A walk along aliases that are shown as before leads to the same variables, changed. -/
lemma walk_mapVars {modeId : String} {v w : Variable} {n : ℕ} (hw : s.Walk modeId v n w)
    (hshown : ∀ m u, s.Walk modeId v m u → s.valueInMode? (t u) modeId = s.valueInMode? u modeId) :
    (s.mapVars t).Walk modeId (t v) n (t w) := by
  induction hw with
  | start => exact .start
  | @link n w next id before names known ih =>
    have hknown : (s.mapVars t).byId? id = some (t next) := by
      rw [byId?_mapVars ht, known]
      rfl
    exact .link ih ((hshown n w before).trans names) hknown

/-- A number that is found along values that are shown as before is found again. -/
lemma numberInMode?_mapVars (hids : (s.vars.map Variable.id).Nodup) {v : Variable}
    (hv : v ∈ s.vars) {depth : ℕ} (hdepth : s.maxDepth = depth) {modeId : String} {x : Float}
    (hshown : ∀ m u, s.Walk modeId v m u → s.valueInMode? (t u) modeId = s.valueInMode? u modeId)
    (h : s.numberInMode? v modeId = some x) :
    (s.mapVars t).numberInMode? (t v) modeId = some x := by
  obtain ⟨⟨holder, n, hn, hwalk, hx, hne⟩, hfinite⟩ :=
    (numberInMode?_eq_some_iff hids hv hdepth x).mp h
  have hids' : ((s.mapVars t).vars.map Variable.id).Nodup := by
    rw [ids_mapVars ht]
    exact hids
  refine (numberInMode?_eq_some_iff hids' (List.mem_map_of_mem hv) hdepth x).mpr ⟨?_, hfinite⟩
  exact ⟨t holder, n, hn, walk_mapVars ht hwalk hshown, (hshown n holder hwalk).trans hx, hne⟩

end changed

end Scope

namespace Scope

/-! ## What a calculation reads -/

/-- A path names an entry of the library. -/
lemma mem_entries_of_byPath {s : Scope} {path : String} {entry : LibraryEntry}
    (h : s.byPath path = .ok (some entry)) : entry ∈ s.entries := by
  unfold Library.byPath at h
  cases hfull : s.byFullPath? path with
  | some found =>
    rw [hfull] at h
    cases h
    exact (Library.of_byFullPath?_eq_some hfull).1
  | none =>
    have hsub : ∀ e ∈ s.byName path, e ∈ s.entries := fun e he => (List.mem_filter.mp he).1
    rw [hfull] at h
    match hnamed : s.byName path, h with
    | [found], h =>
      cases h
      exact hsub entry (hnamed ▸ List.mem_cons_self)

/-- A reference names a variable of the scope. -/
lemma mem_vars_of_byReference {s : Scope} {r : Reference} {entry : LibraryEntry}
    (h : s.byReference r = .ok (some entry)) : entry.item ∈ s.vars := by
  refine (Library.mem_entries_iff.mp ?_).1
  cases r with
  | path raw => exact mem_entries_of_byPath h
  | property raw =>
    have hproperty : s.byProperty? (Reference.property raw).text = some entry := Except.ok.inj h
    obtain ⟨property, _, hfound⟩ := Option.bind_eq_some_iff.mp hproperty
    have hmem := OrderedMap.mem_of_mem_ofList (OrderedMap.mem_of_find? hfound)
    obtain ⟨e, he, heq⟩ := List.mem_map.mp hmem
    cases heq
    exact he

/-- A reference brings a quantity to a calculation in a mode: that of a numeric variable which it
names. -/
structure Brings (s : Scope) (modeId : String) (r : Reference) (entry : LibraryEntry)
    (q : Quantity) : Prop where
  named : s.byReference r = .ok (some entry)
  numeric : entry.item.type = .number
  unit : unitOf entry.item = .ok q.unit
  number : s.numberInMode? entry.item modeId = some q.value

variable {s : Scope} {modeId : String} {r : Reference} {entry : LibraryEntry} {q : Quantity}

/-- A reference that brings a quantity adds it to what has been found, unless it is there. -/
lemma Brings.lookUp (h : s.Brings modeId r entry q) (found : Found) :
    s.lookUp modeId found r = .ok (if (found.quantities.lookup r.text).isSome then found
      else { found with quantities := found.quantities ++ [(r.text, q)] }) := by
  unfold Scope.lookUp
  split_ifs with hfound
  · rfl
  · rw [bind_of_ok h.named]
    dsimp only
    unfold addEntry
    dsimp only
    rw [if_neg (not_not.mpr h.numeric), bind_of_ok (numberWithUnit_of_unitOf h.unit s modeId),
      h.number]
    rfl

/-- Looking up a reference to a variable with a unit is no fault, whatever its value. -/
lemma exists_lookUp (hnamed : s.byReference r = .ok (some entry)) {u : CssUnit}
    (hunit : unitOf entry.item = .ok u) (found : Found) : ∃ found', s.lookUp modeId found r = .ok found' := by
  unfold Scope.lookUp
  split_ifs
  · exact ⟨_, rfl⟩
  · rw [bind_of_ok hnamed]
    exact exists_addEntry_iff.mpr fun _ => ⟨u, hunit⟩

/-- Each quantity that has been found has been brought by a reference. -/
def Found.IsBrought (s : Scope) (modeId : String) (found : Found) : Prop :=
  ∀ e ∈ found.quantities, ∃ r entry, r.text = e.1 ∧ s.Brings modeId r entry e.2

/-- Looking up a reference finds the quantity that it brings, or none. -/
lemma Found.IsBrought.lookUp {found found' : Found} (h : found.IsBrought s modeId)
    (hstep : s.lookUp modeId found r = .ok found') : found'.IsBrought s modeId := by
  unfold Scope.lookUp at hstep
  split_ifs at hstep
  · cases hstep
    exact h
  · obtain ⟨named, hentry, hstep⟩ := bind_eq_ok.mp hstep
    cases named with
    | none =>
      cases hstep
      exact h
    | some entry =>
      rcases addEntry_cases hstep with ⟨q, htype, hunit, hnumber, hquantities⟩ | ⟨-, hquantities⟩
      · intro e he
        rw [hquantities] at he
        rcases List.mem_append.mp he with hold | hnew
        · exact h e hold
        · rw [List.mem_singleton.mp hnew]
          exact ⟨r, entry, rfl, hentry, htype, hunit, hnumber⟩
      · intro e he
        rw [hquantities] at he
        exact h e he

/-- A calculation without a warning has read a quantity for each of its references. -/
lemma exists_brings {f : Formatting} {c : Calculation} (h : s.calculate f modeId = .ok c)
    (hwarnings : c.warnings = []) {text : String} (htext : f.calculation? = some text)
    (hr : r ∈ referencesOf Reference.any? text) : ∃ entry q, s.Brings modeId r entry q := by
  unfold calculate at h
  rw [htext] at h
  obtain ⟨found, hfound, h⟩ := bind_eq_ok.mp h
  have hstart : Found.IsBrought s modeId {} := List.forall_mem_nil _
  have hbrought : found.IsBrought s modeId :=
    foldlM_invariant (Found.IsBrought s modeId) (fun _ _ _ _ hold hstep => hold.lookUp hstep)
      hstart hfound
  cases h
  have hvalue := Calculation.isSome_of_ofText (List.append_eq_nil_iff.mp hwarnings).2 hr
  obtain ⟨q, hlookup⟩ := Option.isSome_iff_exists.mp hvalue
  obtain ⟨before, after, hquantities, _⟩ := List.lookup_eq_some_iff.mp hlookup
  obtain ⟨r', entry, htext', hbrings⟩ := hbrought (r.text, q) (by
    rw [hquantities]
    exact List.mem_append_right _ List.mem_cons_self)
  rw [Reference.text_injective htext'] at hbrings
  exact ⟨entry, q, hbrings⟩

/-! ## Calculations made again -/

section changed

variable {t : Variable → Variable} (ht : ChangesValues t)
include ht

/-- The unit of a changed variable is the one that it had. -/
lemma unitOf_change (v : Variable) : unitOf (t v) = unitOf v := by
  unfold unitOf
  rw [description_change ht]

/-- A calculation without a warning can be made again when values have changed. -/
lemma exists_calculate_mapVars {f : Formatting} {c : Calculation}
    (h : s.calculate f modeId = .ok c) (hwarnings : c.warnings = []) :
    ∃ c', (s.mapVars t).calculate f modeId = .ok c' := by
  unfold calculate
  cases htext : f.calculation? with
  | none => exact ⟨_, rfl⟩
  | some text =>
    have hsteps : ∀ found, ∀ r ∈ referencesOf Reference.any? text,
        ∃ found', (s.mapVars t).lookUp modeId found r = .ok found' := by
      intro found r hr
      obtain ⟨entry, q, hbrings⟩ := exists_brings h hwarnings htext hr
      exact exists_lookUp (byReference_mapVars ht hbrings.named)
        ((unitOf_change ht entry.item).trans hbrings.unit) found
    obtain ⟨found, hfound⟩ := exists_foldlM hsteps {}
    dsimp only
    rw [bind_of_ok hfound]
    exact ⟨_, rfl⟩

/-- A calculation without a warning comes to the same when the variables that it reads show the
values that they showed. -/
lemma calculate_mapVars (hids : (s.vars.map Variable.id).Nodup) {depth : ℕ}
    (hdepth : s.maxDepth = depth) {f : Formatting} {c : Calculation}
    (h : s.calculate f modeId = .ok c) (hwarnings : c.warnings = [])
    (hshown : ∀ text, f.calculation? = some text → ∀ r ∈ referencesOf Reference.any? text,
      ∀ entry, s.byReference r = .ok (some entry) → ∀ n w, s.Walk modeId entry.item n w →
        s.valueInMode? (t w) modeId = s.valueInMode? w modeId) :
    (s.mapVars t).calculate f modeId = s.calculate f modeId := by
  unfold calculate
  cases htext : f.calculation? with
  | none => rfl
  | some text =>
    dsimp only
    rw [foldlM_congr fun found r hr => ?_]
    obtain ⟨entry, q, hbrings⟩ := exists_brings h hwarnings htext hr
    have hagain : (s.mapVars t).Brings modeId r (entry.change t) q := by
      constructor
      · exact byReference_mapVars ht hbrings.named
      · exact (type_change ht entry.item).trans hbrings.numeric
      · exact (unitOf_change ht entry.item).trans hbrings.unit
      · have hentry := mem_vars_of_byReference hbrings.named
        exact numberInMode?_mapVars ht hids hentry hdepth
          (hshown text htext r hr entry hbrings.named) hbrings.number
    rw [hagain.lookUp, hbrings.lookUp]

end changed

end Scope

end DesignTokens

import DesignTokens.Proofs.Faults
import DesignTokens.Proofs.Sync.Evaluations

/-!
# Reports of calculations account for every mode

A report counts each evaluation of a library once, as one that came to a number or as one that
failed; an ambiguous reference is one failed mode and never the end of the whole run.  What came to
a number is stored, and nothing else: applied to variables, a report changes the values of exactly
the stored modes and leaves everything else as it was (`CalculationReport.accounting`).
-/

namespace DesignTokens

/-! ## Ambiguous references -/

/-- The fault is an ambiguous reference. -/
def Fault.IsAmbiguous (fault : Fault) : Prop :=
  ∃ path names, fault = .ambiguousReference path names

/-- A computation never ends because of an ambiguous reference. -/
abbrev NeverAmbiguous {α : Type} (x : Except Fault α) : Prop :=
  FailsOnly (fun fault => ¬ fault.IsAmbiguous) x

/-- No description is an ambiguous reference. -/
lemma Formatting.neverAmbiguous_describedBy (f : Formatting) (description : String) :
    NeverAmbiguous (f.describedBy description) := by
  have hdirectives : NeverAmbiguous (Directives.parse description) := by
    refine (Directives.failsOnly_parse description).mono fun fault hfault => ?_
    rintro ⟨path, names, rfl⟩
    simp [Fault.IsOfDirective] at hfault
  exact hdirectives.bind fun _ => .ok _

namespace CalculationReport

variable {s : Scope} {r : CalculationReport} {library : Library} {settings : Settings}

/-- An ambiguous reference does not end an evaluation. -/
lemma neverAmbiguous_addMode (s : Scope) (v : Variable) (f : Formatting) (r : CalculationReport)
    (mode : Mode) : NeverAmbiguous (addMode s v f r mode) := by
  unfold addMode
  split
  · exact .ok _
  · rename_i fault hother _
    exact .error fun ⟨path, names, heq⟩ => hother path names heq
  · exact .ok _

/-- An ambiguous reference does not end the evaluation of a library. -/
lemma neverAmbiguous_ofLibrary (library : Library) (settings : Settings) :
    NeverAmbiguous (ofLibrary library settings) := by
  refine FailsOnly.foldlM (fun r c => FailsOnly.foldlM (fun r v => ?_) _ r) _ _
  refine (Formatting.neverAmbiguous_describedBy _ v.description).bind fun f => ?_
  split_ifs
  · exact FailsOnly.foldlM (neverAmbiguous_addMode _ v f) _ r
  · exact .ok r

/-! ## Stored numbers -/

/-- The variables and modes that a report has a number for. -/
def storedKeys (r : CalculationReport) : List (String × String) :=
  r.updates.flatMap fun e => e.2.keys.map (Prod.mk e.1)

/-- There are as many stored keys as numbers. -/
lemma length_storedKeys (r : CalculationReport) :
    r.storedKeys.length = (r.updates.map fun e => e.2.length).sum := by
  simp [storedKeys, OrderedMap.keys, List.length_flatMap]

/-- A key is stored exactly if a number is found under it. -/
lemma mem_storedKeys (hkeys : r.updates.keys.Nodup) {id modeId : String} :
    (id, modeId) ∈ r.storedKeys ↔ ∃ x, OrderedMap.find? modeId (r.updatesOf id) = some x := by
  unfold storedKeys
  rw [List.mem_flatMap]
  constructor
  · rintro ⟨⟨id', values⟩, hentry, hkey⟩
    obtain ⟨modeId', hmode, heq⟩ := List.mem_map.mp hkey
    cases heq
    unfold updatesOf
    rw [(OrderedMap.find?_eq_some_iff_mem hkeys).mpr hentry]
    exact Option.isSome_iff_exists.mp (OrderedMap.has_of_mem_keys hmode)
  · rintro ⟨x, hx⟩
    unfold updatesOf at hx
    cases hvalues : OrderedMap.find? id r.updates with
    | none =>
      rw [hvalues] at hx
      cases hx
    | some values =>
      rw [hvalues] at hx
      refine ⟨(id, values), OrderedMap.mem_of_find? hvalues, List.mem_map_of_mem ?_⟩
      exact List.mem_map_of_mem (OrderedMap.mem_of_find? hx)

/-- No key is stored twice. -/
lemma nodup_storedKeys (hkeys : r.updates.keys.Nodup) (hr : r.IsKeyed) : r.storedKeys.Nodup := by
  refine List.nodup_flatMap.mpr ⟨fun e he => ?_, ?_⟩
  · exact (hr e he).map (Prod.mk_right_injective e.1)
  · refine (List.pairwise_map.mp hkeys).imp fun hne k hk hk' => hne ?_
    obtain ⟨_, _, rfl⟩ := List.mem_map.mp hk
    obtain ⟨_, _, heq⟩ := List.mem_map.mp hk'
    exact (Prod.mk.inj heq).1.symm

/-- What a report of a library finds under a variable and a mode is the number that the evaluation
of this variable in this mode comes to. -/
lemma find?_updatesOf_iff (hvars : (library.vars.map Variable.id).Nodup)
    (hcollections : (library.collections.map Collection.id).Nodup)
    (h : ofLibrary library settings = .ok r) {id modeId : String} {x : Float} :
    OrderedMap.find? modeId (r.updatesOf id) = some x ↔
      ∃ e ∈ (Scope.ofSettings library settings).evaluations, e.key = (id, modeId) ∧
        (Scope.ofSettings library settings).number? e = some x := by
  have hperm := (Scope.ofSettings library settings).perm_visits hcollections
  rw [(accounts_ofLibrary h).find?_eq_some_iff fun e he e' he' =>
    Scope.number?_eq_of_key hvars (hperm.mem_iff.mp he) (hperm.mem_iff.mp he')]
  exact exists_congr fun e => and_congr_left' hperm.mem_iff

/-- A report of a library stores as many numbers as it has counted. -/
lemma synced_eq_sum (hvars : (library.vars.map Variable.id).Nodup)
    (hcollections : (library.collections.map Collection.id).Nodup)
    (hmodes : ∀ c ∈ library.collections, (c.modes.map Mode.id).Nodup)
    (h : ofLibrary library settings = .ok r) :
    r.synced = (r.updates.map fun e => e.2.length).sum := by
  have haccounts := accounts_ofLibrary h
  have hperm := (Scope.ofSettings library settings).perm_visits hcollections
  -- the keys of the evaluations that came to a number, and those that are stored
  have hnodup := Scope.nodup_evaluations (s := Scope.ofSettings library settings) hvars hmodes
  have hnumbers := List.filter_sublist (l := (Scope.ofSettings library settings).evaluations)
    (p := fun e => ((Scope.ofSettings library settings).number? e).isSome)
  have hkeys := hnodup.sublist (hnumbers.map Evaluation.key)
  have hsame := (List.perm_ext_iff_of_nodup hkeys
    (nodup_storedKeys haccounts.keyed (isKeyed_ofLibrary h))).mpr ?_
  · rw [haccounts.synced, hperm.countP_eq, List.countP_eq_length_filter, ← length_storedKeys,
      ← hsame.length_eq, List.length_map]
  · rintro ⟨id, modeId⟩
    rw [mem_storedKeys haccounts.keyed, List.mem_map]
    simp only [find?_updatesOf_iff hvars hcollections h, List.mem_filter]
    constructor
    · rintro ⟨e, ⟨he, hsome⟩, hkey⟩
      obtain ⟨x, hx⟩ := Option.isSome_iff_exists.mp hsome
      exact ⟨x, e, he, hkey, hx⟩
    · rintro ⟨x, e, he, hkey, hx⟩
      exact ⟨e, ⟨he, hx ▸ rfl⟩, hkey⟩

/-- Each evaluation is counted once, as one that came to a number or as one that failed. -/
lemma synced_add_failed (hcollections : (library.collections.map Collection.id).Nodup)
    (h : ofLibrary library settings = .ok r) :
    r.synced + r.failed = (Scope.ofSettings library settings).evaluations.length := by
  have haccounts := accounts_ofLibrary h
  have hfails : (Scope.ofSettings library settings).visits.countP
      (Scope.ofSettings library settings).fails =
        (Scope.ofSettings library settings).visits.countP
          fun e => ¬ ((Scope.ofSettings library settings).number? e).isSome = true := by
    refine List.countP_congr fun e he => ?_
    rw [haccounts.settled e he]
    simp
  rw [haccounts.synced, haccounts.failed, hfails,
    ← (Scope.perm_visits (s := Scope.ofSettings library settings) hcollections).length_eq]
  exact (List.length_eq_countP_add_countP _).symm

/-- Applying a report changes the values of the modes that it has numbers for, and nothing else. -/
lemma forall₂_apply (hr : r.IsKeyed) (vars : List Variable) :
    List.Forall₂ (fun v v' => ∃ values, v' = { v with values } ∧ ∀ modeId,
      OrderedMap.find? modeId values =
        ((OrderedMap.find? modeId (r.updatesOf v.id)).map VariableValue.number).or
          (OrderedMap.find? modeId v.values)) vars (r.apply vars) := by
  unfold apply
  rw [List.forall₂_map_right_iff, List.forall₂_same]
  intro v _
  refine ⟨_, r.applyTo_eq v, fun modeId => ?_⟩
  exact OrderedMap.find?_foldl_set VariableValue.number (hr.updatesOf v.id) v.values modeId

/-- A report of the calculations of a library accounts for every mode.  An ambiguous reference is no
fault of the whole.  The modes that came to a number and those that failed are together as many as
the variables with a calculation have in their collections; the former are as many as the numbers
that are stored, the latter are those with a warning, without a value or with an ambiguous
reference.  What is stored under a variable and a mode is what the calculation of the variable comes
to in the mode, and applying the report stores these numbers as the values of exactly these modes,
in the same variables in the same order. -/
theorem accounting (hvars : (library.vars.map Variable.id).Nodup)
    (hcollections : (library.collections.map Collection.id).Nodup)
    (hmodes : ∀ c ∈ library.collections, (c.modes.map Mode.id).Nodup) :
    NeverAmbiguous (ofLibrary library settings) ∧
    ((Scope.ofSettings library settings).evaluations.map Evaluation.key).Nodup ∧
    ∀ r, ofLibrary library settings = .ok r →
      r.synced + r.failed = (Scope.ofSettings library settings).evaluations.length ∧
      r.synced = (r.updates.map fun e => e.2.length).sum ∧
      r.failed = (Scope.ofSettings library settings).evaluations.countP
        (Scope.ofSettings library settings).fails ∧
      (∀ id modeId x, OrderedMap.find? modeId (r.updatesOf id) = some x ↔
        ∃ e ∈ (Scope.ofSettings library settings).evaluations, e.key = (id, modeId) ∧
          (Scope.ofSettings library settings).number? e = some x) ∧
      List.Forall₂ (fun v v' => ∃ values, v' = { v with values } ∧ ∀ modeId,
        OrderedMap.find? modeId values =
          ((OrderedMap.find? modeId (r.updatesOf v.id)).map VariableValue.number).or
            (OrderedMap.find? modeId v.values)) library.vars (r.apply library.vars) := by
  refine ⟨neverAmbiguous_ofLibrary library settings, Scope.nodup_evaluations hvars hmodes,
    fun r h => ?_⟩
  have hperm := (Scope.ofSettings library settings).perm_visits hcollections
  refine ⟨synced_add_failed hcollections h, synced_eq_sum hvars hcollections hmodes h, ?_, ?_, ?_⟩
  · rw [(accounts_ofLibrary h).failed, hperm.countP_eq]
  · exact fun id modeId x => find?_updatesOf_iff hvars hcollections h
  · exact forall₂_apply (isKeyed_ofLibrary h) library.vars

end CalculationReport

/-! ### A calculation over a name that two variables have -/

/-- A number that is calculated to be eight, with the value that is recorded. -/
def baseNumber (x : Float) : Variable :=
  { id := "v", name := "base", type := .number, values := [("m", .number x)], collectionId := "c"
    description := "calc: 8" }

/-- A number that is calculated to be the double of another one, with the value that is recorded. -/
def doubleNumber (y : Float) : Variable :=
  { id := "w", name := "double", type := .number, values := [("m", .number y)], collectionId := "c"
    description := "calc: 'base' * 2" }

/-- The evaluation of the first number. -/
def baseEvaluation (x : Float) : Evaluation :=
  ⟨baseNumber x, { expression := some "8" }, ⟨"m", "Value"⟩⟩

/-- The evaluation of the second number. -/
def doubleEvaluation (y : Float) : Evaluation :=
  ⟨doubleNumber y, { expression := some "'base' * 2" }, ⟨"m", "Value"⟩⟩

/-- The formatting of the first number. -/
lemma describedBy_base : ({} : Formatting).describedBy "calc: 8" =
    .ok { expression := some "8" } := rfl

/-- The formatting of the second number. -/
lemma describedBy_double : ({} : Formatting).describedBy "calc: 'base' * 2" =
    .ok { expression := some "'base' * 2" } := rfl

/-- The one reference in the calculation of the second number. -/
lemma referencesOf_double : referencesOf Reference.any? "'base' * 2" = [.path "base".toList] := by
  decide +kernel

namespace Scope

variable {s : Scope}

/-- The evaluations of the two numbers. -/
lemma visitsOf_double {x y : Float} (hbase : s.base = {}) {c : Collection}
    (hmodes : c.modes = [⟨"m", "Value"⟩])
    (hmembers : s.vars.filter (·.collectionId == c.id) = [baseNumber x, doubleNumber y]) :
    s.visitsOf c = [baseEvaluation x, doubleEvaluation y] := by
  have hfirst : s.calculating? (baseNumber x) = some (baseEvaluation x).formatting :=
    calculating?_eq_some_iff.mpr ⟨hbase ▸ describedBy_base, rfl⟩
  have hsecond : s.calculating? (doubleNumber y) = some (doubleEvaluation y).formatting :=
    calculating?_eq_some_iff.mpr ⟨hbase ▸ describedBy_double, rfl⟩
  unfold visitsOf
  rw [hmembers, hmodes, List.flatMap_cons, List.flatMap_cons]
  unfold evaluationsIn
  rw [hfirst, hsecond]
  rfl

/-- The first number comes to eight. -/
lemma number?_base (s : Scope) (x : Float) : s.number? (baseEvaluation x) = some 8.0 := by
  have hreferences : referencesOf Reference.any? "8" = [] := by decide +kernel
  have hsubstituted : Calculation.substituted "8" = "8" := by decide +kernel
  have hlexemes : Lexeme.scan "8" = .ok [⟨.number, "8", 0⟩] := by decide +kernel
  have hparsed : Expr.parse "8" = .ok (.number 8.0) := by
    unfold Expr.parse
    rw [hlexemes]
    rfl
  have hresult : Calculation.ofText "8" (fun reference => [].lookup reference) =
      { value := some 8.0 } := by
    unfold Calculation.ofText Calculation.compute Calculation.distinctReferences
    rw [hsubstituted, hparsed, hreferences]
    rfl
  have hcalculation : (baseEvaluation x).formatting.calculation? = some "8" := rfl
  have hcalculated : s.calculate (baseEvaluation x).formatting "m" =
      .ok { value := some 8.0 } := by
    unfold calculate
    rw [hcalculation]
    dsimp only
    rw [hreferences]
    show Except.ok _ = Except.ok _
    rw [hresult]
    rfl
  exact number?_eq_some_iff.mpr ⟨_, hcalculated, rfl, rfl⟩

/-- An ambiguous path ends the calculation of the second number. -/
lemma calculate_double_of_error {fault : Fault} (hnamed : s.byPath "base" = .error fault)
    (y : Float) : s.calculate (doubleEvaluation y).formatting "m" = .error fault := by
  have hcalculation : (doubleEvaluation y).formatting.calculation? = some "'base' * 2" := rfl
  have hlookup : s.lookUp "m" {} (.path "base".toList) = .error fault := by
    have hreference : s.byReference (.path "base".toList) = .error fault := hnamed
    unfold lookUp
    rw [hreference]
    rfl
  unfold calculate
  rw [hcalculation]
  dsimp only
  rw [referencesOf_double, List.foldlM_cons, hlookup]
  rfl

end Scope

/-- Two collections with a number of the same name, of which the first one also holds its double. -/
def namesakeLibrary : Library :=
  ⟨[baseNumber 4.0, doubleNumber 8.0, { baseNumber 4.0 with id := "u", collectionId := "d"
                                                            description := "" }],
    [oneModeCollection "c" "Spacing", oneModeCollection "d" "Sizing"]⟩

/-- The fault of the path that names both numbers. -/
def namesakeFault : Fault := .ambiguousReference "base" ["Spacing", "Sizing"]

/-- The report of the library. -/
def namesakeReport : CalculationReport :=
  { synced := 1
    failed := 1
    warnings := ["double: " ++ namesakeFault.message]
    updates := [("v", [("m", 8.0)])] }

/-- The calculation without a reference comes to a number, and the one with the ambiguous path
fails. -/
lemma CalculationReport.ofLibrary_namesake :
    ofLibrary namesakeLibrary {} = .ok namesakeReport := by
  have hdescribed : ∀ v ∈ namesakeLibrary.vars,
      ∃ f, ({} : Formatting).describedBy v.description = .ok f :=
    List.forall_mem_cons.mpr ⟨⟨_, describedBy_base⟩,
      List.forall_mem_cons.mpr ⟨⟨_, describedBy_double⟩,
        List.forall_mem_singleton.mpr ⟨_, rfl⟩⟩⟩
  have hvisits : (Scope.ofSettings namesakeLibrary {}).visits =
      [baseEvaluation 4.0, doubleEvaluation 8.0] := by
    have hfirst : (Scope.ofSettings namesakeLibrary {}).visitsOf (oneModeCollection "c" "Spacing") =
        [baseEvaluation 4.0, doubleEvaluation 8.0] :=
      Scope.visitsOf_double rfl rfl rfl
    have hsecond : (Scope.ofSettings namesakeLibrary {}).visitsOf (oneModeCollection "d" "Sizing") =
        [] := rfl
    show Scope.visitsOf _ _ ++ (Scope.visitsOf _ _ ++ []) = _
    rw [hfirst, hsecond]
    rfl
  have hnumber := Scope.number?_base (Scope.ofSettings namesakeLibrary {}) 4.0
  have hambiguous : (Scope.ofSettings namesakeLibrary {}).calculate
      (doubleEvaluation 8.0).formatting "m" = .error namesakeFault :=
    Scope.calculate_double_of_error rfl 8.0
  have hdescribes : Describes (Scope.ofSettings namesakeLibrary {}) :=
    fun _ _ v hv _ => hdescribed v hv
  rw [ofLibrary_eq hdescribes, hvisits, List.foldlM_cons,
    bind_of_ok (addEvaluation_of_number hnumber {}), List.foldlM_cons,
    bind_of_ok (addEvaluation_of_ambiguous hambiguous _)]
  rfl

/-- In a library where one calculation comes to a number and another one has an ambiguous path, both
modes are accounted for, and only the number is stored. -/
theorem CalculationReport.accounting_namesake :
    (namesakeLibrary.vars.map Variable.id).Nodup ∧
      (namesakeLibrary.collections.map Collection.id).Nodup ∧
      (∀ c ∈ namesakeLibrary.collections, (c.modes.map Mode.id).Nodup) ∧
      ofLibrary namesakeLibrary {} = .ok namesakeReport ∧
      namesakeReport.synced + namesakeReport.failed =
        (Scope.ofSettings namesakeLibrary {}).evaluations.length ∧
      (Scope.ofSettings namesakeLibrary {}).evaluations.countP
        (Scope.ofSettings namesakeLibrary {}).fails = 1 := by
  have hvars : (namesakeLibrary.vars.map Variable.id).Nodup := by decide
  have hcollections : (namesakeLibrary.collections.map Collection.id).Nodup := by decide
  have hmodes : ∀ c ∈ namesakeLibrary.collections, (c.modes.map Mode.id).Nodup := by decide
  obtain ⟨hcounted, _, hfailed, _⟩ :=
    (accounting hvars hcollections hmodes).2.2 namesakeReport ofLibrary_namesake
  exact ⟨hvars, hcollections, hmodes, ofLibrary_namesake, hcounted, hfailed.symm⟩

end DesignTokens

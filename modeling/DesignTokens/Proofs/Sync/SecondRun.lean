import DesignTokens.Proofs.Resolve.ChangedValues
import DesignTokens.Proofs.Sync.Accounting

/-!
# Evaluating the calculations of a library again

The numbers that calculations come to are stored as values of their variables, which other
calculations may read.  A calculation reads what is recorded and not what another calculation would
come to, so that one run does not settle a chain of calculations
(`CalculationReport.unsettled_chained`).

After a run without a failure a second one makes the same evaluations.  It stores the same numbers
exactly if each evaluation comes to the number that it came to, and this is so where each variable
that a calculation reads, directly or along a chain of aliases, shows the value that it showed
before (`CalculationReport.exists_second_run`).
-/

namespace DesignTokens

/-- The evaluation of a variable that has been changed. -/
def Evaluation.change (t : Variable → Variable) (e : Evaluation) : Evaluation :=
  { e with item := t e.item }

namespace Scope

/-- An evaluation reads the variables that the references of its calculation name, and those to
which aliases lead from there. -/
def Reads (s : Scope) (e : Evaluation) (w : Variable) : Prop :=
  ∃ text r entry n, e.formatting.calculation? = some text ∧
    r ∈ referencesOf Reference.any? text ∧ s.byReference r = .ok (some entry) ∧
    s.Walk e.mode.id entry.item n w

section changed

variable {s : Scope} {t : Variable → Variable} (ht : ChangesValues t)
include ht

/-- A changed variable is evaluated as it was. -/
lemma evaluationsIn_mapVars (modes : List Mode) (v : Variable) :
    (s.mapVars t).evaluationsIn modes (t v) =
      (s.evaluationsIn modes v).map (Evaluation.change t) := by
  have hcalculating : (s.mapVars t).calculating? (t v) = s.calculating? v := by
    unfold calculating?
    rw [description_change ht]
    rfl
  unfold evaluationsIn
  rw [hcalculating]
  cases s.calculating? v with
  | none => rfl
  | some f =>
    dsimp only
    rw [List.map_map]
    rfl

/-- The evaluations of changed variables are made in the same order. -/
lemma visits_mapVars : (s.mapVars t).visits = s.visits.map (Evaluation.change t) := by
  have hvisits : ∀ c, (s.mapVars t).visitsOf c = (s.visitsOf c).map (Evaluation.change t) := by
    intro c
    have hmembers : ((fun v : Variable => v.collectionId == c.id) ∘ t) =
        fun v => v.collectionId == c.id :=
      funext fun v => congrArg (· == c.id) (collectionId_change ht v)
    show ((s.vars.map t).filter _).flatMap _ = _
    unfold visitsOf
    rw [List.filter_map, hmembers, List.flatMap_map, List.map_flatMap]
    exact List.flatMap_congr fun v _ => evaluationsIn_mapVars ht c.modes v
  unfold visits
  rw [List.map_flatMap]
  exact List.flatMap_congr fun c _ => hvisits c

/-- An evaluation comes to the same number where the variables that it reads show the values that
they showed. -/
lemma number?_mapVars (hids : (s.vars.map Variable.id).Nodup) {depth : ℕ}
    (hdepth : s.maxDepth = depth) {e : Evaluation} {x : Float} (hx : s.number? e = some x)
    (hshown : ∀ w, s.Reads e w →
      s.valueInMode? (t w) e.mode.id = s.valueInMode? w e.mode.id) :
    (s.mapVars t).number? e = s.number? e := by
  obtain ⟨c, hc, -, hwarnings⟩ := number?_eq_some_iff.mp hx
  unfold number?
  rw [calculate_mapVars ht hids hdepth hc hwarnings]
  exact fun text htext r hr entry hentry n w hwalk =>
    hshown w ⟨text, r, entry, n, htext, hr, hentry, hwalk⟩

end changed

end Scope

namespace CalculationReport

variable {library : Library} {settings : Settings} {r r' : CalculationReport}

/-- A report changes the values of variables only. -/
lemma changesValues_applyTo (r : CalculationReport) : ChangesValues r.applyTo :=
  fun v => ⟨_, r.applyTo_eq v⟩

/-- Where nothing has failed, every evaluation has come to a number. -/
lemma exists_number?_of_failed_eq_zero (h : ofLibrary library settings = .ok r)
    (hfailed : r.failed = 0) {e : Evaluation}
    (he : e ∈ (Scope.ofSettings library settings).visits) :
    ∃ x, (Scope.ofSettings library settings).number? e = some x := by
  have haccounts := accounts_ofLibrary h
  have hnone := List.countP_eq_zero.mp (haccounts.failed.symm.trans hfailed) e he
  rw [haccounts.settled e he] at hnone
  exact Option.ne_none_iff_exists'.mp fun heq => hnone (Option.isNone_iff_eq_none.mpr heq)

section second

variable {t : Variable → Variable} (ht : ChangesValues t)
  (h : ofLibrary library settings = .ok r)
include ht h

/-- The descriptions of changed variables can be read as before. -/
lemma describes_mapVars : Describes ((Scope.ofSettings library settings).mapVars t) := by
  intro c hc v hv hid
  obtain ⟨u, hu, rfl⟩ := List.mem_map.mp hv
  rw [Scope.description_change ht]
  exact describes_of_ofLibrary h c hc u hu ((Scope.collectionId_change ht u).symm.trans hid)

/-- A second run makes the evaluations of the first one, with other values. -/
lemma ofLibrary_mapVars : ofLibrary { library with vars := library.vars.map t } settings =
    (Scope.ofSettings library settings).visits.foldlM
      (fun r e => addEvaluation ((Scope.ofSettings library settings).mapVars t) r (e.change t))
      {} := by
  refine (ofLibrary_eq (describes_mapVars ht h)).trans ?_
  show List.foldlM _ _ ((Scope.ofSettings library settings).mapVars t).visits = _
  rw [Scope.visits_mapVars ht, List.foldlM_map]
  rfl

end second

/-- A second run, on the variables with the values that the first one has reported, ends well if
nothing has failed in the first one. -/
lemma exists_ofLibrary_apply (h : ofLibrary library settings = .ok r) (hfailed : r.failed = 0) :
    ∃ r', ofLibrary { library with vars := r.apply library.vars } settings = .ok r' := by
  have ht := changesValues_applyTo r
  have hsteps : ∀ report, ∀ e ∈ (Scope.ofSettings library settings).visits, ∃ report',
      addEvaluation ((Scope.ofSettings library settings).mapVars r.applyTo) report
        (e.change r.applyTo) = .ok report' := by
    intro report e he
    obtain ⟨x, hx⟩ := exists_number?_of_failed_eq_zero h hfailed he
    obtain ⟨c, hc, -, hwarnings⟩ := Scope.number?_eq_some_iff.mp hx
    obtain ⟨c', hc'⟩ := Scope.exists_calculate_mapVars ht hc hwarnings
    exact exists_addEvaluation (e := e.change r.applyTo) hc' report
  obtain ⟨r', hr'⟩ := exists_foldlM hsteps {}
  exact ⟨r', (ofLibrary_mapVars ht h).trans hr'⟩

/-- The report is the same if all evaluations come to the same numbers. -/
lemma ofLibrary_apply_eq (h : ofLibrary library settings = .ok r) (hfailed : r.failed = 0)
    (hsame : ∀ e ∈ (Scope.ofSettings library settings).evaluations,
      ((Scope.ofSettings library settings).mapVars r.applyTo).number? e =
        (Scope.ofSettings library settings).number? e)
    (hcollections : (library.collections.map Collection.id).Nodup) :
    ofLibrary { library with vars := r.apply library.vars } settings = .ok r := by
  have ht := changesValues_applyTo r
  refine (ofLibrary_mapVars ht h).trans ?_
  rw [← h, ofLibrary_eq (describes_of_ofLibrary h)]
  refine foldlM_congr (fun report e he => ?_) _
  obtain ⟨x, hx⟩ := exists_number?_of_failed_eq_zero h hfailed he
  have hagain := hsame e ((Scope.perm_visits hcollections).mem_iff.mp he)
  rw [addEvaluation_of_number hx, addEvaluation_of_number (e := e.change r.applyTo)
    (hagain.trans hx)]
  rw [show (e.change r.applyTo).item.id = e.item.id from Scope.id_change ht e.item]
  rfl

/-- Where the second run stores the same numbers, its evaluations have come to the same. -/
lemma number?_eq_of_updates_eq (hvars : (library.vars.map Variable.id).Nodup)
    (hcollections : (library.collections.map Collection.id).Nodup)
    (h : ofLibrary library settings = .ok r) (hfailed : r.failed = 0)
    (h' : ofLibrary { library with vars := r.apply library.vars } settings = .ok r')
    (hupdates : r'.updates = r.updates) {e : Evaluation}
    (he : e ∈ (Scope.ofSettings library settings).evaluations) :
    ((Scope.ofSettings library settings).mapVars r.applyTo).number? e =
      (Scope.ofSettings library settings).number? e := by
  have ht := changesValues_applyTo r
  have hvars' : ((r.apply library.vars).map Variable.id).Nodup := by
    have hids := Scope.ids_mapVars (s := Scope.ofSettings library settings) ht
    exact hids.symm ▸ hvars
  have hperm := Scope.perm_visits (s := Scope.ofSettings library settings) hcollections
  have hperm' := Scope.perm_visits
    (s := (Scope.ofSettings library settings).mapVars r.applyTo) hcollections
  have hchange : e.change r.applyTo ∈
      ((Scope.ofSettings library settings).mapVars r.applyTo).evaluations := by
    rw [← hperm'.mem_iff, Scope.visits_mapVars ht]
    exact List.mem_map_of_mem (hperm.mem_iff.mpr he)
  have hkey : (e.change r.applyTo).key = e.key :=
    congrArg (·, e.mode.id) (Scope.id_change ht e.item)
  obtain ⟨x, hx⟩ := exists_number?_of_failed_eq_zero h hfailed (hperm.mem_iff.mpr he)
  -- the number that the first run has stored is found by the second one
  have hfound := (find?_updatesOf_iff hvars hcollections h).mpr ⟨e, he, rfl, hx⟩
  unfold updatesOf at hfound
  rw [← hupdates] at hfound
  obtain ⟨e', he', hkey', hx'⟩ :=
    (find?_updatesOf_iff hvars' (by exact hcollections) h').mp hfound
  have hagain := Scope.number?_eq_of_key hvars' hchange he' (hkey'.trans hkey.symm)
  exact hagain.symm.trans (hx'.trans hx.symm)

/-- After a run of the calculations of a library in which nothing has failed, a second run, on the
variables with the values that the first one has reported, ends well and makes as many evaluations.
It stores the same numbers exactly if each evaluation comes to the number that it came to, and then
its whole report is the same.  This is so where each variable that an evaluation reads shows the
value in its mode that it showed before. -/
theorem exists_second_run (hvars : (library.vars.map Variable.id).Nodup)
    (hcollections : (library.collections.map Collection.id).Nodup)
    (h : ofLibrary library settings = .ok r) (hfailed : r.failed = 0) :
    ∃ r', ofLibrary { library with vars := r.apply library.vars } settings = .ok r' ∧
      r'.synced + r'.failed = r.synced ∧
      (r'.updates = r.updates ↔ ∀ e ∈ (Scope.ofSettings library settings).evaluations,
        ((Scope.ofSettings library settings).mapVars r.applyTo).number? e =
          (Scope.ofSettings library settings).number? e) ∧
      (r'.updates = r.updates → r' = r) ∧
      ((∀ e ∈ (Scope.ofSettings library settings).evaluations, ∀ w,
        (Scope.ofSettings library settings).Reads e w →
          (Scope.ofSettings library settings).valueInMode? (r.applyTo w) e.mode.id =
            (Scope.ofSettings library settings).valueInMode? w e.mode.id) → r' = r) := by
  have hperm := Scope.perm_visits (s := Scope.ofSettings library settings) hcollections
  obtain ⟨r', h'⟩ := exists_ofLibrary_apply h hfailed
  have hequal : (∀ e ∈ (Scope.ofSettings library settings).evaluations,
      ((Scope.ofSettings library settings).mapVars r.applyTo).number? e =
        (Scope.ofSettings library settings).number? e) → r' = r := fun hsame =>
    Except.ok.inj (h'.symm.trans (ofLibrary_apply_eq h hfailed hsame hcollections))
  have hnumbers : r'.updates = r.updates →
      ∀ e ∈ (Scope.ofSettings library settings).evaluations,
        ((Scope.ofSettings library settings).mapVars r.applyTo).number? e =
          (Scope.ofSettings library settings).number? e := fun hupdates e he =>
    number?_eq_of_updates_eq hvars hcollections h hfailed h' hupdates he
  refine ⟨r', h', ?_, ⟨hnumbers, fun hsame => congrArg _ (hequal hsame)⟩,
    fun hupdates => hequal (hnumbers hupdates), fun hshown => hequal fun e he => ?_⟩
  · have hcounted := synced_add_failed hcollections h
    have hcounted' : r'.synced + r'.failed = _ := synced_add_failed (by exact hcollections) h'
    have hperm' := Scope.perm_visits
      (s := (Scope.ofSettings library settings).mapVars r.applyTo) hcollections
    have hlength := congrArg List.length
      (Scope.visits_mapVars (s := Scope.ofSettings library settings) (changesValues_applyTo r))
    rw [List.length_map, hperm.length_eq, hperm'.length_eq, ← hcounted, hfailed] at hlength
    exact hcounted'.trans hlength
  · obtain ⟨x, hx⟩ := exists_number?_of_failed_eq_zero h hfailed (hperm.mem_iff.mpr he)
    exact Scope.number?_mapVars (changesValues_applyTo r) hvars rfl hx (hshown e he)

end CalculationReport

/-! ### A calculation over a calculated number -/

namespace Scope

/-- The second number comes to the double of the first one. -/
lemma number?_double {s : Scope} {entry : LibraryEntry} {x : Float}
    (hbrings : s.Brings "m" (.path "base".toList) entry { value := x }) (y : Float) :
    s.number? (doubleEvaluation y) = some (x * 2.0) := by
  have hfound : s.lookUp "m" {} (.path "base".toList) =
      .ok { quantities := [("'base'", { value := x })] } := hbrings.lookUp {}
  have hsubstituted : Calculation.substituted "'base' * 2" = " __ref0  * 2" := by decide +kernel
  have hlexemes : Lexeme.scan " __ref0  * 2" =
      .ok [⟨.ident, "__ref0", 1⟩, ⟨.star, "*", 9⟩, ⟨.number, "2", 11⟩] := by
    decide +kernel
  have hparsed : Expr.parse " __ref0  * 2" =
      .ok (.binary .mul (.name "__ref0") (.number 2.0)) := by
    unfold Expr.parse
    rw [hlexemes]
    rfl
  have hresult : Calculation.ofText "'base' * 2"
      (fun reference => [("'base'", ({ value := x } : Quantity))].lookup reference) =
        { value := some (x * 2.0) } := by
    unfold Calculation.ofText Calculation.compute Calculation.distinctReferences
    rw [hsubstituted, hparsed, referencesOf_double]
    rfl
  have hcalculation : (doubleEvaluation y).formatting.calculation? = some "'base' * 2" := rfl
  have hcalculated : s.calculate (doubleEvaluation y).formatting "m" =
      .ok { value := some (x * 2.0) } := by
    unfold calculate
    rw [hcalculation]
    dsimp only
    rw [referencesOf_double, List.foldlM_cons, bind_of_ok hfound]
    show Except.ok _ = Except.ok _
    rw [hresult]
    rfl
  exact number?_eq_some_iff.mpr ⟨_, hcalculated, rfl, rfl⟩

end Scope

/-- A collection with a number and its double. -/
def chainedLibrary (x y : Float) : Library :=
  ⟨[baseNumber x, doubleNumber y], [oneModeCollection "c" "Spacing"]⟩

/-- The report of the library when the first number is recorded as given. -/
def chainedReport (x : Float) : CalculationReport :=
  { synced := 2, updates := [("v", [("m", 8.0)]), ("w", [("m", x * 2.0)])] }

/-- The evaluations of the library. -/
lemma Scope.visits_chained (x y : Float) : (Scope.ofSettings (chainedLibrary x y) {}).visits =
    [baseEvaluation x, doubleEvaluation y] := by
  have hmembers : (Scope.ofSettings (chainedLibrary x y) {}).visitsOf
      (oneModeCollection "c" "Spacing") = [baseEvaluation x, doubleEvaluation y] :=
    visitsOf_double rfl rfl rfl
  show visitsOf _ _ ++ [] = _
  rw [hmembers]
  rfl

/-- The first number is what the path in the calculation of the second one names. -/
lemma Scope.byReference_chained (x y : Float) :
    (Scope.ofSettings (chainedLibrary x y) {}).byReference (.path "base".toList) =
      .ok (some ⟨baseNumber x, oneModeCollection "c" "Spacing"⟩) := rfl

/-- No evaluation of the library reads anything but the first number. -/
lemma Scope.eq_baseNumber_of_reads {x y : Float} {e : Evaluation} {w : Variable}
    (he : e ∈ (Scope.ofSettings (chainedLibrary x y) {}).evaluations)
    (h : (Scope.ofSettings (chainedLibrary x y) {}).Reads e w) : w = baseNumber x := by
  obtain ⟨text, r, entry, n, htext, hr, hentry, hwalk⟩ := h
  have hperm := perm_visits (s := Scope.ofSettings (chainedLibrary x y) {})
    (List.nodup_singleton _)
  rw [← hperm.mem_iff, visits_chained, List.mem_pair] at he
  have hwalks : ∀ n w, (Scope.ofSettings (chainedLibrary x y) {}).Walk "m" (baseNumber x) n w →
      w = baseNumber x := by
    intro n w hwalk
    induction hwalk with
    | start => rfl
    | link before names known ih =>
      rw [ih] at names
      cases names
  rcases he with rfl | rfl
  · have hnone : referencesOf Reference.any? "8" = [] := by decide +kernel
    cases htext
    rw [hnone] at hr
    cases hr
  · cases htext
    rw [referencesOf_double, List.mem_singleton] at hr
    cases hr
    cases hentry
    exact hwalks n w hwalk

namespace CalculationReport

/-- The second number comes to the double of what is recorded for the first one. -/
lemma ofLibrary_chained {x : Float} (hx : isFiniteNumber x = true) (y : Float) :
    ofLibrary (chainedLibrary x y) {} = .ok (chainedReport x) := by
  have hdescribed : ∀ v ∈ (chainedLibrary x y).vars,
      ∃ f, ({} : Formatting).describedBy v.description = .ok f :=
    List.forall_mem_cons.mpr ⟨⟨_, describedBy_base⟩,
      List.forall_mem_singleton.mpr ⟨_, describedBy_double⟩⟩
  have hdescribes : Describes (Scope.ofSettings (chainedLibrary x y) {}) :=
    fun _ _ v hv _ => hdescribed v hv
  have hdirectives : Directives.parse "calc: 8" = .ok { expression := some "8" } := rfl
  have hbrings : (Scope.ofSettings (chainedLibrary x y) {}).Brings "m" (.path "base".toList)
      ⟨baseNumber x, oneModeCollection "c" "Spacing"⟩ { value := x } :=
    ⟨Scope.byReference_chained x y, rfl, bind_of_ok hdirectives _, if_pos hx⟩
  have hbase := Scope.number?_base (Scope.ofSettings (chainedLibrary x y) {}) x
  have hdouble := Scope.number?_double hbrings y
  rw [ofLibrary_eq hdescribes, Scope.visits_chained, List.foldlM_cons,
    bind_of_ok (addEvaluation_of_number hbase {}), List.foldlM_cons,
    bind_of_ok (addEvaluation_of_number hdouble _)]
  rfl

/-- A chain of two calculations is not settled by one run: where the first number is recorded as
four, the second one comes to eight, and to sixteen in a second run, after the first number has been
stored as eight. -/
theorem unsettled_chained :
    ((chainedLibrary 4.0 8.0).vars.map Variable.id).Nodup ∧
      ((chainedLibrary 4.0 8.0).collections.map Collection.id).Nodup ∧
      ∃ r r', ofLibrary (chainedLibrary 4.0 8.0) {} = .ok r ∧ r.failed = 0 ∧
        ofLibrary { chainedLibrary 4.0 8.0 with vars := r.apply (chainedLibrary 4.0 8.0).vars } {} =
          .ok r' ∧
        r'.updates ≠ r.updates := by
  have hfirst := ofLibrary_chained (x := 4.0) (by decide +kernel) 8.0
  have hsecond := ofLibrary_chained (x := 8.0) (by decide +kernel) (4.0 * 2.0)
  refine ⟨by decide, by decide, _, _, hfirst, rfl, hsecond, fun heq => ?_⟩
  have hstored : (8.0 : Float) * 2.0 = 4.0 * 2.0 := by
    have hfound := congrArg (fun updates => (OrderedMap.find? "w" updates).bind
      (OrderedMap.find? "m")) heq
    exact Option.some.inj hfound
  exact absurd hstored (by decide +kernel)

/-- Where the first number is recorded as it is calculated, one run settles both. -/
theorem exists_second_run_chained :
    ((chainedLibrary 8.0 4.0).vars.map Variable.id).Nodup ∧
      ((chainedLibrary 8.0 4.0).collections.map Collection.id).Nodup ∧
      ofLibrary (chainedLibrary 8.0 4.0) {} = .ok (chainedReport 8.0) ∧
      (chainedReport 8.0).failed = 0 ∧
      ofLibrary
        { chainedLibrary 8.0 4.0 with
          vars := (chainedReport 8.0).apply (chainedLibrary 8.0 4.0).vars } {} =
        .ok (chainedReport 8.0) := by
  have hvars : ((chainedLibrary 8.0 4.0).vars.map Variable.id).Nodup := by decide
  have hcollections : ((chainedLibrary 8.0 4.0).collections.map Collection.id).Nodup := by decide
  have hfirst := ofLibrary_chained (x := 8.0) (by decide +kernel) 4.0
  obtain ⟨r', hsecond, _, _, _, hsettled⟩ := exists_second_run hvars hcollections hfirst rfl
  refine ⟨hvars, hcollections, hfirst, rfl, hsecond.trans (congrArg _ (hsettled ?_))⟩
  intro e he w hreads
  rw [Scope.eq_baseNumber_of_reads he hreads]
  rfl

end CalculationReport

end DesignTokens

import DesignTokens.Proofs.Token.PathLookup
import DesignTokens.Proofs.Workspace.WriteBack
import Mathlib.Data.Multiset.Bind

/-!
# The evaluations that a report accounts for

A report of calculations is made collection by collection, variable by variable and mode by mode,
and so it is made evaluation by evaluation (`CalculationReport.ofLibrary_eq`).  Each evaluation
either comes to a number, which is stored, or fails, an ambiguous reference being a failure like any
other (`CalculationReport.addEvaluation_cases`).  A report counts the evaluations that have been
made, and finds under a variable and a mode the last number that was stored there
(`CalculationReport.Accounts`).  Where ids are not used twice, the evaluations that are made are
those of the variables in the modes of their collections (`Scope.perm_visits`), and no two of them
store under the same keys.
-/

namespace DesignTokens

/-! ## Evaluations -/

/-- A calculation to be evaluated: that of a variable in a mode. -/
structure Evaluation where
  item : Variable
  /-- The formatting of the variable, which holds its calculation. -/
  formatting : Formatting
  mode : Mode

/-- The ids of the variable and the mode. -/
def Evaluation.key (e : Evaluation) : String × String :=
  (e.item.id, e.mode.id)

namespace Scope

/-- The formatting that the description of a variable gives, if there is a calculation in it. -/
def calculating? (s : Scope) (v : Variable) : Option Formatting :=
  (s.base.describedBy v.description).toOption.filter (·.calculation?.isSome)

/-- The evaluations of a variable in some modes. -/
def evaluationsIn (s : Scope) (modes : List Mode) (v : Variable) : List Evaluation :=
  match s.calculating? v with
  | some f => modes.map fun mode => ⟨v, f, mode⟩
  | none => []

/-- The evaluations of a library: those of its variables in the modes of their collections. -/
def evaluations (s : Scope) : List Evaluation :=
  s.vars.flatMap fun v => match s.home? v with
    | some home => s.evaluationsIn home.modes v
    | none => []

/-- The evaluations of the variables of a collection. -/
def visitsOf (s : Scope) (c : Collection) : List Evaluation :=
  (s.vars.filter (·.collectionId == c.id)).flatMap (s.evaluationsIn c.modes)

/-- The evaluations in the order in which they are made. -/
def visits (s : Scope) : List Evaluation :=
  s.collections.flatMap s.visitsOf

/-- The number that an evaluation comes to, when there is nothing to warn about. -/
def number? (s : Scope) (e : Evaluation) : Option Float :=
  match s.calculate e.formatting e.mode.id with
  | .ok c => if c.isOk then c.value else none
  | .error _ => none

/-- An evaluation fails when there is something to warn about, and when a reference is ambiguous. -/
def fails (s : Scope) (e : Evaluation) : Bool :=
  match s.calculate e.formatting e.mode.id with
  | .ok c => !c.isOk
  | .error (.ambiguousReference _ _) => true
  | .error _ => false

variable {s : Scope} {v : Variable} {f : Formatting} {e e' : Evaluation} {modes : List Mode}

/-- A variable has a formatting with a calculation if its description gives one. -/
lemma calculating?_eq_some_iff : s.calculating? v = some f ↔
    s.base.describedBy v.description = .ok f ∧ f.calculation?.isSome = true := by
  unfold calculating?
  rw [Option.filter_eq_some_iff]
  refine and_congr_left fun _ => ?_
  cases s.base.describedBy v.description with
  | error fault => exact ⟨nofun, nofun⟩
  | ok g => exact ⟨fun h => congrArg _ (Option.some.inj h), fun h => congrArg _ (Except.ok.inj h)⟩

/-- The evaluations of a variable have its formatting. -/
lemma mem_evaluationsIn : e ∈ s.evaluationsIn modes v ↔
    e.item = v ∧ s.calculating? v = some e.formatting ∧ e.mode ∈ modes := by
  unfold evaluationsIn
  cases hf : s.calculating? v with
  | none => simp
  | some f =>
    rw [List.mem_map]
    constructor
    · rintro ⟨mode, hmode, rfl⟩
      exact ⟨rfl, rfl, hmode⟩
    · rintro ⟨rfl, hformatting, hmode⟩
      cases hformatting
      exact ⟨e.mode, hmode, rfl⟩

/-- The evaluations are those of the variables with a calculation, in the modes of their
collections. -/
lemma mem_evaluations : e ∈ s.evaluations ↔ e.item ∈ s.vars ∧
    s.calculating? e.item = some e.formatting ∧
    ∃ home, s.home? e.item = some home ∧ e.mode ∈ home.modes := by
  unfold evaluations
  rw [List.mem_flatMap]
  constructor
  · rintro ⟨v, hv, he⟩
    cases hhome : s.home? v with
    | none =>
      rw [hhome] at he
      cases he
    | some home =>
      rw [hhome] at he
      obtain ⟨rfl, hformatting, hmode⟩ := mem_evaluationsIn.mp he
      exact ⟨hv, hformatting, home, hhome, hmode⟩
  · rintro ⟨hv, hformatting, home, hhome, hmode⟩
    refine ⟨e.item, hv, ?_⟩
    rw [hhome]
    exact mem_evaluationsIn.mpr ⟨rfl, hformatting, hmode⟩

/-- Of collections with different ids only one brings forth what belongs to an id. -/
lemma flatMap_of_id {β : Type} {collections : List Collection}
    (hids : (collections.map Collection.id).Nodup) (id : String) (g : Collection → List β) :
    (collections.flatMap fun c => if id == c.id then g c else []) =
      match lastWith? Collection.id id collections with
      | some c => g c
      | none => [] := by
  cases hfound : lastWith? Collection.id id collections with
  | none =>
    refine List.flatMap_eq_nil_iff.mpr fun c hc => ?_
    have hne := List.find?_eq_none.mp hfound c (List.mem_reverse.mpr hc)
    rw [if_neg fun heq => hne (beq_iff_eq.mpr (beq_iff_eq.mp heq).symm)]
  | some c =>
    have hc : c ∈ collections := List.mem_reverse.mp (List.mem_of_find?_eq_some hfound)
    unfold lastWith? at hfound
    have hid : c.id = id := beq_iff_eq.mp (List.find?_some hfound :)
    obtain ⟨before, after, rfl⟩ := List.append_of_mem hc
    -- the ids on both sides of the collection are others
    have hothers : ∀ d ∈ before ++ after, (if id == d.id then g d else []) = [] := by
      intro d hd
      rw [List.map_append, List.map_cons, List.nodup_middle, ← List.map_append] at hids
      refine if_neg fun heq => (List.nodup_cons.mp hids).1 ?_
      rw [hid, beq_iff_eq.mp heq]
      exact List.mem_map_of_mem hd
    have hbefore := List.flatMap_eq_nil_iff.mpr fun d hd =>
      hothers d (List.mem_append_left _ hd)
    have hafter := List.flatMap_eq_nil_iff.mpr fun d hd =>
      hothers d (List.mem_append_right _ hd)
    rw [List.flatMap_append, List.flatMap_cons, hbefore, hafter, hid, beq_self_eq_true, if_pos rfl,
      List.append_nil, List.nil_append]

/-- The evaluations that are made are those of the library, each as often as it is there. -/
lemma perm_visits (hids : (s.collections.map Collection.id).Nodup) :
    s.visits.Perm s.evaluations := by
  have hvisits : ∀ c, s.visitsOf c =
      s.vars.flatMap fun v => if v.collectionId == c.id then s.evaluationsIn c.modes v else [] := by
    intro c
    unfold visitsOf
    induction s.vars with
    | nil => rfl
    | cons v rest ih =>
      rw [List.filter_cons, List.flatMap_cons, ← ih]
      split_ifs <;> rfl
  have hhome : s.evaluations = s.vars.flatMap fun v => s.collections.flatMap fun c =>
      if v.collectionId == c.id then s.evaluationsIn c.modes v else [] :=
    List.flatMap_congr fun v _ =>
      (flatMap_of_id hids v.collectionId fun c => s.evaluationsIn c.modes v).symm
  rw [← Multiset.coe_eq_coe, hhome]
  unfold visits
  simp only [hvisits, ← Multiset.coe_bind]
  exact Multiset.bind_bind _ _

/-- No two evaluations are of the same variable in the same mode. -/
lemma nodup_evaluations (hvars : (s.vars.map Variable.id).Nodup)
    (hmodes : ∀ c ∈ s.collections, (c.modes.map Mode.id).Nodup) :
    (s.evaluations.map Evaluation.key).Nodup := by
  unfold evaluations
  rw [List.map_flatMap, List.nodup_flatMap]
  constructor
  · intro v _
    cases hhome : s.home? v with
    | none => exact List.nodup_nil
    | some home =>
      have hids := hmodes home (Library.mem_of_home? hhome).1
      unfold evaluationsIn
      cases s.calculating? v with
      | none => exact List.nodup_nil
      | some f =>
        have hkeys : (home.modes.map fun mode => ⟨v, f, mode⟩).map Evaluation.key =
            (home.modes.map Mode.id).map (Prod.mk v.id) := by
          rw [List.map_map, List.map_map]
          rfl
        show ((home.modes.map fun mode => ⟨v, f, mode⟩).map Evaluation.key).Nodup
        rw [hkeys]
        exact hids.map (Prod.mk_right_injective v.id)
  · have hof : ∀ v : Variable, ∀ k ∈ (match s.home? v with
        | some home => s.evaluationsIn home.modes v
        | none => []).map Evaluation.key, k.1 = v.id := by
      intro v k hk
      obtain ⟨e, he, rfl⟩ := List.mem_map.mp hk
      cases hhome : s.home? v with
      | none =>
        rw [hhome] at he
        cases he
      | some home =>
        rw [hhome] at he
        exact congrArg Variable.id (mem_evaluationsIn.mp he).1
    refine (List.pairwise_map.mp hvars).imp fun hne k hk hk' => hne ?_
    exact (hof _ k hk).symm.trans (hof _ k hk')

/-- An evaluation comes to a number if its calculation does and gives no warning. -/
lemma number?_eq_some_iff {x : Float} : s.number? e = some x ↔
    ∃ c, s.calculate e.formatting e.mode.id = .ok c ∧ c.value = some x ∧ c.warnings = [] := by
  unfold number?
  cases s.calculate e.formatting e.mode.id with
  | error fault => simp
  | ok c => cases hvalue : c.value <;> simp [Calculation.isOk, hvalue, and_comm]

/-- Evaluations of the same variable in the same mode come to the same. -/
lemma number?_eq_of_key (hvars : (s.vars.map Variable.id).Nodup) (he : e ∈ s.evaluations)
    (he' : e' ∈ s.evaluations) (hkey : e'.key = e.key) : s.number? e' = s.number? e := by
  obtain ⟨hitem, hformatting, -⟩ := mem_evaluations.mp he
  obtain ⟨hitem', hformatting', -⟩ := mem_evaluations.mp he'
  obtain ⟨hid, hmode⟩ := Prod.mk.inj hkey
  rw [List.inj_on_of_nodup_map hvars hitem' hitem hid, hformatting] at hformatting'
  unfold number?
  rw [hmode, Option.some.inj hformatting']

end Scope

/-! ## What an evaluation adds -/

namespace CalculationReport

variable {s : Scope} {r r' : CalculationReport} {e : Evaluation} {done : List Evaluation}

/-- Makes an evaluation. -/
def addEvaluation (s : Scope) (r : CalculationReport) (e : Evaluation) :
    Except Fault CalculationReport :=
  addMode s e.item e.formatting r e.mode

/-- An evaluation stores the number that it comes to, or fails. -/
lemma addEvaluation_cases (h : addEvaluation s r e = .ok r') :
    (∃ x, s.number? e = some x ∧ s.fails e = false ∧
      r' = r.withValue e.item.id e.mode.id x) ∨
    (s.number? e = none ∧ s.fails e = true ∧
      ∃ reasons, r' = r.withFailure e.item.name reasons) := by
  unfold addEvaluation addMode at h
  unfold Scope.number? Scope.fails
  cases hc : s.calculate e.formatting e.mode.id with
  | error fault =>
    rw [hc] at h
    cases fault with
    | ambiguousReference path names =>
      cases h
      exact Or.inr ⟨rfl, rfl, _, rfl⟩
    | _ => cases h
  | ok c =>
    obtain ⟨value, unit, warnings⟩ := c
    rw [hc] at h
    cases value with
    | none =>
      cases h
      exact Or.inr ⟨rfl, rfl, _, rfl⟩
    | some x =>
      cases warnings with
      | nil =>
        cases h
        exact Or.inl ⟨x, rfl, rfl, rfl⟩
      | cons warning rest =>
        cases h
        exact Or.inr ⟨rfl, rfl, _, rfl⟩

/-- An evaluation that comes to a number stores it. -/
lemma addEvaluation_of_number {x : Float} (h : s.number? e = some x) (r : CalculationReport) :
    addEvaluation s r e = .ok (r.withValue e.item.id e.mode.id x) := by
  obtain ⟨c, hc, hvalue, hwarnings⟩ := Scope.number?_eq_some_iff.mp h
  unfold addEvaluation addMode
  rw [hc]
  dsimp only
  rw [hvalue, hwarnings]

/-- An evaluation with an ambiguous reference fails, for this reason. -/
lemma addEvaluation_of_ambiguous {path : String} {names : List String}
    (h : s.calculate e.formatting e.mode.id = .error (.ambiguousReference path names))
    (r : CalculationReport) : addEvaluation s r e =
      .ok (r.withFailure e.item.name [(Fault.ambiguousReference path names).message]) := by
  unfold addEvaluation addMode
  rw [h]

/-- An evaluation whose calculation has an outcome is made. -/
lemma exists_addEvaluation {c : Calculation}
    (h : s.calculate e.formatting e.mode.id = .ok c) (r : CalculationReport) :
    ∃ r', addEvaluation s r e = .ok r' := by
  unfold addEvaluation addMode
  rw [h]
  exact ⟨_, rfl⟩

/-- The formatting of each variable of a collection can be read from its description. -/
def Describes (s : Scope) : Prop :=
  ∀ c ∈ s.collections, ∀ v ∈ s.vars, v.collectionId = c.id →
    ∃ f, s.base.describedBy v.description = .ok f

/-- The calculation of a variable is evaluated in each mode. -/
lemma addVariable_eq {f : Formatting} {v : Variable} (hf : s.base.describedBy v.description = .ok f)
    (modes : List Mode) (r : CalculationReport) :
    addVariable s modes r v = (s.evaluationsIn modes v).foldlM (addEvaluation s) r := by
  unfold addVariable Scope.evaluationsIn
  rw [bind_of_ok hf]
  split_ifs with hcalculation
  · rw [Scope.calculating?_eq_some_iff.mpr ⟨hf, hcalculation⟩]
    dsimp only
    rw [List.foldlM_map]
    rfl
  · have hnone : s.calculating? v = none := by
      rw [Option.eq_none_iff_forall_not_mem]
      intro g hg
      obtain ⟨hg, hsome⟩ := Scope.calculating?_eq_some_iff.mp hg
      rw [Except.ok.inj (hf.symm.trans hg)] at hcalculation
      exact hcalculation hsome
    rw [hnone]
    rfl

/-- A report is made evaluation by evaluation. -/
lemma ofLibrary_eq {library : Library} {settings : Settings}
    (h : Describes (Scope.ofSettings library settings)) : ofLibrary library settings =
      (Scope.ofSettings library settings).visits.foldlM
        (addEvaluation (Scope.ofSettings library settings)) {} := by
  unfold ofLibrary Scope.visits
  rw [foldlM_flatMap]
  refine foldlM_congr (fun r c hc => ?_) _
  unfold addCollection Scope.visitsOf
  rw [foldlM_flatMap]
  refine foldlM_congr (fun r v hv => ?_) r
  obtain ⟨hmem, hid⟩ := List.mem_filter.mp hv
  obtain ⟨f, hf⟩ := h c hc v hmem (beq_iff_eq.mp hid)
  exact addVariable_eq hf c.modes r

/-- Where a report is made, all descriptions have been read. -/
lemma describes_of_ofLibrary {library : Library} {settings : Settings}
    (h : ofLibrary library settings = .ok r) : Describes (Scope.ofSettings library settings) := by
  intro c hc v hv hid
  obtain ⟨_, _, hcollection⟩ := exists_of_foldlM h hc
  have hmember : (v.collectionId == c.id) = true := beq_iff_eq.mpr hid
  obtain ⟨_, _, hvariable⟩ := exists_of_foldlM hcollection (List.mem_filter.mpr ⟨hv, hmember⟩)
  obtain ⟨f, hf, _⟩ := bind_eq_ok.mp hvariable
  exact ⟨f, hf⟩

/-- A report accounts for evaluations: each has come to a number or failed, the report counts both,
and it finds under a variable and a mode the number that the last evaluation of them came to. -/
structure Accounts (s : Scope) (done : List Evaluation) (r : CalculationReport) : Prop where
  settled : ∀ e ∈ done, s.fails e = (s.number? e).isNone
  synced : r.synced = done.countP fun e => (s.number? e).isSome
  failed : r.failed = done.countP s.fails
  keyed : r.updates.keys.Nodup
  found : ∀ id modeId, OrderedMap.find? modeId (r.updatesOf id) =
    done.reverse.findSome? fun e => if e.key = (id, modeId) then s.number? e else none

/-- The values of a variable after one has been stored. -/
lemma updatesOf_withValue (r : CalculationReport) (id modeId id' : String) (x : Float) :
    (r.withValue id modeId x).updatesOf id' =
      if id' = id then OrderedMap.set modeId x (r.updatesOf id) else r.updatesOf id' := by
  unfold updatesOf withValue
  by_cases hid : id' = id
  · rw [if_pos hid, hid, OrderedMap.find?_set_self]
    rfl
  · rw [if_neg hid, OrderedMap.find?_set_of_ne hid]

/-- No evaluation has been made for an empty report. -/
lemma Accounts.empty (s : Scope) : Accounts s [] {} :=
  ⟨List.forall_mem_nil _, rfl, rfl, List.nodup_nil, fun _ _ => rfl⟩

/-- One more evaluation that is settled. -/
lemma Accounts.settled_concat (h : Accounts s done r) (he : s.fails e = (s.number? e).isNone) :
    ∀ d ∈ done ++ [e], s.fails d = (s.number? d).isNone := by
  intro d hd
  rcases List.mem_append.mp hd with hold | hnew
  · exact h.settled d hold
  · rw [List.mem_singleton.mp hnew]
    exact he

/-- A number that is stored accounts for one more evaluation. -/
lemma Accounts.withValue (h : Accounts s done r) {x : Float} (hx : s.number? e = some x)
    (hfails : s.fails e = false) :
    Accounts s (done ++ [e]) (r.withValue e.item.id e.mode.id x) where
  settled := h.settled_concat (by rw [hx, hfails]; rfl)
  synced := by
    show r.synced + 1 = _
    rw [h.synced, List.countP_append, List.countP_singleton, hx]
    rfl
  failed := by
    show r.failed = _
    rw [h.failed, List.countP_append, List.countP_singleton, hfails]
    rfl
  keyed := OrderedMap.nodup_keys_set h.keyed
  found := by
    intro id modeId
    rw [updatesOf_withValue, List.reverse_append, List.reverse_singleton, List.singleton_append,
      List.findSome?_cons, hx, ← h.found]
    by_cases hid : id = e.item.id
    · by_cases hmode : modeId = e.mode.id
      · simp [Evaluation.key, hid, hmode]
      · rw [if_pos hid, OrderedMap.find?_set_of_ne hmode, hid]
        simp [Evaluation.key, Ne.symm hmode]
    · rw [if_neg hid]
      simp [Evaluation.key, Ne.symm hid]

/-- A failure accounts for one more evaluation. -/
lemma Accounts.withFailure (h : Accounts s done r) (hx : s.number? e = none)
    (hfails : s.fails e = true) (name : String) (reasons : List String) :
    Accounts s (done ++ [e]) (r.withFailure name reasons) where
  settled := h.settled_concat (by rw [hx, hfails]; rfl)
  synced := by
    show r.synced = _
    rw [h.synced, List.countP_append, List.countP_singleton, hx]
    rfl
  failed := by
    show r.failed + 1 = _
    rw [h.failed, List.countP_append, List.countP_singleton, hfails]
    rfl
  keyed := h.keyed
  found := by
    intro id modeId
    rw [List.reverse_append, List.reverse_singleton, List.singleton_append, List.findSome?_cons, hx,
      ite_self]
    exact h.found id modeId

/-- Each evaluation is accounted for. -/
lemma Accounts.addEvaluation (h : Accounts s done r) (hstep : addEvaluation s r e = .ok r') :
    Accounts s (done ++ [e]) r' := by
  rcases addEvaluation_cases hstep with ⟨x, hx, hfails, rfl⟩ | ⟨hx, hfails, reasons, rfl⟩
  · exact h.withValue hx hfails
  · exact h.withFailure hx hfails _ reasons

/-- Under a variable and a mode a report finds the number of an evaluation of them, if all such
evaluations come to the same. -/
lemma Accounts.find?_eq_some_iff (h : Accounts s done r)
    (hsame : ∀ e ∈ done, ∀ e' ∈ done, e'.key = e.key → s.number? e' = s.number? e)
    {id modeId : String} {x : Float} :
    OrderedMap.find? modeId (r.updatesOf id) = some x ↔
      ∃ e ∈ done, e.key = (id, modeId) ∧ s.number? e = some x := by
  rw [h.found]
  constructor
  · intro hfound
    obtain ⟨e, he, hx⟩ := List.exists_of_findSome?_eq_some hfound
    split_ifs at hx with hkey
    exact ⟨e, List.mem_reverse.mp he, hkey, hx⟩
  · rintro ⟨e, he, hkey, hx⟩
    cases hfound : done.reverse.findSome? fun e =>
        if e.key = (id, modeId) then s.number? e else none with
    | none =>
      have hnone := List.findSome?_eq_none_iff.mp hfound e (List.mem_reverse.mpr he)
      rw [if_pos hkey, hx] at hnone
      cases hnone
    | some y =>
      obtain ⟨e', he', hy⟩ := List.exists_of_findSome?_eq_some hfound
      split_ifs at hy with hkey'
      rw [← hy, ← hx]
      exact hsame e he e' (List.mem_reverse.mp he') (hkey'.trans hkey.symm)

/-- A report accounts for all evaluations, in the order in which they are made. -/
theorem accounts_ofLibrary {library : Library} {settings : Settings}
    (h : ofLibrary library settings = .ok r) :
    Accounts (Scope.ofSettings library settings) (Scope.ofSettings library settings).visits r := by
  have hvisits := ofLibrary_eq (describes_of_ofLibrary h) ▸ h
  have hstart := Accounts.empty (Scope.ofSettings library settings)
  exact foldlM_progress (Accounts (Scope.ofSettings library settings))
    (fun _ _ _ _ _ hdone hstep => hdone.addEvaluation hstep) hstart hvisits

end CalculationReport

end DesignTokens

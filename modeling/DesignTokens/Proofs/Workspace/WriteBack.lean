import DesignTokens.Proofs.Design.ValueForms
import DesignTokens.Proofs.Workspace.Coherence
import DesignTokens.Sync

/-!
# What writing calculations back leaves of a snapshot

When the values of calculations are saved to the snapshot that they come from, the file keeps all
fields other than the variables, and the records of the variables in their number and order.  A
record keeps exactly the seven fields that a variable is made of, under the names that they are
written with, and in the values by modes only those in the standard form (`fieldKept_iff`,
`writeBack`): a field that the host has attached besides is lost.
-/

namespace DesignTokens

open Schema

/-! ## Reports -/

namespace CalculationReport

/-- Each variable that a report names has its modes pairwise different. -/
def IsKeyed (r : CalculationReport) : Prop :=
  ∀ e ∈ r.updates, e.2.keys.Nodup

/-- The values that a report has come to for a variable. -/
def updatesOf (r : CalculationReport) (id : String) : OrderedMap Float :=
  (OrderedMap.find? id r.updates).getD []

/-- The values for one variable have pairwise different modes. -/
lemma IsKeyed.updatesOf {r : CalculationReport} (h : r.IsKeyed) (id : String) :
    (r.updatesOf id).keys.Nodup := by
  unfold CalculationReport.updatesOf
  cases hfound : OrderedMap.find? id r.updates with
  | none => exact List.nodup_nil
  | some values => exact h _ (OrderedMap.mem_of_find? hfound)

/-- One more value leaves the modes pairwise different. -/
lemma IsKeyed.withValue {r : CalculationReport} (h : r.IsKeyed) (id modeId : String) (x : Float) :
    (r.withValue id modeId x).IsKeyed := by
  intro e he
  rcases OrderedMap.mem_of_mem_set he with rfl | hold
  · exact OrderedMap.nodup_keys_set (h.updatesOf id)
  · exact h e hold

/-- In every report the modes of a variable are pairwise different. -/
theorem isKeyed_ofLibrary {library : Library} {settings : Settings} {r : CalculationReport}
    (h : ofLibrary library settings = .ok r) : r.IsKeyed := by
  refine foldlM_invariant IsKeyed (fun b c _ b' hb hc => ?_) (fun _ he => by cases he) h
  refine foldlM_invariant IsKeyed (fun b v _ b' hb hv => ?_) hb hc
  obtain ⟨f, -, hv⟩ := bind_eq_ok.mp hv
  split_ifs at hv
  · refine foldlM_invariant IsKeyed (fun b mode _ b' hb hmode => ?_) hb hv
    unfold addMode at hmode
    split at hmode
    · cases hmode
      exact hb
    · cases hmode
    · cases hmode
      split
      · exact hb.withValue _ _ _
      · exact hb
  · cases hv
    exact hb

/-- A variable with its recorded values has them besides those that it had. -/
lemma applyTo_eq (r : CalculationReport) (v : Variable) :
    r.applyTo v = { v with
      values := (r.updatesOf v.id).foldl (fun m e => OrderedMap.set e.1 (.number e.2) m)
        v.values } := by
  unfold applyTo updatesOf
  cases OrderedMap.find? v.id r.updates <;> rfl

/-- Recorded values leave the modes and the platforms of a variable pairwise different. -/
lemma isKeyed_applyTo (r : CalculationReport) {v : Variable} (h : v.IsKeyed) :
    (r.applyTo v).IsKeyed := by
  have hset : ∀ (updates : OrderedMap Float) (m : OrderedMap VariableValue), m.keys.Nodup →
      (OrderedMap.keys
        (updates.foldl (fun m e => OrderedMap.set e.1 (.number e.2) m) m)).Nodup := by
    intro updates
    induction updates with
    | nil => exact fun _ hm => hm
    | cons e rest ih => exact fun m hm => ih _ (OrderedMap.nodup_keys_set hm)
  rw [applyTo_eq]
  exact ⟨hset _ _ h.values, h.codeSyntax⟩

end CalculationReport

/-! ## Fields of a record -/

/-- The names that the fields of a variable are written with. -/
def Variable.keys : List String :=
  ["id", "name", "resolvedType", "valuesByMode", "variableCollectionId", "description",
    "codeSyntax"]

/-- The fields of a written variable. -/
def Variable.written (v : Variable) : List (String × Json) :=
  [("id", .text v.id), ("name", .text v.name), ("resolvedType", .text v.type.name),
    ("valuesByMode", .object (v.values.map fun (mode, value) => (mode, value.toJson))),
    ("variableCollectionId", .text v.collectionId), ("description", .text v.description),
    ("codeSyntax", .object (v.codeSyntax.map fun (platform, code) => (platform, .text code)))]

/-- A variable is written as an object of these fields. -/
lemma Variable.toJson_eq (v : Variable) : v.toJson = .object v.written :=
  rfl

/-- The values by modes after an update: those that the update gives, and the others as the same
JSON values. -/
def ValuesKept (updates : OrderedMap Float) (before after : Json) : Prop :=
  ∃ values values', before = .object values ∧ after = .object values' ∧
    ∀ mode value, OrderedMap.find? mode values = some value →
      match OrderedMap.find? mode updates with
      | some x => OrderedMap.find? mode values' = some (.float x)
      | none => ∃ value', OrderedMap.find? mode values' = some value' ∧ value'.Same value

/-- A field of a record is still there with its value, updated values of modes apart. -/
def FieldKept (updates : OrderedMap Float) (before after : List (String × Json)) (key : String) :
    Prop :=
  ∀ j, OrderedMap.find? key before = some j → ∃ j', OrderedMap.find? key after = some j' ∧
    if key = "valuesByMode" then ValuesKept updates j j' else j' = j

/-- The values of modes that are not updated are in the standard form. -/
def HasStandardValues (updates : OrderedMap Float) (f : List (String × Json)) : Prop :=
  ∀ values, OrderedMap.find? "valuesByMode" f = some (.object values) →
    ∀ mode value, OrderedMap.find? mode values = some value →
      OrderedMap.find? mode updates = none → value.IsStandardValue

section record

variable {f : List (String × Json)} {v : Variable}

/-- A written variable has a field under each of the names, and no others. -/
lemma Variable.hasKeys_written (v : Variable) : Json.HasKeys v.written Variable.keys := by
  intro key
  have hkeys : OrderedMap.keys v.written = Variable.keys := rfl
  constructor
  · intro hsome
    by_contra hnot
    exact hsome (OrderedMap.find?_eq_none (hkeys ▸ hnot))
  · intro hmem
    have hhas := OrderedMap.has_of_mem_keys (hkeys.symm ▸ hmem : key ∈ OrderedMap.keys v.written)
    intro hnone
    unfold OrderedMap.has at hhas
    rw [hnone] at hhas
    cases hhas

/-- A map of texts is written as it was read. -/
lemma eq_object_of_map_text {j : Json} {m : OrderedMap String} (h : Schema.map text j = .ok m) :
    .object (m.map fun (key, s) => (key, .text s)) = j := by
  cases j with
  | object fields =>
    have hsame : m.map (fun e => (e.1, Json.text e.2)) = fields.map id := by
      refine map_of_mapM h fun e e' hread => ?_
      obtain ⟨s, hs, hpair⟩ := bind_eq_ok.mp hread
      cases hpair
      exact Prod.ext rfl (Schema.eq_text_of_text hs).symm
    rw [List.map_id] at hsame
    exact congrArg Json.object hsame
  | null | bool | int | float | text | list => cases h

/-- The name of a type is written as it was read. -/
lemma eq_text_of_choice {j : Json} {type : VariableType}
    (h : choice VariableType.ofName? j = .ok type) : .text type.name = j := by
  cases j with
  | text s =>
    have hname : VariableType.ofName? s = some type := by
      unfold choice require at h
      dsimp only at h
      cases hs : VariableType.ofName? s with
      | none =>
        rw [hs] at h
        cases h
      | some found =>
        rw [hs] at h
        rw [Except.ok.inj h]
    have hfound := List.find?_some hname
    exact congrArg Json.text (beq_iff_eq.mp hfound)
  | null | bool | int | float | list | object => cases h

/-- The fields of a record that a variable is read from are written as they were, its values by
modes apart. -/
lemma Variable.find?_written (h : v.IsReadFrom f) (values : OrderedMap VariableValue) {key : String}
    (hkey : key ∈ Variable.keys) (hvalues : key ≠ "valuesByMode") {j : Json}
    (hj : OrderedMap.find? key f = some j) :
    OrderedMap.find? key { v with values }.written = some j := by
  unfold Variable.keys at hkey
  simp only [List.mem_cons, List.not_mem_nil, or_false] at hkey
  rcases hkey with rfl | rfl | rfl | rfl | rfl | rfl | rfl
  · exact congrArg some (Schema.eq_text_of_text (Schema.read_of_required h.id hj)).symm
  · exact congrArg some (Schema.eq_text_of_text (Schema.read_of_required h.name hj)).symm
  · exact congrArg some (eq_text_of_choice (Schema.read_of_required h.type hj))
  · exact absurd rfl hvalues
  · exact congrArg some (Schema.eq_text_of_text (Schema.read_of_required h.collectionId hj)).symm
  · exact congrArg some (Schema.eq_text_of_text (Schema.read_of_withDefault h.description hj)).symm
  · exact congrArg some (eq_object_of_map_text (Schema.read_of_withDefault h.codeSyntax hj))

/-- A map that is read has a value under each key that is there. -/
lemma Schema.matches_of_map {α : Type} {r : Reader α} {fields : List (String × Json)}
    {m : OrderedMap α} (h : Schema.map r (.object fields) = .ok m) :
    OrderedMap.Matches (fun j a => r j = .ok a) fields m := by
  refine (forall₂_of_mapM h).imp fun e e' hread => ?_
  obtain ⟨a, ha, hpair⟩ := bind_eq_ok.mp hread
  cases hpair
  exact ⟨rfl, ha⟩

/-- The values by modes with updated ones, as they are written. -/
def writtenValues (updates : OrderedMap Float) (values : OrderedMap VariableValue) :
    List (String × Json) :=
  (updates.foldl (fun m e => OrderedMap.set e.1 (VariableValue.number e.2) m) values).map
    fun e => (e.1, e.2.toJson)

section values

variable {updates : OrderedMap Float} {values : OrderedMap VariableValue} {mode : String}

/-- Under a mode the updated value is written, or the value that was there. -/
lemma find?_writtenValues (hupdates : updates.keys.Nodup) :
    OrderedMap.find? mode (writtenValues updates values) =
      (((OrderedMap.find? mode updates).map VariableValue.number).or
        (OrderedMap.find? mode values)).map VariableValue.toJson := by
  unfold writtenValues
  rw [OrderedMap.find?_map, OrderedMap.find?_foldl_set VariableValue.number hupdates values mode]

/-- A value that is not updated is written as it has been read. -/
lemma exists_find?_writtenValues (hupdates : updates.keys.Nodup) {fields : List (String × Json)}
    (hread : Schema.map readValue (.object fields) = .ok values) {value : Json}
    (hvalue : OrderedMap.find? mode fields = some value)
    (hnone : OrderedMap.find? mode updates = none) :
    ∃ read, readValue value = .ok read ∧
      OrderedMap.find? mode (writtenValues updates values) = some read.toJson := by
  have hrel := (Schema.matches_of_map hread).find? mode
  rw [hvalue] at hrel
  cases hfound : OrderedMap.find? mode values with
  | none =>
    rw [hfound] at hrel
    cases hrel
  | some read =>
    rw [hfound] at hrel
    cases hrel with
    | some hvalue =>
      refine ⟨read, hvalue, ?_⟩
      rw [find?_writtenValues hupdates, hnone, hfound]
      rfl

/-- The values by modes of a record are written with the updated values, and otherwise as the same
JSON values exactly if they were in the standard form. -/
lemma valuesKept_iff (hupdates : updates.keys.Nodup) {fields : List (String × Json)}
    (hread : Schema.map readValue (.object fields) = .ok values) :
    ValuesKept updates (.object fields) (.object (writtenValues updates values)) ↔
      ∀ mode value, OrderedMap.find? mode fields = some value →
        OrderedMap.find? mode updates = none → value.IsStandardValue := by
  constructor
  · rintro ⟨_, values', ⟨⟩, ⟨⟩, hkept⟩ mode value hvalue hnone
    obtain ⟨read, hread, hafter⟩ := exists_find?_writtenValues hupdates hread hvalue hnone
    have hmode := hkept mode value hvalue
    rw [hnone] at hmode
    obtain ⟨value', hvalue', hsame⟩ := hmode
    rw [hafter] at hvalue'
    cases hvalue'
    exact (VariableValue.same_toJson_iff hread).mp hsame
  · intro hstandard
    refine ⟨fields, _, rfl, rfl, fun mode value hvalue => ?_⟩
    cases hupdate : OrderedMap.find? mode updates with
    | some x =>
      dsimp only
      rw [find?_writtenValues hupdates, hupdate]
      rfl
    | none =>
      obtain ⟨read, hread, hafter⟩ := exists_find?_writtenValues hupdates hread hvalue hupdate
      exact ⟨_, hafter,
        (VariableValue.same_toJson_iff hread).mpr (hstandard mode value hvalue hupdate)⟩

end values

/-- Of a field that is there it only counts what stands under its name afterwards. -/
lemma fieldKept_iff_of_find? {updates : OrderedMap Float} {before after : List (String × Json)}
    {key : String} {j : Json} (hj : OrderedMap.find? key before = some j) :
    FieldKept updates before after key ↔ ∃ j', OrderedMap.find? key after = some j' ∧
      if key = "valuesByMode" then ValuesKept updates j j' else j' = j := by
  refine ⟨fun hkept => hkept j hj, fun hkept j₁ hj₁ => ?_⟩
  rw [hj] at hj₁
  cases hj₁
  exact hkept

/-- The values by modes are still there exactly if those that are not updated were in the standard
form. -/
lemma fieldKept_values_iff (h : v.IsReadFrom f) {r : CalculationReport} (hr : r.IsKeyed) {j : Json}
    (hj : OrderedMap.find? "valuesByMode" f = some j) :
    FieldKept (r.updatesOf v.id) f (r.applyTo v).written "valuesByMode" ↔
      HasStandardValues (r.updatesOf v.id) f := by
  have hread := Schema.read_of_withDefault h.values hj
  rw [fieldKept_iff_of_find? hj, CalculationReport.applyTo_eq]
  cases j with
  | object fields =>
    refine Iff.trans ?_ ((valuesKept_iff (hr.updatesOf v.id) hread).trans ?_)
    · constructor
      · rintro ⟨j', hj', hkept⟩
        cases hj'
        exact hkept
      · exact fun hkept => ⟨_, rfl, hkept⟩
    · constructor
      · intro hstandard values hfound
        rw [hj] at hfound
        cases hfound
        exact hstandard
      · exact fun hstandard => hstandard fields hj
  | null | bool | int | float | text | list => cases hread

/-- A field of a record that is there before values of calculations are written back is still there
with its value exactly if it is one of the fields of a variable, under the name that is written, and
does not hold values in other forms than the written ones. -/
theorem fieldKept_iff (h : v.IsReadFrom f) {r : CalculationReport} (hr : r.IsKeyed) {key : String}
    (hkey : OrderedMap.find? key f ≠ none) :
    FieldKept (r.updatesOf v.id) f (r.applyTo v).written key ↔
      key ∈ Variable.keys ∧
        (key = "valuesByMode" → HasStandardValues (r.updatesOf v.id) f) := by
  obtain ⟨j, hj⟩ := Option.ne_none_iff_exists'.mp hkey
  by_cases hmem : key ∈ Variable.keys
  · rw [and_iff_right hmem]
    by_cases hvalues : key = "valuesByMode"
    · subst hvalues
      rw [imp_iff_right rfl]
      exact fieldKept_values_iff h hr hj
    · rw [fieldKept_iff_of_find? hj, CalculationReport.applyTo_eq]
      have hwritten := Variable.find?_written h ((r.updatesOf v.id).foldl
        (fun m e => OrderedMap.set e.1 (.number e.2) m) v.values) hmem hvalues hj
      refine iff_of_true ⟨j, hwritten, ?_⟩ fun hname => absurd hname hvalues
      rw [if_neg hvalues]
  · have hnone : OrderedMap.find? key (r.applyTo v).written = none := by
      by_contra hsome
      exact hmem (((r.applyTo v).hasKeys_written key).mp hsome)
    rw [fieldKept_iff_of_find? hj, hnone]
    constructor
    · rintro ⟨j', hj', -⟩
      cases hj'
    · exact fun hkept => absurd hkept.1 hmem

/-- A record is written back with the fields that a variable is made of, as far as they were in the
form that is written, and with no others. -/
def RecordKept (r : CalculationReport) (before after : Json) : Prop :=
  ∃ f f' id, before = .object f ∧ after = .object f' ∧
    OrderedMap.find? "id" f = some (.text id) ∧
    ∀ key, OrderedMap.find? key f ≠ none →
      (FieldKept (r.updatesOf id) f f' key ↔
        key ∈ Variable.keys ∧ (key = "valuesByMode" → HasStandardValues (r.updatesOf id) f))

/-- A record that a variable is read from is written back. -/
lemma recordKept_of_read {j : Json} (hread : Variable.read j = .ok v) {r : CalculationReport}
    (hr : r.IsKeyed) : RecordKept r j (r.applyTo v).toJson := by
  obtain ⟨f, rfl, h⟩ := Variable.read_eq_ok.mp hread
  obtain ⟨found, hfound, hid⟩ := Schema.find?_of_required h.id
  refine ⟨f, _, v.id, rfl, Variable.toJson_eq _, ?_, fun key hkey => fieldKept_iff h hr hkey⟩
  rw [hfound, Schema.eq_text_of_text hid]

end record

/-! ## Snapshots -/

namespace Snapshot

/-- The variables of a file are read from the records that it holds. -/
lemma exists_items_of_readVariables {s : Snapshot} {fields : Json.Fields} {vars : List Variable}
    (h : s.readVariables fields = .ok vars) :
    ∃ items, section? "variables" (.list []) fields = .list items ∧
      List.Forall₂ (fun j v => Variable.read j = .ok v) items vars := by
  unfold readVariables readSection at h
  split at h
  · rename_i found hfound
    cases h
    cases hsection : section? "variables" (.list []) fields with
    | list items =>
      rw [hsection] at hfound
      exact ⟨items, rfl, forall₂_of_mapM hfound⟩
    | null | bool | int | float | text | object =>
      rw [hsection] at hfound
      cases hfound
  · cases h

/-- The records of a file have no key twice. -/
lemma isKeyed_of_section {fields : Json.Fields} (h : fields.IsStorable) {items : List Json}
    (hitems : section? "variables" (.list []) fields = .list items) :
    ∀ item ∈ items, item.IsKeyed := by
  unfold section? at hitems
  split at hitems
  · rename_i found hfound
    split_ifs at hitems
    · have hstored := (h.values _ (OrderedMap.mem_of_find? hfound)).keyed
      dsimp only at hstored
      rw [hitems] at hstored
      exact Json.itemsKeyed_iff.mp hstored
    · cases hitems
      exact fun item hitem => (List.not_mem_nil hitem).elim
  · cases hitems
    exact fun item hitem => (List.not_mem_nil hitem).elim

/-- The values of calculations can be written back to the snapshot whose variables have been read,
whatever else has been read of it, if nothing of its other fields is broken.  The file keeps all
fields other than the variables, and the records in their number and order.  A field of a record that
is there before is still there with its value exactly if it is one of the fields that a variable is
made of, under the name that is written; the values by modes are if those that have not been updated
were in the standard form.  If something of the other fields is broken, nothing is written back, and
the file is left empty. -/
theorem writeBack {w : Workspace} {path : String} {s : Snapshot} (hs : Learns w (atPath path) s)
    {vars : List Variable} (hvars : s.current w = .ok vars) {library : Library}
    {settings : Settings} {r : CalculationReport}
    (hr : CalculationReport.ofLibrary library settings = .ok r)
    (hfree : w.hasDirectory s.path = false)
    (hparent : w.hasDirectory (PathText.parent s.path) = true) :
    ∃ fields, (atPath path).readContent w = .ok fields ∧
      ((others fields).isIntact = true →
        ∃ w' s', s.save w (r.apply vars) = (.ok (), w', s') ∧
          ∃ fields', (atPath path).readContent w' = .ok fields' ∧ others fields' = others fields ∧
            ∃ items items', section? "variables" (.list []) fields = .list items ∧
              OrderedMap.find? "variables" fields'.entries = some { value := .list items' } ∧
                List.Forall₂ (RecordKept r) items items') ∧
      ((others fields).isIntact = false →
        ∃ w' s', s.save w (r.apply vars) = (.error (.file .brokenText), w', s') ∧
          w'.read path = .ok "") := by
  have hreport := CalculationReport.isKeyed_ofLibrary hr
  rw [hs.current_eq, current_atPath] at hvars
  obtain ⟨fields, hfields, hvars⟩ := bind_eq_ok.mp hvars
  obtain ⟨items, hitems, hrecords⟩ := exists_items_of_readVariables hvars
  have hkeyed := isKeyed_of_section (isStorable_of_readContent hfields) hitems
  have hcontent : (s.getContent w).map (·.1) = .ok fields := by
    rw [hs.getContent_eq, getContent_of_unknown rfl]
    exact hfields
  obtain ⟨⟨found, s₁⟩, hget, hfound⟩ := map_eq_ok.mp hcontent
  obtain rfl : found = fields := hfound
  have hnew : ∀ v ∈ r.apply vars, v.IsKeyed := by
    intro v hv
    obtain ⟨old, hold, rfl⟩ := List.mem_map.mp hv
    obtain ⟨j, hj, hread⟩ := exists_of_forall₂ hrecords.flip hold
    exact CalculationReport.isKeyed_applyTo r (Variable.isKeyed_of_read (hkeyed j hj) hread)
  have hkey : w.key path = w.key s.path := by
    rw [hs.path]
    exact (Workspace.key_normal w path).symm
  have hwrite : w.write s.path "" = .ok (w.store s.path "") :=
    Workspace.write_eq_ok.mpr ⟨hfree, hparent, rfl⟩
  refine ⟨found, hfields, ?_⟩
  rcases save_cases (hs.isStorable (isStorable_atPath path)) hget hnew none with
    ⟨fault, -, hfail, -⟩ | ⟨hintact, entries, hwhole, hentries, hsave⟩ | ⟨hbroken, hsave⟩
  · cases (hfail "").symm.trans hwrite
  · refine ⟨fun _ => ⟨_, _, hsave, ?_⟩, fun h => Bool.noConfusion (hintact.symm.trans h)⟩
    have hread := @readContent_store w (atPath path) _ ((key_atPath w path).trans hkey) _ hentries
    rw [← hwhole] at hread
    refine ⟨_, hread, others_withVariables _ _, items, _, hitems, OrderedMap.find?_set_self _ _ _, ?_⟩
    unfold CalculationReport.apply
    rw [List.map_map]
    refine List.forall₂_map_right_iff.mpr (hrecords.imp fun j v hread => ?_)
    exact recordKept_of_read hread hreport
  · refine ⟨fun h => Bool.noConfusion (hbroken.symm.trans h), fun _ => ⟨_, _, hsave, ?_⟩⟩
    exact Workspace.read_store hkey (by decide)

/-- The scopes that the host has attached to a variable are lost when its record is written back. -/
theorem writeBack_scopes :
    let record : List (String × Json) :=
      [("id", .text "v"), ("name", .text "base"), ("resolvedType", .text "STRING"),
        ("variableCollectionId", .text "c"), ("scopes", .list [.text "ALL_SCOPES"])]
    let base : Variable := { id := "v", name := "base", type := .text, collectionId := "c" }
    let w := ({ root := "/work" } : Workspace).store "kit.json"
      (fileText [("variables", .list [.object record])])
    ∃ w' s' saved after, (atPath "kit.json").save w [base] = (.ok (), w', s') ∧
      (atPath "kit.json").readContent w' = .ok saved ∧
        OrderedMap.find? "variables" saved.entries = some { value := .list [.object after] } ∧
          FieldKept [] record after "name" ∧ ¬ FieldKept [] record after "scopes" := by
  intro record base w
  have hrecord : (Json.object record).IsStorable :=
    ⟨⟨by decide, trivial, trivial, trivial, trivial, ⟨trivial, trivial⟩, trivial⟩, rfl⟩
  have hstorable : (Json.object [("variables", .list [.object record])]).IsStorable :=
    ⟨⟨by decide, ⟨hrecord.keyed, trivial⟩, trivial⟩, rfl⟩
  have hcontent : (atPath "kit.json").readContent w =
      .ok (.ofIntact [("variables", .list [.object record])]) :=
    readContent_store (key_atPath _ "kit.json") hstorable
  have hvars : (atPath "kit.json").current w = .ok [base] := by
    rw [current_atPath, bind_of_ok hcontent]
    rfl
  have hreport : CalculationReport.ofLibrary ⟨[], []⟩ {} = .ok {} := rfl
  obtain ⟨fields, hfields, hintact, -⟩ :=
    writeBack ⟨rfl, Or.inl rfl, Or.inl rfl⟩ hvars hreport (by decide) (by decide)
  obtain rfl := Except.ok.inj (hcontent.symm.trans hfields)
  obtain ⟨w', s', hsave, saved, hsaved, -, items, items', hitems, hafter, hkept⟩ := hintact rfl
  obtain rfl : [Json.object record] = items := Json.list.inj hitems
  rcases hkept with _ | ⟨⟨f, f', id, hf, rfl, hid, hfield⟩, ⟨⟩⟩
  obtain rfl : record = f := Json.object.inj hf
  refine ⟨w', s', saved, f', hsave, hsaved, hafter, ?_, fun hscopes => ?_⟩
  · exact (hfield "name" (by decide)).mpr ⟨by decide, fun h => absurd h (by decide)⟩
  · exact absurd ((hfield "scopes" (by decide)).mp hscopes).1 (by decide)

end Snapshot

end DesignTokens

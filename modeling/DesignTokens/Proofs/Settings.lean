import DesignTokens.Proofs.Decimal.Nearest
import DesignTokens.Proofs.Json.RoundTrip
import DesignTokens.Proofs.OrderedMap
import DesignTokens.Proofs.Outcome
import DesignTokens.Settings

/-!
# Written settings are read back

Settings are written as plain data in full or without what has its default value, and are read back
from both (`Settings.read_toJson`, `Settings.read_changesToJson`).  Either way each entry is there
with its value, or it is missing and has the default that a reader puts in its place (`Shows`).
Only the default settings leave nothing to write (`Settings.changesToJson_eq_nil_iff`), and only a
precision with too many digits cannot be written (`Settings.isWritable_toJson`).
-/

namespace DesignTokens

open Schema

/-! ## Names -/

/-- The name of a unit is read back. -/
lemma CssUnit.ofName?_name (unit : CssUnit) : CssUnit.ofName? unit.name = some unit := by
  cases unit <;> decide

/-- The name of a color format is read back. -/
lemma ColorFormat.ofName?_name (format : ColorFormat) :
    ColorFormat.ofName? format.name = some format := by
  cases format <;> decide

/-- The name of a casing is read back. -/
lemma CssName.Casing.ofName?_name (casing : CssName.Casing) :
    CssName.Casing.ofName? casing.name = some casing := by
  cases casing <;> decide

/-- The name of a kind of styles is read back. -/
lemma StyleKind.ofName?_name (kind : StyleKind) : StyleKind.ofName? kind.name = some kind := by
  cases kind <;> decide

/-- The name of a way to write styles is read back. -/
lemma StyleOutput.ofName?_name (output : StyleOutput) :
    StyleOutput.ofName? output.name = some output := by
  cases output <;> decide

/-! ## Values -/

namespace Schema

/-- One of several values is read back from its name. -/
lemma choice_name {α : Type} {ofName? : String → Option α} {name : α → String}
    (h : ∀ a, ofName? (name a) = some a) (a : α) : choice ofName? (.text (name a)) = .ok a := by
  show require (ofName? (name a)) = .ok a
  rw [h a]
  rfl

/-- Texts are read back, in their order. -/
lemma list_text_textList (texts : List String) : list text (textList texts) = .ok texts := by
  have hread : ∀ t, text (.text t) = .ok t := fun _ => rfl
  exact mapM_of_inverse hread texts

/-- A text that may be missing is read back. -/
lemma optional_text_optionalText (o : Option String) :
    optional text (optionalText o) = .ok o := by
  cases o <;> rfl

/-- A list of texts that may be missing is read back. -/
lemma optional_list_text (o : Option (List String)) :
    optional (list text) (o.elim .null textList) = .ok o := by
  cases o with
  | none => rfl
  | some texts => exact congrArg (Except.map some) (list_text_textList texts)

/-- A whole number that may be missing is read back. -/
lemma optional_int (o : Option ℤ) : optional int (o.elim .null .int) = .ok o := by
  cases o <;> rfl

/-- A number above zero is read back. -/
lemma positive_float {x : Float} (h : 0.0 < x) : positive (.float x) = .ok x :=
  if_pos h

/-- The fields of a record show an entry: they have its value, or they do not have the entry and its
value is the default. -/
def Shows (f : List (String × Json)) (entry : String × Bool × Json) : Prop :=
  OrderedMap.find? entry.1 f = some entry.2.2 ∨
    (entry.2.1 = true ∧ OrderedMap.find? entry.1 f = none)

/-- An entry that fields show is read, whether it is written or has its default value. -/
lemma Shows.withDefault_eq {α : Type} {f : List (String × Json)} {key : String} {isDefault : Bool}
    {value : Json} {r : Reader α} {a default : α} (h : Shows f (key, isDefault, value))
    (hdefault : isDefault = true → a = default) (hread : r value = .ok a) :
    withDefault f [key] default r = .ok a := by
  have hfind : find? [key] f = OrderedMap.find? key f := by
    unfold find?
    rw [List.findSome?_cons]
    cases OrderedMap.find? key f <;> rfl
  unfold withDefault
  rw [hfind]
  rcases h with hfound | ⟨hsame, hnone⟩
  · rw [show OrderedMap.find? key f = some value from hfound]
    exact hread
  · rw [show OrderedMap.find? key f = none from hnone, hdefault hsame]

/-- Fields with all entries show each of them. -/
lemma shows_map {entries : List (String × Bool × Json)} (hkeys : (entries.map (·.1)).Nodup)
    {entry : String × Bool × Json} (h : entry ∈ entries) :
    Shows (entries.map fun (key, _, value) => (key, value)) entry := by
  refine Or.inl ((OrderedMap.find?_eq_some_iff_mem ?_).mpr (List.mem_map_of_mem h))
  unfold OrderedMap.keys
  rw [List.map_map]
  exact hkeys

/-- Fields without the entries that have their default values show each entry. -/
lemma shows_filterMap {entries : List (String × Bool × Json)} (hkeys : (entries.map (·.1)).Nodup)
    {entry : String × Bool × Json} (h : entry ∈ entries) :
    Shows (entries.filterMap fun (key, isDefault, value) =>
      if isDefault then none else some (key, value)) entry := by
  have hnodup : (OrderedMap.keys (entries.filterMap fun (key, isDefault, value) =>
      if isDefault then none else some (key, value))).Nodup := by
    refine (sublist_filterMap ?_ entries).nodup hkeys
    rintro ⟨key, isDefault, value⟩ e he
    dsimp only at he
    split_ifs at he
    cases he
    rfl
  obtain ⟨key, isDefault, value⟩ := entry
  cases isDefault with
  | false => exact Or.inl ((OrderedMap.find?_eq_some_iff_mem hnodup).mpr
      (List.mem_filterMap.mpr ⟨_, h, rfl⟩))
  | true =>
    refine Or.inr ⟨rfl, OrderedMap.find?_eq_none fun hmem => ?_⟩
    -- Another entry with the key would be the same entry, which has been left out.
    obtain ⟨e, he, hkey⟩ := List.mem_map.mp hmem
    obtain ⟨other, hother, hkept⟩ := List.mem_filterMap.mp he
    obtain ⟨otherKey, otherDefault, otherValue⟩ := other
    dsimp only at hkept
    split_ifs at hkept with hleft
    cases hkept
    have hsame := List.inj_on_of_nodup_map hkeys hother h hkey
    cases hsame
    exact hleft rfl

end Schema

/-! ## Rename rules -/

/-- A rename rule is read back. -/
theorem RenameRule.read_toJson (r : RenameRule) : RenameRule.read r.toJson = .ok r :=
  rfl

/-- A rename rule is read back without the fields that have their default values. -/
theorem RenameRule.read_changesToJson (r : RenameRule) :
    RenameRule.read r.changesToJson = .ok r := by
  obtain ⟨id, pattern, replacement, enabled⟩ := r
  unfold RenameRule.changesToJson
  by_cases hid : id = ""
  · rw [if_pos hid, hid]
    cases enabled <;> rfl
  · rw [if_neg hid]
    cases enabled <;> rfl

/-! ## Settings -/

namespace Settings

variable {s : Settings}

/-- The keys of settings in plain data, in order. -/
def fieldKeys : List String :=
  ["prefix", "name_format_rules", "name_format_casing", "color_format", "default_unit", "rem_base",
    "rem_base_variable_id", "number_precision", "selector", "use_modes_as_selectors",
    "include_collection_comments", "include_mode_comments", "export_as_calc_expressions",
    "include_styles", "style_output_mode", "style_types", "selected_collections", "header_banner",
    "compact_json"]

/-- No key of settings occurs twice. -/
lemma nodup_fieldKeys : fieldKeys.Nodup := by
  decide

/-- All settings have these keys, so that no two of their entries have one key. -/
lemma nodup_map_entries (rule : RenameRule → Json) (s : Settings) :
    ((s.entries rule).map (·.1)).Nodup :=
  nodup_fieldKeys

/-- Settings with a positive base of `rem` output are read from fields that show all of their
entries. -/
theorem read_of_shows {rule : RenameRule → Json} (hrule : ∀ r, RenameRule.read (rule r) = .ok r)
    (hbase : 0.0 < s.remBase) {f : List (String × Json)}
    (h : ∀ entry ∈ s.entries rule, Shows f entry) : Settings.read (.object f) = .ok s := by
  have hnumber : (s.remBase == 16.0) = true → s.remBase = 16.0 :=
    Binary64.eq_of_beq_finite (rfl : (16.0 : Float).toModel.unpack = .finite .positive (2 ^ 52) (-48)
      (by decide))
  have hkinds : list (choice StyleKind.ofName?) (textList (s.styleKinds.map StyleKind.name)) =
      .ok s.styleKinds := by
    unfold textList
    rw [List.map_map]
    exact mapM_of_inverse (choice_name StyleKind.ofName?_name) s.styleKinds
  have hoff : ∀ {b : Bool}, (!b) = true → b = false := by decide
  unfold entries at h
  simp only [List.forall_mem_cons] at h
  obtain ⟨hstart, hrules, hcasing, hcolor, hunit, hrem, hvariable, hprecision, hselector, hmodes,
    hcollection, hcomments, hcalc, hstyles, houtput, hstyleKinds, hselected, hbanner, hcompact,
    -⟩ := h
  unfold Settings.read
  rw [bind_of_ok (rfl : fields (.object f) = .ok f),
    bind_of_ok (hstart.withDefault_eq eq_of_beq rfl),
    bind_of_ok (hrules.withDefault_eq List.isEmpty_iff.mp (mapM_of_inverse hrule s.rules)),
    bind_of_ok (hcasing.withDefault_eq eq_of_beq (choice_name CssName.Casing.ofName?_name _)),
    bind_of_ok (hcolor.withDefault_eq eq_of_beq (choice_name ColorFormat.ofName?_name _)),
    bind_of_ok (hunit.withDefault_eq eq_of_beq (choice_name CssUnit.ofName?_name _)),
    bind_of_ok (hrem.withDefault_eq hnumber (positive_float hbase)),
    bind_of_ok (hvariable.withDefault_eq Option.isNone_iff_eq_none.mp
      (optional_text_optionalText _)),
    bind_of_ok (hprecision.withDefault_eq Option.isNone_iff_eq_none.mp (optional_int _)),
    bind_of_ok (hselector.withDefault_eq eq_of_beq rfl),
    bind_of_ok (hmodes.withDefault_eq hoff rfl),
    bind_of_ok (hcollection.withDefault_eq id rfl),
    bind_of_ok (hcomments.withDefault_eq hoff rfl),
    bind_of_ok (hcalc.withDefault_eq hoff rfl),
    bind_of_ok (hstyles.withDefault_eq hoff rfl),
    bind_of_ok (houtput.withDefault_eq eq_of_beq (choice_name StyleOutput.ofName?_name _)),
    bind_of_ok (hstyleKinds.withDefault_eq eq_of_beq hkinds),
    bind_of_ok (hselected.withDefault_eq Option.isNone_iff_eq_none.mp (optional_list_text _)),
    bind_of_ok (hbanner.withDefault_eq Option.isNone_iff_eq_none.mp (optional_text_optionalText _)),
    bind_of_ok (hcompact.withDefault_eq hoff rfl)]
  rfl

/-- Settings with a positive base of `rem` output are read back when every field is written. -/
theorem read_toJson (hbase : 0.0 < s.remBase) : Settings.read s.toJson = .ok s :=
  read_of_shows RenameRule.read_toJson hbase fun _ => shows_map (nodup_map_entries _ s)

/-- Settings with a positive base of `rem` output are read back when what has its default value is
left out. -/
theorem read_changesToJson (hbase : 0.0 < s.remBase) : Settings.read s.changesToJson = .ok s :=
  read_of_shows RenameRule.read_changesToJson hbase fun _ =>
    shows_filterMap (nodup_map_entries _ s)

/-- The default settings alone have nothing that would be written. -/
theorem changesToJson_eq_nil_iff (hbase : 0.0 < s.remBase) :
    s.changesToJson = .object [] ↔ s = {} := by
  constructor
  · intro h
    have hread := read_changesToJson hbase
    rw [h] at hread
    exact (Except.ok.inj hread).symm
  · rintro rfl
    rfl

/-! ### Keys -/

/-- A list of texts has no keys. -/
lemma isKeyed_textList (texts : List String) : (textList texts).IsKeyed := by
  refine Json.itemsKeyed_iff.mpr fun item hitem => ?_
  obtain ⟨t, -, rfl⟩ := List.mem_map.mp hitem
  trivial

/-- Settings are written in full without repeated keys. -/
theorem isKeyed_toJson (s : Settings) : s.toJson.IsKeyed := by
  have hrule : ∀ r : RenameRule, r.toJson.IsKeyed := by
    intro r
    have hnames : ["id", "pattern", "replacement", "enabled"].Nodup := by decide
    exact ⟨hnames, trivial, trivial, trivial, trivial, trivial⟩
  have hrules : (Json.list (s.rules.map RenameRule.toJson)).IsKeyed := by
    refine Json.itemsKeyed_iff.mpr fun item hitem => ?_
    obtain ⟨r, -, rfl⟩ := List.mem_map.mp hitem
    exact hrule r
  have htext : ∀ o, (optionalText o).IsKeyed := by
    intro o
    cases o <;> trivial
  have hprecision : (s.precision.elim Json.null .int).IsKeyed := by
    cases s.precision <;> trivial
  have hselected : (s.selected.elim Json.null textList).IsKeyed := by
    cases s.selected with
    | none => trivial
    | some texts => exact isKeyed_textList texts
  exact ⟨nodup_fieldKeys, trivial, hrules, trivial, trivial, trivial, trivial, htext _, hprecision,
    trivial, trivial, trivial, trivial, trivial, trivial, trivial, isKeyed_textList _, hselected,
    htext _, trivial, trivial⟩

/-! ### Digits -/

/-- The precision does not have too many digits to be written. -/
def isWritable (s : Settings) : Bool :=
  s.precision.all fun n => (Json.int n).isWritable

/-- A rename rule can be written. -/
lemma isWritable_rule (r : RenameRule) : r.toJson.isWritable = true :=
  rfl

/-- A rename rule can be written without the fields that have their default values. -/
lemma isWritable_changesOfRule (r : RenameRule) : r.changesToJson.isWritable = true := by
  refine Json.areFieldsWritable_iff.mpr fun e he => ?_
  rcases List.mem_append.mp he with hfront | hlast
  · rcases List.mem_append.mp hfront with hfirst | hmiddle
    · split_ifs at hfirst
      · exact (List.not_mem_nil hfirst).elim
      · rw [List.mem_singleton.mp hfirst]
        rfl
    · rcases List.mem_pair.mp hmiddle with rfl | rfl <;> rfl
  · split_ifs at hlast
    · exact (List.not_mem_nil hlast).elim
    · rw [List.mem_singleton.mp hlast]
      rfl

/-- Texts can be written. -/
lemma isWritable_textList (texts : List String) : (textList texts).isWritable = true := by
  refine Json.areItemsWritable_iff.mpr fun item hitem => ?_
  obtain ⟨t, -, rfl⟩ := List.mem_map.mp hitem
  rfl

/-- Entries of settings can be written if the precision can. -/
lemma isWritable_of_mem_entries {rule : RenameRule → Json} (hrule : ∀ r, (rule r).isWritable = true)
    (hs : s.isWritable = true) {entry : String × Bool × Json} (h : entry ∈ s.entries rule) :
    entry.2.2.isWritable = true := by
  have hrules : (Json.list (s.rules.map rule)).isWritable = true := by
    refine Json.areItemsWritable_iff.mpr fun item hitem => ?_
    obtain ⟨r, -, rfl⟩ := List.mem_map.mp hitem
    exact hrule r
  have htext : ∀ o, (optionalText o).isWritable = true := by
    intro o
    cases o <;> rfl
  have hprecision : (s.precision.elim Json.null .int).isWritable = true := by
    unfold isWritable at hs
    cases hfound : s.precision with
    | none => rfl
    | some n =>
      rw [hfound] at hs
      exact hs
  have hselected : (s.selected.elim Json.null textList).isWritable = true := by
    cases s.selected with
    | none => rfl
    | some texts => exact isWritable_textList texts
  have hall : ∀ entry ∈ s.entries rule, entry.2.2.isWritable = true := by
    unfold entries
    simp only [List.forall_mem_cons, hrules, htext, hprecision, hselected, isWritable_textList,
      true_and]
    exact ⟨rfl, rfl, rfl, rfl, rfl, rfl, rfl, rfl, rfl, rfl, rfl, rfl, rfl, List.forall_mem_nil _⟩
  exact hall entry h

/-- Fields that have no values but those of entries, and the precision if there is one, can be
written exactly if the precision can. -/
lemma areFieldsWritable_of_entries {rule : RenameRule → Json}
    (hrule : ∀ r, (rule r).isWritable = true) {f : List (String × Json)}
    (hentries : ∀ e ∈ f, ∃ entry ∈ s.entries rule, entry.2.2 = e.2)
    (hprecision : ∀ n, s.precision = some n → ("number_precision", .int n) ∈ f) :
    Json.areFieldsWritable f = s.isWritable := by
  rw [Bool.eq_iff_iff, Json.areFieldsWritable_iff]
  constructor
  · intro h
    unfold isWritable
    cases hfound : s.precision with
    | none => rfl
    | some n => exact h _ (hprecision n hfound)
  · intro hs e he
    obtain ⟨entry, hentry, hvalue⟩ := hentries e he
    exact hvalue ▸ isWritable_of_mem_entries hrule hs hentry

/-- The precision is an entry of its own. -/
lemma mem_entries_of_precision (rule : RenameRule → Json) {n : ℤ} (h : s.precision = some n) :
    ("number_precision", false, .int n) ∈ s.entries rule := by
  unfold entries
  rw [h]
  simp

/-- Settings can be written in full exactly if the precision can be written. -/
theorem isWritable_toJson (s : Settings) : s.toJson.isWritable = s.isWritable := by
  refine areFieldsWritable_of_entries isWritable_rule (fun e he => ?_) fun n hn => ?_
  · obtain ⟨entry, hentry, rfl⟩ := List.mem_map.mp he
    exact ⟨entry, hentry, rfl⟩
  · exact List.mem_map.mpr ⟨_, mem_entries_of_precision _ hn, rfl⟩

/-- Settings can be written without what has its default value exactly if the precision can be
written. -/
theorem isWritable_changesToJson (s : Settings) : s.changesToJson.isWritable = s.isWritable := by
  refine areFieldsWritable_of_entries isWritable_changesOfRule (fun e he => ?_) fun n hn => ?_
  · obtain ⟨⟨key, isDefault, value⟩, hentry, hkept⟩ := List.mem_filterMap.mp he
    dsimp only at hkept
    split_ifs at hkept
    cases hkept
    exact ⟨_, hentry, rfl⟩
  · exact List.mem_filterMap.mpr ⟨_, mem_entries_of_precision _ hn, rfl⟩

end Settings

end DesignTokens

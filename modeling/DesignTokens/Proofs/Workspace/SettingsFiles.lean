import DesignTokens.Proofs.Json.Equality
import DesignTokens.Proofs.Settings
import DesignTokens.Proofs.Workspace.Files
import DesignTokens.Proofs.Yaml.Lines
import DesignTokens.Workspace.SettingsFile

/-!
# Saved settings are loaded, and exported ones imported

Settings that have been saved in a directory are the ones that are loaded from it, as long as the
YAML of what has been written is read back; only the default settings are not, where the caller
does not accept defaults: nothing of them is written, and an empty mapping counts as an empty file
(`load_save_and_importFrom_exportTo`).  Settings that have been exported are imported without
exception.  What cannot be written is neither saved nor exported.
-/

namespace DesignTokens.SettingsFile

variable {w : Workspace} {directory shown path : String} {s : Settings}

/-! ## Settings of a project -/

/-- Data that settings are read from are the data of a file with these settings. -/
lemma readData_of_read {data : Json} (h : Settings.read data = .ok s) (file : String) :
    readData file data = .ok s := by
  unfold readData
  rw [h]

/-- What is written of settings counts as present, unless these are the default settings. -/
lemma isTruthy_changesToJson (hbase : 0.0 < s.remBase) (hs : s ≠ {}) :
    s.changesToJson.isTruthy = true := by
  have hne := mt (Settings.changesToJson_eq_nil_iff hbase).mp hs
  obtain ⟨fields, hfields⟩ : ∃ fields, s.changesToJson = .object fields := ⟨_, rfl⟩
  rw [hfields] at hne ⊢
  cases fields with
  | nil => exact absurd rfl hne
  | cons => rfl

/-- The settings of YAML data are the ones that the data were written for, unless these are the
default settings. -/
lemma ofYamlData_changesToJson (hbase : 0.0 < s.remBase) (hs : s ≠ {}) (file : String)
    (useDefaults : Bool) : ofYamlData file useDefaults s.changesToJson = .ok s := by
  unfold ofYamlData
  rw [isTruthy_changesToJson hbase hs]
  exact readData_of_read (Settings.read_changesToJson hbase) file

/-- What is loaded from a directory with a YAML file are the settings of the data in the file. -/
lemma load_of_read {text : String} {data : Json}
    (htext : w.read (PathText.join directory yamlName) = .ok text)
    (hdata : Yaml.read? text = some data) (hdigits : data.isWritable = true) (useDefaults : Bool) :
    load w directory shown useDefaults =
      ofYamlData (PathText.join shown yamlName) useDefaults data := by
  have hcheck : data.checkDigits = .ok () := if_pos hdigits
  unfold load isPresent
  dsimp only
  rw [if_pos (Workspace.has_of_read htext), bind_of_ok htext, hdata]
  dsimp only
  rw [bind_of_ok hcheck]

/-- Settings that have been saved in a directory are loaded from it, unless these are the default
settings and the caller does not accept defaults. -/
theorem load_store (hbase : 0.0 < s.remBase) (hwritable : s.isWritable = true)
    (hyaml : Yaml.read? (Yaml.render s.changesToJson) = some s.changesToJson) {useDefaults : Bool}
    (huse : useDefaults = true ∨ s ≠ {}) (shown : String) :
    load (w.store (PathText.join directory yamlName) (Yaml.render s.changesToJson)) directory shown
      useDefaults = .ok s := by
  have hdigits := s.isWritable_changesToJson.trans hwritable
  rw [load_of_read (Workspace.read_store rfl (Yaml.return_not_mem_render _)) hyaml hdigits]
  by_cases hs : s = {}
  · have huses : useDefaults = true := huse.resolve_right (not_not_intro hs)
    rw [huses, (Settings.changesToJson_eq_nil_iff hbase).mpr hs, hs]
    rfl
  · exact ofYamlData_changesToJson hbase hs _ useDefaults

/-- The default settings leave a file that counts as empty. -/
theorem load_store_default (shown : String) :
    load (w.store (PathText.join directory yamlName)
      (Yaml.render ({} : Settings).changesToJson)) directory shown false =
        fault (PathText.join shown yamlName) .empty := by
  have hnothing : ({} : Settings).changesToJson = .object [] := rfl
  have hyaml : Yaml.read? (Yaml.render (.object [])) = some (.object []) := by decide +kernel
  rw [hnothing, load_of_read (Workspace.read_store rfl (Yaml.return_not_mem_render _)) hyaml rfl]
  rfl

/-! ## Portable files -/

/-- Fields with other keys that can be taken back have no key twice if they had none. -/
lemma nodup_renamed {rename restore : String → String} {fields : List (String × Json)}
    (hkeys : (OrderedMap.keys fields).Nodup)
    (hrestore : ∀ key ∈ OrderedMap.keys fields, restore (rename key) = key) :
    (OrderedMap.keys (fields.map fun e => (rename e.1, e.2))).Nodup := by
  have hrenamed : OrderedMap.keys (fields.map fun e => (rename e.1, e.2)) =
      (OrderedMap.keys fields).map rename := by
    unfold OrderedMap.keys
    rw [List.map_map, List.map_map]
    rfl
  have hback : ((OrderedMap.keys fields).map rename).map restore = OrderedMap.keys fields := by
    rw [List.map_map]
    exact (List.map_congr_left hrestore).trans (List.map_id _)
  rw [hrenamed]
  exact List.Nodup.of_map restore (hback.symm ▸ hkeys)

/-- Fields get their own keys back. -/
lemma withKeys_withKeys {rename restore : String → String} {fields : List (String × Json)}
    (hkeys : (OrderedMap.keys fields).Nodup)
    (hrestore : ∀ key ∈ OrderedMap.keys fields, restore (rename key) = key) :
    withKeys restore (withKeys rename (.object fields)) = .object fields := by
  have hback : (fields.map fun e => (rename e.1, e.2)).map (fun e => (restore e.1, e.2)) =
      fields := by
    rw [List.map_map]
    refine (List.map_congr_left fun e he => ?_).trans (List.map_id fields)
    exact Prod.ext (hrestore e.1 (List.mem_map_of_mem he)) rfl
  show Json.object (OrderedMap.ofList ((OrderedMap.ofList
    (fields.map fun e => (rename e.1, e.2))).map fun e => (restore e.1, e.2))) = .object fields
  rw [OrderedMap.ofList_of_nodup (nodup_renamed hkeys hrestore), hback,
    OrderedMap.ofList_of_nodup hkeys]

/-- The keys of settings are taken back from camel case. -/
lemma snakeKey_camelKey : ∀ key ∈ Settings.fieldKeys, snakeKey (camelKey key) = key := by
  have hchars : ∀ key ∈ Settings.fieldKeys,
      Text.lowerAfter [] ((splitWords (camelChars key.toList)).map fun c =>
        if c = '-' then '_' else c) = key.toList := by
    decide +kernel
  intro key hkey
  unfold snakeKey camelKey Text.lower
  rw [String.toList_ofList, String.toList_ofList, hchars key hkey, String.ofList_toList]

/-- Fields under other keys have no key twice. -/
lemma isKeyed_withKeys {fields : List (String × Json)} (h : (Json.object fields).IsKeyed)
    (rename : String → String) : (withKeys rename (.object fields)).IsKeyed := by
  refine ⟨OrderedMap.nodup_keys_ofList _, Json.fieldsKeyed_iff.mpr fun e he => ?_⟩
  obtain ⟨field, hfield, rfl⟩ := List.mem_map.mp (OrderedMap.mem_of_mem_ofList he)
  exact Json.fieldsKeyed_iff.mp h.2 field hfield

/-- The data of a portable file have no key twice. -/
lemma isKeyed_portableData (s : Settings) (exportedAt : String) :
    (portableData s exportedAt).IsKeyed := by
  have hnames : ["version", "exportedAt", "settings"].Nodup := by decide
  exact ⟨hnames, trivial, trivial, isKeyed_withKeys s.isKeyed_toJson camelKey, trivial⟩

/-- Fields under other keys can be written exactly if the fields can. -/
lemma areFieldsWritable_renamed (rename : String → String) (fields : List (String × Json)) :
    Json.areFieldsWritable (fields.map fun e => (rename e.1, e.2)) =
      Json.areFieldsWritable fields := by
  induction fields with
  | nil => rfl
  | cons e rest ih => exact congrArg (e.2.isWritable && ·) ih

/-- The data of a portable file can be written exactly if the precision can be. -/
lemma isWritable_portableData (s : Settings) (exportedAt : String) :
    (portableData s exportedAt).isWritable = s.isWritable := by
  obtain ⟨fields, hfields⟩ : ∃ fields, s.toJson = .object fields := ⟨_, rfl⟩
  have hkeys : OrderedMap.keys fields = Settings.fieldKeys :=
    congrArg OrderedMap.keys (Json.object.inj hfields).symm
  have hrenamed : (OrderedMap.keys (fields.map fun e => (camelKey e.1, e.2))).Nodup :=
    nodup_renamed (hkeys ▸ Settings.nodup_fieldKeys) (hkeys ▸ snakeKey_camelKey)
  have hsettings : (withKeys camelKey s.toJson).isWritable = s.isWritable := by
    rw [← s.isWritable_toJson, hfields]
    show Json.areFieldsWritable (OrderedMap.ofList _) = Json.areFieldsWritable fields
    rw [OrderedMap.ofList_of_nodup hrenamed, areFieldsWritable_renamed]
  have hversion : (Json.int version).isWritable = true := rfl
  show ((Json.int version).isWritable &&
    (true && ((withKeys camelKey s.toJson).isWritable && true))) = s.isWritable
  rw [hversion, hsettings, Bool.true_and, Bool.true_and, Bool.and_true]

/-- The settings of the data of a portable file are the ones that the data were written for. -/
lemma ofPortableData_portableData (hbase : 0.0 < s.remBase) (file exportedAt : String) :
    ofPortableData file (portableData s exportedAt) = .ok s := by
  have hkeys : withKeys snakeKey (withKeys camelKey s.toJson) = s.toJson :=
    withKeys_withKeys Settings.nodup_fieldKeys snakeKey_camelKey
  have hsettings : (portableData s exportedAt).field? "settings" =
      some (withKeys camelKey s.toJson) := rfl
  have hversion : (portableData s exportedAt).field? "version" = some (.int version) := rfl
  obtain ⟨fields, hfields⟩ : ∃ fields, withKeys camelKey s.toJson = .object fields := ⟨_, rfl⟩
  unfold ofPortableData
  rw [hsettings, hversion, hfields]
  dsimp only [Option.getD_some]
  rw [if_pos (by decide), ← hfields, hkeys]
  exact readData_of_read (Settings.read_toJson hbase) file

/-- The text of a portable file has no carriage return. -/
lemma return_not_mem_portableText (s : Settings) (exportedAt : String) :
    '\r' ∉ (portableText s exportedAt).toList := by
  unfold portableText
  exact return_not_mem_append (Json.return_not_mem_write Json.Style.isReadable_indented 0 _)
    (by decide)

/-- The text of a portable file is read as its data. -/
lemma read_portableText (hwritable : s.isWritable = true) (exportedAt : String) :
    Json.read (portableText s exportedAt) = .ok (.ofJson (portableData s exportedAt)) := by
  have hblank : ∀ c ∈ "\n".toList, Json.isBlank c = true := List.forall_mem_singleton.mpr rfl
  have hstorable : (portableData s exportedAt).IsStorable :=
    ⟨isKeyed_portableData s exportedAt, (isWritable_portableData s exportedAt).trans hwritable⟩
  exact Json.read_render Json.Style.isReadable_indented hstorable hblank

/-- Settings that have been exported to a file are imported from it. -/
theorem importFrom_store (hbase : 0.0 < s.remBase) (hwritable : s.isWritable = true)
    (exportedAt : String) :
    importFrom (w.store path (portableText s exportedAt)) path = .ok s := by
  unfold importFrom
  dsimp only
  rw [Workspace.read_store rfl (return_not_mem_portableText s exportedAt)]
  dsimp only
  rw [read_portableText hwritable]
  dsimp only
  rw [Json.Reading.found_ofJson]
  exact ofPortableData_portableData hbase _ exportedAt

/-! ## Both ways -/

/-- Settings whose data can be written are written where a file can be. -/
lemma checked_write_eq_ok {data : Json} (hdata : data.isWritable = true) {target text : String}
    (hfree : w.hasDirectory target = false)
    (hparent : w.hasDirectory (PathText.parent target) = true) :
    (data.checkDigits >>= fun _ => w.write target text) = .ok (w.store target text) := by
  have hcheck : data.checkDigits = .ok () := if_pos hdata
  rw [bind_of_ok hcheck]
  exact Workspace.write_eq_ok.mpr ⟨hfree, hparent, rfl⟩

/-- Data that cannot be written are refused. -/
lemma checked_eq_error {α : Type} {data : Json} (hdata : data.isWritable = false)
    (f : Unit → Except Fault α) :
    (data.checkDigits >>= f) = .error (.number .tooManyDigits) := by
  have hcheck : data.checkDigits = .error (.number .tooManyDigits) := by
    unfold Json.checkDigits
    rw [hdata]
    rfl
  rw [hcheck]
  rfl

/-- Settings with a positive base of `rem` output and a precision that can be written can be saved
in a directory where a file can be written, and exported to such a path.  From the directory they are
loaded as they were, with one exception: the default settings are loaded only where defaults are
accepted, as the file then holds an empty mapping and counts as empty.  From the path they are
imported as they were.  Of the YAML of what is saved it is taken that it is read back.  With a
precision that cannot be written the settings are neither saved nor exported. -/
theorem load_save_and_importFrom_exportTo (hbase : 0.0 < s.remBase)
    (hyaml : s.isWritable = true →
      Yaml.read? (Yaml.render s.changesToJson) = some s.changesToJson)
    (hfree : w.hasDirectory (PathText.join directory yamlName) = false)
    (hparent : w.hasDirectory (PathText.parent (PathText.join directory yamlName)) = true)
    (hpathFree : w.hasDirectory path = false)
    (hpathParent : w.hasDirectory (PathText.parent path) = true) (shown exportedAt : String) :
    (s.isWritable = true →
      (∃ w', save w directory s = .ok w' ∧ load w' directory shown true = .ok s ∧
        (s ≠ {} → load w' directory shown false = .ok s) ∧
        (s = {} → load w' directory shown false =
          fault (PathText.join shown yamlName) .empty)) ∧
      ∃ w', exportTo w path s exportedAt = .ok w' ∧ importFrom w' path = .ok s) ∧
    (s.isWritable = false →
      save w directory s = .error (.number .tooManyDigits) ∧
        exportTo w path s exportedAt = .error (.number .tooManyDigits)) := by
  have hchanges := s.isWritable_changesToJson
  have hportable := isWritable_portableData s exportedAt
  constructor
  · intro hwritable
    refine ⟨⟨_, checked_write_eq_ok (hchanges.trans hwritable) hfree hparent,
        load_store hbase hwritable (hyaml hwritable) (Or.inl rfl) shown,
        fun hs => load_store hbase hwritable (hyaml hwritable) (Or.inr hs) shown, ?_⟩,
      ⟨_, checked_write_eq_ok (hportable.trans hwritable) hpathFree hpathParent,
        importFrom_store hbase hwritable exportedAt⟩⟩
    rintro rfl
    exact load_store_default shown
  · intro hlong
    exact ⟨checked_eq_error (hchanges.trans hlong) _, checked_eq_error (hportable.trans hlong) _⟩

/-- Settings with a prefix, a rule, a base, a precision and a selection are saved and loaded,
exported and imported. -/
theorem load_save_and_importFrom_exportTo_ds :
    let w : Workspace := { root := "/work" }
    let s : Settings :=
      { namePrefix := "ds", rules := [{ pattern := "color/*", replacement := "c-$1" }],
        remBase := 10.0, precision := some 2, selected := some ["Theme"] }
    (∃ w', save w "." s = .ok w' ∧ load w' "." "." true = .ok s ∧
      load w' "." "." false = .ok s) ∧
    ∃ w', exportTo w "settings.json" s = .ok w' ∧ importFrom w' "settings.json" = .ok s := by
  intro w s
  have hyaml : Yaml.read? (Yaml.render s.changesToJson) = some s.changesToJson := by
    decide +kernel
  have hfree : w.hasDirectory (PathText.join "." yamlName) = false := by decide
  have hparent : w.hasDirectory (PathText.parent (PathText.join "." yamlName)) = true := by decide
  have hpathFree : w.hasDirectory "settings.json" = false := by decide
  have hpathParent : w.hasDirectory (PathText.parent "settings.json") = true := by decide
  have hs : s ≠ {} := fun h => absurd (congrArg Settings.namePrefix h) (by decide)
  obtain ⟨⟨w', hsave, hdefaults, hload, -⟩, hportable⟩ :=
    (load_save_and_importFrom_exportTo (by decide +kernel : 0.0 < s.remBase) (fun _ => hyaml) hfree
      hparent hpathFree hpathParent "." "").1 rfl
  exact ⟨⟨w', hsave, hdefaults, hload hs⟩, hportable⟩

end DesignTokens.SettingsFile

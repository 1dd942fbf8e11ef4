import DesignTokens.Proofs.Design.Records
import DesignTokens.Proofs.Json.Lines
import DesignTokens.Proofs.Workspace.Files
import DesignTokens.Workspace.Snapshot

/-!
# Saved snapshots are read back

Variables that have been saved to a file are the variables of a snapshot that is opened there
afterwards, each with values of the same kinds, and the rest of the file is what the snapshot had
before.  This holds as long as nothing in the rest is broken; otherwise nothing can be saved, and
the file is left empty (`getVariables_save`).
-/

namespace DesignTokens.Snapshot

/-! ## Contents -/

/-- What is known of the content can be stored. -/
def IsStorable (s : Snapshot) : Prop :=
  ∀ fields ∈ s.content, fields.IsStorable

/-- Of a snapshot that has just been opened nothing is known. -/
lemma isStorable_atPath (path : String) : (atPath path).IsStorable :=
  fun _ h => by cases h

section content

variable {w : Workspace} {s s' : Snapshot} {fields : Json.Fields}

/-- The content of a snapshot is the object that its file holds. -/
lemma readContent_eq_ok : s.readContent w = .ok fields ↔
    ∃ text, w.read s.path = .ok text ∧ Json.read text = .ok (.object fields) := by
  constructor
  · intro h
    unfold readContent at h
    split_ifs at h
    obtain ⟨text, htext, h⟩ := bind_eq_ok.mp h
    refine ⟨text, htext, ?_⟩
    split at h
    · rename_i found hfound
      rw [hfound, Except.ok.inj h]
    · cases h
    · cases h
    · cases h
  · rintro ⟨text, htext, hobject⟩
    unfold readContent
    rw [Workspace.has_of_read htext, if_neg (by decide), bind_of_ok htext, hobject]
    rfl

/-- An empty file has no content. -/
lemma readContent_of_empty (h : w.read s.path = .ok "") :
    s.readContent w = s.fault .invalidJson := by
  unfold readContent
  rw [Workspace.has_of_read h, if_neg (by decide), bind_of_ok h]
  rfl

/-- The content of a file can be stored. -/
lemma isStorable_of_readContent (h : s.readContent w = .ok fields) : fields.IsStorable := by
  obtain ⟨text, -, hread⟩ := readContent_eq_ok.mp h
  exact Json.isStorable_of_read hread

/-- The content that is used is the known one, or the one of the file, and it is known from then
on. -/
lemma getContent_eq_ok : s.getContent w = .ok (fields, s') ↔
    (s.content = some fields ∧ s' = s) ∨
      (s.content = none ∧ s.readContent w = .ok fields ∧
        s' = { s with content := some fields }) := by
  unfold getContent
  cases hcontent : s.content with
  | some known => simp [eq_comm]
  | none =>
    cases hread : s.readContent w with
    | error e => simp [Except.map]
    | ok found =>
      simp only [Except.map, Except.ok.injEq, Prod.mk.injEq, reduceCtorEq, false_and, true_and,
        false_or]
      constructor <;> (rintro ⟨rfl, hs⟩; exact ⟨rfl, hs.symm⟩)

/-- The content that is used can be stored. -/
lemma isStorable_of_getContent (hs : s.IsStorable) (h : s.getContent w = .ok (fields, s')) :
    fields.IsStorable := by
  rcases getContent_eq_ok.mp h with ⟨hknown, -⟩ | ⟨-, hread, -⟩
  · exact hs fields hknown
  · exact isStorable_of_readContent hread

/-- The content that is used is known from then on. -/
lemma content_of_getContent (h : s.getContent w = .ok (fields, s')) : s'.content = some fields := by
  rcases getContent_eq_ok.mp h with ⟨hknown, rfl⟩ | ⟨-, -, rfl⟩
  · exact hknown
  · rfl

/-- The path of a snapshot stays when its content gets known. -/
lemma path_of_getContent (h : s.getContent w = .ok (fields, s')) : s'.path = s.path := by
  rcases getContent_eq_ok.mp h with ⟨-, rfl⟩ | ⟨-, -, rfl⟩ <;> rfl

end content

/-! ## Variables -/

/-- The variables that fields hold, as they are read from the file of a snapshot. -/
def readVariables (s : Snapshot) (fields : Json.Fields) : Except Fault (List Variable) :=
  s.readSection "variables" (.list []) (Schema.list Variable.read) fields

/-- Variables are read from the fields that they have been put into. -/
lemma readVariables_withVariables (s : Snapshot) (vars : List Variable) (fields : Json.Fields) :
    s.readVariables (withVariables vars fields) = .ok vars := by
  have hsection : section? "variables" (.list []) (withVariables vars fields) =
      .list (vars.map Variable.toJson) := by
    unfold section? withVariables
    dsimp only
    rw [OrderedMap.find?_set_self]
    cases vars <;> rfl
  unfold readVariables readSection
  rw [hsection, Variable.list_read_toJson]

/-- Fields with other variables can be stored. -/
lemma isStorable_withVariables {fields : Json.Fields} (h : fields.IsStorable)
    {vars : List Variable} (hvars : ∀ v ∈ vars, v.IsKeyed) :
    (withVariables vars fields).IsStorable := by
  refine ⟨OrderedMap.nodup_keys_set h.keys, fun e he => ?_⟩
  rcases OrderedMap.mem_of_mem_set he with rfl | hold
  · refine Json.isStorable_list.mpr fun item hitem => ?_
    obtain ⟨v, hv, rfl⟩ := List.mem_map.mp hitem
    exact Variable.isStorable_toJson (hvars v hv)
  · exact h.values e hold

section reading

variable {w : Workspace} {s s' : Snapshot} {fields : Json.Fields} {vars : List Variable}

/-- The variables are the known ones, or those of the content. -/
lemma getVariables_eq_ok : s.getVariables w = .ok (vars, s') ↔
    (s.vars = some vars ∧ s' = s) ∨
      ∃ fields s₁, s.vars = none ∧ s.getContent w = .ok (fields, s₁) ∧
        s₁.readVariables fields = .ok vars ∧ s' = { s₁ with vars := some vars } := by
  unfold getVariables
  cases hvars : s.vars with
  | some known => simp [eq_comm]
  | none =>
    simp only [reduceCtorEq, false_and, false_or, true_and]
    constructor
    · intro h
      obtain ⟨⟨fields, s₁⟩, hcontent, h⟩ := bind_eq_ok.mp h
      obtain ⟨found, hfound, h⟩ := bind_eq_ok.mp h
      cases h
      exact ⟨fields, s₁, hcontent, hfound, rfl⟩
    · rintro ⟨fields, s₁, hcontent, hfound, rfl⟩
      rw [bind_of_ok hcontent]
      dsimp only
      unfold readVariables at hfound
      rw [bind_of_ok hfound]
      rfl

end reading

/-! ## Other fields -/

/-- The fields other than the variables, in their order. -/
def others (fields : Json.Fields) : Json.Fields :=
  { fields with entries := fields.entries.filter (·.1 != "variables") }

/-- Other variables leave the other fields. -/
lemma others_withVariables (vars : List Variable) (fields : Json.Fields) :
    others (withVariables vars fields) = others fields := by
  have hentries : ∀ (found : Json.Found) (entries : OrderedMap Json.Found),
      (OrderedMap.set "variables" found entries).filter (·.1 != "variables") =
        entries.filter (·.1 != "variables") := by
    intro found entries
    induction entries with
    | nil => rfl
    | cons e rest ih =>
      obtain ⟨key, value⟩ := e
      by_cases hkey : key = "variables"
      · rw [OrderedMap.set, if_pos hkey, hkey]
        rfl
      · rw [OrderedMap.set, if_neg hkey, List.filter_cons, List.filter_cons, ih]
  unfold others withVariables
  dsimp only
  rw [hentries]

/-- Fields with other variables are broken exactly if the other fields are. -/
lemma isIntact_withVariables {fields : Json.Fields} (hkeys : fields.entries.keys.Nodup)
    (vars : List Variable) :
    (withVariables vars fields).isIntact = (others fields).isIntact := by
  have hset : (withVariables vars fields).entries.keys.Nodup := OrderedMap.nodup_keys_set hkeys
  have hown : ∀ e ∈ (withVariables vars fields).entries,
      e.1 = "variables" → e.2.isIntact = true := by
    rintro ⟨key, found⟩ he rfl
    have hfound := (OrderedMap.find?_eq_some_iff_mem hset).mpr he
    unfold withVariables at hfound
    dsimp only at hfound
    rw [OrderedMap.find?_set_self] at hfound
    cases hfound
    rfl
  have hsame : (withVariables vars fields).isIntact =
      (others (withVariables vars fields)).isIntact := by
    unfold Json.Fields.isIntact others
    dsimp only
    congr 1
    rw [Bool.eq_iff_iff, List.all_eq_true, List.all_eq_true]
    constructor
    · exact fun h e he => h e (List.mem_filter.mp he).1
    · intro h e he
      by_cases hkey : e.1 = "variables"
      · exact hown e he hkey
      · exact h e (List.mem_filter.mpr ⟨he, bne_iff_ne.mpr hkey⟩)
  rw [hsame, others_withVariables]

/-! ## Saving -/

section saving

variable {w w' : Workspace} {s s' : Snapshot} {fields : Json.Fields}
  {vars : List Variable} {path : Option String}

/-- The text of a file has no carriage return. -/
lemma return_not_mem_fileText (entries : List (String × Json)) :
    '\r' ∉ (fileText entries).toList :=
  return_not_mem_append (Json.return_not_mem_write Json.Style.isReadable_indented 0 _) (by decide)

/-- The content of a file is the one that has been stored there. -/
lemma readContent_store {target : String} (hkey : w.key s.path = w.key target)
    {entries : List (String × Json)} (hentries : (Json.object entries).IsStorable) :
    s.readContent (w.store target (fileText entries)) = .ok (.ofIntact entries) := by
  have hblank : ∀ c ∈ "\n".toList, Json.isBlank c = true := List.forall_mem_singleton.mpr rfl
  exact readContent_eq_ok.mpr ⟨_, Workspace.read_store hkey (return_not_mem_fileText entries),
    Json.read_render Json.Style.isReadable_indented hentries hblank⟩

/-- Storing a file leaves the content of the others. -/
lemma readContent_store_of_ne {target text found : String} (h : w.key s.path ≠ w.key target)
    (hread : w.read s.path = .ok found) :
    s.readContent (w.store target text) = s.readContent w := by
  have hstored : (w.store target text).read s.path = .ok found :=
    Workspace.read_store_of_ne h hread
  unfold readContent
  rw [Workspace.has_of_read hread, Workspace.has_of_read hstored, hread, hstored]

/-- A file that has been emptied has no content. -/
lemma readContent_store_empty {target : String} (hkey : w.key s.path = w.key target) :
    s.readContent (w.store target "") = s.fault .invalidJson :=
  readContent_of_empty (Workspace.read_store hkey (by decide))

/-- Fields of which nothing is broken are written as they are. -/
lemma writeFields_of_intact {target : String} {entries : List (String × Json)}
    (hfields : fields.intact? = some entries) (hentries : (Json.object entries).IsStorable) :
    writeFields w target fields = match w.write target (fileText entries) with
      | .ok w' => (.ok (), w')
      | .error fault => (.error fault, w) := by
  have hcheck : (Json.object entries).checkDigits = .ok () := if_pos hentries.writable
  cases hwrite : w.write target (fileText entries) with
  | error fault | ok w' =>
    unfold writeFields
    rw [hfields]
    dsimp only
    rw [bind_of_ok hcheck, hwrite]

/-- Of fields with something broken nothing is written, and the file is left empty. -/
lemma writeFields_of_broken {target : String} (hfields : fields.intact? = none) :
    writeFields w target fields = match w.write target "" with
      | .ok w' => (.error (.file .brokenText), w')
      | .error fault => (.error fault, w) := by
  cases hwrite : w.write target "" with
  | error fault | ok w' =>
    unfold writeFields
    rw [hfields]
    dsimp only
    rw [hwrite]

/-- How saving ends once the content is known: with a fault of the target, which leaves all files
as they were, with the content and the variables written, or with an empty file where something of
the other fields is broken. -/
lemma save_cases (hs : s.IsStorable) {s₁ : Snapshot} (hcontent : s.getContent w = .ok (fields, s₁))
    (hvars : ∀ v ∈ vars, v.IsKeyed) (path : Option String) :
    (∃ fault, fault ≠ .file .brokenText ∧ (∀ text, w.write (path.getD s.path) text = .error fault) ∧
      s.save w vars path = (.error fault, w, s₁)) ∨
    ((others fields).isIntact = true ∧ ∃ entries, withVariables vars fields = .ofIntact entries ∧
      (Json.object entries).IsStorable ∧
      s.save w vars path = (.ok (), w.store (path.getD s.path) (fileText entries),
        { s₁ with content := some (withVariables vars fields), vars := some vars })) ∨
    ((others fields).isIntact = false ∧
      s.save w vars path = (.error (.file .brokenText), w.store (path.getD s.path) "", s₁)) := by
  have hfields := isStorable_of_getContent hs hcontent
  have hstorable := isStorable_withVariables hfields hvars
  have hsame := isIntact_withVariables hfields.keys vars
  unfold save
  rw [hcontent]
  dsimp only
  rw [path_of_getContent hcontent, ← hsame]
  cases hintact : (withVariables vars fields).intact? with
  | none =>
    have hbroken := Json.Fields.intact?_eq_none.mp hintact
    rcases w.write_cases (path.getD s.path) with ⟨fault, hne, hwrite⟩ | hwrite
    · exact Or.inl ⟨fault, hne, hwrite, by rw [writeFields_of_broken hintact, hwrite]⟩
    · exact Or.inr (Or.inr ⟨hbroken, by rw [writeFields_of_broken hintact, hwrite]⟩)
  | some entries =>
    have hwhole := Json.Fields.intact?_eq_some.mp hintact
    have hentries := hstorable.of_intact? hintact
    have hkept : (withVariables vars fields).isIntact = true :=
      hwhole ▸ Json.Fields.isIntact_ofIntact entries
    rcases w.write_cases (path.getD s.path) with ⟨fault, hne, hwrite⟩ | hwrite
    · exact Or.inl ⟨fault, hne, hwrite, by rw [writeFields_of_intact hintact hentries, hwrite]⟩
    · refine Or.inr (Or.inl ⟨hkept, entries, hwhole, hentries, ?_⟩)
      rw [writeFields_of_intact hintact hentries, hwrite]

/-- A snapshot of which nothing is known has the variables of its file. -/
lemma getVariables_of_readContent (hcontent : s.content = none) (hnone : s.vars = none)
    (hread : s.readContent w = .ok fields) (hvars : s.readVariables fields = .ok vars) :
    s.getVariables w = .ok (vars, { s with content := some fields, vars := some vars }) :=
  getVariables_eq_ok.mpr (Or.inr ⟨fields, { s with content := some fields }, hnone,
    getContent_eq_ok.mpr (Or.inr ⟨hcontent, hread, rfl⟩), hvars, rfl⟩)

/-- A snapshot of which nothing is known has no variables if its file cannot be read. -/
lemma getVariables_of_readContent_error (hcontent : s.content = none) (hnone : s.vars = none)
    {fault : Fault} (hread : s.readContent w = .error fault) :
    s.getVariables w = .error fault := by
  unfold getVariables getContent
  rw [hnone, hcontent, hread]
  rfl

/-- A snapshot that has just been opened reads the file at its path, whatever form of the path is
used. -/
lemma key_atPath (w : Workspace) (opened : String) :
    w.key (atPath opened).path = w.key opened :=
  Workspace.key_normal w opened

/-- Variables of a snapshot whose content is known can be saved to every path that is no directory
and lies in one, if nothing of the other fields is broken.  A snapshot that is opened there has these
variables, in their order and with values of the same kinds, and all other fields as they were.  If
something of the other fields is broken, saving fails, and the file is left empty, so that it is no
snapshot any more. -/
theorem getVariables_save (hs : s.IsStorable) {s₁ : Snapshot}
    (hcontent : s.getContent w = .ok (fields, s₁)) (hvars : ∀ v ∈ vars, v.IsKeyed)
    (hfree : w.hasDirectory (path.getD s.path) = false)
    (hparent : w.hasDirectory (PathText.parent (path.getD s.path)) = true) :
    ((others fields).isIntact = true →
      ∃ w' s', s.save w vars path = (.ok (), w', s') ∧
        ∃ fresh saved, (atPath (path.getD s.path)).getVariables w' = .ok (vars, fresh) ∧
          (atPath (path.getD s.path)).readContent w' = .ok saved ∧ others saved = others fields ∧
            ∀ key, key ≠ "variables" →
              OrderedMap.find? key saved.entries = OrderedMap.find? key fields.entries) ∧
    ((others fields).isIntact = false →
      ∃ w' s', s.save w vars path = (.error (.file .brokenText), w', s') ∧
        w'.read (path.getD s.path) = .ok "" ∧
          (atPath (path.getD s.path)).getVariables w' =
            (atPath (path.getD s.path)).fault .invalidJson) := by
  have hwrite : w.write (path.getD s.path) "" = .ok (w.store (path.getD s.path) "") :=
    Workspace.write_eq_ok.mpr ⟨hfree, hparent, rfl⟩
  have hkey := key_atPath w (path.getD s.path)
  rcases save_cases hs hcontent hvars path with
    ⟨fault, -, hfail, -⟩ | ⟨hintact, entries, hwhole, hentries, hsave⟩ | ⟨hbroken, hsave⟩
  · cases (hfail "").symm.trans hwrite
  · refine ⟨fun _ => ⟨_, _, hsave, ?_⟩, fun h => Bool.noConfusion (hintact.symm.trans h)⟩
    have hread := readContent_store hkey hentries
    rw [← hwhole] at hread
    exact ⟨_, _, getVariables_of_readContent rfl rfl hread (readVariables_withVariables _ vars fields),
      hread, others_withVariables vars fields,
      fun key hne => OrderedMap.find?_set_of_ne hne _ fields.entries⟩
  · refine ⟨fun h => Bool.noConfusion (hbroken.symm.trans h), fun _ => ⟨_, _, hsave, ?_, ?_⟩⟩
    · exact Workspace.read_store rfl (by decide)
    · exact getVariables_of_readContent_error rfl rfl (readContent_store_empty hkey)

/-- The text of a file whose only field is half of a character. -/
def halfText : String := "\x7b\"fileName\":\"\\ud800\"\x7d"

/-- Half of a character is read, and it is broken. -/
lemma read_halfText :
    Json.read halfText = .ok (.object { entries := [("fileName", .ofText none)] }) := by
  have hchars : halfText.toList = ['\x7b', '"', 'f', 'i', 'l', 'e', 'N', 'a', 'm', 'e', '"', ':', '"',
      '\\', 'u', 'd', '8', '0', '0', '"', '\x7d'] := by decide
  unfold Json.read
  rw [hchars]
  rfl

/-- A text that looks like a number, a whole number and a truth value are saved to another file and
read back from it.  With half of a character in the name of the design file nothing is saved, and
the file is emptied. -/
theorem getVariables_save_copy :
    let vars : List Variable :=
      [{ id := "v", name := "gap", type := .text, collectionId := "c",
         values := [("a", .text "1.0"), ("b", .number 1.0), ("c", .bool true), ("d", .aliasOf "v"),
           ("e", .color ⟨1.0, 0.5, 0.0, 1.0⟩)] }]
    let w := ({ root := "/work" } : Workspace).store "kit.json"
      (fileText [("fileName", .text "Kit")])
    let broken := ({ root := "/work" } : Workspace).store "kit.json" halfText
    (∃ w' s', (atPath "kit.json").save w vars (some "copy.json") = (.ok (), w', s') ∧
      ∃ fresh saved, (atPath "copy.json").getVariables w' = .ok (vars, fresh) ∧
        (atPath "copy.json").readContent w' = .ok saved ∧
          OrderedMap.find? "fileName" saved.entries = some { value := .text "Kit" }) ∧
    ∃ w' s', (atPath "kit.json").save broken vars = (.error (.file .brokenText), w', s') ∧
      w'.read "kit.json" = .ok "" := by
  intro vars w broken
  have hvars : ∀ v ∈ vars, v.IsKeyed := by
    intro v hv
    rw [List.mem_singleton.mp hv]
    exact ⟨by show ["a", "b", "c", "d", "e"].Nodup; decide, List.nodup_nil⟩
  have hkit : (Json.object [("fileName", .text "Kit")]).IsStorable :=
    ⟨⟨by decide, trivial, trivial⟩, rfl⟩
  have hread : (atPath "kit.json").getContent w = .ok (.ofIntact [("fileName", .text "Kit")], _) :=
    getContent_eq_ok.mpr (Or.inr ⟨rfl, readContent_store (key_atPath _ "kit.json") hkit, rfl⟩)
  have hhalf : (atPath "kit.json").readContent broken =
      .ok { entries := [("fileName", .ofText none)] } :=
    readContent_eq_ok.mpr
      ⟨_, Workspace.read_store (key_atPath _ "kit.json") (by decide), read_halfText⟩
  have hbroken : (atPath "kit.json").getContent broken =
      .ok ({ entries := [("fileName", .ofText none)] }, _) :=
    getContent_eq_ok.mpr (Or.inr ⟨rfl, hhalf, rfl⟩)
  obtain ⟨w', s', hsave, fresh, saved, hfresh, hsaved, -, hkept⟩ :=
    (@getVariables_save w _ _ vars (some "copy.json") (isStorable_atPath "kit.json") _ hread hvars
      (by decide) (by decide)).1 rfl
  obtain ⟨w'', s'', hfail, hempty, -⟩ :=
    (@getVariables_save broken _ _ vars none (isStorable_atPath "kit.json") _ hbroken hvars
      (by decide) (by decide)).2 rfl
  exact ⟨⟨w', s', hsave, fresh, saved, hfresh, hsaved, hkept "fileName" (by decide)⟩,
    w'', s'', hfail, hempty⟩

end saving

end DesignTokens.Snapshot

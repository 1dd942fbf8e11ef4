import DesignTokens.Proofs.Expr.WrittenReferences
import DesignTokens.Proofs.OrderedMap
import DesignTokens.Sync
import Mathlib.Data.List.Nodup

/-!
# Names that are written to code and read back

Rename rules give the variables that they describe their names in web code, as references to custom
properties.  Whatever such a name holds, it is read back from its reference up to white space at its
end (`CssName.ofCodeSyntax_reference`), so that a variable with a recorded name has this name under
all rules and all prefixes.  Recording names changes nothing else, and it changes nothing more when
it is done again; only a template with a number that cannot be read leaves all variables without a
name (`CodeSyntaxReport.names_read_back`).
-/

namespace DesignTokens

/-! ## Names in references -/

namespace Text

/-- A text ends in white space. -/
def endsInSpace (cs : List Char) : Bool :=
  cs.getLast?.any isSpace

/-- Taking white space from its end keeps a text that does not end in any. -/
lemma trimEnd_eq_self_iff {cs : List Char} : trimEnd cs = cs ↔ endsInSpace cs = false := by
  rcases List.eq_nil_or_concat cs with rfl | ⟨before, c, rfl⟩
  · exact ⟨fun _ => rfl, fun _ => rfl⟩
  · unfold trimEnd endsInSpace
    rw [List.concat_eq_append, List.getLast?_concat, Option.any_some, List.reverse_eq_iff,
      List.reverse_concat, List.dropWhile_cons]
    cases isSpace c with
    | false => simp
    | true =>
      have hshorter := (List.dropWhile_suffix isSpace (l := before.reverse)).length_le
      constructor
      · intro h
        have hlength := congrArg List.length h
        rw [if_pos rfl, List.length_cons] at hlength
        omega
      · exact nofun

/-- A character that is no white space stays when white space is taken from the end. -/
lemma trimEnd_cons {c : Char} (hc : isSpace c = false) (cs : List Char) :
    trimEnd (c :: cs) = c :: trimEnd cs := by
  unfold trimEnd
  rw [List.reverse_cons, List.dropWhile_append]
  cases hrest : cs.reverse.dropWhile isSpace with
  | nil =>
    rw [List.isEmpty_nil, if_pos rfl, List.dropWhile_cons, hc]
    rfl
  | cons d rest =>
    rw [List.isEmpty_cons, if_neg Bool.false_ne_true, List.reverse_concat]

end Text

namespace CssName

/-- A name is read back from the reference to it, but for white space at its end. -/
theorem ofCodeSyntax_reference (name : String) :
    ofCodeSyntax (reference name) = String.ofList (Text.trimEnd name.toList) := by
  have htrimmed : Text.trim (reference name).toList =
      "var(".toList ++ (("--".toList ++ name.toList) ++ [')']) := by
    rw [WrittenPart.toList_reference]
    have hlast : Text.endsInSpace (Reference.opening ++ (name.toList ++ [')'])) = false := by
      unfold Text.endsInSpace
      rw [← List.append_assoc, List.getLast?_concat]
      rfl
    exact Text.trimEnd_eq_self_iff.mpr hlast
  have hinner : Text.trim ("--".toList ++ name.toList) =
      "--".toList ++ Text.trimEnd name.toList := by
    show Text.trimEnd ('-' :: '-' :: name.toList) = _
    rw [Text.trimEnd_cons rfl, Text.trimEnd_cons rfl]
    rfl
  have hopened : "var(".toList.isPrefixOf?
      ("var(".toList ++ (("--".toList ++ name.toList) ++ [')'])) =
        some (("--".toList ++ name.toList) ++ [')']) := rfl
  have hclosed : ("var(".toList ++ (("--".toList ++ name.toList) ++ [')'])).getLast? =
      some ')' := by
    rw [← List.append_assoc, List.getLast?_concat]
  unfold ofCodeSyntax
  rw [htrimmed]
  dsimp only
  rw [hopened]
  dsimp only
  rw [if_pos hclosed, List.dropLast_concat, hinner]
  rfl

/-- Exactly the names that do not end in white space are read back. -/
lemma ofCodeSyntax_reference_eq_iff (name : String) :
    ofCodeSyntax (reference name) = name ↔ Text.endsInSpace name.toList = false := by
  rw [ofCodeSyntax_reference, ← Text.trimEnd_eq_self_iff, ← String.toList_inj,
    String.toList_ofList]

end CssName

/-! ## Variables that rules describe -/

/-- An enabled rule with a valid pattern describes a name. -/
def RenameRule.Describe (rules : List RenameRule) (name : String) : Prop :=
  ∃ rule ∈ rules, rule.enabled = true ∧
    ∃ captures, Glob.captures rule.pattern name = .ok (some captures)

/-- A name gets a new one exactly if some rule describes it. -/
lemma RenameRule.isSome_first?_iff {rules : List RenameRule} {name : String} :
    (first? rules name).isSome = true ↔ Describe rules name := by
  unfold first? Describe
  rw [List.findSome?_isSome_iff]
  refine exists_congr fun rule => and_congr_right fun _ => ?_
  rw [Option.isSome_map]
  unfold rename?
  cases rule.enabled with
  | false => exact ⟨nofun, nofun⟩
  | true =>
    rw [if_pos rfl]
    cases Glob.captures rule.pattern name with
    | error fault => exact ⟨nofun, nofun⟩
    | ok found =>
      cases found with
      | none => exact ⟨nofun, nofun⟩
      | some captures => exact ⟨fun _ => ⟨rfl, captures, rfl⟩, fun _ => rfl⟩

/-- The template that a name gets its new one from can be read, if there is one. -/
def RenameRule.isReadable (rules : List RenameRule) (name : String) : Bool :=
  (first? rules name).all fun found => Template.isReadable found.1.replacement

namespace CodeSyntaxReport

variable {vars : List Variable} {namePrefix : String} {rules : List RenameRule} {v : Variable}

/-- The reference that rules give a variable. -/
def referenceTo (namePrefix : String) (rules : List RenameRule) (v : Variable) : String :=
  CssName.reference (CssName.format rules namePrefix v.name)

/-- The report with one more variable, where all templates can be read. -/
def record (namePrefix : String) (rules : List RenameRule) (r : CodeSyntaxReport) (v : Variable) :
    CodeSyntaxReport :=
  if (RenameRule.first? rules v.name).isSome then
    r.withName v.id (some (referenceTo namePrefix rules v))
  else r.withSkipped

/-- What is recorded of variables, where all templates can be read. -/
def recorded (vars : List Variable) (namePrefix : String) (rules : List RenameRule) :
    CodeSyntaxReport :=
  vars.foldl (record namePrefix rules) {}

/-- A variable is recorded if the template that it gets its name from can be read. -/
lemma addName_eq (namePrefix : String) (rules : List RenameRule) (r : CodeSyntaxReport)
    (v : Variable) :
    addName namePrefix rules r v =
      if RenameRule.isReadable rules v.name then .ok (record namePrefix rules r v)
      else .error (.number .tooManyDigits) := by
  unfold addName RenameRule.isReadable record
  cases RenameRule.first? rules v.name with
  | none => rfl
  | some found =>
    dsimp only
    rw [Option.all_some]
    unfold RenameRule.checkTemplate
    cases Template.isReadable found.1.replacement <;> rfl

/-- Where all templates can be read, all variables are recorded. -/
lemma ofRules_of_readable (h : ∀ v ∈ vars, RenameRule.isReadable rules v.name = true) :
    ofRules vars namePrefix rules = .ok (recorded vars namePrefix rules) := by
  have hfrom : ∀ r, vars.foldlM (addName namePrefix rules) r =
      .ok (vars.foldl (record namePrefix rules) r) := by
    induction vars with
    | nil => exact fun _ => rfl
    | cons v rest ih =>
      intro r
      rw [List.foldlM_cons, addName_eq, if_pos (h v List.mem_cons_self)]
      exact ih (fun w hw => h w (List.mem_cons_of_mem _ hw)) _
  exact hfrom {}

/-- A template that cannot be read leaves no report. -/
lemma ofRules_of_not_readable (h : ∃ v ∈ vars, RenameRule.isReadable rules v.name = false) :
    ofRules vars namePrefix rules = .error (.number .tooManyDigits) := by
  have hfrom : ∀ r, vars.foldlM (addName namePrefix rules) r =
      .error (.number .tooManyDigits) := by
    induction vars with
    | nil =>
      obtain ⟨v, hv, -⟩ := h
      exact (List.not_mem_nil hv).elim
    | cons v rest ih =>
      intro r
      rw [List.foldlM_cons, addName_eq]
      cases hreadable : RenameRule.isReadable rules v.name with
      | false => rfl
      | true =>
        obtain ⟨w, hw, hlong⟩ := h
        rcases List.mem_cons.mp hw with rfl | hrest
        · exact Bool.noConfusion (hreadable.symm.trans hlong)
        · exact ih ⟨w, hrest, hlong⟩ _
  exact hfrom {}

/-- What one more variable adds to a report. -/
lemma recorded_concat (vars : List Variable) (v : Variable) :
    recorded (vars ++ [v]) namePrefix rules =
      record namePrefix rules (recorded vars namePrefix rules) v :=
  List.foldl_concat ..

/-- Under an id a report finds the reference to the last variable with this id that a rule
describes. -/
lemma find?_recorded (vars : List Variable) (id : String) :
    OrderedMap.find? id (recorded vars namePrefix rules).codeSyntax =
      (vars.reverse.find? fun v => v.id == id && (RenameRule.first? rules v.name).isSome).map
        fun v => some (referenceTo namePrefix rules v) := by
  induction vars using List.reverseRecOn with
  | nil => rfl
  | append_singleton vars v ih =>
    rw [recorded_concat, List.reverse_concat, List.find?_cons, record]
    cases hdescribed : (RenameRule.first? rules v.name).isSome with
    | false =>
      rw [Bool.and_false]
      exact ih
    | true =>
      rw [Bool.and_true, if_pos rfl]
      show OrderedMap.find? id (OrderedMap.set v.id _ _) = _
      cases hid : v.id == id with
      | false =>
        rw [OrderedMap.find?_set_of_ne (fun heq => by simp [heq] at hid)]
        exact ih
      | true =>
        rw [beq_iff_eq.mp hid]
        exact OrderedMap.find?_set_self _ _ _

/-- Where ids are not used twice, a report finds under the id of a variable the reference to it. -/
lemma find?_recorded_of_mem (namePrefix : String) (rules : List RenameRule)
    (hids : (vars.map Variable.id).Nodup) (hv : v ∈ vars) :
    OrderedMap.find? v.id (recorded vars namePrefix rules).codeSyntax =
      if (RenameRule.first? rules v.name).isSome then some (some (referenceTo namePrefix rules v))
      else none := by
  rw [find?_recorded]
  cases hfound : vars.reverse.find? fun w => w.id == v.id &&
      (RenameRule.first? rules w.name).isSome with
  | none =>
    have hnone := List.find?_eq_none.mp hfound v (List.mem_reverse.mpr hv)
    rw [beq_self_eq_true, Bool.true_and] at hnone
    rw [if_neg hnone]
    rfl
  | some w =>
    have hw := List.mem_reverse.mp (List.mem_of_find?_eq_some hfound)
    obtain ⟨hid, hdescribed⟩ := Bool.and_eq_true_iff.mp (List.find?_some hfound :)
    rw [List.inj_on_of_nodup_map hids hw hv (beq_iff_eq.mp hid)] at hdescribed ⊢
    rw [if_pos hdescribed]
    rfl

/-- A report is about the ids and the names of variables only. -/
lemma recorded_map {t : Variable → Variable} (hid : ∀ v, (t v).id = v.id)
    (hname : ∀ v, (t v).name = v.name) (vars : List Variable) :
    recorded (vars.map t) namePrefix rules = recorded vars namePrefix rules := by
  induction vars using List.reverseRecOn with
  | nil => rfl
  | append_singleton vars v ih =>
    rw [List.map_append, List.map_singleton, recorded_concat, recorded_concat, ih]
    unfold record referenceTo
    rw [hid, hname]

/-- A report changes the names of variables in code only. -/
lemma applyTo_eq (r : CodeSyntaxReport) (v : Variable) :
    ∃ codeSyntax, r.applyTo v = { v with codeSyntax } := by
  unfold applyTo
  cases OrderedMap.find? v.id r.codeSyntax with
  | none => exact ⟨v.codeSyntax, rfl⟩
  | some name => exact ⟨_, rfl⟩

/-- The variable has got its name in web code, and is otherwise as it was. -/
structure Records (namePrefix : String) (rules : List RenameRule) (v v' : Variable) : Prop where
  others : ∃ codeSyntax, v' = { v with codeSyntax }
  web : OrderedMap.find? webPlatform v'.codeSyntax = some (referenceTo namePrefix rules v)
  platforms : ∀ platform, platform ≠ webPlatform →
    OrderedMap.find? platform v'.codeSyntax = OrderedMap.find? platform v.codeSyntax

/-- A variable that is described gets its name. -/
lemma records_applyTo (hids : (vars.map Variable.id).Nodup) (hv : v ∈ vars)
    (h : RenameRule.Describe rules v.name) :
    Records namePrefix rules v ((recorded vars namePrefix rules).applyTo v) := by
  have hfound := find?_recorded_of_mem namePrefix rules hids hv
  rw [if_pos (RenameRule.isSome_first?_iff.mpr h)] at hfound
  have happlied : ((recorded vars namePrefix rules).applyTo v).codeSyntax =
      v.codeSyntax.filter (·.1 != webPlatform) ++
        [(webPlatform, referenceTo namePrefix rules v)] := by
    unfold applyTo
    rw [hfound]
    rfl
  refine ⟨applyTo_eq _ v, ?_, fun platform hne => ?_⟩
  · rw [happlied, OrderedMap.find?_append, OrderedMap.find?_filter_ne, if_pos rfl]
    rfl
  · have hnone : OrderedMap.find? platform
        [(webPlatform, referenceTo namePrefix rules v)] = none :=
      OrderedMap.find?_eq_none fun hmem => hne (List.mem_singleton.mp hmem)
    rw [happlied, OrderedMap.find?_append, OrderedMap.find?_filter_ne, if_neg hne, hnone,
      Option.or_none]

/-- A variable that is not described stays as it is. -/
lemma applyTo_of_not_describe (hids : (vars.map Variable.id).Nodup) (hv : v ∈ vars)
    (h : ¬ RenameRule.Describe rules v.name) :
    (recorded vars namePrefix rules).applyTo v = v := by
  have hfound := find?_recorded_of_mem namePrefix rules hids hv
  rw [if_neg fun hsome => h (RenameRule.isSome_first?_iff.mp hsome)] at hfound
  unfold applyTo
  rw [hfound]

/-- A recorded name is the name of the variable in stylesheets, under all rules and prefixes, unless
it ends in white space. -/
lemma Records.cssName_eq_iff {v' : Variable} (h : Records namePrefix rules v v')
    (namePrefix' : String) (rules' : List RenameRule) :
    v'.cssName rules' namePrefix' = CssName.format rules namePrefix v.name ↔
      Text.endsInSpace (CssName.format rules namePrefix v.name).toList = false := by
  have hne : referenceTo namePrefix rules v ≠ "" := by
    intro heq
    have hchars := congrArg String.toList heq
    unfold referenceTo at hchars
    rw [WrittenPart.toList_reference] at hchars
    cases hchars
  unfold Variable.cssName
  rw [show OrderedMap.find? "WEB" v'.codeSyntax = _ from h.web]
  dsimp only
  rw [if_neg hne]
  exact CssName.ofCodeSyntax_reference_eq_iff _

/-- The names that rules give are written to code and read back.  Each variable that a rule
describes gets its reference, with the names on other platforms and everything else as it was, and
then has its new name under all rules and prefixes if the name does not end in white space.  Each
other variable stays as it is, all of them keep their places, and recording the names again comes to
the same report.  There is no report only if one of the variables is to get its name from a template
that cannot be read. -/
theorem names_read_back (hids : (vars.map Variable.id).Nodup) (namePrefix : String)
    (rules : List RenameRule) :
    ((∀ v ∈ vars, RenameRule.isReadable rules v.name = true) →
      ∃ r, ofRules vars namePrefix rules = .ok r ∧
        List.Forall₂ (fun v v' =>
            (RenameRule.Describe rules v.name → Records namePrefix rules v v' ∧
              ∀ namePrefix' rules', v'.cssName rules' namePrefix' =
                  CssName.format rules namePrefix v.name ↔
                Text.endsInSpace (CssName.format rules namePrefix v.name).toList = false) ∧
            (¬ RenameRule.Describe rules v.name → v' = v))
          vars (r.apply vars) ∧
        ofRules (r.apply vars) namePrefix rules = .ok r) ∧
    ((∃ v ∈ vars, RenameRule.isReadable rules v.name = false) →
      ofRules vars namePrefix rules = .error (.number .tooManyDigits)) := by
  refine ⟨fun hreadable => ⟨_, ofRules_of_readable hreadable, ?_, ?_⟩, ofRules_of_not_readable⟩
  · unfold apply
    rw [List.forall₂_map_right_iff, List.forall₂_same]
    intro v hv
    refine ⟨fun hdescribed => ?_, applyTo_of_not_describe hids hv⟩
    have hrecords : Records namePrefix rules v _ := records_applyTo hids hv hdescribed
    exact ⟨hrecords, hrecords.cssName_eq_iff⟩
  · have hid : ∀ v, ((recorded vars namePrefix rules).applyTo v).id = v.id := by
      intro v
      obtain ⟨codeSyntax, hv⟩ := applyTo_eq (recorded vars namePrefix rules) v
      rw [hv]
    have hname : ∀ v, ((recorded vars namePrefix rules).applyTo v).name = v.name := by
      intro v
      obtain ⟨codeSyntax, hv⟩ := applyTo_eq (recorded vars namePrefix rules) v
      rw [hv]
    have hagain : ∀ v' ∈ (recorded vars namePrefix rules).apply vars,
        RenameRule.isReadable rules v'.name = true := by
      intro v' hv'
      obtain ⟨v, hv, rfl⟩ := List.mem_map.mp hv'
      rw [hname]
      exact hreadable v hv
    rw [ofRules_of_readable hagain]
    exact congrArg Except.ok (recorded_map hid hname vars)

end CodeSyntaxReport

/-! ### A rule that describes one of two variables -/

/-- A color with names in code. -/
def brandColor : Variable :=
  { id := "v", name := "color/primary", type := .color, values := [], collectionId := "c"
    codeSyntax := [("WEB", "var(--old)"), ("ANDROID", "primary")] }

/-- A length. -/
def brandLength : Variable :=
  { id := "w", name := "spacing/sm", type := .number, values := [], collectionId := "c" }

/-- A rule for colors. -/
def brandRules : List RenameRule :=
  [{ id := "brand", pattern := "color/*", replacement := "brand-$1" }]

/-- The color gets its name, which is read back under all rules, and the length stays as it is. -/
theorem CodeSyntaxReport.names_read_back_brand :
    ([brandColor, brandLength].map Variable.id).Nodup ∧
      ∃ r v, ofRules [brandColor, brandLength] "ds" brandRules = .ok r ∧
        r.apply [brandColor, brandLength] = [v, brandLength] ∧
          ∀ namePrefix rules, v.cssName rules namePrefix = "ds-brand-primary" := by
  have hids : ([brandColor, brandLength].map Variable.id).Nodup := by decide
  have hdescribed : RenameRule.Describe brandRules "color/primary" :=
    ⟨_, List.mem_singleton_self _, rfl, ["primary"], rfl⟩
  have hnot : ¬ RenameRule.Describe brandRules "spacing/sm" := by
    rw [← RenameRule.isSome_first?_iff]
    decide +kernel
  have hformat : CssName.format brandRules "ds" "color/primary" = "ds-brand-primary" := by
    decide +kernel
  have hreadable : ∀ v ∈ [brandColor, brandLength],
      RenameRule.isReadable brandRules v.name = true := by
    intro v hv
    rcases List.mem_pair.mp hv with rfl | rfl <;> decide +kernel
  obtain ⟨r, hreport, hnames, -⟩ := (names_read_back hids "ds" brandRules).1 hreadable
  obtain ⟨hcolor, hrest⟩ := List.forall₂_cons.mp hnames
  obtain ⟨hlength, -⟩ := List.forall₂_cons.mp hrest
  refine ⟨hids, r, _, hreport,
    congrArg (List.cons _) (congrArg (· :: []) (hlength.2 hnot)), fun namePrefix rules => ?_⟩
  have hread := ((hcolor.1 hdescribed).2 namePrefix rules).mpr
  have hname : CssName.format brandRules "ds" brandColor.name = "ds-brand-primary" := hformat
  rw [hname] at hread
  exact hread rfl

end DesignTokens

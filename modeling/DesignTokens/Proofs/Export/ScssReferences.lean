import DesignTokens.Proofs.Export.FlatValues
import DesignTokens.Proofs.Export.References
import DesignTokens.Proofs.Name.Characters

/-!
# References of SCSS sheets

An SCSS sheet declares a variable under the name of its token as it is, but a reference to the token
is first written for CSS and then read again, character by character.  Reading takes letters and
digits of ASCII, hyphens and underscores, and leaves the rest of the name out.  So a reference is to
the variable of its target exactly if nothing but closing parentheses follows such characters in the
name (`ScssValue.ofCss_reference_eq_iff`, `Document.scss_references`).
-/

namespace DesignTokens

/-! ## Reading of references -/

namespace ScssValue

/-- A value is kept as it is or gets shorter. -/
lemma withVariables_eq_or_length_lt (cs : List Char) :
    withVariables cs = cs ∨ (withVariables cs).length < cs.length := by
  fun_induction withVariables cs with
  | case1 => exact Or.inl rfl
  | case2 c cs hopening tail ih =>
    -- A reference loses its opening and gains the sign of a variable only.
    right
    have hrest : (withVariables (afterClosing 1 (tail.dropWhile isNameChar))).length ≤
        (tail.dropWhile isNameChar).length :=
      (ih.elim (fun h => (congrArg List.length h).le) le_of_lt).trans (length_afterClosing_le 1 _)
    have hsplit := congrArg List.length (tail.takeWhile_append_dropWhile (p := isNameChar))
    have hlong := (List.isPrefixOf_iff_prefix.mp hopening).length_le
    have htail : tail.length = (c :: cs).length - 6 := List.length_drop
    rw [List.length_append] at hsplit
    rw [List.length_append, List.length_cons]
    change 6 ≤ (c :: cs).length at hlong
    omega
  | case3 c cs hopening ih =>
    exact ih.imp (congrArg (c :: ·)) Nat.succ_lt_succ

/-- A value does not get longer. -/
lemma length_withVariables_le (cs : List Char) : (withVariables cs).length ≤ cs.length :=
  (withVariables_eq_or_length_lt cs).elim (fun h => (congrArg List.length h).le) le_of_lt

/-- A value in which no reference begins is kept as it is. -/
lemma withVariables_of_no_opening {cs : List Char} (h : ¬ opening <:+: cs) :
    withVariables cs = cs := by
  induction cs with
  | nil => unfold withVariables; rfl
  | cons c cs ih =>
    have hnone : ¬ opening.isPrefixOf (c :: cs) = true := fun hopening =>
      h (List.isPrefixOf_iff_prefix.mp hopening).isInfix
    unfold withVariables
    rw [if_neg hnone, ih (mt List.infix_cons h)]

/-- A value without an opening parenthesis is kept as it is. -/
lemma withVariables_of_not_mem {cs : List Char} (h : '(' ∉ cs) : withVariables cs = cs :=
  withVariables_of_no_opening fun hopening => h (hopening.subset (by decide))

/-- A text without an opening parenthesis is kept as it is. -/
lemma ofCss_of_not_mem {value : String} (h : '(' ∉ value.toList) : ofCss value = value := by
  unfold ofCss
  rw [withVariables_of_not_mem h, String.ofList_toList]

/-- A parenthesis that is open is closed by the next one. -/
lemma afterClosing_closing (cs : List Char) : afterClosing 1 (')' :: cs) = cs := by
  rw [afterClosing, if_neg (by decide), if_pos rfl]
  cases cs <;> rfl

/-- A parenthesis that is open stays so at any other character. -/
lemma exists_afterClosing_of_ne {c : Char} (hc : c ≠ ')') (cs : List Char) :
    ∃ depth, afterClosing 1 (c :: cs) = afterClosing (depth + 1) cs := by
  rw [afterClosing, if_neg hc]
  split_ifs
  · exact ⟨1, rfl⟩
  · exact ⟨0, rfl⟩

/-- A character is dropped at least where a parenthesis is open. -/
lemma length_afterClosing_lt (depth : ℕ) {cs : List Char} (h : cs ≠ []) :
    (afterClosing (depth + 1) cs).length < cs.length := by
  obtain ⟨c, rest, rfl⟩ := List.exists_cons_of_ne_nil h
  unfold afterClosing
  split_ifs <;> exact Nat.lt_succ_of_le (length_afterClosing_le _ _)

/-- The characters of a name end where its reference is closed. -/
lemma takeWhile_closing (name : List Char) :
    (name ++ [')']).takeWhile isNameChar = name.takeWhile isNameChar := by
  induction name with
  | nil => rfl
  | cons c name ih => rw [List.cons_append, List.takeWhile_cons, List.takeWhile_cons, ih]

/-- What follows the characters of a name is closed, too. -/
lemma dropWhile_closing (name : List Char) :
    (name ++ [')']).dropWhile isNameChar = name.dropWhile isNameChar ++ [')'] := by
  induction name with
  | nil => rfl
  | cons c name ih =>
    rw [List.cons_append, List.dropWhile_cons, List.dropWhile_cons, ih]
    split_ifs <;> rfl

/-- Where a reference begins, the characters of its name become a variable, and what stands up to the
parenthesis that closes it is dropped. -/
lemma withVariables_opening (tail : List Char) :
    withVariables (opening ++ tail) = '$' :: tail.takeWhile isNameChar ++
      withVariables (afterClosing 1 (tail.dropWhile isNameChar)) := by
  have hopening : opening.isPrefixOf (opening ++ tail) = true :=
    List.isPrefixOf_iff_prefix.mpr (List.prefix_append _ _)
  exact (withVariables.eq_2 _ _).trans (if_pos hopening)

/-- A reference becomes one to the start of the name, followed by what is left of the rest of the
name. -/
lemma withVariables_reference (name : List Char) :
    withVariables (opening ++ (name ++ [')'])) = '$' :: name.takeWhile isNameChar ++
      withVariables (afterClosing 1 (name.dropWhile isNameChar ++ [')'])) := by
  rw [withVariables_opening, takeWhile_closing, dropWhile_closing]

/-- A text that a character can move through from one end to the other repeats the character. -/
lemma append_singleton_eq_cons_iff {c : Char} {cs : List Char} :
    cs ++ [c] = c :: cs ↔ ∀ d ∈ cs, d = c := by
  induction cs with
  | nil => exact iff_of_true rfl (List.forall_mem_nil _)
  | cons d cs ih =>
    rw [List.forall_mem_cons, List.cons_append, List.cons.injEq]
    refine and_congr_right ?_
    rintro rfl
    exact ih

/-- What is left of the rest of a name is this rest itself exactly if it consists of closing
parentheses. -/
lemma withVariables_afterClosing_eq_iff {rest : List Char} :
    withVariables (afterClosing 1 (rest ++ [')'])) = rest ↔ ∀ c ∈ rest, c = ')' := by
  cases rest with
  | nil => exact iff_of_true (withVariables_of_not_mem List.not_mem_nil) (List.forall_mem_nil _)
  | cons c rest =>
    by_cases hc : c = ')'
    · subst hc
      rw [List.forall_mem_cons, ← append_singleton_eq_cons_iff, List.cons_append,
        afterClosing_closing]
      constructor
      · intro h
        rcases withVariables_eq_or_length_lt (rest ++ [')']) with heq | hlt
        · exact ⟨rfl, heq.symm.trans h⟩
        · rw [h, List.length_append] at hlt
          exact absurd hlt (lt_irrefl _)
      · rintro ⟨_, hsame⟩
        refine (withVariables_of_not_mem fun hmem => ?_).trans hsame
        rcases List.mem_append.mp hmem with hmem | hmem
        · exact absurd (append_singleton_eq_cons_iff.mp hsame _ hmem) (by decide)
        · exact absurd (List.mem_singleton.mp hmem) (by decide)
    · refine iff_of_false (fun h => ?_) fun h => hc (h c List.mem_cons_self)
      -- The character is dropped and so is the closing parenthesis at least.
      obtain ⟨depth, hdepth⟩ := exists_afterClosing_of_ne hc (rest ++ [')'])
      have hlt := length_afterClosing_lt depth (List.append_ne_nil_of_right_ne_nil rest
        (List.cons_ne_nil ')' []))
      rw [List.cons_append, hdepth] at h
      have hle := length_withVariables_le (afterClosing (depth + 1) (rest ++ [')']))
      rw [h] at hle
      rw [List.length_append] at hlt
      exact absurd (hle.trans_lt hlt) (lt_irrefl _)

/-- A name that a reference to it is read to the end of: nothing but closing parentheses follows the
characters that may stand in the name of a variable. -/
def IsReadWhole (name : String) : Prop :=
  ∀ c ∈ name.toList.dropWhile isNameChar, c = ')'

/-- What a reference is changed into, by the characters of its name. -/
lemma toList_ofCss_reference (name : String) :
    (ofCss (CssName.reference name)).toList = '$' :: name.toList.takeWhile isNameChar ++
      withVariables (afterClosing 1 (name.toList.dropWhile isNameChar ++ [')'])) := by
  unfold ofCss
  rw [String.toList_ofList, WrittenPart.toList_reference]
  exact withVariables_reference name.toList

/-- A reference is changed into one to the variable of the same name exactly if it is read to the
end of the name. -/
theorem ofCss_reference_eq_iff (name : String) :
    ofCss (CssName.reference name) = "$" ++ name ↔ IsReadWhole name := by
  have hname : ("$" ++ name).toList =
      '$' :: name.toList.takeWhile isNameChar ++ name.toList.dropWhile isNameChar := by
    rw [String.toList_append, List.cons_append, List.takeWhile_append_dropWhile]
    rfl
  unfold IsReadWhole
  rw [← String.toList_inj, toList_ofCss_reference, hname, List.append_cancel_left_eq,
    withVariables_afterClosing_eq_iff]

/-- Without parentheses in the rest of a name, nothing is left of it. -/
lemma afterClosing_append_of_not_mem {rest : List Char} (h : ∀ c ∈ rest, c ≠ '(' ∧ c ≠ ')') :
    afterClosing 1 (rest ++ [')']) = [] := by
  induction rest with
  | nil => exact afterClosing_closing []
  | cons c rest ih =>
    obtain ⟨⟨hopening, hclosing⟩, hrest⟩ := List.forall_mem_cons.mp h
    rw [List.cons_append, afterClosing, if_neg hopening, if_neg hclosing]
    exact ih hrest

/-- A reference to a name without parentheses is cut at the first character that may not stand in
the name of a variable. -/
theorem ofCss_reference_of_not_mem {name : String} (h : ∀ c ∈ name.toList, c ≠ '(' ∧ c ≠ ')') :
    ofCss (CssName.reference name) =
      "$" ++ String.ofList (name.toList.takeWhile isNameChar) := by
  have hrest : ∀ c ∈ name.toList.dropWhile isNameChar, c ≠ '(' ∧ c ≠ ')' :=
    fun c hc => h c ((List.dropWhile_sublist isNameChar).subset hc)
  rw [← String.toList_inj, toList_ofCss_reference, afterClosing_append_of_not_mem hrest,
    withVariables_of_not_mem List.not_mem_nil, List.append_nil, String.toList_append,
    String.toList_ofList, String.toList_ofList]
  rfl

end ScssValue

/-- Names that are made without rules are read to the end if the prefix is. -/
lemma Settings.isReadWhole_cssName {s : Settings} (hrules : s.rules = [])
    (hstart : ∀ c ∈ s.namePrefix.toList, ScssValue.isNameChar c = true) (name : String) :
    ScssValue.IsReadWhole (s.cssName name) := by
  have hall : ∀ c ∈ (s.cssName name).toList, ScssValue.isNameChar c = true := by
    intro c hc
    rcases s.mem_cssName_of_no_rules hrules hc with hc | rfl | hc
    · exact hstart c hc
    · rfl
    · unfold ScssValue.isNameChar
      rw [show c.isAlphanum = true from hc]
      rfl
  unfold ScssValue.IsReadWhole
  rw [List.dropWhile_eq_nil_iff.mpr hall]
  exact List.forall_mem_nil _

/-- The mixin of a style with a reference shows the reference, apart from the layout of a grid. -/
lemma Renderer.exists_mixinItem_of_reference {r : Renderer} {t : Token} {ref : String}
    (href : t.flatValue? = some (.reference ref)) (kind : StyleKind) (path : List String) :
    ∃ parameters body, r.mixinItem kind path t = .ok (.mixin (r.className path) parameters body) ∧
      ∀ declared ∈ body, declared = ⟨"display", "grid"⟩ ∨
        declared.value = ScssValue.ofCss (r.referenceText ref) := by
  unfold mixinItem classProperties
  rw [href]
  cases kind with
  | paint =>
    refine ⟨_, _, rfl, fun declared hdeclared => Or.inr ?_⟩
    rw [List.mem_singleton.mp hdeclared]
    rfl
  | text => exact ⟨_, _, rfl, List.forall_mem_nil _⟩
  | effect =>
    refine ⟨_, _, rfl, fun declared hdeclared => Or.inr ?_⟩
    change declared ∈ (declarationsOf (if t.type = .shadow then
      [("box-shadow", r.referenceText ref)] else [])).map Declaration.toScss at hdeclared
    split_ifs at hdeclared
    · rw [List.mem_singleton.mp hdeclared]
      rfl
    · exact absurd hdeclared List.not_mem_nil
  | grid =>
    refine ⟨_, _, rfl, fun declared hdeclared => ?_⟩
    rcases List.mem_cons.mp hdeclared with rfl | hdeclared
    · exact Or.inl (congrArg (Declaration.mk "display") (ScssValue.ofCss_of_not_mem (by decide)))
    · rw [List.mem_singleton.mp hdeclared]
      exact Or.inr rfl

/-! ## Variables of a sheet -/

namespace Document

/-- A token that an SCSS sheet declares as a variable, with the path that names it: a token of a
selected collection, or a style if styles are written as variables. -/
def IsVariable (d : Document) (s : Settings) (path : List String) (t : Token) : Prop :=
  (d.HasTokenAt path t ∧ (s.selection = [] ∨ path.headD "" ∈ s.selection)) ∨
    (s.styleOutput = .vars ∧
      ∃ kind rest, (kind, rest, t) ∈ d.styleTokens s ∧ path = stylePath kind rest)

/-- An SCSS sheet declares a token under the name of its path, with the one text of the token. -/
def SetsVariable (d : Document) (s : Settings) (items : List ScssItem) (path : List String)
    (t : Token) (text : String) : Prop :=
  .declaration (.dollar (s.cssName ("/".intercalate path)) text) ∈ items ∧
    ∃ value, Renderer.valueOf { document := d, settings := s, language := .scss } t = .ok value ∧
      ScssValue.ofCss value.flatText = text

variable {d : Document} {s : Settings} {items : List ScssItem} {path : List String} {t : Token}
  {text : String}

/-- An SCSS sheet has the variables of the collections and then what is written for the styles. -/
lemma exists_of_scssItems (h : d.scssItems s = .ok items) :
    ∃ collections rest,
      Renderer.collections { document := d, settings := s, language := .scss } = .ok collections ∧
      items = (scssSections s (collections.map fun e => (e.1, e.2.map RenderedToken.scssItem))) ++
        rest ∧
      (d.styleTokens s ≠ [] → ∃ styles,
        scssStyleItems { document := d, settings := s, language := .scss } = .ok styles ∧
          rest = .blank :: styles) := by
  obtain ⟨collections, hcollections, h⟩ := bind_eq_ok.mp h
  dsimp only at h
  cases hstyles : (d.styleTokens s).isEmpty with
  | true =>
    rw [hstyles] at h
    cases h
    exact ⟨collections, [], hcollections, (List.append_nil _).symm,
      fun hne => absurd (List.isEmpty_iff.mp hstyles) hne⟩
  | false =>
    rw [hstyles] at h
    obtain ⟨styles, hstyles, h⟩ := bind_eq_ok.mp h
    cases h
    exact ⟨collections, _, hcollections, List.append_assoc _ _ _, fun _ => ⟨styles, hstyles, rfl⟩⟩

/-- The sheet declares each token that is a variable. -/
theorem exists_setsVariable (hitems : d.scssItems s = .ok items) (h : d.IsVariable s path t) :
    ∃ text, d.SetsVariable s items path t text := by
  obtain ⟨collections, rest, hcollections, rfl, hstyles⟩ := exists_of_scssItems hitems
  rcases h with ⟨⟨name, tree, below, rfl, htree, hwalk⟩, hselected⟩ | ⟨houtput, kind, below, ht, rfl⟩
  · obtain ⟨value, tokens, hvalue, htokens, htoken⟩ := Renderer.exists_of_collections hcollections
      (mem_selected_iff.mpr ⟨htree, hselected⟩) hwalk
    refine ⟨_, List.mem_append_left _ ?_, value, hvalue, rfl⟩
    unfold scssSections
    refine mem_intercalate (List.mem_map_of_mem (List.mem_map_of_mem htokens)) ?_
    exact List.mem_append_right _ (List.mem_map_of_mem htoken)
  · obtain ⟨styles, hstyleItems, rfl⟩ := hstyles (List.ne_nil_of_mem ht)
    unfold scssStyleItems at hstyleItems
    dsimp only at hstyleItems
    rw [houtput] at hstyleItems
    obtain ⟨rendered, hrendered, hstyleItems⟩ := bind_eq_ok.mp hstyleItems
    cases hstyleItems
    obtain ⟨token, htoken, hrendering⟩ := exists_of_mapM hrendered ht
    obtain ⟨value, hvalue, heq⟩ := bind_eq_ok.mp hrendering
    cases heq
    refine ⟨_, List.mem_append_right _ (List.mem_cons_of_mem _ (List.mem_cons_of_mem _ ?_)),
      value, hvalue, rfl⟩
    exact List.mem_map_of_mem htoken

/-! ## References of a sheet -/

/-- A text is what an SCSS sheet shows for a reference to a token: the sheet declares a variable for
the token, and the text is the reference to this variable exactly if the name of the variable is read
to the end. -/
def RefersToVariable (d : Document) (s : Settings) (items : List ScssItem) (path : List String)
    (text : String) : Prop :=
  (∃ t value, d.HasTokenAt path t ∧ d.SetsVariable s items path t value) ∧
    text = ScssValue.ofCss (CssName.reference (s.cssName ("/".intercalate path))) ∧
    (text = "$" ++ s.cssName ("/".intercalate path) ↔
      ScssValue.IsReadWhole (s.cssName ("/".intercalate path)))

section references

variable {ref : String} {found : List String} (hitems : d.scssItems s = .ok items)
  (hfound : d.resolveReference ref = some found)
  (hselected : s.selection = [] ∨ found.headD "" ∈ s.selection)

include hitems hfound hselected

/-- A reference that is resolved to a token of a selected collection is shown as one to the variable
of the token. -/
lemma refersToVariable_referenceText (language : CalcSyntax) :
    d.RefersToVariable s items found
      (ScssValue.ofCss (Renderer.referenceText ⟨d, s, language⟩ ref)) := by
  have htext : Renderer.referenceText ⟨d, s, language⟩ ref =
      CssName.reference (s.cssName ("/".intercalate found)) := by
    unfold Renderer.referenceText Renderer.referencePath
    rw [hfound]
    rfl
  rw [htext]
  obtain ⟨target, htarget, _⟩ := exists_of_resolveReference hfound
  obtain ⟨value, hvalue⟩ := exists_setsVariable hitems (Or.inl ⟨htarget, hselected⟩)
  exact ⟨⟨target, value, htarget, hvalue⟩, rfl, ScssValue.ofCss_reference_eq_iff _⟩

/-- A variable of a token with a reference refers to the variable of the target. -/
lemma SetsVariable.refersToVariable (h : d.SetsVariable s items path t text)
    (href : t.flatValue? = some (.reference ref)) : d.RefersToVariable s items found text := by
  obtain ⟨_, value, hvalue, rfl⟩ := h
  rw [← Except.ok.inj (Renderer.flatText_of_valueOf hvalue href)]
  exact refersToVariable_referenceText hitems hfound hselected .scss

/-- A style with a reference that is written as a mixin refers to the variable of the target. -/
lemma exists_mixin_of_reference (houtput : s.styleOutput = .classes) {kind : StyleKind}
    (ht : (kind, path, t) ∈ d.styleTokens s) (href : t.flatValue? = some (.reference ref)) :
    ∃ parameters body, .mixin (styleClassName s ("/".intercalate path)) parameters body ∈ items ∧
      ∀ declared ∈ body, declared = ⟨"display", "grid"⟩ ∨
        d.RefersToVariable s items found declared.value := by
  obtain ⟨_, rest, _, hall, hstyles⟩ := exists_of_scssItems hitems
  obtain ⟨styles, hstyleItems, rfl⟩ := hstyles (List.ne_nil_of_mem ht)
  unfold scssStyleItems at hstyleItems
  dsimp only at hstyleItems
  rw [houtput] at hstyleItems
  obtain ⟨mixins, hmixins, hstyleItems⟩ := bind_eq_ok.mp hstyleItems
  cases hstyleItems
  obtain ⟨made, hmade, hmixins⟩ := bind_eq_ok.mp hmixins
  cases hmixins
  obtain ⟨item, hitem, hmixin⟩ := exists_of_mapM hmade ht
  obtain ⟨parameters, body, hbody, hvalues⟩ := Renderer.exists_mixinItem_of_reference href kind path
  cases hmixin.symm.trans hbody
  refine ⟨parameters, body, ?_, fun declared hdeclared => ?_⟩
  · rw [hall]
    refine List.mem_append_right _ (List.mem_cons_of_mem _ (List.mem_cons_of_mem _ ?_))
    exact List.mem_flatMap.mpr ⟨_, hitem, List.mem_cons_self⟩
  · refine (hvalues declared hdeclared).imp_right fun hvalue => ?_
    rw [hvalue]
    exact refersToVariable_referenceText hitems hfound hselected .scss

end references

/-- An SCSS sheet declares each token of the selected collections, and each style that is written as
a variable.  The value of a reference that is resolved to a token of a selected collection is one to
the variable of the token exactly if nothing but closing parentheses follows the letters and digits
of ASCII, hyphens and underscores at the start of its name; this holds for the variables and for
mixins of styles.  Names that are made without rules hold such characters only, if the prefix does. -/
theorem scss_references (hitems : d.scssItems s = .ok items) :
    (∀ path t, d.IsVariable s path t → ∃ text, d.SetsVariable s items path t text) ∧
    (∀ ref found, d.resolveReference ref = some found →
      (s.selection = [] ∨ found.headD "" ∈ s.selection) →
      (∀ path t text, d.SetsVariable s items path t text →
        t.flatValue? = some (.reference ref) → d.RefersToVariable s items found text) ∧
      (s.styleOutput = .classes → ∀ kind path t, (kind, path, t) ∈ d.styleTokens s →
        t.flatValue? = some (.reference ref) → ∃ parameters body,
          .mixin (styleClassName s ("/".intercalate path)) parameters body ∈ items ∧
          ∀ declared ∈ body, declared = ⟨"display", "grid"⟩ ∨
            d.RefersToVariable s items found declared.value)) ∧
    (s.rules = [] → (∀ c ∈ s.namePrefix.toList, ScssValue.isNameChar c = true) →
      ∀ path, ScssValue.IsReadWhole (s.cssName ("/".intercalate path))) :=
  ⟨fun _ _ => exists_setsVariable hitems,
    fun _ _ hfound hselected => ⟨fun _ _ _ hdeclared href =>
        hdeclared.refersToVariable hitems hfound hselected href,
      fun houtput _ _ _ ht href =>
        exists_mixin_of_reference hitems hfound hselected houtput ht href⟩,
    fun hrules hstart path => s.isReadWhole_cssName hrules hstart ("/".intercalate path)⟩

end Document

/-! ### A name that is not read to the end -/

/-- A color with an alias in front of it. -/
def umlautTree : TokenTree :=
  [("alias", .token { type := .color, value := .flat (.reference "Layout.Größe") }),
    ("Größe", .token { type := .color, value := .flat (.literal (.text "transparent")) })]

/-- The document of the color. -/
def umlautDocument : Document := { collections := [("Layout", umlautTree)] }

/-- Settings with a rule that keeps all letters of a name. -/
def umlautSettings : Settings := { rules := [{ pattern := "**", replacement := "$\x7b1:kebab\x7d" }] }

/-- The SCSS sheet of the document, in which the alias is to no variable. -/
def umlautSheet : List ScssItem :=
  [.comment "Collection: Layout", .declaration (.dollar "layout-alias" "$layout-gr"),
    .declaration (.dollar "layout-größe" "transparent")]

/-- The rendered color. -/
def umlautColor : RenderedToken := ⟨"layout-größe", .single "transparent"⟩

/-- The rendered alias. -/
def umlautAlias : RenderedToken := ⟨"layout-alias", .single (CssName.reference "layout-größe")⟩

/-- The renderer of the document. -/
def umlautRenderer : Renderer :=
  { document := umlautDocument, settings := umlautSettings, language := .scss }

/-- The alias is resolved to the color. -/
lemma resolveReference_umlaut :
    umlautDocument.resolveReference "Layout.Größe" = some ["Layout", "Größe"] := by
  decide +kernel

/-- The name of the color keeps all letters. -/
lemma cssName_umlaut : umlautRenderer.cssName ["Layout", "Größe"] = "layout-größe" := by
  decide +kernel

/-- The tokens are rendered in order. -/
lemma tokens_umlaut : umlautRenderer.tokens "Layout" umlautTree = .ok [umlautAlias, umlautColor] := by
  have haliasName : umlautRenderer.cssName ["Layout", "alias"] = "layout-alias" := by decide +kernel
  have hreference : umlautRenderer.referenceText "Layout.Größe" =
      CssName.reference "layout-größe" := by
    unfold Renderer.referenceText Renderer.referencePath
    rw [show umlautRenderer.document.resolveReference "Layout.Größe" = _ from
      resolveReference_umlaut]
    exact congrArg CssName.reference cssName_umlaut
  have halias : umlautRenderer.token ["Layout", "alias"]
      { type := .color, value := .flat (.reference "Layout.Größe") } = .ok umlautAlias :=
    congrArg Except.ok (congrArg₂ RenderedToken.mk haliasName
      (congrArg RenderedValue.single hreference))
  have hcolor : umlautRenderer.token ["Layout", "Größe"]
      { type := .color, value := .flat (.literal (.text "transparent")) } = .ok umlautColor :=
    congrArg (fun name => Except.ok (RenderedToken.mk name (.single "transparent"))) cssName_umlaut
  have haliasKey : NaturalOrder.key umlautAlias.name =
      .ok [.text "layout-alias", .whole "layout-alias"] := by
    decide +kernel
  have hcolorKey : NaturalOrder.key umlautColor.name =
      .ok [.text "layout-grösse", .whole "layout-größe"] := by
    decide +kernel
  have hkeyed : [umlautAlias, umlautColor].mapM
      (fun t => do return (← NaturalOrder.key t.name, t)) =
        .ok [([.text "layout-alias", .whole "layout-alias"], umlautAlias),
          ([.text "layout-grösse", .whole "layout-größe"], umlautColor)] := by
    rw [List.mapM_cons, haliasKey, List.mapM_cons, hcolorKey]
    rfl
  have hwalk : umlautTree.walk ["Layout"] = [
      (["Layout", "alias"], { type := .color, value := .flat (.reference "Layout.Größe") }),
      (["Layout", "Größe"], { type := .color, value := .flat (.literal (.text "transparent")) })] :=
    rfl
  unfold Renderer.tokens
  rw [hwalk, List.mapM_cons, bind_of_ok halias, List.mapM_cons, bind_of_ok hcolor]
  exact NaturalOrder.sortBy_of_pairwise hkeyed (List.pairwise_pair.mpr (by decide))

/-- The sheet is the one of the document. -/
lemma scssItems_umlaut : umlautDocument.scssItems umlautSettings = .ok umlautSheet := by
  have hcollections : umlautRenderer.collections = .ok [("Layout", [umlautAlias, umlautColor])] :=
    mapM_singleton (bind_of_ok tokens_umlaut _)
  have hcut : "$" ++ String.ofList ("layout-größe".toList.takeWhile ScssValue.isNameChar) =
      "$layout-gr" := by
    decide +kernel
  have hplain : "layout-größe".toList.all (fun c => c ≠ '(' ∧ c ≠ ')') = true := by
    decide +kernel
  have hvalue : ScssValue.ofCss (CssName.reference "layout-größe") = "$layout-gr" :=
    (ScssValue.ofCss_reference_of_not_mem fun c hc =>
      of_decide_eq_true (List.all_eq_true.mp hplain c hc)).trans hcut
  have halias : umlautAlias.scssItem = .declaration (.dollar "layout-alias" "$layout-gr") :=
    congrArg (fun value => ScssItem.declaration (.dollar "layout-alias" value)) hvalue
  have hcolor : umlautColor.scssItem = .declaration (.dollar "layout-größe" "transparent") :=
    congrArg (fun value => ScssItem.declaration (.dollar "layout-größe" value))
      (ScssValue.ofCss_of_not_mem (by decide))
  refine (bind_of_ok hcollections _).trans (congrArg Except.ok ?_)
  show [.comment "Collection: Layout", umlautAlias.scssItem, umlautColor.scssItem] = umlautSheet
  rw [halias, hcolor]
  rfl

/-- The alias is resolved to the color, but its value is no reference to the variable of the color,
which is declared under the whole name. -/
theorem Document.scss_references_umlaut :
    umlautDocument.scssItems umlautSettings = .ok umlautSheet ∧
      umlautDocument.resolveReference "Layout.Größe" = some ["Layout", "Größe"] ∧
      umlautSettings.cssName "Layout/Größe" = "layout-größe" ∧
      (∃ t value, umlautDocument.HasTokenAt ["Layout", "Größe"] t ∧
        umlautDocument.SetsVariable umlautSettings umlautSheet ["Layout", "Größe"] t value) ∧
      (∃ t text, t.flatValue? = some (.reference "Layout.Größe") ∧
        umlautDocument.SetsVariable umlautSettings umlautSheet ["Layout", "alias"] t text ∧
        text ≠ "$" ++ "layout-größe") ∧
      ¬ DeclaresDollar umlautSheet "layout-gr" := by
  obtain ⟨hvariables, hreferences, _⟩ := Document.scss_references scssItems_umlaut
  obtain ⟨hdeclared, _⟩ := hreferences _ _ resolveReference_umlaut (Or.inl rfl)
  have hname : umlautSettings.cssName ("/".intercalate ["Layout", "Größe"]) = "layout-größe" :=
    cssName_umlaut
  have halias : umlautDocument.HasTokenAt ["Layout", "alias"]
      { type := .color, value := .flat (.reference "Layout.Größe") } :=
    ⟨"Layout", umlautTree, ["alias"], rfl, List.mem_singleton_self _, List.mem_cons_self⟩
  obtain ⟨text, htext⟩ := hvariables _ _ (Or.inl ⟨halias, Or.inl rfl⟩)
  obtain ⟨hcolor, _, hwhole⟩ := hdeclared _ _ _ htext rfl
  rw [hname] at hwhole
  refine ⟨scssItems_umlaut, resolveReference_umlaut, hname, hcolor, ⟨_, text, rfl, htext, ?_⟩, ?_⟩
  · have hrest : 'ö' ∈ "layout-größe".toList.dropWhile ScssValue.isNameChar := by
      decide +kernel
    rw [ne_eq, hwhole]
    exact fun h => absurd (h 'ö' hrest) (by decide)
  · rintro ⟨value, hvalue⟩
    rcases List.mem_cons.mp hvalue with hcomment | hvalue
    · cases hcomment
    · rcases List.mem_cons.mp hvalue with heq | hvalue
      · exact absurd (Declaration.dollar_inj (ScssItem.declaration.inj heq)) (by decide)
      · have heq := ScssItem.declaration.inj (List.mem_singleton.mp hvalue)
        exact absurd (Declaration.dollar_inj heq) (by decide)

end DesignTokens

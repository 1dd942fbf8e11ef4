import DesignTokens.Proofs.Token.Contents
import DesignTokens.Proofs.Token.Reserved
import DesignTokens.Proofs.Token.RoundTrip

/-!
# Documents of libraries read back

The tokens of a library have values of their own types, their trees have no groups without tokens,
and that is all a document needs to be read back.  So a document of a library is read back as the
same document if and only if none of its tokens uses a reserved name.
-/

namespace DesignTokens

/-! ## Tokens of variables -/

/-- A single value that has no fields. -/
def FlatValue.IsPlain (v : FlatValue) : Prop :=
  ∀ l, v = .literal l → l.IsPlain

/-- A literal without fields is a value without fields. -/
lemma FlatValue.isPlain_literal {l : Literal} (h : l.IsPlain) : (FlatValue.literal l).IsPlain :=
  fun _ heq => FlatValue.literal.inj heq ▸ h

/-- A plain literal belongs to every type. -/
lemma Literal.IsPlain.fits {l : Literal} (h : l.IsPlain) (type : TokenType) : l.Fits type := by
  cases l with
  | bool _ => exact trivial
  | number _ => exact trivial
  | text _ => exact trivial
  | typography _ => exact h.elim
  | shadow _ => exact h.elim
  | grid _ => exact h.elim

/-- A description that is kept is not empty. -/
lemma given_ne_empty (description : String) :
    (if description = "" then none else some description) ≠ some "" := by
  split_ifs with hempty
  · exact nofun
  · exact fun heq => hempty (Option.some.inj heq)

namespace Scope

variable {s : Scope} {c : Collection} {v : Variable} {f : Formatting}

/-- The literal of a value has no fields. -/
lemma isPlain_literalOf {type : VariableType} {value : VariableValue} {l : Literal}
    (h : literalOf type value = .ok l) : l.IsPlain := by
  cases value with
  | color c =>
    obtain ⟨text, _, rfl⟩ := map_eq_ok.mp h
    exact trivial
  | number x =>
    have hl := Except.ok.inj h
    rw [← hl]
    split_ifs <;> exact trivial
  | text t =>
    cases h
    exact trivial
  | bool b =>
    have hl := Except.ok.inj h
    rw [← hl]
    cases type <;> exact trivial
  | aliasOf id =>
    cases h
    exact trivial

/-- The result of a calculation has no fields. -/
lemma isPlain_calculatedLiteral? {type : VariableType} {modeId : String} {l : Literal}
    (h : s.calculatedLiteral? type f modeId = .ok (some l)) : l.IsPlain := by
  unfold calculatedLiteral? at h
  split_ifs at h
  · obtain ⟨q, _, h⟩ := bind_eq_ok.mp h
    cases q with
    | none => cases h
    | some q =>
      cases h
      exact trivial
  · cases h

/-- The value of a variable in a mode has no fields. -/
lemma isPlain_flatValue {modeId : String} {value : VariableValue} {x : FlatValue}
    (h : s.flatValue v f modeId value = .ok x) : x.IsPlain := by
  unfold flatValue at h
  split at h
  · cases h
    exact fun _ heq => FlatValue.noConfusion heq
  · obtain ⟨result, hresult, h⟩ := bind_eq_ok.mp h
    cases result with
    | some result =>
      cases h
      exact FlatValue.isPlain_literal (isPlain_calculatedLiteral? hresult)
    | none =>
      obtain ⟨l, hl, h⟩ := bind_eq_ok.mp h
      cases h
      exact FlatValue.isPlain_literal (isPlain_literalOf hl)

/-- The types of variables have no values with fields. -/
lemma marker?_tokenType (type : VariableType) : type.tokenType.marker? = none := by
  cases type <;> rfl

/-- The value of a variable is one of the type of its token. -/
lemma fits_tokenValue? {value : TokenValue} (h : s.tokenValue? c v f = .ok (some value)) :
    value.Fits v.type.tokenType := by
  have hplain : ∀ x, value.Shows x → x.IsPlain := by
    intro x hx
    obtain ⟨_, _, _, _, hvalue⟩ := exists_of_shows h hx
    exact isPlain_flatValue hvalue
  cases value with
  | flat x =>
    cases x with
    | literal l => exact (hplain _ rfl l rfl).fits _
    | reference path => exact trivial
  | perMode modes => exact ⟨marker?_tokenType v.type, fun e he => hplain e.2 ⟨e, he, rfl⟩⟩

/-- The token of a variable is one that is read back. -/
theorem isSerial_token? {token : Token} (h : s.token? c v = .ok (some token)) :
    token.IsSerial := by
  unfold token? at h
  obtain ⟨directives, _, h⟩ := bind_eq_ok.mp h
  obtain ⟨value, hvalue, h⟩ := bind_eq_ok.mp h
  cases value with
  | none => cases h
  | some value =>
    cases h
    refine ⟨fits_tokenValue? hvalue, given_ne_empty v.description, ?_⟩
    intro o ho
    cases ho
    exact Option.some_ne_none _

end Scope

/-! ## Tokens of styles -/

/-- The token of a style is one that is read back, if its value is one of its type. -/
lemma isSerial_styleToken {type : TokenType} {description : String} {l : Literal}
    (h : l.Fits type) : (styleToken type description l).IsSerial := by
  refine ⟨h, given_ne_empty description, ?_⟩
  intro o ho
  cases ho

/-- The token of a paint style is one that is read back. -/
lemma PaintStyle.isSerial_token {style : PaintStyle} {token : Token}
    (h : style.token = .ok token) : token.IsSerial := by
  unfold PaintStyle.token at h
  obtain ⟨f, _, h⟩ := bind_eq_ok.mp h
  obtain ⟨text, _, h⟩ := bind_eq_ok.mp h
  cases h
  exact isSerial_styleToken trivial

/-- The token of a text style is one that is read back. -/
lemma TextStyle.isSerial_token {style : TextStyle} {token : Token}
    (h : style.token = .ok token) : token.IsSerial := by
  unfold TextStyle.token at h
  obtain ⟨f, _, h⟩ := bind_eq_ok.mp h
  obtain ⟨properties, _, h⟩ := bind_eq_ok.mp h
  dsimp only at h
  split_ifs at h
  · cases h
  · cases h
    exact isSerial_styleToken rfl

/-- The token of an effect style is one that is read back. -/
lemma EffectStyle.isSerial_token? {style : EffectStyle} {token : Token}
    (h : style.token? = .ok (some token)) : token.IsSerial := by
  unfold EffectStyle.token? at h
  split at h
  · cases h
  · obtain ⟨b, _, htoken⟩ := map_eq_ok.mp h
    cases htoken
    exact isSerial_styleToken rfl

/-- The token of a grid style is one that is read back. -/
lemma GridStyle.isSerial_token? {style : GridStyle} {token : Token}
    (h : style.token? = some token) : token.IsSerial := by
  unfold GridStyle.token? at h
  obtain ⟨g, _, htoken⟩ := Option.map_eq_some_iff.mp h
  cases htoken
  exact isSerial_styleToken rfl

/-! ## Trees -/

/-- A tree as libraries give rise to: all names of groups lead to tokens that are read back. -/
structure TokenTree.IsSerial (tree : TokenTree) : Prop where
  populated : ∀ child ∈ tree, child.2.IsPopulated
  tokens : ∀ e ∈ TokenTree.walk [] tree, e.2.IsSerial

/-- The empty tree has no names. -/
lemma TokenTree.isSerial_nil : TokenTree.IsSerial [] :=
  ⟨List.forall_mem_nil _, List.forall_mem_nil _⟩

/-- An insertion keeps a tree as libraries give rise to. -/
theorem TokenTree.Inserted.isSerial {token : Token} {path : List String} {tree tree' : TokenTree}
    (h : TokenTree.Inserted token path tree tree') (htoken : token.IsSerial)
    (htree : tree.IsSerial) : tree'.IsSerial := by
  refine ⟨h.isPopulated htree.populated, ?_⟩
  intro e he
  rcases h.mem_walk he with hself | hold
  · rw [hself]
    exact htoken
  · exact htree.tokens e hold

/-- Adding the token of a variable keeps a tree as libraries give rise to. -/
lemma Scope.isSerial_addToken {s : Scope} {c : Collection} {v : Variable} {tree tree' : TokenTree}
    (htree : tree.IsSerial) (h : s.addToken c tree v = .ok tree') : tree'.IsSerial := by
  rcases addToken_cases h with ⟨_, rfl⟩ | ⟨token, htoken, hinserted⟩
  · exact htree
  · exact hinserted.isSerial (isSerial_token? htoken) htree

/-- The tree of a collection is one as libraries give rise to. -/
lemma Scope.isSerial_tree {s : Scope} {c : Collection} {tree : TokenTree}
    (h : s.tree c = .ok tree) : tree.IsSerial := by
  unfold Scope.tree at h
  obtain ⟨members, _, h⟩ := bind_eq_ok.mp h
  exact foldlM_invariant TokenTree.IsSerial (fun _ _ _ _ hb hstep => isSerial_addToken hb hstep)
    TokenTree.isSerial_nil h

/-- The tree of a kind of styles is one as libraries give rise to, if their tokens are. -/
lemma isSerial_styleTree? {α : Type} {wanted : Bool} {name : α → String}
    {token? : α → Except Fault (Option Token)} {styles : List α} {tree : TokenTree}
    (htokens : ∀ style token, token? style = .ok (some token) → token.IsSerial)
    (h : styleTree? wanted name token? styles = .ok (some tree)) : tree.IsSerial := by
  unfold styleTree? at h
  split_ifs at h
  · obtain ⟨t, htree, heq⟩ := map_eq_ok.mp h
    cases heq
    unfold styleTree at htree
    refine foldlM_invariant TokenTree.IsSerial (fun b style _ b' hb hstep => ?_)
      TokenTree.isSerial_nil htree
    obtain ⟨token, htoken, hstep⟩ := bind_eq_ok.mp hstep
    cases token with
    | none =>
      cases hstep
      exact hb
    | some token =>
      dsimp only at hstep
      split at hstep
      · rename_i hinsert
        cases hstep
        exact (TokenTree.inserted_of_insert hinsert).isSerial (htokens style token htoken) hb
      · cases hstep
  · cases h

/-- The trees of styles are such as libraries give rise to. -/
lemma Styles.isSerial_trees {styles : Styles} {kinds : List StyleKind} {trees : StyleTrees}
    (h : styles.trees kinds = .ok trees) {e : String × TokenTree} (he : e ∈ trees.present) :
    e.2.IsSerial := by
  unfold Styles.trees at h
  dsimp only at h
  obtain ⟨paint, hpaint, h⟩ := bind_eq_ok.mp h
  obtain ⟨text, htext, h⟩ := bind_eq_ok.mp h
  obtain ⟨effect, heffect, h⟩ := bind_eq_ok.mp h
  obtain ⟨grid, hgrid, h⟩ := bind_eq_ok.mp h
  cases h
  have hentry := (StyleTrees.of_mem_present he).1
  simp only [StyleTrees.byName, List.mem_cons, List.not_mem_nil, or_false,
    Prod.mk.injEq] at hentry
  rcases hentry with ⟨_, htree⟩ | ⟨_, htree⟩ | ⟨_, htree⟩ | ⟨_, htree⟩
  · rw [← htree] at hpaint
    refine isSerial_styleTree? (fun style token htoken => ?_) hpaint
    obtain ⟨t, ht, heq⟩ := map_eq_ok.mp htoken
    cases heq
    exact PaintStyle.isSerial_token ht
  · rw [← htree] at htext
    refine isSerial_styleTree? (fun style token htoken => ?_) htext
    obtain ⟨t, ht, heq⟩ := map_eq_ok.mp htoken
    cases heq
    exact TextStyle.isSerial_token ht
  · rw [← htree] at heffect
    exact isSerial_styleTree? (fun _ _ htoken => EffectStyle.isSerial_token? htoken) heffect
  · rw [← htree] at hgrid
    exact isSerial_styleTree?
      (fun _ _ htoken => GridStyle.isSerial_token? (Except.ok.inj htoken)) hgrid

/-! ## Documents -/

/-- All trees of a document of a library are such as libraries give rise to. -/
theorem Document.isSerial_ofLibrary {library : Library} {settings : Settings}
    {options : DocumentOptions} {styles : Option Styles} {sourceFile generatedAt : String}
    {d : Document}
    (h : Document.ofLibrary library settings options styles sourceFile generatedAt = .ok d) :
    ∀ e ∈ d.collections ++ d.presentStyles, e.2.IsSerial := by
  intro e he
  rcases List.mem_append.mp he with hcollection | hstyle
  · obtain ⟨c, _, _, htree⟩ := Document.exists_of_mem_collections h hcollection
    exact Scope.isSerial_tree htree
  · unfold Document.ofLibrary at h
    obtain ⟨document, hfold, h⟩ := bind_eq_ok.mp h
    -- the collections alone make a document without styles
    have hnone : document.styles = none := by
      refine foldlM_invariant (fun d => d.styles = none) (fun b c _ b' hb hstep => ?_) rfl hfold
      obtain ⟨tree, _, rfl⟩ := Document.addCollection_eq hstep
      exact hb
    split at h
    · obtain ⟨trees, htrees, h⟩ := bind_eq_ok.mp h
      cases h
      exact Styles.isSerial_trees htrees hstyle
    · cases h
      obtain ⟨s, hs, _⟩ := Document.of_mem_presentStyles hstyle
      rw [hnone] at hs
      cases hs

/-- A document of a library whose numbers are finite is read back as the same document if and only
if none of its tokens uses a reserved name. -/
theorem Document.ofLibrary_read_iff {library : Library} {settings : Settings}
    {options : DocumentOptions} {styles : Option Styles} {sourceFile generatedAt : String}
    {d : Document}
    (h : Document.ofLibrary library settings options styles sourceFile generatedAt = .ok d)
    (hfinite : d.IsFinite) :
    (∃ e, Document.read d.toJson = .ok e ∧ e.Same d) ↔ d.IsUnreserved := by
  have hserial := Document.isSerial_ofLibrary h
  constructor
  · rintro ⟨e, hread, hsame⟩
    exact hsame.isUnreserved (Document.isUnreserved_of_read hread)
  · intro hunreserved
    refine Document.read_toJson (fun e he => (hserial e he).populated) fun t ht => ?_
    obtain ⟨e, he, hwalk⟩ := List.mem_flatMap.mp ht
    exact ⟨(hserial e he).tokens t hwalk, hfinite t ht, hunreserved t ht⟩

/-! ### A library with one variable -/

/-- A collection with two modes. -/
def themeCollection : Collection :=
  { id := "theme", name := "Theme", modes := [⟨"1:0", "Light"⟩, ⟨"1:1", "Dark"⟩],
    defaultModeId := "1:0" }

/-- A number in the two modes. -/
def themeSpace : Variable :=
  { id := "space", name := "space/small", type := .number,
    values := [("1:0", .number 10.5), ("1:1", .number 16.0)], collectionId := "theme" }

/-- The document of the collection with the variable. -/
def themeDocument : Document :=
  { collections := [("Theme", [("space", .group [("small", .token
      { type := .number
        value := .perMode [("Light", .literal (.number 10.5)), ("Dark", .literal (.number 16.0))]
        origin := some { resolvedType := some "FLOAT" } })])])]
    sourceFile := "theme.fig"
    generatedAt := fixedTimestamp }

/-- The document is the one of the library. -/
lemma ofLibrary_theme :
    Document.ofLibrary ⟨[themeSpace], [themeCollection]⟩ {} {} none "theme.fig" "" =
      .ok themeDocument := by
  have hmembers : themeCollection.members Variable.name [themeSpace] = .ok [themeSpace] :=
    NaturalOrder.sortBy_singleton rfl
  have htree : (Scope.ofSettings ⟨[themeSpace], [themeCollection]⟩ {}).tree themeCollection =
      .ok [("space", .group [("small", .token
        { type := .number
          value := .perMode [("Light", .literal (.number 10.5)), ("Dark", .literal (.number 16.0))]
          origin := some { resolvedType := some "FLOAT" } })])] := by
    unfold Scope.tree
    exact (bind_of_ok hmembers _).trans rfl
  exact Document.ofLibrary_one rfl htree

/-- The document of a number in two modes is read back as the same document, since it has no
reserved name. -/
theorem Document.ofLibrary_read_iff_theme :
    Document.ofLibrary ⟨[themeSpace], [themeCollection]⟩ {} {} none "theme.fig" "" =
        .ok themeDocument ∧
      themeDocument.IsFinite ∧
      ((∃ e, Document.read themeDocument.toJson = .ok e ∧ e.Same themeDocument) ↔
        themeDocument.IsUnreserved) := by
  have hfinite : themeDocument.IsFinite := by
    intro e he x hx
    rw [List.mem_singleton.mp he] at hx
    rcases List.mem_cons.mp hx with hlight | hdark
    · rw [hlight]
      rfl
    · rw [List.mem_singleton.mp hdark]
      rfl
  exact ⟨ofLibrary_theme, hfinite, Document.ofLibrary_read_iff ofLibrary_theme hfinite⟩

end DesignTokens

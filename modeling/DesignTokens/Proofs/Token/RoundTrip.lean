import DesignTokens.Proofs.Token.Styles
import DesignTokens.Proofs.Token.Tree
import DesignTokens.Proofs.Token.Values

/-!
# Documents read back

A token that is written as plain data is read back as the same token, a tree as the same tree,
and a document as the same document, as long as no reserved name is used (`Document.read_toJson`).
Reserved names are the exact limit: whatever is read uses none of them
(`Document.isUnreserved_of_read`), because keys that begin with a dollar sign are passed over and an
object with the key `$ref` is read as a reference.

The trees are written and read by recursions over different types.  The proofs go along the tree
that is written in one direction, and along the plain data that is read in the other.
-/

namespace DesignTokens

/-! ## Tokens -/

/-- A token as libraries give rise to: its value is one of its type, its description is not empty,
and what it keeps of its variable tells the type of the variable. -/
structure Token.IsSerial (t : Token) : Prop where
  value : t.value.Fits t.type
  description : t.description ≠ some ""
  origin : ∀ o, t.origin = some o → o.resolvedType ≠ none

/-- What a token comes from is read back. -/
lemma TokenOrigin.read_toJson (o : TokenOrigin) :
    TokenOrigin.read (.object (textField "unit" o.unit ++ textField "resolvedType" o.resolvedType ++
      textField "expression" o.expression)) = .ok o := by
  generalize hf : textField "unit" o.unit ++ textField "resolvedType" o.resolvedType ++
    textField "expression" o.expression = f
  have hunit : Schema.find? ["unit"] f = o.unit.map .text := by
    simp [← hf, Schema.find?_one, OrderedMap.find?_append, find?_textField]
  have htype : Schema.find? ["resolvedType", "resolved_type"] f = o.resolvedType.map .text := by
    simp [← hf, Schema.find?_two, OrderedMap.find?_append, find?_textField]
  have hexpression : Schema.find? ["expression"] f = o.expression.map .text := by
    simp [← hf, Schema.find?_one, OrderedMap.find?_append, find?_textField]
  have hrecord : Schema.fields (.object f) = .ok f := rfl
  unfold TokenOrigin.read
  rw [bind_of_ok hrecord, bind_of_ok (Schema.withDefault_text? hunit),
    bind_of_ok (Schema.withDefault_text? htype), bind_of_ok (Schema.withDefault_text? hexpression)]
  rfl

/-- The fields of a token. -/
def Token.fields (t : Token) : List (String × Json) :=
  [("$type", Json.text t.type.name), ("$value", t.value.toJson)] ++
    textField "$description" (t.description.filter (· ≠ "")) ++
    (match t.origin with
      | some o => [("$extensions", o.toJson)]
      | none => [])

/-- A token is written as its fields. -/
lemma Token.toJson_eq (t : Token) : t.toJson = .object t.fields := rfl

/-- A type is known by its name. -/
lemma TokenType.ofName?_name (type : TokenType) : TokenType.ofName? type.name = some type := by
  cases type <;> rfl

/-- The type of a token is read back. -/
lemma readTokenType_fields (t : Token) : readTokenType t.fields = .ok t.type := by
  have hfind : OrderedMap.find? "$type" t.fields = some (.text t.type.name) := rfl
  have hname : (Json.text t.type.name).text?.bind TokenType.ofName? = some t.type :=
    TokenType.ofName?_name t.type
  unfold readTokenType
  rw [hfind]
  dsimp only
  rw [hname]

/-- What a token comes from is found again. -/
lemma origin_fields {t : Token} (h : t.IsSerial) :
    ∃ o, fieldIfAny originKey (OrderedMap.find? "$extensions" t.fields) = .ok o ∧
      ((o.filter Json.isTruthy = none ∧ t.origin = none) ∨
        ∃ j, o.filter Json.isTruthy = some j ∧
          asTokenValue ((TokenOrigin.read j).map some) = .ok t.origin) := by
  have hfind : OrderedMap.find? "$extensions" t.fields = t.origin.map TokenOrigin.toJson := by
    unfold Token.fields
    rw [OrderedMap.find?_append, OrderedMap.find?_append, find?_textField]
    cases t.origin <;> rfl
  rw [hfind]
  cases horigin : t.origin with
  | none => exact ⟨none, rfl, Or.inl ⟨rfl, rfl⟩⟩
  | some o =>
    refine ⟨some (.object (textField "unit" o.unit ++ textField "resolvedType" o.resolvedType ++
      textField "expression" o.expression)), rfl, Or.inr ⟨_, Option.filter_some_pos ?_, ?_⟩⟩
    · obtain ⟨s, hs⟩ := Option.ne_none_iff_exists'.mp (h.origin o horigin)
      unfold Json.isTruthy
      rw [hs]
      cases o.unit <;> rfl
    · rw [TokenOrigin.read_toJson]
      rfl

/-- The description of a token is read back. -/
lemma description_fields {t : Token} (h : t.IsSerial) :
    Schema.withDefault t.fields ["$description"] none (Schema.optional Schema.text) =
      .ok t.description := by
  have hfilter : t.description.filter (· ≠ "") = t.description := by
    have hne := h.description
    cases hd : t.description with
    | none => rfl
    | some s =>
      rw [hd] at hne
      exact Option.filter_some_pos (decide_eq_true fun heq => hne (congrArg some heq))
  refine Schema.withDefault_text? ?_
  rw [Schema.find?_one]
  unfold Token.fields
  rw [OrderedMap.find?_append, OrderedMap.find?_append, find?_textField, hfilter]
  cases t.description <;> cases t.origin <;> rfl

/-- A token is read back. -/
theorem Token.read_fields {t : Token} (h : t.IsSerial) (hfinite : t.IsFinite)
    (hnames : "$ref" ∉ t.modeNames) : ∃ u, Token.read t.fields = .ok u ∧ u.Same t := by
  obtain ⟨value, hvalue, hsame⟩ := Token.read_value h.value hfinite hnames
  obtain ⟨o, hfield, horigin⟩ := origin_fields h
  have hfind : OrderedMap.find? "$value" t.fields = some t.value.toJson := rfl
  have hread : TokenValue.read t.type ((OrderedMap.find? "$value" t.fields).getD .null) =
      .ok value := by
    rw [hfind]
    exact hvalue
  have hdescription : asTokenValue (Schema.withDefault t.fields ["$description"] none
      (Schema.optional Schema.text)) = .ok t.description := by
    rw [description_fields h]
    rfl
  refine ⟨⟨t.type, value, t.description, t.origin⟩, ?_, rfl, hsame, rfl, rfl⟩
  unfold Token.read
  rw [bind_of_ok (readTokenType_fields t), bind_of_ok hfield, bind_of_ok hread]
  rcases horigin with ⟨hfilter, hnone⟩ | ⟨j, hfilter, hread⟩
  · rw [hfilter, hnone]
    dsimp only
    rw [pure_bind, bind_of_ok hdescription]
    rfl
  · rw [hfilter]
    dsimp only
    rw [bind_of_ok hread, bind_of_ok hdescription]
    rfl

/-! ## Trees -/

/-- A token at a path that is read back as it was written. -/
structure IsRestorable (e : List String × Token) : Prop where
  serial : e.2.IsSerial
  finite : e.2.IsFinite
  unreserved : IsUnreserved e

/-- The names of the children of a group become the keys of its fields. -/
lemma keys_treeFields (children : List (String × TokenNode)) :
    OrderedMap.keys (treeFields children) = OrderedMap.keys children := by
  induction children with
  | nil => rfl
  | cons child rest ih =>
    obtain ⟨name, node⟩ := child
    exact congrArg (List.cons name) ih

/-- The names of a group are not reserved, if none of the tokens that are walked there uses a
reserved name. -/
lemma name_unreserved {path : List String} {children : List (String × TokenNode)}
    (hpopulated : ∀ child ∈ children, child.2.IsPopulated)
    (htokens : ∀ e ∈ TokenTree.walkBelow path children, IsRestorable e)
    {child : String × TokenNode} (hchild : child ∈ children) :
    child.1.toList.head? ≠ some '$' := by
  obtain ⟨e, he, hname⟩ :=
    TokenTree.exists_mem_walk_of_mem hchild (hpopulated child hchild) path
  exact (htokens e he).unreserved.1 child.1 hname

mutual

/-- A node is read back. -/
lemma readNode_toJson (name : String) (path : List String) :
    (node : TokenNode) → node.IsPopulated →
      (∀ e ∈ TokenTree.walkNode path node, IsRestorable e) →
      ∃ m, readNode name node.toJson = .ok m ∧ m.Same node
  | .token t, _, htokens => by
    have ht := htokens (path, t) (List.mem_singleton.mpr rfl)
    obtain ⟨u, hread, hsame⟩ := Token.read_fields ht.serial ht.finite ht.unreserved.2
    refine ⟨.token u, ?_, .token hsame⟩
    have hvalue : OrderedMap.has t.fields "$value" = true := rfl
    rw [TokenNode.toJson, Token.toJson_eq, readNode, if_pos hvalue, hread]
    rfl
  | .group children, hpopulated, htokens => by
    have hchildren : ∀ child ∈ children, child.2.IsPopulated := by
      cases hpopulated with
      | group _ hchildren => exact hchildren
    obtain ⟨tree, hread, hsame⟩ := readChildren_toJson path children hchildren htokens
    refine ⟨.group tree, ?_, .group hsame⟩
    have hvalue : ¬ OrderedMap.has (treeFields children) "$value" = true := by
      have hnotKey : "$value" ∉ OrderedMap.keys (treeFields children) := by
        rw [keys_treeFields]
        intro hkey
        obtain ⟨child, hchild, hname⟩ := List.mem_map.mp hkey
        exact name_unreserved hchildren htokens hchild (hname ▸ rfl)
      unfold OrderedMap.has
      rw [OrderedMap.find?_eq_none hnotKey]
      exact Bool.noConfusion
    rw [TokenNode.toJson, readNode, if_neg hvalue, hread]
    rfl

/-- The children of a group are read back. -/
lemma readChildren_toJson (path : List String) :
    (children : List (String × TokenNode)) → (∀ child ∈ children, child.2.IsPopulated) →
      (∀ e ∈ TokenTree.walkBelow path children, IsRestorable e) →
      ∃ tree, readChildren (treeFields children) = .ok tree ∧ TokenTree.Same tree children
  | [], _, _ => ⟨[], rfl, .nil⟩
  | (name, node) :: rest, hpopulated, htokens => by
    have hname : ¬ name.toList.head? = some '$' :=
      name_unreserved hpopulated htokens List.mem_cons_self
    rw [TokenTree.walkBelow] at htokens
    obtain ⟨m, hnode, hnodeSame⟩ := readNode_toJson name (path ++ [name]) node
      (hpopulated _ List.mem_cons_self) fun e he => htokens e (List.mem_append_left _ he)
    obtain ⟨tree, hrest, hrestSame⟩ := readChildren_toJson path rest
      (fun child hchild => hpopulated child (List.mem_cons_of_mem _ hchild))
      fun e he => htokens e (List.mem_append_right _ he)
    refine ⟨(name, m) :: tree, ?_, .cons hnodeSame hrestSame⟩
    rw [treeFields, readChildren, if_neg hname, bind_of_ok hnode, bind_of_ok hrest]
    rfl

end

/-- A tree is read back. -/
theorem TokenTree.read_toJson {tree : TokenTree}
    (hpopulated : ∀ child ∈ tree, child.2.IsPopulated)
    (htokens : ∀ e ∈ TokenTree.walk [] tree, IsRestorable e) :
    ∃ result, TokenTree.read tree.toJson = .ok result ∧ TokenTree.Same result tree :=
  readChildren_toJson [] tree hpopulated htokens

/-! ## Documents -/

/-- Trees under names of kinds are read together. -/
lemma StyleTrees.read_eq {f : List (String × Json)} {m : OrderedMap TokenTree}
    (hnames : ∀ e ∈ f, e.1 ∈ styleNames) (hread : readEntries TokenTree.read f = .ok m) :
    StyleTrees.read f = .ok (ofEntries m) := by
  have hfilter : (f.filter fun e => ["paint", "text", "effect", "grid"].contains e.1) = f := by
    refine List.filter_eq_self.mpr fun e he => ?_
    exact List.contains_iff_mem.mpr (hnames e he)
  unfold StyleTrees.read
  rw [hfilter, bind_of_ok hread]
  rfl

/-- A document as libraries give rise to: the names of its groups lead to tokens. -/
def Document.IsPopulated (d : Document) : Prop :=
  ∀ e ∈ d.collections ++ d.presentStyles, ∀ child ∈ e.2, child.2.IsPopulated

/-- The trees of a document as plain data. -/
def treesJson (m : OrderedMap TokenTree) : List (String × Json) :=
  m.map fun e => (e.1, e.2.toJson)

/-- A tree that is the same as one with names has names. -/
lemma TokenTree.Same.ne_nil {a b : TokenTree} (h : TokenTree.Same a b) (hb : b ≠ []) : a ≠ [] := by
  cases h with
  | nil => exact hb
  | cons _ _ => exact List.cons_ne_nil _ _

/-- The style trees of a document are read back. -/
lemma readStyles_toJson {d : Document}
    (hread : ∀ e ∈ d.presentStyles, ∃ tree, TokenTree.read e.2.toJson = .ok tree ∧
      TokenTree.Same tree e.2) :
    ∃ styles : StyleTrees, StyleTrees.read (treesJson d.presentStyles) = .ok styles ∧
      styles.present.Matches TokenTree.Same d.presentStyles := by
  obtain ⟨m, hentries, hmatches⟩ := readEntries_map hread
  have hnames : ∀ e ∈ treesJson d.presentStyles, e.1 ∈ styleNames := by
    intro e he
    obtain ⟨c, hc, hentry⟩ := List.mem_map.mp he
    rw [← hentry]
    exact d.keys_presentStyles.subset (List.mem_map_of_mem hc)
  have hkeys : m.keys.Sublist styleNames := by
    rw [hmatches.keys]
    exact d.keys_presentStyles
  have hne : ∀ e ∈ m, e.2 ≠ [] := by
    intro e he
    obtain ⟨c, hc, _, hsame⟩ := exists_of_forall₂ hmatches he
    obtain ⟨s, _, hpresent⟩ := Document.of_mem_presentStyles hc
    exact hsame.ne_nil (StyleTrees.of_mem_present hpresent).2
  refine ⟨StyleTrees.ofEntries m, StyleTrees.read_eq hnames hentries, ?_⟩
  rw [StyleTrees.present_ofEntries hkeys hne]
  exact hmatches

/-- The fields of a document. -/
def Document.fields (d : Document) : List (String × Json) :=
  [("$schema", Json.text d.schema), ("collections", .object (treesJson d.collections))] ++
    (if d.presentStyles.isEmpty then [] else [("$styles", .object (treesJson d.presentStyles))]) ++
    [("$metadata", .object [("sourceFile", .text d.sourceFile),
      ("generatedAt", .text d.generatedAt)])]

/-- A document is written as its fields. -/
lemma Document.toJson_eq (d : Document) : d.toJson = .object d.fields := rfl

/-- The metadata of a document are found again. -/
lemma Document.metadata_fields (d : Document) : OrderedMap.find? "$metadata" d.fields =
    some (.object [("sourceFile", .text d.sourceFile), ("generatedAt", .text d.generatedAt)]) := by
  unfold Document.fields
  rw [OrderedMap.find?_append, OrderedMap.find?_append]
  cases d.presentStyles.isEmpty <;> rfl

/-- The style trees of a document are found again, if there are any. -/
lemma Document.styles_fields (d : Document) : OrderedMap.find? "$styles" d.fields =
    if d.presentStyles.isEmpty then none else some (.object (treesJson d.presentStyles)) := by
  unfold Document.fields
  rw [OrderedMap.find?_append, OrderedMap.find?_append]
  cases d.presentStyles.isEmpty <;> rfl

/-- The trees that are read for a document. -/
structure Document.TreesRead (d : Document) (collections : OrderedMap TokenTree)
    (styles : Option StyleTrees) : Prop where
  collections : readEntries TokenTree.read (treesJson d.collections) = .ok collections
  styles : (d.presentStyles.isEmpty = true ∧ styles = none) ∨
    (d.presentStyles.isEmpty = false ∧
      ∃ s, StyleTrees.read (treesJson d.presentStyles) = .ok s ∧ styles = some s)

/-- A document is read once its trees are. -/
lemma Document.TreesRead.read {d : Document} {collections : OrderedMap TokenTree}
    {styles : Option StyleTrees} (h : d.TreesRead collections styles) :
    Document.read d.toJson =
      .ok ⟨collections, styles, d.sourceFile, d.generatedAt, d.schema⟩ := by
  have htrees : (Json.object d.fields).field? "collections" =
      some (.object (treesJson d.collections)) := rfl
  have hschema : (Json.object d.fields).field? "$schema" = some (.text d.schema) := rfl
  have hmetadata : ((Json.object d.fields).field? "$metadata").filter Json.isTruthy =
      some (.object [("sourceFile", .text d.sourceFile),
        ("generatedAt", .text d.generatedAt)]) := by
    show (OrderedMap.find? "$metadata" d.fields).filter Json.isTruthy = _
    rw [d.metadata_fields]
    rfl
  have hread : readMetadata (.object [("sourceFile", .text d.sourceFile),
      ("generatedAt", .text d.generatedAt)]) = .ok (d.sourceFile, d.generatedAt) := rfl
  rw [d.toJson_eq]
  unfold Document.read
  rw [htrees]
  dsimp only
  rw [bind_of_ok h.collections, hmetadata, hschema]
  dsimp only
  rcases h.styles with ⟨hempty, hstyles⟩ | ⟨hfull, s, hs, hstyles⟩
  · have hnone : (Json.object d.fields).field? "$styles" = none := by
      show OrderedMap.find? "$styles" d.fields = _
      rw [d.styles_fields, if_pos hempty]
    rw [hnone, hstyles]
    dsimp only
    rw [pure_bind, bind_of_ok hread]
    rfl
  · have hsome : (Json.object d.fields).field? "$styles" =
        some (.object (treesJson d.presentStyles)) := by
      show OrderedMap.find? "$styles" d.fields = _
      rw [d.styles_fields, hfull]
      rfl
    rw [hsome, hstyles]
    dsimp only
    rw [bind_of_ok (map_eq_ok.mpr ⟨s, hs, rfl⟩), bind_of_ok hread]
    rfl

/-- A document without reserved names is read back. -/
theorem Document.read_toJson {d : Document} (hpopulated : d.IsPopulated)
    (htokens : ∀ e ∈ d.tokens, IsRestorable e) :
    ∃ e, Document.read d.toJson = .ok e ∧ e.Same d := by
  have hread : ∀ e ∈ d.collections ++ d.presentStyles, ∃ tree,
      TokenTree.read e.2.toJson = .ok tree ∧ TokenTree.Same tree e.2 := by
    intro e he
    exact TokenTree.read_toJson (hpopulated e he) fun t ht =>
      htokens t (List.mem_flatMap.mpr ⟨e, he, ht⟩)
  obtain ⟨collections, hcollections, hmatches⟩ := readEntries_map fun e he =>
    hread e (List.mem_append_left _ he)
  cases hempty : d.presentStyles.isEmpty with
  | true =>
    have htrees : d.TreesRead collections none := ⟨hcollections, Or.inl ⟨hempty, rfl⟩⟩
    refine ⟨_, htrees.read, hmatches, ?_, rfl, rfl, rfl⟩
    rw [List.isEmpty_iff.mp hempty]
    exact .nil
  | false =>
    obtain ⟨s, hs, hsame⟩ := readStyles_toJson fun e he => hread e (List.mem_append_right _ he)
    have htrees : d.TreesRead collections (some s) :=
      ⟨hcollections, Or.inr ⟨hempty, s, hs, rfl⟩⟩
    exact ⟨_, htrees.read, hmatches, hsame, rfl, rfl, rfl⟩

end DesignTokens

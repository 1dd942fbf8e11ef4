import DesignTokens.Proofs.Faults
import DesignTokens.Proofs.Token.Styles
import DesignTokens.Token.Decoding

/-!
# Malformed documents

What is wrong with a document is reported as a fault of the input, with two exceptions.  An object
is taken for granted where a collection or a group of styles stands, and where a token has
extensions: anything else there ends the reading with a fault of its own (`GroupStops`,
`TreeStops`).  The metadata and the schema of a document whose trees have been read are read like
records, whose fault is not that of the input.  These are exactly the documents that are neither
read nor reported (`Document.read_reported_iff`).
-/

namespace DesignTokens

open Schema

/-! ## Composite values -/

/-- A typography value is invalid if it does not fit. -/
lemma Typography.failsAsInvalid_read (j : Json) : FailsAsInvalid (Typography.read j) := by
  have htextual := failsAsInvalid_optional failsAsInvalid_text
  refine (failsAsInvalid_fields j).bind fun f => ?_
  refine (failsAsInvalid_required failsAsInvalid_text f _).bind fun _ => ?_
  refine (failsAsInvalid_required failsAsInvalid_float f _).bind fun _ => ?_
  refine (failsAsInvalid_withDefault failsAsInvalid_float f _ _).bind fun _ => ?_
  refine (failsAsInvalid_withDefault htextual f _ _).bind fun _ => ?_
  refine (failsAsInvalid_withDefault htextual f _ _).bind fun _ => ?_
  refine (failsAsInvalid_withDefault htextual f _ _).bind fun _ => ?_
  refine (failsAsInvalid_withDefault htextual f _ _).bind fun _ => ?_
  exact (failsAsInvalid_withDefault htextual f _ _).bind fun _ => .ok _

/-- A shadow value is invalid if it does not fit. -/
lemma BoxShadow.failsAsInvalid_read (j : Json) : FailsAsInvalid (BoxShadow.read j) := by
  refine (failsAsInvalid_fields j).bind fun f => ?_
  refine (failsAsInvalid_withDefault failsAsInvalid_float f _ _).bind fun _ => ?_
  refine (failsAsInvalid_withDefault failsAsInvalid_float f _ _).bind fun _ => ?_
  refine (failsAsInvalid_withDefault failsAsInvalid_float f _ _).bind fun _ => ?_
  refine (failsAsInvalid_withDefault failsAsInvalid_float f _ _).bind fun _ => ?_
  refine (failsAsInvalid_required failsAsInvalid_text f _).bind fun _ => ?_
  exact (failsAsInvalid_withDefault (failsAsInvalid_choice _) f _ _).bind fun _ => .ok _

/-- A grid value is invalid if it does not fit. -/
lemma GridTracks.failsAsInvalid_read (j : Json) : FailsAsInvalid (GridTracks.read j) := by
  have hcount := failsAsInvalid_optional failsAsInvalid_float
  refine (failsAsInvalid_fields j).bind fun f => ?_
  refine (failsAsInvalid_required (failsAsInvalid_choice _) f _).bind fun _ => ?_
  refine (failsAsInvalid_withDefault hcount f _ _).bind fun _ => ?_
  refine (failsAsInvalid_withDefault hcount f _ _).bind fun _ => ?_
  refine (failsAsInvalid_withDefault failsAsInvalid_float f _ _).bind fun _ => ?_
  exact (failsAsInvalid_withDefault failsAsInvalid_float f _ _).bind fun _ => .ok _

/-- What a token comes from is invalid if it does not fit. -/
lemma TokenOrigin.failsAsInvalid_read (j : Json) : FailsAsInvalid (TokenOrigin.read j) := by
  have htextual := failsAsInvalid_optional failsAsInvalid_text
  refine (failsAsInvalid_fields j).bind fun f => ?_
  refine (failsAsInvalid_withDefault htextual f _ _).bind fun _ => ?_
  refine (failsAsInvalid_withDefault htextual f _ _).bind fun _ => ?_
  exact (failsAsInvalid_withDefault htextual f _ _).bind fun _ => .ok _

/-- The composite value of an object is invalid if it does not fit. -/
lemma failsAsInvalid_readLiteralObject (type : TokenType) (f : List (String × Json)) :
    FailsAsInvalid (readLiteralObject type f) := by
  cases type with
  | typography => exact (Typography.failsAsInvalid_read _).map
  | shadow => exact (BoxShadow.failsAsInvalid_read _).map
  | grid => exact (GridTracks.failsAsInvalid_read _).map
  | _ => exact failsAsInvalid_require _

/-! ## Values -/

/-- The fault is one of a document. -/
def Fault.IsInput (fault : Fault) : Prop :=
  ∃ problem, fault = .malformedInput none problem

/-- The only faults are those of a document. -/
abbrev FailsAsInput {α : Type} (x : Except Fault α) : Prop :=
  FailsOnly Fault.IsInput x

/-- A problem of a document is a fault of it. -/
lemma failsAsInput_inputFault {α : Type} (problem : InputProblem) :
    FailsAsInput (inputFault problem : Except Fault α) :=
  .error ⟨problem, rfl⟩

/-- A record that is invalid makes the document malformed. -/
lemma failsAsInput_asTokenValue {α : Type} {x : Except Fault α} (hx : FailsAsInvalid x) :
    FailsAsInput (asTokenValue x) := by
  cases x with
  | ok a => exact .ok a
  | error fault =>
    rw [hx fault rfl]
    exact failsAsInput_inputFault _

/-- A single value is read or reported. -/
lemma FlatValue.failsAsInput_read (type : TokenType) (j : Json) :
    FailsAsInput (FlatValue.read type j) := by
  cases j with
  | null => exact failsAsInput_inputFault _
  | int n => exact failsAsInput_asTokenValue (failsAsInvalid_float _).map
  | list _ => exact failsAsInput_inputFault _
  | object f =>
    unfold FlatValue.read
    dsimp only
    cases OrderedMap.find? "$ref" f with
    | some path => exact .ok _
    | none => exact failsAsInput_asTokenValue (failsAsInvalid_readLiteralObject type f).map
  | _ => exact .ok _

/-- Entries have the faults of their values. -/
lemma failsOnly_readEntries {α : Type} {P : Fault → Prop} {read : Json → Except Fault α}
    (hread : ∀ j, FailsOnly P (read j)) (f : List (String × Json)) :
    FailsOnly P (readEntries read f) := by
  induction f with
  | nil => exact .ok []
  | cons e rest ih => exact (hread e.2).bind fun _ => ih.bind fun _ => .ok _

/-- The value of a token is read or reported. -/
lemma TokenValue.failsAsInput_read (type : TokenType) (j : Json) :
    FailsAsInput (TokenValue.read type j) := by
  have hflat := FlatValue.failsAsInput_read type
  unfold TokenValue.read
  split
  · split_ifs
    · exact (failsOnly_readEntries hflat _).map
    · exact (hflat _).map
  · exact (hflat _).map

/-- The type of a token is read or reported. -/
lemma failsAsInput_readTokenType (f : List (String × Json)) : FailsAsInput (readTokenType f) := by
  unfold readTokenType
  cases OrderedMap.find? "$type" f with
  | none => exact .ok _
  | some j =>
    dsimp only
    cases j.text?.bind TokenType.ofName? with
    | some type => exact .ok type
    | none => exact failsAsInput_inputFault _

/-! ## Where an object is taken for granted -/

/-- A reading that is reported if it fails, except that it fails otherwise exactly where it comes to
a value that is taken for an object and is none. -/
structure StopsIff {α : Type} (stops : Prop) (x : Except Fault α) : Prop where
  faults : FailsOnly (fun fault => fault.IsInput ∨ fault = .notAnObject) x
  iff : x = .error .notAnObject ↔ stops

section stopping

variable {α β : Type} {stops stops' : Prop} {x : Except Fault α}

/-- A reading that is reported if it fails never stops otherwise. -/
lemma FailsOnly.stopsIff (hx : FailsAsInput x) : StopsIff False x where
  faults := fun fault h => Or.inl (hx fault h)
  iff := by
    refine ⟨fun h => ?_, False.elim⟩
    obtain ⟨_, heq⟩ := hx _ h
    cases heq

/-- A sequence stops where its first part does, or where its second part does after it. -/
lemma StopsIff.bind {f : α → Except Fault β} (hx : StopsIff stops x)
    (hf : ∀ a, StopsIff stops' (f a)) : StopsIff (stops ∨ (∃ a, x = .ok a) ∧ stops') (x >>= f) where
  faults := hx.faults.bind fun a => (hf a).faults
  iff := by
    rw [bind_eq_error, hx.iff]
    refine or_congr_right ⟨?_, ?_⟩
    · rintro ⟨a, ha, h⟩
      exact ⟨⟨a, ha⟩, (hf a).iff.mp h⟩
    · rintro ⟨⟨a, ha⟩, h⟩
      exact ⟨a, ha, (hf a).iff.mpr h⟩

/-- A result that is changed stops where it did. -/
lemma StopsIff.map {f : α → β} (hx : StopsIff stops x) : StopsIff stops (x.map f) where
  faults := hx.faults.map
  iff := map_eq_error.trans hx.iff

/-- The case in which a reading stops may be put in other words. -/
lemma StopsIff.congr (hx : StopsIff stops x) (h : stops ↔ stops') : StopsIff stops' x :=
  ⟨hx.faults, hx.iff.trans h⟩

/-- A reading that is reported if it does not stop has no invalid record. -/
lemma StopsIff.ne_invalidRecord  (hx : StopsIff stops x) : x ≠ .error .invalidRecord := by
  intro h
  rcases hx.faults _ h with ⟨_, heq⟩ | heq <;> cases heq

end stopping

/-- A token has extensions that are there and are no object. -/
def HasOtherExtensions (f : List (String × Json)) : Prop :=
  ∃ j, OrderedMap.find? "$extensions" f = some j ∧ j.isTruthy = true ∧ ∀ g, j ≠ .object g

/-- Reading a token stops at its extensions, which are read after its type. -/
def TokenStops (f : List (String × Json)) : Prop :=
  (∃ type, readTokenType f = .ok type) ∧ HasOtherExtensions f

/-- Reading the children of a group stops at a token in it, or in a group in it, after the children
before have been read. -/
inductive GroupStops : List (String × Json) → Prop
  | token {name : String} {f rest : List (String × Json)} (named : name.toList.head? ≠ some '$')
      (valued : OrderedMap.has f "$value" = true) (stops : TokenStops f) :
      GroupStops ((name, .object f) :: rest)
  | group {name : String} {f rest : List (String × Json)} (named : name.toList.head? ≠ some '$')
      (unvalued : OrderedMap.has f "$value" = false) (stops : GroupStops f) :
      GroupStops ((name, .object f) :: rest)
  | later {name : String} {j : Json} {rest : List (String × Json)} {tree : TokenTree}
      (first : readChildren [(name, j)] = .ok tree) (stops : GroupStops rest) :
      GroupStops ((name, j) :: rest)

/-- Reading a child of a group stops. -/
def NodeStops (j : Json) : Prop :=
  ∃ f, j = .object f ∧ if OrderedMap.has f "$value" then TokenStops f else GroupStops f

/-- Reading a tree stops: it is no object, or one of its children stops. -/
def TreeStops (j : Json) : Prop :=
  ∀ f, j = .object f → GroupStops f

/-- Reading entries stops at one of them, after the ones before have been read. -/
inductive EntriesStop {α : Type} (read : Json → Except Fault α) (stops : Json → Prop) :
    List (String × Json) → Prop
  | here {key : String} {j : Json} {rest : List (String × Json)} (first : stops j) :
      EntriesStop read stops ((key, j) :: rest)
  | later {key : String} {j : Json} {rest : List (String × Json)} {a : α} (first : read j = .ok a)
      (later : EntriesStop read stops rest) : EntriesStop read stops ((key, j) :: rest)

/-- Extensions stop the reading where they are there and are no object. -/
lemma stopsIff_fieldIfAny (key : String) (f : List (String × Json)) :
    StopsIff (HasOtherExtensions f) (fieldIfAny key (OrderedMap.find? "$extensions" f)) := by
  have hstops : ∀ {j : Json}, OrderedMap.find? "$extensions" f = some j →
      (HasOtherExtensions f ↔ j.isTruthy = true ∧ ∀ g, j ≠ .object g) := by
    intro j hj
    refine ⟨?_, fun h => ⟨j, hj, h⟩⟩
    rintro ⟨j', hj', h⟩
    rw [Option.some.inj (hj.symm.trans hj')]
    exact h
  cases hfound : OrderedMap.find? "$extensions" f with
  | none =>
    refine ⟨.ok none, nofun, ?_⟩
    rintro ⟨j, hj, _⟩
    rw [hfound] at hj
    cases hj
  | some j =>
    unfold fieldIfAny
    dsimp only
    refine StopsIff.congr ?_ (hstops hfound).symm
    split_ifs with htruthy
    · cases j with
      | object g => exact ⟨.ok _, nofun, fun h => (h.2 g rfl).elim⟩
      | _ =>
        refine ⟨.error (Or.inr rfl), fun _ => ⟨htruthy, nofun⟩, ?_⟩
        exact fun _ => rfl
    · exact ⟨.ok none, nofun, fun h => (htruthy h.1).elim⟩

/-- A token is read or reported, unless its reading stops at its extensions. -/
lemma stopsIff_readToken (f : List (String × Json)) : StopsIff (TokenStops f) (Token.read f) := by
  have hdescription := failsAsInput_asTokenValue
    (failsAsInvalid_withDefault (failsAsInvalid_optional failsAsInvalid_text) f ["$description"]
      none)
  have hread : StopsIff
      (False ∨ (∃ type, readTokenType f = .ok type) ∧
        (HasOtherExtensions f ∨ (∃ origin, fieldIfAny originKey (OrderedMap.find? "$extensions" f) =
          .ok origin) ∧ False)) (Token.read f) := by
    refine (failsAsInput_readTokenType f).stopsIff.bind fun type => ?_
    refine (stopsIff_fieldIfAny originKey f).bind fun origin => FailsOnly.stopsIff ?_
    refine (TokenValue.failsAsInput_read type _).bind fun value => ?_
    split
    · refine (failsAsInput_asTokenValue (TokenOrigin.failsAsInvalid_read _).map).bind fun _ => ?_
      exact hdescription.bind fun _ => .ok _
    · exact hdescription.bind fun _ => .ok _
  refine hread.congr ?_
  rw [false_or, and_false, or_false]
  exact Iff.rfl

/-- The children of a group stop at the first one or, after it has been read, at a later one. -/
lemma groupStops_cons {name : String} {j : Json} {rest : List (String × Json)} :
    GroupStops ((name, j) :: rest) ↔
      (name.toList.head? ≠ some '$' ∧ NodeStops j) ∨
        (∃ tree, readChildren [(name, j)] = .ok tree) ∧ GroupStops rest := by
  constructor
  · intro h
    cases h with
    | token named valued stops => exact Or.inl ⟨named, _, rfl, by rwa [if_pos valued]⟩
    | group named unvalued stops =>
      exact Or.inl ⟨named, _, rfl, by rwa [unvalued, if_neg Bool.false_ne_true]⟩
    | later first stops => exact Or.inr ⟨⟨_, first⟩, stops⟩
  · rintro (⟨named, f, rfl, stops⟩ | ⟨⟨tree, first⟩, stops⟩)
    · split_ifs at stops with valued
      · exact .token named valued stops
      · exact .group named (Bool.eq_false_iff.mpr valued) stops
    · exact .later first stops

/-- One child is read where it is passed over or its node is read. -/
lemma exists_readChildren_singleton {name : String} {j : Json} :
    (∃ tree, readChildren [(name, j)] = .ok tree) ↔
      name.toList.head? = some '$' ∨ ∃ node, readNode name j = .ok node := by
  rw [readChildren, readChildren]
  split_ifs with hname
  · exact ⟨fun _ => Or.inl hname, fun _ => ⟨[], rfl⟩⟩
  · rw [or_iff_right hname]
    constructor
    · rintro ⟨tree, h⟩
      obtain ⟨node, hnode, _⟩ := bind_eq_ok.mp h
      exact ⟨node, hnode⟩
    · rintro ⟨node, hnode⟩
      exact ⟨[(name, node)], bind_of_ok hnode _⟩

mutual

/-- A child of a group is read or reported, unless its reading stops. -/
lemma stopsIff_readNode (name : String) : (j : Json) → StopsIff (NodeStops j) (readNode name j)
  | .object f => by
    rw [readNode]
    by_cases hvalue : OrderedMap.has f "$value" = true
    · rw [if_pos hvalue]
      refine (stopsIff_readToken f).map.congr ⟨fun h => ⟨f, rfl, by rwa [if_pos hvalue]⟩, ?_⟩
      rintro ⟨_, heq, h⟩
      cases heq
      rwa [if_pos hvalue] at h
    · rw [if_neg hvalue]
      refine (stopsIff_readChildren f).map.congr ⟨fun h => ⟨f, rfl, by rwa [if_neg hvalue]⟩, ?_⟩
      rintro ⟨_, heq, h⟩
      cases heq
      rwa [if_neg hvalue] at h
  | .null | .bool _ | .int _ | .float _ | .text _ | .list _ => by
    rw [readNode]
    · refine (failsAsInput_inputFault _).stopsIff.congr ⟨False.elim, ?_⟩
      rintro ⟨_, heq, _⟩
      cases heq
    · exact fun _ => Json.noConfusion

/-- The children of a group are read or reported, unless their reading stops. -/
lemma stopsIff_readChildren : (f : List (String × Json)) →
    StopsIff (GroupStops f) (readChildren f)
  | [] => by
    rw [readChildren]
    exact (FailsOnly.ok _).stopsIff.congr ⟨False.elim, nofun⟩
  | (name, j) :: rest => by
    have hrest := stopsIff_readChildren rest
    refine StopsIff.congr ?_ groupStops_cons.symm
    rw [exists_readChildren_singleton, readChildren]
    split_ifs with hname
    · refine hrest.congr ?_
      rw [and_iff_right (Or.inl hname), or_iff_right fun h => h.1 hname]
    · have hchild := (stopsIff_readNode name j).bind fun node =>
        hrest.bind fun tree => (FailsOnly.ok ((name, node) :: tree)).stopsIff
      refine hchild.congr ?_
      rw [and_false, or_false, and_iff_right hname, or_iff_right hname]

end

/-- A tree is read or reported, unless its reading stops. -/
lemma stopsIff_readTree (j : Json) : StopsIff (TreeStops j) (TokenTree.read j) := by
  cases j with
  | object f =>
    refine (stopsIff_readChildren f).congr ⟨?_, fun h => h f rfl⟩
    rintro h _ ⟨⟩
    exact h
  | _ => exact ⟨.error (Or.inr rfl), fun _ _ => nofun, fun _ => rfl⟩

/-- Entries are read or reported, unless the reading of one of them stops. -/
lemma stopsIff_readEntries {α : Type} {read : Json → Except Fault α} {stops : Json → Prop}
    (hread : ∀ j, StopsIff (stops j) (read j)) (f : List (String × Json)) :
    StopsIff (EntriesStop read stops f) (readEntries read f) := by
  induction f with
  | nil => exact (FailsOnly.ok _).stopsIff.congr ⟨False.elim, nofun⟩
  | cons e rest ih =>
    obtain ⟨key, j⟩ := e
    have hentry := (hread j).bind fun a =>
      ih.bind fun tail => (FailsOnly.ok ((key, a) :: tail)).stopsIff
    refine hentry.congr ?_
    rw [and_false, or_false]
    constructor
    · rintro (hfirst | ⟨⟨a, ha⟩, hlater⟩)
      · exact .here hfirst
      · exact .later ha hlater
    · intro h
      cases h with
      | here first => exact Or.inl first
      | later first later => exact Or.inr ⟨⟨_, first⟩, later⟩

/-! ## Documents -/

/-- Metadata are read where they are a record of the right form. -/
lemma exists_readMetadata_iff {m : Json} : (∃ r, readMetadata m = .ok r) ↔
    ∃ f, m = .object f ∧
      ∀ keys ∈ [["sourceFile", "source_file"], ["generatedAt", "generated_at"]],
        ∀ x, Schema.find? keys f = some x → ∃ s, x = .text s := by
  cases m with
  | object f =>
    constructor
    · rintro ⟨r, h⟩
      obtain ⟨_, ⟨⟩, h⟩ := bind_eq_ok.mp h
      obtain ⟨source, hsource, h⟩ := bind_eq_ok.mp h
      obtain ⟨time, htime, _⟩ := bind_eq_ok.mp h
      refine ⟨f, rfl, fun keys hkeys => ?_⟩
      rcases List.mem_pair.mp hkeys with rfl | rfl
      · exact exists_withDefault_text_iff.mp ⟨source, hsource⟩
      · exact exists_withDefault_text_iff.mp ⟨time, htime⟩
    · rintro ⟨_, ⟨⟩, h⟩
      obtain ⟨source, hsource⟩ := exists_withDefault_text_iff.mpr (h _ List.mem_cons_self)
      obtain ⟨time, htime⟩ := exists_withDefault_text_iff.mpr
        (h _ (List.mem_cons_of_mem _ (List.mem_singleton_self _)))
      exact ⟨(source, time), (bind_of_ok hsource _).trans (bind_of_ok htime _)⟩
  | _ =>
    constructor
    · rintro ⟨_, ⟨⟩⟩
    · rintro ⟨_, ⟨⟩, _⟩

namespace Document

/-- Metadata that are there are a record in which the source file and the time are texts. -/
def HasMetadata (j : Json) : Prop :=
  ∀ m, j.field? "$metadata" = some m → m.isTruthy = true → ∃ f, m = .object f ∧
    ∀ keys ∈ [["sourceFile", "source_file"], ["generatedAt", "generated_at"]],
      ∀ x, Schema.find? keys f = some x → ∃ s, x = .text s

/-- A schema that is there is a text. -/
def HasSchema (j : Json) : Prop :=
  ∀ x, j.field? "$schema" = some x → ∃ s, x = .text s

/-- The style trees of a document. -/
def readStyles (j : Json) : Except Fault (Option StyleTrees) :=
  match j.field? "$styles" with
  | some (.object f) => (StyleTrees.read f).map some
  | _ => .ok none

/-- The metadata of a document. -/
def readMetadataField (j : Json) : Except Fault (String × String) :=
  match (j.field? "$metadata").filter Json.isTruthy with
  | some m => readMetadata m
  | none => .ok ("", "")

/-- The schema of a document. -/
def readSchema (j : Json) : Except Fault String :=
  match j.field? "$schema" with
  | some s => text s
  | none => .ok defaultSchema

/-- A document is read in steps: its collections, its styles, and what stands beside them. -/
lemma read_eq {j : Json} {trees : List (String × Json)}
    (h : j.field? "collections" = some (.object trees)) : read j = do
      let collections ← readEntries TokenTree.read trees
      let styles ← readStyles j
      let metadata ← readMetadataField j
      let schema ← readSchema j
      return { collections, styles, sourceFile := metadata.1, generatedAt := metadata.2
               schema } := by
  unfold read readStyles readMetadataField readSchema
  rw [h]
  dsimp only
  refine congrArg _ (funext fun collections => ?_)
  generalize (j.field? "$metadata").filter Json.isTruthy = metadata
  generalize j.field? "$schema" = schema
  cases j.field? "$styles" with
  | none => cases metadata <;> cases schema <;> rfl
  | some styles => cases styles <;> cases metadata <;> cases schema <;> rfl

/-- Metadata are invalid if they do not fit. -/
lemma failsAsInvalid_readMetadataField (j : Json) : FailsAsInvalid (readMetadataField j) := by
  unfold readMetadataField
  split
  · refine (failsAsInvalid_fields _).bind fun f => ?_
    refine (failsAsInvalid_withDefault failsAsInvalid_text f _ _).bind fun _ => ?_
    exact (failsAsInvalid_withDefault failsAsInvalid_text f _ _).bind fun _ => .ok _
  · exact .ok _

/-- A schema is invalid if it is no text. -/
lemma failsAsInvalid_readSchema (j : Json) : FailsAsInvalid (readSchema j) := by
  unfold readSchema
  split
  · exact failsAsInvalid_text _
  · exact .ok _

/-- Metadata are read where they have the right form. -/
lemma exists_readMetadataField_iff {j : Json} :
    (∃ m, readMetadataField j = .ok m) ↔ HasMetadata j := by
  unfold readMetadataField HasMetadata
  cases j.field? "$metadata" with
  | none => exact ⟨fun _ => nofun, fun _ => ⟨("", ""), rfl⟩⟩
  | some m =>
    by_cases htruthy : m.isTruthy = true
    · rw [Option.filter_some, if_pos htruthy]
      refine exists_readMetadata_iff.trans ⟨fun h m' hm _ => Option.some.inj hm ▸ h, ?_⟩
      exact fun h => h m rfl htruthy
    · rw [Option.filter_some, if_neg htruthy]
      refine ⟨fun _ m' hm h => ?_, fun _ => ⟨("", ""), rfl⟩⟩
      exact (htruthy (Option.some.inj hm ▸ h)).elim

/-- A schema is read where it is a text. -/
lemma exists_readSchema_iff {j : Json} : (∃ s, readSchema j = .ok s) ↔ HasSchema j := by
  unfold readSchema HasSchema
  cases j.field? "$schema" with
  | none => exact ⟨fun _ => nofun, fun _ => ⟨defaultSchema, rfl⟩⟩
  | some x =>
    dsimp only
    rw [exists_text_iff]
    exact ⟨fun h x' hx => Option.some.inj hx ▸ h, fun h => h x rfl⟩

/-- Reading the style trees stops at one of them. -/
def StylesStop (j : Json) : Prop :=
  ∃ f, j.field? "$styles" = some (.object f) ∧ EntriesStop TokenTree.read TreeStops
    (f.filter fun e => styleNames.contains e.1)

/-- Reading a document stops at a tree: at that of a collection or, after these have been read, at
that of a group of styles. -/
def StopsAtTree (j : Json) : Prop :=
  ∃ trees, j.field? "collections" = some (.object trees) ∧
    (EntriesStop TokenTree.read TreeStops trees ∨
      (∃ collections, readEntries TokenTree.read trees = .ok collections) ∧ StylesStop j)

/-- Reading a document comes to an end of its trees, and stops at what stands beside them. -/
def StopsBesideTrees (j : Json) : Prop :=
  (∃ trees collections styles, j.field? "collections" = some (.object trees) ∧
    readEntries TokenTree.read trees = .ok collections ∧ readStyles j = .ok styles) ∧
  ¬ (HasMetadata j ∧ HasSchema j)

/-- The style trees are read or reported, unless the reading of one of them stops. -/
lemma stopsIff_readStyles (j : Json) : StopsIff (StylesStop j) (readStyles j) := by
  unfold readStyles
  split
  · rename_i f hstyles
    have htrees := (stopsIff_readEntries stopsIff_readTree
      (f.filter fun e => styleNames.contains e.1)).bind fun trees =>
        (FailsOnly.ok (StyleTrees.ofEntries trees)).stopsIff
    refine (StopsIff.map htrees).congr ?_
    rw [and_false, or_false]
    refine ⟨fun h => ⟨f, hstyles, h⟩, ?_⟩
    rintro ⟨f', hf', h⟩
    cases hstyles.symm.trans hf'
    exact h
  · rename_i hother
    refine (FailsOnly.ok _).stopsIff.congr ⟨False.elim, ?_⟩
    rintro ⟨f, hf, _⟩
    exact hother f hf

variable {j : Json} {trees : List (String × Json)}

/-- A document without collections is reported. -/
lemma read_of_no_collections (h : ∀ trees, j.field? "collections" ≠ some (.object trees)) :
    read j = inputFault .noCollections := by
  unfold read
  split
  · rename_i trees hcollections
    exact (h trees hcollections).elim
  · rfl

/-- What stands beside the trees of a document ends its reading as an invalid record, exactly if
metadata or schema are not of the right form. -/
lemma readBeside_eq_error_iff {build : String × String → String → Document} {fault : Fault} :
    (do let metadata ← readMetadataField j
        let schema ← readSchema j
        return build metadata schema) = .error fault ↔
      fault = .invalidRecord ∧ ¬ (HasMetadata j ∧ HasSchema j) := by
  rw [← exists_readMetadataField_iff, ← exists_readSchema_iff]
  constructor
  · intro h
    rcases bind_eq_error.mp h with h | ⟨metadata, _, h⟩
    · refine ⟨failsAsInvalid_readMetadataField j fault h, ?_⟩
      rintro ⟨⟨metadata, hmetadata⟩, _⟩
      rw [hmetadata] at h
      cases h
    · rcases bind_eq_error.mp h with h | ⟨schema, _, h⟩
      · refine ⟨failsAsInvalid_readSchema j fault h, ?_⟩
        rintro ⟨_, schema, hschema⟩
        rw [hschema] at h
        cases h
      · cases h
  · rintro ⟨rfl, hnot⟩
    cases hmetadata : readMetadataField j with
    | error fault =>
      rw [failsAsInvalid_readMetadataField j fault hmetadata]
      rfl
    | ok metadata =>
      cases hschema : readSchema j with
      | error fault =>
        rw [failsAsInvalid_readSchema j fault hschema]
        rfl
      | ok schema => exact (hnot ⟨⟨metadata, hmetadata⟩, schema, hschema⟩).elim

/-- Reading a document ends with a fault if its collections do, its styles do after them, or what
stands beside the trees does after both. -/
lemma read_eq_error_iff (h : j.field? "collections" = some (.object trees)) {fault : Fault} :
    read j = .error fault ↔ readEntries TokenTree.read trees = .error fault ∨
      ∃ collections, readEntries TokenTree.read trees = .ok collections ∧
        (readStyles j = .error fault ∨ ∃ styles, readStyles j = .ok styles ∧
          fault = .invalidRecord ∧ ¬ (HasMetadata j ∧ HasSchema j)) := by
  rw [read_eq h, bind_eq_error]
  refine or_congr_right (exists_congr fun collections => and_congr_right fun _ => ?_)
  rw [bind_eq_error]
  exact or_congr_right (exists_congr fun styles => and_congr_right fun _ => readBeside_eq_error_iff)

/-- A document is not taken for an object exactly where its reading stops at a tree. -/
lemma read_eq_notAnObject_iff (j : Json) : read j = .error .notAnObject ↔ StopsAtTree j := by
  by_cases hcollections : ∃ trees, j.field? "collections" = some (.object trees)
  · obtain ⟨trees, hcollections⟩ := hcollections
    rw [read_eq_error_iff hcollections, (stopsIff_readEntries stopsIff_readTree trees).iff]
    constructor
    · rintro (h | ⟨collections, hread, h | ⟨_, _, h, _⟩⟩)
      · exact ⟨trees, hcollections, Or.inl h⟩
      · exact ⟨trees, hcollections, Or.inr ⟨⟨collections, hread⟩, (stopsIff_readStyles j).iff.mp h⟩⟩
      · cases h
    · rintro ⟨trees', hcollections', h⟩
      cases hcollections.symm.trans hcollections'
      rcases h with h | ⟨⟨collections, hread⟩, h⟩
      · exact Or.inl h
      · exact Or.inr ⟨collections, hread, Or.inl ((stopsIff_readStyles j).iff.mpr h)⟩
  · rw [read_of_no_collections (not_exists.mp hcollections)]
    refine ⟨nofun, ?_⟩
    rintro ⟨trees, h, _⟩
    exact (hcollections ⟨trees, h⟩).elim

/-- A document is an invalid record exactly where its reading stops beside its trees. -/
lemma read_eq_invalidRecord_iff (j : Json) :
    read j = .error .invalidRecord ↔ StopsBesideTrees j := by
  by_cases hcollections : ∃ trees, j.field? "collections" = some (.object trees)
  · obtain ⟨trees, hcollections⟩ := hcollections
    have htrees := (stopsIff_readEntries stopsIff_readTree trees).ne_invalidRecord
    have hstyles := (stopsIff_readStyles j).ne_invalidRecord
    rw [read_eq_error_iff hcollections]
    constructor
    · rintro (h | ⟨collections, hread, h | ⟨styles, hstyle, _, h⟩⟩)
      · exact (htrees h).elim
      · exact (hstyles h).elim
      · exact ⟨⟨trees, collections, styles, hcollections, hread, hstyle⟩, h⟩
    · rintro ⟨⟨trees', collections, styles, hcollections', hread, hstyle⟩, h⟩
      cases hcollections.symm.trans hcollections'
      exact Or.inr ⟨collections, hread, Or.inr ⟨styles, hstyle, rfl, h⟩⟩
  · rw [read_of_no_collections (not_exists.mp hcollections)]
    refine ⟨nofun, ?_⟩
    rintro ⟨⟨trees, _, _, h, _⟩, _⟩
    exact (hcollections ⟨trees, h⟩).elim

/-- A document has no other faults than those of the input and the two with which its reading
stops. -/
lemma read_faults (j : Json) : FailsOnly
    (fun fault => fault.IsInput ∨ fault = .notAnObject ∨ fault = .invalidRecord) (read j) := by
  intro fault h
  by_cases hcollections : ∃ trees, j.field? "collections" = some (.object trees)
  · obtain ⟨trees, hcollections⟩ := hcollections
    rcases (read_eq_error_iff hcollections).mp h with h | ⟨_, _, h | ⟨_, _, h, _⟩⟩
    · exact ((stopsIff_readEntries stopsIff_readTree trees).faults fault h).imp_right Or.inl
    · exact ((stopsIff_readStyles j).faults fault h).imp_right Or.inl
    · exact Or.inr (Or.inr h)
  · rw [read_of_no_collections (not_exists.mp hcollections)] at h
    exact Or.inl (failsAsInput_inputFault _ fault h)

/-- A collection that is a number is not reported. -/
example : read (.object [("collections", .object [("A", .int 5)])]) = .error .notAnObject := rfl

end Document

end DesignTokens

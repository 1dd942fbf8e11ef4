import DesignTokens.Proofs.Expr.WrittenReferences
import DesignTokens.Proofs.Export.DeclaredNames
import DesignTokens.Proofs.Token.PathLookup

/-!
# Values of tokens in flat sheets

A flat sheet shows one value of each token, the preferred one if there are several
(`Renderer.flatText_of_valueOf`).  Where the value is a calculation that is written out, it consists
of the characters of its text and of references in place of quoted paths, each to the name of a token
of the document (`Renderer.calculationText_eq`, `Renderer.exists_of_property_mem`).
-/

namespace DesignTokens

/-! ## Texts of flat sheets -/

/-- Choices between related options are related. -/
lemma rel_orElse {α β : Type} {R : α → β → Prop} {x x' : Option α} {y y' : Option β}
    (h : Option.Rel R x y) (h' : Option.Rel R x' y') : Option.Rel R (x <|> x') (y <|> y') := by
  cases h with
  | some hR => exact .some hR
  | none => exact h'

namespace OrderedMap

variable {α β : Type} {R : α → β → Prop} {a : OrderedMap α} {b : OrderedMap β}

/-- In maps that match, the preferred values are related. -/
lemma Matches.preferDefault? (h : a.Matches R b) :
    Option.Rel (fun x y => R x.2 y.2) (preferDefault? Prod.fst a) (preferDefault? Prod.fst b) := by
  have hhead : Option.Rel (fun x y => R x.2 y.2) a.head? b.head? := by
    cases h with
    | nil => exact .none
    | cons hfirst _ => exact .some hfirst.2
  exact rel_orElse (h.find?_key isDefaultName) hhead

end OrderedMap

namespace Renderer

variable {r : Renderer}

/-- The texts in modes are those of the values, mode by mode. -/
lemma matches_modeTexts {t : Token} {modes : OrderedMap FlatValue} {texts : OrderedMap String}
    (h : r.modeTexts t modes = .ok texts) :
    modes.Matches (fun value text => r.flatText t value = .ok text) texts := by
  induction modes generalizing texts with
  | nil =>
    cases h
    exact .nil
  | cons e rest ih =>
    obtain ⟨text, htext, h⟩ := bind_eq_ok.mp h
    obtain ⟨tail, htail, h⟩ := bind_eq_ok.mp h
    cases h
    exact .cons ⟨rfl, htext⟩ (ih htail)

/-- The one text of a token is that of the one value of the token. -/
lemma flatText_of_valueOf {t : Token} {value : RenderedValue} (h : r.valueOf t = .ok value)
    {x : FlatValue} (hx : t.flatValue? = some x) : r.flatText t x = .ok value.flatText := by
  unfold valueOf at h
  unfold Token.flatValue? at hx
  split at h
  · rename_i y hvalue
    rw [hvalue] at hx
    cases hx
    obtain ⟨text, htext, rfl⟩ := map_eq_ok.mp h
    exact htext
  · rename_i modes hvalue
    rw [hvalue] at hx
    obtain ⟨texts, htexts, rfl⟩ := map_eq_ok.mp h
    obtain ⟨e, he, rfl⟩ := Option.map_eq_some_iff.mp hx
    have hpreferred := (matches_modeTexts htexts).preferDefault?
    rw [he] at hpreferred
    cases hfound : preferDefault? Prod.fst texts with
    | none =>
      rw [hfound] at hpreferred
      cases hpreferred
    | some e' =>
      rw [hfound] at hpreferred
      cases hpreferred with
      | some htext =>
        have hflat : (RenderedValue.ofModes texts).flatText = e'.2 := by
          cases texts with
          | nil => cases hfound
          | cons first rest =>
            show ((preferDefault? Prod.fst (first :: rest)).map (·.2)).getD "" = e'.2
            rw [hfound]
            rfl
        rw [hflat]
        exact htext

/-! ## Parts of calculations -/

/-- The parts of a piece of a calculation: the characters of its text, or the reference that takes
the place of a quoted path. -/
def pieceParts (r : Renderer) : Piece → Except Fault (List WrittenPart)
  | .plain c => .ok [.char c]
  | .reference (.path raw) => do
    match ← r.findPath? (Reference.pathText raw) with
    | some path => return [.property (r.cssName path)]
    | none => return (Reference.path raw).chars.map .char
  | .reference ref => .ok (ref.chars.map .char)

/-- The parts of a calculation that is written out. -/
def calculationParts (r : Renderer) (text : String) : Except Fault (List WrittenPart) := do
  return (← (pieces Reference.path? text.toList).mapM r.pieceParts).flatten

/-- A piece is written part by part. -/
lemma pieceText_eq (p : Piece) :
    r.pieceText p = (r.pieceParts p).map (·.flatMap WrittenPart.chars) := by
  cases p with
  | plain c => rfl
  | reference ref =>
    cases ref with
    | property raw =>
      show _ = Except.ok (((Reference.property raw).chars.map WrittenPart.char).flatMap
        WrittenPart.chars)
      rw [WrittenPart.flatMap_chars_map_char]
      rfl
    | path raw =>
      unfold pieceText pieceParts
      dsimp only
      cases r.findPath? (Reference.pathText raw) with
      | error e => rfl
      | ok found =>
        cases found with
        | none =>
          show _ = Except.ok (((Reference.path raw).chars.map WrittenPart.char).flatMap
            WrittenPart.chars)
          rw [WrittenPart.flatMap_chars_map_char]
          rfl
        | some path =>
          show _ = Except.ok ((CssName.reference (r.cssName path)).toList ++ [])
          rw [List.append_nil]
          rfl

/-- A calculation is written out part by part. -/
lemma calculationText_eq (text : String) :
    r.calculationText text = (r.calculationParts text).map fun parts =>
      r.language.finish (String.ofList (parts.flatMap WrittenPart.chars)) := by
  unfold calculationText calculationParts
  rw [funext (@pieceText_eq r), mapM_map]
  cases (pieces Reference.path? text.toList).mapM r.pieceParts with
  | error e => rfl
  | ok parts =>
    show Except.ok _ = Except.ok _
    dsimp only
    rw [List.flatMap_def, List.map_flatten, List.flatten_flatten, List.map_map]
    rfl

/-- A calculation without quotes is written as it is. -/
lemma calculationParts_of_not_mem {text : String} (h : '\'' ∉ text.toList) :
    r.calculationParts text = .ok (text.toList.map .char) := by
  have hwritten : ∀ cs : List Char, '\'' ∉ cs →
      (pieces Reference.path? cs).mapM r.pieceParts = .ok (cs.map fun c => [.char c]) := by
    intro cs hcs
    induction cs with
    | nil => simp [pieces]; rfl
    | cons c rest ih =>
      obtain ⟨hc, hrest⟩ := not_or.mp (mt List.mem_cons.mpr hcs)
      have hnone : Reference.path? (c :: rest) = none := by
        unfold Reference.path?
        split
        · rename_i heq
          exact absurd (List.cons.inj heq).1.symm hc
        · rfl
      rw [pieces_cons_of_none hnone, List.mapM_cons, ih hrest]
      rfl
  unfold calculationParts
  rw [hwritten text.toList h]
  exact congrArg Except.ok List.map_eq_flatMap.symm

end Renderer

/-! ## Paths of tokens -/

namespace Document

variable {d : Document}

/-- A path with slashes that names a token is resolved to the path of the token. -/
lemma hasTokenAt_of_resolvePath (hkeyed : d.IsKeyed) {path : String} {found : List String}
    {t : Token} (h : d.resolvePath path = .ok (some (found, t))) : d.HasTokenAt found t := by
  unfold resolvePath at h
  split at h
  · rename_i t' hfull
    cases h
    exact (atFullPath?_eq_some_iff hkeyed).mp hfull
  · split at h
    · cases h
    · rename_i e hshort
      cases h
      have he : (found, t) ∈ d.atShortPath (segments path) := by
        rw [hshort]
        exact List.mem_singleton_self _
      obtain ⟨name, t', heq, ht⟩ := (mem_atShortPath_iff hkeyed).mp he
      cases heq
      exact ht
    · cases h

end Document

namespace Renderer

variable {r : Renderer}

/-- The path that is found for a quoted path is that of a token. -/
lemma exists_of_findPath? (hkeyed : r.document.IsKeyed) {path : String} {found : List String}
    (h : r.findPath? path = .ok (some found)) : ∃ t, r.document.HasTokenAt found t := by
  obtain ⟨resolved, hresolved, h⟩ := bind_eq_ok.mp h
  cases resolved with
  | some e =>
    cases h
    exact ⟨e.2, Document.hasTokenAt_of_resolvePath hkeyed hresolved⟩
  | none =>
    have hdotted := Except.ok.inj h
    split_ifs at hdotted
    obtain ⟨t, ht, _⟩ := Document.exists_of_resolveReference hdotted
    exact ⟨t, ht⟩

/-- A reference that takes the place of a quoted path is to the name of a token. -/
lemma exists_of_property_mem (hkeyed : r.document.IsKeyed) {text : String}
    {parts : List WrittenPart} (h : r.calculationParts text = .ok parts) {name : String}
    (hname : .property name ∈ parts) :
    ∃ path t, r.document.HasTokenAt path t ∧ name = r.cssName path := by
  obtain ⟨written, hwritten, h⟩ := bind_eq_ok.mp h
  cases h
  obtain ⟨piece, hpiece, hname⟩ := List.mem_flatten.mp hname
  obtain ⟨p, _, hparts⟩ := exists_of_mem_mapM hwritten hpiece
  have hchars : ∀ cs : List Char, WrittenPart.property name ∉ cs.map WrittenPart.char := by
    intro cs hmem
    obtain ⟨_, _, heq⟩ := List.mem_map.mp hmem
    cases heq
  unfold pieceParts at hparts
  split at hparts
  · cases hparts
    cases List.mem_singleton.mp hname
  · obtain ⟨found, hfound, hparts⟩ := bind_eq_ok.mp hparts
    cases found with
    | none =>
      cases hparts
      exact absurd hname (hchars _)
    | some path =>
      cases hparts
      cases List.mem_singleton.mp hname
      obtain ⟨t, ht⟩ := exists_of_findPath? hkeyed hfound
      exact ⟨path, t, ht, rfl⟩
  · cases hparts
    exact absurd hname (hchars _)

end Renderer

end DesignTokens

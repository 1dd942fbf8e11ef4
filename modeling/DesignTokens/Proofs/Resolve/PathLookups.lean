import DesignTokens.Export.Renderer
import DesignTokens.Proofs.Expr.QuotedPaths
import DesignTokens.Proofs.Resolve.Calculation
import DesignTokens.Proofs.Resolve.WrittenMarks

/-!
# Which paths are looked up

Calculations are written out for libraries and for documents, and they are evaluated.  Each of these
takes the paths of a text one after the other and looks them up.  To see which paths these are, the
computations are stated over any way of looking up a path (`Scope.passThroughBy`,
`Renderer.calculationTextBy`, `Scope.calculateBy`); with the look-up of the library or of the
document they are the computations themselves, and with one that keeps a record (`recording`) they
show what they look up (`LooksUp`).

A calculation that is written out looks up all paths that its text refers to, in their order.  One
that is evaluated does not look up a path again for which it has a number already.
-/

namespace DesignTokens

/-! ## Computations over a look-up -/

section lookups

variable {m : Type → Type} [Monad m]

/-- A piece of a calculation, a quoted path replaced by what is found for it. -/
def Piece.foundBy (find : String → m (Option (List Char))) : Piece → m (List Char)
  | .plain c => pure [c]
  | .reference (.path raw) => do
    return (← find (Reference.pathText raw)).getD (Reference.path raw).chars
  | .reference ref => pure ref.chars

/-- A calculation with its quoted paths replaced by what is found for them. -/
def foundBy (find : String → m (Option (List Char))) (text : String) : m String := do
  let written ← (pieces Reference.path? text.toList).mapM (Piece.foundBy find)
  return String.ofList written.flatten

/-- A calculation of a document written out. -/
def Renderer.calculationTextBy (r : Renderer) (find : String → m (Option (List String)))
    (text : String) : m String := do
  let written ← foundBy (fun path => do
    return (← find path).map fun found => (CssName.reference (r.cssName found)).toList) text
  return r.language.finish written

namespace Scope

/-- The reference to a variable that has been found; an ambiguous path has none. -/
def passed? (s : Scope) (language : CalcSyntax) :
    Except Fault (Option LibraryEntry) → Option (List Char)
  | .ok (some entry) => some (language.reference (s.cssName entry.item)).toList
  | _ => none

/-- A calculation of a library written out in a language, converted to a unit. -/
def passThroughBy (s : Scope) (find : String → m (Except Fault (Option LibraryEntry)))
    (language : CalcSyntax) (text : String) (remBaseVariable : Option String) (unit : CssUnit) :
    m String := do
  let written ← foundBy (fun path => do return s.passed? language (← find path)) text
  let base := (remBaseVariable.filter (· ≠ "")).bind s.byId?
  return language.finish <|
    convertTo unit (base.map fun v => language.reference (s.cssName v)) written

/-- The variable that a reference of a calculation names. -/
def byReferenceBy (s : Scope) (find : String → m (Option LibraryEntry)) :
    Reference → m (Option LibraryEntry)
  | .path raw => find (Reference.pathText raw)
  | .property raw => pure (s.byProperty? (Reference.property raw).text)

variable [MonadLiftT (Except Fault) m]

/-- Looks up one reference. -/
def lookUpBy (s : Scope) (find : String → m (Option LibraryEntry)) (modeId : String)
    (found : Found) (r : Reference) : m Found := do
  if (found.quantities.lookup r.text).isSome then return found
  match ← s.byReferenceBy find r with
  | none => return found
  | some entry => s.addEntry modeId found r entry

/-- The outcome of the calculation of a formatting in a mode. -/
def calculateBy (s : Scope) (find : String → m (Option LibraryEntry)) (f : Formatting)
    (modeId : String) : m Calculation := do
  match f.calculation? with
  | none => return { value := none, unit := f.unit, warnings := ["No expression provided"] }
  | some text =>
    let found ← (referencesOf Reference.any? text).foldlM (s.lookUpBy find modeId) {}
    let c := Calculation.ofText text fun reference => found.quantities.lookup reference
    return { c with
      unit := if f.unit = .px then c.unit else f.unit
      warnings := found.warnings ++ c.warnings }

end Scope

end lookups

/-! ## The look-ups of libraries and documents -/

/-- With the look-up of the document, a calculation of a document is written out as it is. -/
lemma Renderer.calculationTextBy_findPath? (r : Renderer) (text : String) :
    r.calculationTextBy r.findPath? text = r.calculationText text := by
  have hpiece : ∀ piece, Piece.foundBy (fun path => do
      return (← r.findPath? path).map fun found => (CssName.reference (r.cssName found)).toList)
        piece = r.pieceText piece := by
    intro piece
    cases piece with
    | plain c => rfl
    | reference ref =>
      cases ref with
      | property raw => rfl
      | path raw =>
        unfold Piece.foundBy pieceText
        dsimp only
        cases r.findPath? (Reference.pathText raw) with
        | error fault => rfl
        | ok found => cases found <;> rfl
  unfold calculationTextBy foundBy calculationText
  rw [funext hpiece]
  cases (pieces Reference.path? text.toList).mapM r.pieceText <;> rfl

namespace Scope

variable (s : Scope)

/-- With the look-up of the library, a calculation of a library is written out as it is. -/
lemma passThroughBy_byPath (language : CalcSyntax) (text : String)
    (remBaseVariable : Option String) (unit : CssUnit) :
    s.passThroughBy (fun path => Except.ok (s.byPath path)) language text remBaseVariable unit =
      (.ok (s.passThrough language text remBaseVariable unit) : Except Fault String) := by
  have hpiece : ∀ piece, Piece.foundBy (fun path => do
      return s.passed? language (← (Except.ok (s.byPath path) : Except Fault _))) piece =
        Except.ok (Piece.charsWith (s.passReference language) piece) := by
    intro piece
    cases piece with
    | plain c => rfl
    | reference ref =>
      cases ref with
      | property raw => rfl
      | path raw =>
        unfold Piece.foundBy Piece.charsWith passReference
        dsimp only
        cases s.byPath (Reference.pathText raw) with
        | error fault => rfl
        | ok found => cases found <;> rfl
  have hwritten : foundBy (fun path => do
      return s.passed? language (← (Except.ok (s.byPath path) : Except Fault _))) text =
        Except.ok (s.passReferences language text) := by
    unfold foundBy passReferences replaceReferences
    rw [funext hpiece]
    exact bind_of_ok List.mapM_pure _
  unfold passThroughBy
  rw [hwritten]
  rfl

/-- With the look-up of the library, a reference is looked up as it is. -/
lemma lookUpBy_byPath (modeId : String) (found : Found) (r : Reference) :
    s.lookUpBy s.byPath modeId found r = s.lookUp modeId found r := by
  cases r <;> rfl

/-- With the look-up of the library, a calculation is evaluated as it is. -/
lemma calculateBy_byPath (f : Formatting) (modeId : String) :
    s.calculateBy s.byPath f modeId = s.calculate f modeId := by
  have hlookUp : s.lookUpBy s.byPath modeId = s.lookUp modeId :=
    funext fun found => funext (s.lookUpBy_byPath modeId found)
  unfold calculateBy calculate
  cases f.calculation? with
  | none => rfl
  | some text =>
    dsimp only
    rw [hlookUp]

end Scope

/-! ## Records of look-ups -/

/-- A computation that may fail and keeps a record of the paths that it looks up. -/
abbrev Recording : Type → Type :=
  ExceptT Fault (StateM (List String))

/-- A look-up that is recorded. -/
def recording {α : Type} (find : String → Except Fault α) (path : String) : Recording α :=
  ExceptT.mk do
    modify (· ++ [path])
    return find path

/-- A computation has an outcome and looks up paths in their order: all of them if it ends well, and
otherwise the first ones, up to the one where it fails. -/
def LooksUp {α : Type} (x : Recording α) (outcome : Except Fault α) (paths : List String) : Prop :=
  ∃ log, (∀ before, x.run.run before = (outcome, before ++ log)) ∧ log <+: paths ∧
    ∀ a, outcome = .ok a → log = paths

namespace LooksUp

variable {α β : Type} {x : Recording α} {outcome : Except Fault α} {paths paths' : List String}

/-- What ends well has looked up all of its paths. -/
lemma run_eq {a : α} (h : LooksUp x (.ok a) paths) : x.run.run [] = (.ok a, paths) := by
  obtain ⟨log, hrun, -, hall⟩ := h
  rw [hrun, hall a rfl, List.nil_append]

/-- A result takes no look-up. -/
lemma pure (a : α) : LooksUp (Pure.pure a) (.ok a) [] :=
  ⟨[], fun before => by rw [List.append_nil]; rfl, List.prefix_rfl, fun _ _ => rfl⟩

/-- A computation without look-ups has none. -/
lemma lift (outcome : Except Fault α) : LooksUp (liftM outcome) outcome [] := by
  refine ⟨[], fun before => ?_, List.prefix_rfl, fun _ _ => rfl⟩
  rw [List.append_nil]
  rfl

/-- A recorded look-up looks up its path. -/
lemma recording (find : String → Except Fault α) (path : String) :
    LooksUp (DesignTokens.recording find path) (find path) [path] :=
  ⟨[path], fun _ => rfl, List.prefix_rfl, fun _ _ => rfl⟩

/-- A sequence looks up the paths of its first part, and then those of its second part. -/
lemma bind {f : α → Recording β} {g : α → Except Fault β} (hx : LooksUp x outcome paths)
    (hf : ∀ a, outcome = .ok a → LooksUp (f a) (g a) paths') :
    LooksUp (x >>= f) (outcome >>= g) (paths ++ paths') := by
  obtain ⟨log, hrun, hprefix, hall⟩ := hx
  have hbind : ∀ before, (x >>= f).run.run before =
      (ExceptT.bindCont f (x.run.run before).1).run (x.run.run before).2 := fun _ => rfl
  cases outcome with
  | error fault =>
    refine ⟨log, fun before => ?_, hprefix.trans (List.prefix_append paths paths'), nofun⟩
    rw [hbind, hrun]
    rfl
  | ok a =>
    obtain ⟨log', hrun', hprefix', hall'⟩ := hf a rfl
    obtain rfl := hall a rfl
    refine ⟨log ++ log', fun before => ?_, (List.prefix_append_right_inj log).mpr hprefix',
      fun b hb => congrArg (log ++ ·) (hall' b hb)⟩
    rw [hbind, hrun, ← List.append_assoc]
    exact hrun' _

/-- A sequence takes the look-ups of its first part if its second part takes none. -/
lemma bind_none {f : α → Recording β} {g : α → Except Fault β} (hx : LooksUp x outcome paths)
    (hf : ∀ a, LooksUp (f a) (g a) []) : LooksUp (x >>= f) (outcome >>= g) paths := by
  have h := hx.bind fun a _ => hf a
  rwa [List.append_nil] at h

/-- A result that is changed takes the same look-ups. -/
lemma map (hx : LooksUp x outcome paths) (f : α → β) :
    LooksUp (do return f (← x)) (do return f (← outcome)) paths :=
  hx.bind_none fun a => pure (f a)

/-- The items of a list are looked up one after the other. -/
lemma mapM {f : α → Recording β} {g : α → Except Fault β} {given : α → List String}
    (h : ∀ a, LooksUp (f a) (g a) (given a)) (items : List α) :
    LooksUp (items.mapM f) (items.mapM g) (items.flatMap given) := by
  induction items with
  | nil => exact pure []
  | cons a items ih =>
    rw [List.mapM_cons, List.mapM_cons, List.flatMap_cons]
    exact (h a).bind fun b _ => ih.map (b :: ·)

end LooksUp

/-! ## Written calculations -/

section written

variable {find : String → Recording (Option (List Char))}
  {find' : String → Except Fault (Option (List Char))}

/-- Replacing quoted paths takes a look-up of each path that a text refers to. -/
lemma looksUp_foundBy (h : ∀ path, LooksUp (find path) (find' path) [path]) (text : String) :
    LooksUp (foundBy find text) (foundBy find' text) (pathReferences text) := by
  have hpiece : ∀ piece : Piece, LooksUp (piece.foundBy find) (piece.foundBy find')
      (piece.reference?.bind Reference.pathText?).toList := by
    intro piece
    cases piece with
    | plain c => exact LooksUp.pure [c]
    | reference ref =>
      cases ref with
      | property raw => exact LooksUp.pure _
      | path raw => exact (h (Reference.pathText raw)).map _
  have hpaths : pathReferences text = (pieces Reference.path? text.toList).flatMap fun piece =>
      (piece.reference?.bind Reference.pathText?).toList := by
    rw [pathReferences_eq, referencesOf_eq, List.filterMap_filterMap, List.filterMap_eq_flatMap_toList]
  rw [hpaths]
  exact (LooksUp.mapM hpiece _).map _

/-- A calculation of a document that is written out takes a look-up of each path that it refers to,
as far as none of them fails. -/
lemma Renderer.looksUp_calculationTextBy (r : Renderer) (text : String) :
    LooksUp (r.calculationTextBy (recording r.findPath?) text) (r.calculationText text)
      (pathReferences text) := by
  rw [← r.calculationTextBy_findPath?]
  exact (looksUp_foundBy (fun path => (LooksUp.recording r.findPath? path).map _) text).map _

/-- A calculation of a library that is written out takes a look-up of each path that it refers to.
-/
lemma Scope.looksUp_passThroughBy (s : Scope) (language : CalcSyntax) (text : String)
    (remBaseVariable : Option String) (unit : CssUnit) :
    LooksUp (s.passThroughBy (recording fun path => .ok (s.byPath path)) language text
        remBaseVariable unit)
      (.ok (s.passThrough language text remBaseVariable unit)) (pathReferences text) := by
  rw [← s.passThroughBy_byPath]
  exact (looksUp_foundBy (fun path => (LooksUp.recording _ path).map _) text).map _

end written

/-! ## Evaluated calculations -/

namespace Scope

variable (s : Scope) (modeId : String)

/-- A path brings a number: it names a numeric variable that has one in the mode. -/
def resolves (path : String) : Bool :=
  match s.byPath path with
  | .ok (some entry) =>
    entry.item.type = .number && (s.numberInMode? entry.item modeId).isSome
  | _ => false

/-- The paths of a list that have to be looked up after some other ones: all but those that bring a
number and have been looked up before. -/
def neededPaths (before : List String) : List String → List String
  | [] => []
  | path :: paths =>
    (if path ∈ before ∧ s.resolves modeId path then [] else [path]) ++
      neededPaths (path :: before) paths

variable {s modeId} {found found' : Found}

/-- The numbers that have been found are those of paths that have been looked up. -/
def Found.IsOf (s : Scope) (modeId : String) (before : List String) (found : Found) : Prop :=
  ∀ path, (found.quantities.lookup (Reference.ofPath path).text).isSome = true ↔
    path ∈ before ∧ s.resolves modeId path = true

/-- What is written for a path is looked up by the path. -/
lemma byReferenceBy_ofPath {m : Type → Type} [Monad m] (find : String → m (Option LibraryEntry))
    (path : String) : s.byReferenceBy find (Reference.ofPath path) = find path := by
  show find (Reference.pathText (Reference.escape path.toList)) = find path
  rw [Reference.pathText_escape]

/-- What is written for a path names the variable that the path names. -/
lemma byReference_ofPath (path : String) :
    s.byReference (Reference.ofPath path) = s.byPath path := by
  show s.byPath (Reference.pathText (Reference.escape path.toList)) = s.byPath path
  rw [Reference.pathText_escape]

/-- A reference is looked up unless there is a number for it. -/
lemma lookUp_eq (r : Reference) : s.lookUp modeId found r =
    if (found.quantities.lookup r.text).isSome then .ok found
    else s.byReference r >>= fun entry => match entry with
      | none => .ok found
      | some entry => s.addEntry modeId found r entry := by
  unfold lookUp
  split_ifs <;> rfl

/-- A variable brings a number under its reference if it has one in the mode. -/
lemma lookup_addEntry {r : Reference} {entry : LibraryEntry}
    (h : s.addEntry modeId found r entry = .ok found') (text : String) :
    (found'.quantities.lookup text).isSome = true ↔ (found.quantities.lookup text).isSome = true ∨
      (text = r.text ∧ entry.item.type = .number ∧
        (s.numberInMode? entry.item modeId).isSome = true) := by
  rcases addEntry_cases h with ⟨q, htype, -, hnumber, hquantities⟩ | ⟨hnone, hquantities⟩
  · rw [hquantities, hnumber]
    simp [List.lookup_append, htype]
  · rw [hquantities]
    exact ⟨Or.inl, fun hor => hor.resolve_right fun hnew => hnone hnew.2⟩

/-- After a path has been looked up, there is a number for it if it brings one, and for every other
reference if there was one before. -/
lemma lookup_lookUp {path : String}
    (h : s.lookUp modeId found (Reference.ofPath path) = .ok found') (text : String) :
    (found'.quantities.lookup text).isSome = true ↔ (found.quantities.lookup text).isSome = true ∨
      (text = (Reference.ofPath path).text ∧ s.resolves modeId path = true) := by
  rw [lookUp_eq] at h
  split_ifs at h with hknown
  · cases h
    refine ⟨Or.inl, ?_⟩
    rintro (hsome | ⟨rfl, -⟩)
    · exact hsome
    · exact hknown
  · obtain ⟨entry, hentry, h⟩ := bind_eq_ok.mp h
    rw [byReference_ofPath] at hentry
    unfold resolves
    rw [hentry]
    cases entry with
    | none =>
      cases h
      simp
    | some entry => simp [lookup_addEntry h]

/-- Looking up a path adds it to those that have been looked up. -/
lemma Found.IsOf.lookUp {before : List String} (h : Found.IsOf s modeId before found)
    {path : String} (hstep : s.lookUp modeId found (Reference.ofPath path) = .ok found') :
    Found.IsOf s modeId (path :: before) found' := by
  intro other
  have hsame : (Reference.ofPath other).text = (Reference.ofPath path).text ↔ other = path :=
    (Reference.text_injective.comp Reference.ofPath_injective).eq_iff
  rw [lookup_lookUp hstep, h other, hsame, List.mem_cons]
  constructor
  · rintro (⟨hmem, hresolves⟩ | ⟨rfl, hresolves⟩)
    · exact ⟨Or.inr hmem, hresolves⟩
    · exact ⟨Or.inl rfl, hresolves⟩
  · rintro ⟨rfl | hmem, hresolves⟩
    · exact Or.inr ⟨rfl, hresolves⟩
    · exact Or.inl ⟨hmem, hresolves⟩

/-- A path is looked up unless it brings a number and has been looked up before. -/
lemma looksUp_lookUpBy {before : List String} (h : Found.IsOf s modeId before found)
    (path : String) :
    LooksUp (s.lookUpBy (recording s.byPath) modeId found (Reference.ofPath path))
      (s.lookUp modeId found (Reference.ofPath path))
      (if path ∈ before ∧ s.resolves modeId path then [] else [path]) := by
  rw [lookUp_eq]
  unfold lookUpBy
  by_cases hknown : (found.quantities.lookup (Reference.ofPath path).text).isSome = true
  · rw [if_pos hknown, if_pos hknown, if_pos ((h path).mp hknown)]
    exact LooksUp.pure found
  · rw [if_neg hknown, if_neg hknown, if_neg (mt (h path).mpr hknown)]
    rw [byReferenceBy_ofPath, byReference_ofPath]
    refine (LooksUp.recording s.byPath path).bind_none fun entry => ?_
    cases entry with
    | none => exact LooksUp.pure found
    | some entry => exact LooksUp.lift _

/-- Paths are looked up one after the other, except those that bring a number and have been looked
up before. -/
lemma looksUp_foldlM (paths : List String) {before : List String}
    (h : Found.IsOf s modeId before found) :
    LooksUp ((paths.map Reference.ofPath).foldlM (s.lookUpBy (recording s.byPath) modeId) found)
      ((paths.map Reference.ofPath).foldlM (s.lookUp modeId) found)
      (s.neededPaths modeId before paths) := by
  induction paths generalizing before found with
  | nil => exact LooksUp.pure found
  | cons path paths ih =>
    rw [List.map_cons, List.foldlM_cons, List.foldlM_cons]
    exact (looksUp_lookUpBy h path).bind fun found' hstep => ih (h.lookUp hstep)

/-- Before any path has been looked up, there are no numbers. -/
lemma Found.isOf_nil : Found.IsOf s modeId [] {} := by
  intro path
  simp

/-- A calculation whose references are quoted paths takes a look-up of each of them that brings no
number from before. -/
lemma looksUp_calculateBy {f : Formatting} {text : String} (htext : f.calculation? = some text)
    {paths : List String} (hpaths : referencesOf Reference.any? text = paths.map Reference.ofPath) :
    LooksUp (s.calculateBy (recording s.byPath) f modeId) (s.calculate f modeId)
      (s.neededPaths modeId [] paths) := by
  unfold calculateBy calculate
  rw [htext]
  dsimp only
  rw [hpaths]
  exact (looksUp_foldlM paths Found.isOf_nil).bind_none fun found => LooksUp.pure _

/-- A path that can be looked up on its own can be looked up after other ones. -/
lemma exists_lookUp_of_empty {path : String}
    (h : ∃ found', s.lookUp modeId {} (Reference.ofPath path) = .ok found') (found : Found) :
    ∃ found', s.lookUp modeId found (Reference.ofPath path) = .ok found' := by
  obtain ⟨found', h⟩ := h
  rw [lookUp_eq, if_neg (by simp)] at h
  obtain ⟨entry, hentry, h⟩ := bind_eq_ok.mp h
  rw [lookUp_eq]
  split_ifs
  · exact ⟨found, rfl⟩
  · rw [bind_of_ok hentry]
    cases entry with
    | none => exact ⟨found, rfl⟩
    | some entry => exact exists_addEntry_iff.mpr (exists_addEntry_iff.mp ⟨found', h⟩)

/-- A calculation whose references are quoted paths is evaluated if all of them can be looked up. -/
lemma exists_calculate {f : Formatting} {text : String} (htext : f.calculation? = some text)
    {paths : List String} (hpaths : referencesOf Reference.any? text = paths.map Reference.ofPath)
    (h : ∀ path ∈ paths, ∃ found, s.lookUp modeId {} (Reference.ofPath path) = .ok found) :
    ∃ c, s.calculate f modeId = .ok c := by
  have hfold : ∀ found, ∃ found',
      (paths.map Reference.ofPath).foldlM (s.lookUp modeId) found = .ok found' := by
    clear hpaths
    induction paths with
    | nil => exact fun found => ⟨found, rfl⟩
    | cons path paths ih =>
      intro found
      obtain ⟨hpath, hpaths⟩ := List.forall_mem_cons.mp h
      obtain ⟨found', hfound'⟩ := exists_lookUp_of_empty hpath found
      rw [List.map_cons, List.foldlM_cons, bind_of_ok hfound']
      exact ih hpaths found'
  obtain ⟨found, hfound⟩ := hfold {}
  unfold calculate
  rw [htext]
  dsimp only
  rw [hpaths, bind_of_ok hfound]
  exact ⟨_, rfl⟩

end Scope

/-- A calculation of a document is written out if each path that it refers to can be looked up. -/
lemma Renderer.exists_calculationText {r : Renderer} {text : String}
    (h : ∀ path ∈ pathReferences text, ∃ found, r.findPath? path = .ok found) :
    ∃ written, r.calculationText text = .ok written := by
  have hpieces : ∀ piece ∈ pieces Reference.path? text.toList, ∃ chars,
      r.pieceText piece = .ok chars := by
    intro piece hpiece
    cases piece with
    | plain c => exact ⟨_, rfl⟩
    | reference ref =>
      cases ref with
      | property raw => exact ⟨_, rfl⟩
      | path raw =>
        have hmem : Reference.pathText raw ∈ pathReferences text := by
          rw [pathReferences_eq, referencesOf_eq]
          exact List.mem_filterMap.mpr ⟨_, List.mem_filterMap.mpr ⟨_, hpiece, rfl⟩, rfl⟩
        obtain ⟨found, hfound⟩ := h _ hmem
        unfold pieceText
        dsimp only
        rw [bind_of_ok hfound]
        cases found <;> exact ⟨_, rfl⟩
  obtain ⟨written, hwritten⟩ := exists_mapM_eq_ok_iff.mpr hpieces
  unfold calculationText
  rw [bind_of_ok hwritten]
  exact ⟨_, rfl⟩

/-! ## Texts with quoted paths -/

/-- A text with quoted paths is empty only if there are none. -/
lemma eq_nil_of_quotingText_eq_empty {first : String} {parts : List (String × String)}
    (h : quotingText first parts = "") : parts = [] := by
  cases parts with
  | nil => rfl
  | cons part parts =>
    have hchars := congrArg String.toList h
    unfold quotingText at hchars
    rw [String.toList_ofList] at hchars
    cases (List.append_eq_nil_iff.mp hchars).2

/-- Two quoted paths, one of them twice.  It ends in a backslash, and a quote follows a quote. -/
def escapedParts : List (String × String) :=
  [("it's\\", ""), ("Spacing/\n", " * "), ("it's\\", "")]

end DesignTokens

import DesignTokens.Export.Renderer
import DesignTokens.Proofs.Token.Contents

/-!
# Places of tokens

A token that is added to a tree replaces one that stands at its path, and a collection that is added
to a document replaces one of its name.  A variable holds its place in the document of a library if
nothing that is added later takes it (`HoldsPlace`), and then its token is walked in the tree of its
collection (`HoldsPlace.mem_walk`).
-/

namespace DesignTokens

/-- A variable of a selected collection whose place in the document no later variable and no later
collection takes. -/
structure HoldsPlace (library : Library) (s : Settings) (c : Collection) (v : Variable) : Prop where
  /-- The collection is selected, and none of its name comes later. -/
  selected : ∃ before after, Collection.select s.selection library.collections =
    before ++ c :: after ∧ ∀ later ∈ after, later.name ≠ c.name
  /-- The collection is selected by its name, if any are. -/
  named : s.selection.isEmpty = true ∨ s.selection.contains c.name = true
  /-- The variable belongs to the collection, and none with a token at its path comes later. -/
  member : ∃ before after, c.members Variable.name library.vars = .ok (before ++ v :: after) ∧
    ∀ later ∈ after, nameSegments later.name = nameSegments v.name →
      (Scope.ofSettings library s).token? c later = .ok none

namespace Scope

variable {s : Scope} {c : Collection} {v : Variable} {tree : TokenTree} {token : Token}

/-- The token of a variable is walked in the tree of its collection, if no later variable has a
token at its path. -/
lemma mem_tree {before after : List Variable}
    (hmembers : c.members Variable.name s.vars = .ok (before ++ v :: after))
    (hlast : ∀ later ∈ after, nameSegments later.name = nameSegments v.name →
      s.token? c later = .ok none)
    (htoken : s.token? c v = .ok (some token)) (h : s.tree c = .ok tree) :
    (nameSegments v.name, token) ∈ TokenTree.walk [] tree := by
  unfold Scope.tree at h
  rw [bind_of_ok hmembers] at h
  exact foldlM_of_step (fun tree => (nameSegments v.name, token) ∈ TokenTree.walk [] tree)
    (fun _ _ hstep => self_mem_addToken htoken hstep)
    (fun _ later hlater _ hb hstep => mem_addToken hb (hlast later hlater) hstep) h

end Scope

namespace Document

variable {d : Document}

/-- The exported collections are those whose name is selected, if anything is. -/
lemma mem_selected_iff {s : Settings} {e : String × TokenTree} :
    e ∈ d.selected s ↔ e ∈ d.collections ∧ (s.selection = [] ∨ e.1 ∈ s.selection) := by
  unfold selected
  split_ifs with hempty
  · simp [List.isEmpty_iff.mp hempty]
  · have hne : s.selection ≠ [] := fun h => hempty (List.isEmpty_iff.mpr h)
    simp [hne]

end Document

/-- The token of a variable that holds its place is walked in an exported tree of its collection. -/
theorem HoldsPlace.mem_walk {library : Library} {s : Settings} {c : Collection} {v : Variable}
    (h : HoldsPlace library s c v) {styles : Option Styles} {sourceFile generatedAt : String}
    {d : Document}
    (hdocument : Document.ofLibrary library s s.documentOptions styles sourceFile generatedAt =
      .ok d)
    {token : Token} (htoken : (Scope.ofSettings library s).token? c v = .ok (some token)) :
    ∃ tree, (c.name, tree) ∈ d.selected s ∧
      (nameSegments v.name, token) ∈ TokenTree.walk [] tree := by
  obtain ⟨before, after, hselected, hlater⟩ := h.selected
  obtain ⟨members, rest, hmembers, hlast⟩ := h.member
  have hselection : Collection.select (s.documentOptions.selected.getD []) library.collections =
      before ++ c :: after := hselected
  obtain ⟨tree, htree, hmem⟩ := Document.exists_tree_of_last hdocument hselection hlater
  have hexported : (c.name, tree) ∈ d.selected s := Document.mem_selected_iff.mpr
    ⟨hmem, h.named.imp List.isEmpty_iff.mp List.contains_iff_mem.mp⟩
  exact ⟨tree, hexported, Scope.mem_tree hmembers hlast htoken htree⟩

end DesignTokens

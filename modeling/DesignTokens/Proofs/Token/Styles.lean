import DesignTokens.Proofs.OrderedMap
import DesignTokens.Token.Document

/-!
# Trees of styles

The style trees of a document that are there and not empty, as a map from the names of their kinds.
The map is put together again from what is found under these names (`present_ofEntries`), and an
entry of it is what stands in the field of its kind (`find?_of_mem_present`).
-/

namespace DesignTokens

/-- The names of the kinds of styles. -/
def styleNames : List String := ["paint", "text", "effect", "grid"]

namespace StyleTrees

/-- The trees by the names of their kinds. -/
def byName (s : StyleTrees) : OrderedMap (Option TokenTree) :=
  [("paint", s.paint), ("text", s.text), ("effect", s.effect), ("grid", s.grid)]

/-- A tree under its name, if it is there and not empty. -/
def kept (e : String × Option TokenTree) : Option (String × TokenTree) :=
  match e with
  | (name, some (child :: rest)) => some (name, child :: rest)
  | _ => none

/-- The trees that are there and not empty are those that are kept. -/
lemma present_eq (s : StyleTrees) : s.present = s.byName.filterMap kept := by
  unfold present byName
  refine List.filterMap_congr fun e _ => ?_
  obtain ⟨name, tree⟩ := e
  cases tree with
  | none => rfl
  | some tree => cases tree <;> rfl

/-- A tree that is kept is the one under its name, and is not empty. -/
lemma kept_eq_some {e : String × Option TokenTree} {b : String × TokenTree}
    (h : kept e = some b) : e = (b.1, some b.2) ∧ b.2 ≠ [] := by
  obtain ⟨name, tree⟩ := e
  cases tree with
  | none => cases h
  | some tree =>
    cases tree with
    | nil => cases h
    | cons child rest =>
      cases h
      exact ⟨rfl, List.cons_ne_nil _ _⟩

/-- A tree that is there is the one under its name, and is not empty. -/
lemma of_mem_present {s : StyleTrees} {e : String × TokenTree} (h : e ∈ s.present) :
    (e.1, some e.2) ∈ s.byName ∧ e.2 ≠ [] := by
  rw [present_eq] at h
  obtain ⟨c, hc, hkept⟩ := List.mem_filterMap.mp h
  obtain ⟨hentry, hne⟩ := kept_eq_some hkept
  exact ⟨hentry ▸ hc, hne⟩

/-- The trees that are there have names of kinds, each once at most. -/
lemma keys_present (s : StyleTrees) : s.present.keys.Sublist styleNames := by
  have hkept : ((s.byName.filterMap kept).map Prod.fst).Sublist (s.byName.map Prod.fst) :=
    sublist_filterMap (fun e b h => by rw [(kept_eq_some h).1]) s.byName
  rw [present_eq]
  exact hkept

/-- The trees that are found under the names of kinds. -/
def ofEntries (m : OrderedMap TokenTree) : StyleTrees where
  paint := OrderedMap.find? "paint" m
  text := OrderedMap.find? "text" m
  effect := OrderedMap.find? "effect" m
  grid := OrderedMap.find? "grid" m

/-- Under the name of a kind stands what is found. -/
lemma byName_ofEntries (m : OrderedMap TokenTree) :
    (ofEntries m).byName = styleNames.map fun name => (name, OrderedMap.find? name m) := rfl

/-- A tree that is there has been found under its name. -/
lemma find?_of_mem_present {m : OrderedMap TokenTree} {e : String × TokenTree}
    (h : e ∈ (ofEntries m).present) : OrderedMap.find? e.1 m = some e.2 := by
  have hentry := (of_mem_present h).1
  rw [byName_ofEntries] at hentry
  obtain ⟨name, _, hname⟩ := List.mem_map.mp hentry
  have hkey : name = e.1 := congrArg Prod.fst hname
  rw [← hkey]
  exact congrArg Prod.snd hname

/-- Trees that are not empty are there again when they have been found under their names. -/
lemma present_ofEntries {m : OrderedMap TokenTree} (hkeys : m.keys.Sublist styleNames)
    (hne : ∀ e ∈ m, e.2 ≠ []) : (ofEntries m).present = m := by
  rw [present_eq, byName_ofEntries, List.filterMap_map]
  refine Eq.trans (List.filterMap_congr fun name _ => ?_)
    (OrderedMap.filterMap_find? (by decide) hkeys)
  show kept (name, OrderedMap.find? name m) = _
  cases hfind : OrderedMap.find? name m with
  | none => rfl
  | some tree =>
    cases tree with
    | nil => exact absurd rfl (hne _ (OrderedMap.mem_of_find? hfind))
    | cons child rest => rfl

end StyleTrees

/-- The style trees of a document have names of kinds. -/
lemma Document.keys_presentStyles (d : Document) : d.presentStyles.keys.Sublist styleNames := by
  unfold Document.presentStyles
  cases d.styles with
  | none => exact List.nil_sublist _
  | some s => exact s.keys_present

/-- A style tree of a document is one of the trees of its styles. -/
lemma Document.of_mem_presentStyles {d : Document} {e : String × TokenTree}
    (h : e ∈ d.presentStyles) : ∃ s, d.styles = some s ∧ e ∈ s.present := by
  unfold Document.presentStyles at h
  cases hstyles : d.styles with
  | none =>
    rw [hstyles] at h
    exact (List.not_mem_nil h).elim
  | some s =>
    rw [hstyles] at h
    exact ⟨s, rfl, h⟩

end DesignTokens

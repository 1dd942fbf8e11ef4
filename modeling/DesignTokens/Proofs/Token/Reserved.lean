import DesignTokens.Proofs.Outcome
import DesignTokens.Proofs.Token.Same
import DesignTokens.Proofs.Token.Styles
import DesignTokens.Token.Decoding
import Mathlib.Tactic.Common

/-!
# What is never read

A document that has been read uses no reserved name, whatever the plain data it was read from
(`Document.isUnreserved_of_read`).  A key that begins with a dollar sign is passed over where names
are read, and an object that has the key `$ref` is no map from modes.
-/

namespace DesignTokens

/-! ## Entries -/

/-- Entries keep their keys when they are read. -/
lemma keys_readEntries {α : Type} {read : Json → Except Fault α} {f : List (String × Json)}
    {m : OrderedMap α} (h : readEntries read f = .ok m) : m.keys = OrderedMap.keys f := by
  induction f generalizing m with
  | nil =>
    cases h
    rfl
  | cons e rest ih =>
    obtain ⟨key, j⟩ := e
    rw [readEntries, bind_eq_ok] at h
    obtain ⟨a, _, h⟩ := h
    obtain ⟨tail, htail, h⟩ := bind_eq_ok.mp h
    cases h
    exact congrArg (List.cons key) (ih htail)

/-- The value of an entry has been read from plain data. -/
lemma exists_of_readEntries {α : Type} {read : Json → Except Fault α} {f : List (String × Json)}
    {m : OrderedMap α} (h : readEntries read f = .ok m) {e : String × α} (he : e ∈ m) :
    ∃ j, read j = .ok e.2 := by
  induction f generalizing m with
  | nil =>
    cases h
    exact (List.not_mem_nil he).elim
  | cons d rest ih =>
    obtain ⟨key, j⟩ := d
    rw [readEntries, bind_eq_ok] at h
    obtain ⟨a, hread, h⟩ := h
    obtain ⟨tail, htail, h⟩ := bind_eq_ok.mp h
    cases h
    rcases List.mem_cons.mp he with hfirst | hrest
    · rw [hfirst]
      exact ⟨j, hread⟩
    · exact ih htail hrest

/-! ## Tokens -/

/-- No mode is named as a reference is. -/
lemma TokenValue.modes_of_read {type : TokenType} {j : Json} {modes : OrderedMap FlatValue}
    (h : TokenValue.read type j = .ok (.perMode modes)) : "$ref" ∉ modes.keys := by
  unfold TokenValue.read at h
  split at h
  · rename_i f
    split_ifs at h with hmodes
    · obtain ⟨m, hread, hvalue⟩ := map_eq_ok.mp h
      cases hvalue
      rw [keys_readEntries hread]
      intro hkey
      unfold isModeMap at hmodes
      rw [OrderedMap.has_of_mem_keys hkey] at hmodes
      exact Bool.noConfusion hmodes
    · obtain ⟨_, _, hvalue⟩ := map_eq_ok.mp h
      cases hvalue
  · obtain ⟨_, _, hvalue⟩ := map_eq_ok.mp h
    cases hvalue

/-- No mode of a token that has been read is named as a reference is. -/
lemma Token.modeNames_of_read {f : List (String × Json)} {t : Token} (h : Token.read f = .ok t) :
    "$ref" ∉ t.modeNames := by
  unfold Token.read at h
  obtain ⟨type, _, h⟩ := bind_eq_ok.mp h
  obtain ⟨origin, _, h⟩ := bind_eq_ok.mp h
  obtain ⟨value, hvalue, h⟩ := bind_eq_ok.mp h
  have ht : t.value = value := by
    split at h
    · obtain ⟨_, _, h⟩ := bind_eq_ok.mp h
      obtain ⟨_, _, h⟩ := bind_eq_ok.mp h
      cases h
      rfl
    · obtain ⟨_, _, h⟩ := bind_eq_ok.mp h
      obtain ⟨_, _, h⟩ := bind_eq_ok.mp h
      cases h
      rfl
  unfold Token.modeNames
  rw [ht]
  cases value with
  | flat _ => exact List.not_mem_nil
  | perMode modes => exact TokenValue.modes_of_read hvalue

/-! ## Trees -/

mutual

/-- A node that has been read uses no reserved name. -/
lemma readNode_unreserved {name : String} {path : List String}
    (hpath : ∀ segment ∈ path, segment.toList.head? ≠ some '$') :
    (j : Json) → {node : TokenNode} → readNode name j = .ok node →
      ∀ e ∈ TokenTree.walkNode path node, IsUnreserved e
  | .object f, node, h => by
    rw [readNode] at h
    split_ifs at h with hvalue
    · obtain ⟨t, hread, hnode⟩ := map_eq_ok.mp h
      rw [← hnode]
      intro e he
      rw [List.mem_singleton.mp he]
      exact ⟨hpath, Token.modeNames_of_read hread⟩
    · obtain ⟨tree, hread, hnode⟩ := map_eq_ok.mp h
      rw [← hnode]
      exact readChildren_unreserved hpath f hread
  | .null, _, h | .bool _, _, h | .int _, _, h | .float _, _, h | .text _, _, h
  | .list _, _, h => by
    rw [readNode] at h
    · cases h
    · exact fun _ => Json.noConfusion

/-- The children of a group that have been read use no reserved name. -/
lemma readChildren_unreserved {path : List String}
    (hpath : ∀ segment ∈ path, segment.toList.head? ≠ some '$') :
    (f : List (String × Json)) → {tree : TokenTree} → readChildren f = .ok tree →
      ∀ e ∈ TokenTree.walkBelow path tree, IsUnreserved e
  | [], tree, h => by
    rw [readChildren] at h
    cases h
    exact fun _ he => (List.not_mem_nil he).elim
  | (name, j) :: rest, tree, h => by
    rw [readChildren] at h
    split_ifs at h with hname
    · exact readChildren_unreserved hpath rest h
    · obtain ⟨node, hnode, h⟩ := bind_eq_ok.mp h
      obtain ⟨tail, htail, h⟩ := bind_eq_ok.mp h
      cases h
      have hbelow : ∀ segment ∈ path ++ [name], segment.toList.head? ≠ some '$' := by
        intro segment hsegment
        rcases List.mem_append.mp hsegment with hbefore | hlast
        · exact hpath segment hbefore
        · rw [List.mem_singleton.mp hlast]
          exact hname
      intro e he
      rw [TokenTree.walkBelow] at he
      rcases List.mem_append.mp he with hfirst | hrest
      · exact readNode_unreserved hbelow j hnode e hfirst
      · exact readChildren_unreserved hpath rest htail e hrest

end

/-- A tree that has been read uses no reserved name. -/
theorem TokenTree.read_unreserved {j : Json} {tree : TokenTree}
    (h : TokenTree.read j = .ok tree) : ∀ e ∈ TokenTree.walk [] tree, IsUnreserved e := by
  unfold TokenTree.read at h
  split at h
  · exact readChildren_unreserved (List.forall_mem_nil _) _ h
  · cases h

/-! ## Documents -/

/-- A style tree that is there has been read from plain data. -/
lemma StyleTrees.exists_of_read {f : List (String × Json)} {s : StyleTrees}
    (h : StyleTrees.read f = .ok s) {e : String × TokenTree} (he : e ∈ s.present) :
    ∃ j, TokenTree.read j = .ok e.2 := by
  unfold StyleTrees.read at h
  obtain ⟨trees, htrees, h⟩ := bind_eq_ok.mp h
  have hs : StyleTrees.ofEntries trees = s := Except.ok.inj h
  rw [← hs] at he
  exact exists_of_readEntries htrees (OrderedMap.mem_of_find? (StyleTrees.find?_of_mem_present he))

/-- Style trees that have been read, if any are there. -/
lemma exists_of_map_some {x : Except Fault StyleTrees} {styles : Option StyleTrees}
    (h : x.map some = .ok styles) {s : StyleTrees} (hs : styles = some s) : x = .ok s := by
  obtain ⟨t, ht, hsome⟩ := map_eq_ok.mp h
  rw [hs] at hsome
  cases hsome
  exact ht

/-- The trees of a document that has been read have been read one by one. -/
lemma Document.trees_of_read {j : Json} {d : Document} (h : Document.read j = .ok d) :
    (∃ f, readEntries TokenTree.read f = .ok d.collections) ∧
      ∀ s, d.styles = some s → ∃ f, StyleTrees.read f = .ok s := by
  unfold Document.read at h
  generalize j.field? "$schema" = schema at h
  generalize (j.field? "$metadata").filter Json.isTruthy = metadata at h
  split at h
  · rename_i f _
    obtain ⟨collections, hcollections, h⟩ := bind_eq_ok.mp h
    -- Whether there are a schema and metadata decides about nothing else.
    cases schema <;> cases metadata <;> dsimp only at h <;> split at h
    all_goals
      obtain ⟨styles, hstyles, h⟩ := bind_eq_ok.mp h
      obtain ⟨_, _, h⟩ := bind_eq_ok.mp h
      obtain ⟨_, _, h⟩ := bind_eq_ok.mp h
      cases h
      refine ⟨⟨f, hcollections⟩, fun s hs => ?_⟩
      first
      | exact ⟨_, exists_of_map_some hstyles hs⟩
      | exact absurd ((Except.ok.inj hstyles).trans hs) (Option.some_ne_none s).symm
  · cases h

/-- A document that has been read uses no reserved name. -/
theorem Document.isUnreserved_of_read {j : Json} {d : Document} (h : Document.read j = .ok d) :
    d.IsUnreserved := by
  obtain ⟨⟨f, hcollections⟩, hstyles⟩ := Document.trees_of_read h
  have htrees : ∀ e ∈ d.collections ++ d.presentStyles, ∃ j, TokenTree.read j = .ok e.2 := by
    intro e he
    rcases List.mem_append.mp he with hcollection | hstyle
    · exact exists_of_readEntries hcollections hcollection
    · obtain ⟨s, hs, hpresent⟩ := Document.of_mem_presentStyles hstyle
      obtain ⟨_, hread⟩ := hstyles s hs
      exact StyleTrees.exists_of_read hread hpresent
  intro e he
  obtain ⟨tree, htree, hwalk⟩ := List.mem_flatMap.mp he
  obtain ⟨j, hread⟩ := htrees tree htree
  exact TokenTree.read_unreserved hread e hwalk

end DesignTokens

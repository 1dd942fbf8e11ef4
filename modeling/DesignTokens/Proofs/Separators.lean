import Mathlib.Data.List.Basic

/-!
# Lists with separators

What stands in lists that are joined with a separator between them, and in the parts of a list that
is divided; where a run of items ends.
-/

namespace DesignTokens

/-! ## Runs -/

section runs

variable {α : Type} {p : α → Bool} {run rest : List α}

/-- A run of items with a property ends where none follows. -/
lemma takeWhile_run (hrun : ∀ a ∈ run, p a = true) (hrest : ∀ a ∈ rest.head?, p a = false) :
    (run ++ rest).takeWhile p = run := by
  rw [List.takeWhile_append_of_pos hrun]
  cases rest with
  | nil => exact List.append_nil run
  | cons a more =>
    rw [List.takeWhile_cons_of_neg (Bool.eq_false_iff.mp (hrest a rfl)), List.append_nil]

/-- What follows a run of items with a property begins where the run ends. -/
lemma dropWhile_run (hrun : ∀ a ∈ run, p a = true) (hrest : ∀ a ∈ rest.head?, p a = false) :
    (run ++ rest).dropWhile p = rest := by
  rw [List.dropWhile_append_of_pos hrun]
  cases rest with
  | nil => rfl
  | cons a more => exact List.dropWhile_cons_of_neg (Bool.eq_false_iff.mp (hrest a rfl))

end runs

/-! ## Joined and divided lists -/

/-- What is put between lists leaves out nothing. -/
lemma mem_intercalate {α : Type} {separator : List α} {lists : List (List α)} {l : List α} {a : α}
    (hl : l ∈ lists) (ha : a ∈ l) : a ∈ separator.intercalate lists := by
  induction lists with
  | nil => exact (List.not_mem_nil hl).elim
  | cons first rest ih =>
    cases rest with
    | nil =>
      rw [List.intercalate_singleton, ← List.mem_singleton.mp hl]
      exact ha
    | cons second rest =>
      rw [List.intercalate_cons_cons, List.mem_append, List.mem_append]
      rcases List.mem_cons.mp hl with rfl | hrest
      · exact Or.inl (Or.inl ha)
      · exact Or.inr (ih hrest)

/-- What stands in lists with a separator between them is the separator or stands in a list. -/
lemma mem_of_mem_intercalate {α : Type} {separator : List α} {lists : List (List α)} {a : α}
    (h : a ∈ separator.intercalate lists) : a ∈ separator ∨ ∃ l ∈ lists, a ∈ l := by
  induction lists with
  | nil => simp at h
  | cons first rest ih =>
    cases rest with
    | nil =>
      rw [List.intercalate_singleton] at h
      exact Or.inr ⟨first, List.mem_cons_self, h⟩
    | cons second rest =>
      rw [List.intercalate_cons_cons, List.mem_append, List.mem_append] at h
      rcases h with (hfirst | hseparator) | hlater
      · exact Or.inr ⟨first, List.mem_cons_self, hfirst⟩
      · exact Or.inl hseparator
      · obtain hseparator | ⟨l, hl, ha⟩ := ih hlater
        · exact Or.inl hseparator
        · exact Or.inr ⟨l, List.mem_cons_of_mem _ hl, ha⟩

/-- Joining the lists of two parts is joining those of each part and then the two. -/
lemma intercalate_append {α : Type} (separator : List α) {lists lists' : List (List α)}
    (h : lists ≠ []) (h' : lists' ≠ []) :
    separator.intercalate (lists ++ lists') =
      separator.intercalate lists ++ separator ++ separator.intercalate lists' := by
  induction lists with
  | nil => exact absurd rfl h
  | cons first rest ih =>
    rcases eq_or_ne rest [] with rfl | hrest
    · rw [List.singleton_append, List.intercalate_cons_of_ne_nil h', List.intercalate_singleton]
    · have hboth : rest ++ lists' ≠ [] := List.append_ne_nil_of_left_ne_nil hrest _
      rw [List.cons_append, List.intercalate_cons_of_ne_nil hboth, ih hrest,
        List.intercalate_cons_of_ne_nil hrest]
      simp only [List.append_assoc]

/-- Nothing is what no lists are joined to. -/
lemma intercalate_eq_nil_iff {α : Type} {separator : List α} {lists : List (List α)}
    (h : ∀ l ∈ lists, l ≠ []) : separator.intercalate lists = [] ↔ lists = [] := by
  constructor
  · intro hnil
    by_contra hne
    obtain ⟨l, hl⟩ := List.exists_mem_of_ne_nil lists hne
    obtain ⟨a, ha⟩ := List.exists_mem_of_ne_nil l (h l hl)
    have hmem : a ∈ separator.intercalate lists := mem_intercalate hl ha
    rw [hnil] at hmem
    exact List.not_mem_nil hmem
  · rintro rfl
    rfl

/-- Lists may be joined in groups, where the groups without any are left out. -/
lemma intercalate_flatten {α : Type} (separator : List α) {groups : List (List (List α))}
    (h : ∀ lists ∈ groups, ∀ l ∈ lists, l ≠ []) :
    separator.intercalate groups.flatten =
      separator.intercalate ((groups.map separator.intercalate).filter (!·.isEmpty)) := by
  induction groups with
  | nil => rfl
  | cons lists rest ih =>
    have ih := ih fun lists hlists => h lists (List.mem_cons_of_mem _ hlists)
    rw [List.flatten_cons, List.map_cons]
    rcases eq_or_ne lists [] with rfl | hlists
    · rw [List.nil_append, ih, List.filter_cons_of_neg (by simp)]
    · have hfirst : separator.intercalate lists ≠ [] :=
        mt (intercalate_eq_nil_iff (h lists List.mem_cons_self)).mp hlists
      rw [List.filter_cons_of_pos (by simpa using hfirst)]
      have hrest : ∀ l ∈ rest.flatten, l ≠ [] := by
        intro l hl
        obtain ⟨lists', hlists', hl⟩ := List.mem_flatten.mp hl
        exact h lists' (List.mem_cons_of_mem _ hlists') l hl
      have hlater : ∀ l ∈ (rest.map separator.intercalate).filter (!·.isEmpty), l ≠ [] := by
        intro l hl
        simpa only [Bool.not_eq_true', List.isEmpty_eq_false_iff] using (List.mem_filter.mp hl).2
      have hsame : separator.intercalate rest.flatten = [] ↔ rest.flatten = [] :=
        intercalate_eq_nil_iff hrest
      rw [ih, intercalate_eq_nil_iff hlater] at hsame
      rcases eq_or_ne rest.flatten [] with hnone | hsome
      · rw [hnone, hsame.mpr hnone, List.append_nil, List.intercalate_singleton]
      · rw [intercalate_append separator hlists hsome, ih,
          List.intercalate_cons_of_ne_nil (mt hsame.mp hsome)]

/-- Joined lists are changed item by item. -/
lemma map_intercalate {α β : Type} (f : α → β) (separator : List α) (lists : List (List α)) :
    (separator.intercalate lists).map f = (separator.map f).intercalate (lists.map (·.map f)) := by
  induction lists with
  | nil => rfl
  | cons first rest ih =>
    rcases eq_or_ne rest [] with rfl | hrest
    · rw [List.intercalate_singleton, List.map_singleton, List.intercalate_singleton]
    · rw [List.map_cons, List.intercalate_cons_of_ne_nil hrest,
        List.intercalate_cons_of_ne_nil (mt List.map_eq_nil_iff.mp hrest), List.map_append,
        List.map_append, ih]

/-- Where a list is divided at some of its items, the parts hold none of them. -/
lemma not_of_mem_splitOnP {α : Type} {p : α → Bool} {items part : List α}
    (h : part ∈ items.splitOnP p) {a : α} (ha : a ∈ part) : p a = false := by
  induction items generalizing part with
  | nil =>
    rw [List.splitOnP_nil, List.mem_singleton] at h
    rw [h] at ha
    exact (List.not_mem_nil ha).elim
  | cons first rest ih =>
    rw [List.splitOnP_cons_eq_if_modifyHead] at h
    split_ifs at h with hfirst
    · rcases List.mem_cons.mp h with rfl | h
      · exact (List.not_mem_nil ha).elim
      · exact ih h ha
    · obtain ⟨head, tail, hsplit⟩ := List.exists_cons_of_ne_nil (List.splitOnP_ne_nil p rest)
      rw [hsplit, List.modifyHead_cons] at h
      rw [hsplit] at ih
      rcases List.mem_cons.mp h with rfl | h
      · rcases List.mem_cons.mp ha with rfl | ha
        · exact Bool.eq_false_iff.mpr hfirst
        · exact ih List.mem_cons_self ha
      · exact ih (List.mem_cons_of_mem _ h) ha

/-- Replacing a separator is dividing there and joining with the other separator. -/
lemma intercalate_splitOn_eq_map (a b : Char) (cs : List Char) :
    [b].intercalate (cs.splitOn a) = cs.map fun c => if c = a then b else c := by
  unfold List.splitOn
  induction cs with
  | nil => rfl
  | cons c rest ih =>
    rw [List.splitOnP_cons_eq_if_modifyHead, List.map_cons, ← ih]
    obtain ⟨first, later, hsplit⟩ := List.exists_cons_of_ne_nil
      (List.splitOnP_ne_nil (fun c => c == a) rest)
    rw [hsplit]
    by_cases hc : c = a
    · simp [hc]
    · cases later <;> simp [hc]

end DesignTokens

import DesignTokens.Proofs.Separators
import DesignTokens.Workspace.Basic
import Mathlib.Tactic.Lemma

/-!
# Files that have been written

The form in which messages show a path has the segments of the path (`PathText.segments_normal`) and
begins where the path begins (`PathText.isAbsolute_normal`), so that both lead to one place
(`PathText.locate_normal`).  What has been written to a file is read from it (`Workspace.read_store`),
under any form of its path (`Workspace.key_normal`), and from other files what was read before
(`Workspace.read_store_of_ne`).
-/

namespace DesignTokens

namespace PathText

/-! ## Segments -/

/-- A segment is not empty, does not stay where it is and has no slash. -/
lemma of_mem_segments {cs s : List Char} (h : s ∈ segments cs) :
    s ≠ [] ∧ s ≠ ['.'] ∧ '/' ∉ s := by
  unfold segments at h
  obtain ⟨hsplit, hkept⟩ := List.mem_filter.mp h
  rw [Bool.and_eq_true, Bool.not_eq_true', List.isEmpty_eq_false_iff, bne_iff_ne] at hkept
  refine ⟨hkept.1, hkept.2, fun hslash => ?_⟩
  have hnone := not_of_mem_splitOnP hsplit hslash
  exact absurd hnone (by decide)

/-- A slash at the start brings no segment. -/
lemma segments_slash (cs : List Char) : segments ('/' :: cs) = segments cs := by
  have hsplit : ('/' :: cs).splitOn '/' = [] :: cs.splitOn '/' := by
    unfold List.splitOn
    rw [List.splitOnP_cons_eq_if_modifyHead, if_pos (by decide)]
  unfold segments
  rw [hsplit]
  rfl

/-- Joined segments have these segments. -/
lemma segments_intercalate {parts : List (List Char)}
    (h : ∀ s ∈ parts, s ≠ [] ∧ s ≠ ['.'] ∧ '/' ∉ s) :
    segments (['/'].intercalate parts) = parts := by
  by_cases hne : parts = []
  · rw [hne]
    rfl
  · unfold segments
    rw [List.splitOn_intercalate '/' (fun s hs => (h s hs).2.2) hne]
    refine List.filter_eq_self.mpr fun s hs => ?_
    obtain ⟨hempty, hstays, -⟩ := h s hs
    rw [List.isEmpty_eq_false_iff.mpr hempty, Bool.not_false, Bool.true_and, bne_iff_ne]
    exact hstays

/-! ## Starts -/

/-- A path begins with no slash, with one or with two. -/
lemma root_cases (cs : List Char) :
    (root cs = [] ∧ cs.head? ≠ some '/') ∨
      (cs.head? = some '/' ∧ (root cs = ['/'] ∨ root cs = ['/', '/'])) := by
  cases cs with
  | nil => exact Or.inl ⟨rfl, by decide⟩
  | cons c rest =>
    by_cases hc : c = '/'
    · refine Or.inr ⟨by rw [hc]; rfl, ?_⟩
      have hrun : (c :: rest).takeWhile (· == '/') = '/' :: rest.takeWhile (· == '/') := by
        rw [hc]
        rfl
      unfold root
      rw [hrun]
      split
      · exact absurd ‹_› (List.cons_ne_nil _ _)
      · exact Or.inr rfl
      · exact Or.inl rfl
    · refine Or.inl ⟨?_, fun h => hc (Option.some.inj h)⟩
      have hrun : (c :: rest).takeWhile (· == '/') = [] := List.takeWhile_cons_of_neg (by simp [hc])
      unfold root
      rw [hrun]

/-- The characters of the form in which messages show a path. -/
lemma toList_normal (path : String) :
    (normal path).toList =
      if (root path.toList ++ ['/'].intercalate (segments path.toList)).isEmpty then ['.']
      else root path.toList ++ ['/'].intercalate (segments path.toList) := by
  unfold normal
  dsimp only
  split_ifs
  · decide
  · rw [String.toList_ofList]

/-- The form in which messages show a path has its segments. -/
theorem segments_normal (path : String) : segments (normal path).toList = segments path.toList := by
  have hjoined : segments (['/'].intercalate (segments path.toList)) = segments path.toList :=
    segments_intercalate fun s hs => of_mem_segments hs
  have hstart : segments (root path.toList ++ ['/'].intercalate (segments path.toList)) =
      segments path.toList := by
    rcases root_cases path.toList with ⟨hroot, -⟩ | ⟨-, hroot | hroot⟩ <;> rw [hroot]
    · exact hjoined
    · exact (segments_slash _).trans hjoined
    · exact ((segments_slash _).trans (segments_slash _)).trans hjoined
  rw [toList_normal]
  split_ifs with hempty
  · rw [List.isEmpty_iff.mp hempty] at hstart
    exact hstart
  · exact hstart

/-- The form in which messages show a path begins where the path begins. -/
theorem isAbsolute_normal (path : String) : isAbsolute (normal path) = isAbsolute path := by
  unfold isAbsolute
  rw [toList_normal]
  rcases root_cases path.toList with ⟨hroot, hhead⟩ | ⟨hhead, hroot⟩
  · rw [hroot, List.nil_append, decide_eq_false hhead, decide_eq_false_iff_not]
    split_ifs with hempty
    · decide
    · intro hslash
      obtain ⟨s, more, hparts⟩ : ∃ s more, segments path.toList = s :: more := by
        refine List.exists_cons_of_ne_nil fun hnil => hempty ?_
        rw [hnil]
        rfl
      have hs : s ∈ segments path.toList := hparts ▸ List.mem_cons_self
      obtain ⟨hne, -, hnone⟩ := of_mem_segments hs
      obtain ⟨c, later, rfl⟩ := List.exists_cons_of_ne_nil hne
      have hfirst : (['/'].intercalate (segments path.toList)).head? = some c := by
        rw [hparts]
        cases more with
        | nil => rw [List.intercalate_singleton]; rfl
        | cons second more => rw [List.intercalate_cons_cons]; rfl
      rw [hfirst] at hslash
      exact hnone (Option.some.inj hslash ▸ List.mem_cons_self)
  · rw [hhead]
    rcases hroot with hroot | hroot <;> rw [hroot] <;> rfl

/-- The form in which messages show a path leads where the path leads. -/
theorem locate_normal (directory path : String) :
    locate directory (normal path) = locate directory path := by
  unfold locate
  rw [isAbsolute_normal, segments_normal]

end PathText

namespace Workspace

/-! ## Places of files -/

/-- A file has one place under all forms of its path. -/
lemma key_normal (w : Workspace) (path : String) : w.key (PathText.normal path) = w.key path :=
  PathText.locate_normal w.root path

/-! ## Texts -/

/-- A text without carriage returns has uniform line ends. -/
lemma uniformLines_of_not_mem {cs : List Char} (h : '\r' ∉ cs) : uniformLines cs = cs := by
  fun_induction uniformLines cs with
  | case1 rest ih => exact absurd List.mem_cons_self h
  | case2 rest hline ih => exact absurd List.mem_cons_self h
  | case3 c rest hpair hreturn ih => rw [ih fun hmem => h (List.mem_cons_of_mem _ hmem)]
  | case4 => rfl

/-! ## Writing and reading -/

section store

variable {w w' : Workspace} {path other text : String}

/-- The text that is read is the stored one with uniform line ends. -/
lemma read_eq_ok : w.read path = .ok text ↔
    ∃ stored, w.stored? path = some stored ∧ String.ofList (uniformLines stored.toList) = text := by
  unfold read
  cases w.stored? path <;> simp

/-- A file that is read exists. -/
lemma has_of_read (h : w.read path = .ok text) : w.has path = true := by
  obtain ⟨stored, hstored, -⟩ := read_eq_ok.mp h
  unfold has hasFile
  rw [hstored]
  rfl

/-- A stored file is there. -/
lemma stored?_store (h : w.key other = w.key path) :
    (w.store path text).stored? other = some text := by
  unfold stored? store
  dsimp only
  show OrderedMap.find? (w.key other) _ = _
  rw [h, OrderedMap.find?_set_self]

/-- Storing a file leaves the others. -/
lemma stored?_store_of_ne (h : w.key other ≠ w.key path) :
    (w.store path text).stored? other = w.stored? other := by
  unfold stored? store
  dsimp only
  show OrderedMap.find? (w.key other) _ = _
  rw [OrderedMap.find?_set_of_ne h]

/-- What is stored is read, whatever form of the path is used. -/
theorem read_store (h : w.key other = w.key path) (htext : '\r' ∉ text.toList) :
    (w.store path text).read other = .ok text := by
  refine read_eq_ok.mpr ⟨text, stored?_store h, ?_⟩
  rw [uniformLines_of_not_mem htext, String.ofList_toList]

/-- What is read of the other files stays. -/
theorem read_store_of_ne (h : w.key other ≠ w.key path) {found : String}
    (hread : w.read other = .ok found) : (w.store path text).read other = .ok found := by
  obtain ⟨stored, hstored, hfound⟩ := read_eq_ok.mp hread
  exact read_eq_ok.mpr ⟨stored, (stored?_store_of_ne h).trans hstored, hfound⟩

/-- A file can be written where no directory is, in a directory. -/
lemma write_eq_ok : w.write path text = .ok w' ↔
    w.hasDirectory path = false ∧ w.hasDirectory (PathText.parent path) = true ∧
      w' = w.store path text := by
  unfold write
  cases w.hasDirectory path with
  | true => simp
  | false =>
    cases w.hasDirectory (PathText.parent path) with
    | true => simp [eq_comm]
    | false => simp

/-- Whether a file can be written does not depend on the text. -/
lemma write_cases (w : Workspace) (path : String) :
    (∃ fault, fault ≠ .file .brokenText ∧ ∀ text, w.write path text = .error fault) ∨
      ∀ text, w.write path text = .ok (w.store path text) := by
  unfold write
  cases w.hasDirectory path with
  | true => exact Or.inl ⟨_, by decide, fun _ => rfl⟩
  | false =>
    cases w.hasDirectory (PathText.parent path) with
    | true => exact Or.inr fun _ => rfl
    | false =>
      refine Or.inl ⟨_, ?_, fun _ => rfl⟩
      unfold absence
      split_ifs <;> decide

end store

end Workspace

end DesignTokens

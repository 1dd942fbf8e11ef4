import DesignTokens.Name.Order
import DesignTokens.Proofs.Outcome
import DesignTokens.Proofs.Text.CaseRows
import Mathlib.Data.List.Forall2
import Mathlib.Data.List.SplitBy

/-!
# Runs of names

A name is cut into its longest stretches of decimal digits and of other characters
(`NaturalOrder.mem_runs_iff`).  It has a key exactly if each of them can be compared: the digits are
not too many, and no stretch between them consists of digits without a decimal value
(`NaturalOrder.exists_key_iff`).  Folding cuts a text in the same places
(`NaturalOrder.runs_flatMap_foldChar`), so that texts with one folded form have the same runs.
-/

namespace DesignTokens

open Text (isDecimal isDigit foldChar)

namespace NaturalOrder

/-- A stretch of decimal digits, or of other characters, that goes on neither before nor after. -/
structure IsRun (decimal : Bool) (start run rest : List Char) : Prop where
  ne_nil : run ≠ []
  alike : ∀ c ∈ run, isDecimal c = decimal
  starts : ∀ c ∈ start.getLast?, isDecimal c = !decimal
  ends : ∀ c ∈ rest.head?, isDecimal c = !decimal

/-- The characters of a text are decimal digits, or none of them is. -/
def Uniform (cs : List Char) : Prop :=
  ∀ c ∈ cs, isDecimal c = cs.all isDecimal

lemma uniform_of_alike {cs : List Char} {decimal : Bool} (hne : cs ≠ [])
    (h : ∀ c ∈ cs, isDecimal c = decimal) : Uniform cs ∧ cs.all isDecimal = decimal := by
  have hall : cs.all isDecimal = decimal := by
    obtain ⟨c, rest, rfl⟩ := List.exists_cons_of_ne_nil hne
    cases decimal with
    | true => exact List.all_eq_true.mpr h
    | false =>
      rw [List.all_cons, h c List.mem_cons_self]
      rfl
  exact ⟨fun c hc => (h c hc).trans hall.symm, hall⟩

/-! ## Cuts -/

/-- Neighbours in a uniform text are of one kind. -/
lemma isChain_iff_uniform {cs : List Char} (hne : cs ≠ []) :
    cs.IsChain (fun a b => (isDecimal a == isDecimal b) = true) ↔ Uniform cs := by
  have htrans : IsTrans Char fun a b => (isDecimal a == isDecimal b) = true :=
    ⟨fun a b c hab hbc => by simp_all⟩
  rw [List.isChain_iff_pairwise]
  constructor
  · intro h
    obtain ⟨c, rest, rfl⟩ := List.exists_cons_of_ne_nil hne
    have halike : ∀ d ∈ c :: rest, isDecimal d = isDecimal c := by
      intro d hd
      rcases List.mem_cons.mp hd with rfl | hd
      · rfl
      · exact (beq_iff_eq.mp (List.rel_of_pairwise_cons h hd)).symm
    exact (uniform_of_alike hne halike).1
  · intro h
    refine List.pairwise_of_forall_mem_list fun a ha b hb => ?_
    rw [h a ha, h b hb, beq_self_eq_true]

/-- The runs of a text are the uniform pieces that it is made of, neighbours being of both kinds. -/
theorem runs_eq_iff {cs : List Char} {pieces : List (List Char)} :
    runs cs = pieces ↔ cs = pieces.flatten ∧ (∀ piece ∈ pieces, piece ≠ [] ∧ Uniform piece) ∧
      pieces.IsChain fun a b => b.all isDecimal = !a.all isDecimal := by
  have hpieces : ([] ∉ pieces ∧ ∀ piece ∈ pieces,
        piece.IsChain fun a b => (isDecimal a == isDecimal b) = true) ↔
      ∀ piece ∈ pieces, piece ≠ [] ∧ Uniform piece := by
    constructor
    · rintro ⟨hnil, hchain⟩ piece hpiece
      have hne : piece ≠ [] := fun heq => hnil (heq ▸ hpiece)
      exact ⟨hne, (isChain_iff_uniform hne).mp (hchain piece hpiece)⟩
    · intro h
      refine ⟨fun hnil => (h _ hnil).1 rfl, fun piece hpiece => ?_⟩
      exact (isChain_iff_uniform (h piece hpiece).1).mpr (h piece hpiece).2
  unfold runs
  rw [List.splitBy_eq_iff, ← and_assoc (a := [] ∉ pieces), hpieces]
  refine and_congr_right fun _ => and_congr_right fun hall =>
    List.IsChain.iff_of_mem_imp fun a b ha hb => ?_
  -- the last character of one piece and the first one of the next tell the kinds of both
  have hlast := (hall a ha).2 _ (List.getLast_mem (hall a ha).1)
  have hfirst := (hall b hb).2 _ (List.head_mem (hall b hb).1)
  constructor
  · rintro ⟨_, _, hdiffer⟩
    rw [hlast, hfirst, beq_eq_false_iff_ne] at hdiffer
    exact Bool.eq_not.mpr hdiffer.symm
  · intro hdiffer
    refine ⟨(hall a ha).1, (hall b hb).1, ?_⟩
    rw [hlast, hfirst, hdiffer]
    exact Bool.beq_not_self _

lemma runs_spec (cs : List Char) :
    cs = (runs cs).flatten ∧ (∀ piece ∈ runs cs, piece ≠ [] ∧ Uniform piece) ∧
      (runs cs).IsChain fun a b => b.all isDecimal = !a.all isDecimal :=
  runs_eq_iff.mp rfl

/-- A run is cut out of a text. -/
theorem runs_of_isRun {decimal : Bool} {start run rest : List Char}
    (h : IsRun decimal start run rest) :
    runs (start ++ run ++ rest) = runs start ++ run :: runs rest := by
  have hone : runs run = [run] :=
    runs_eq_iff.mpr ⟨by simp, fun piece hpiece => by
      rw [List.mem_singleton.mp hpiece]
      exact ⟨h.ne_nil, (uniform_of_alike h.ne_nil h.alike).1⟩, List.isChain_singleton _⟩
  have hleft : runs (start ++ run) = runs start ++ runs run := by
    refine List.splitBy_append fun a ha b hb => ?_
    rw [h.starts a ha, h.alike b (List.mem_of_mem_head? hb)]
    cases decimal <;> rfl
  have hright : runs (start ++ run ++ rest) = runs (start ++ run) ++ runs rest := by
    refine List.splitBy_append fun a ha b hb => ?_
    rw [List.getLast?_append_of_ne_nil _ h.ne_nil] at ha
    rw [h.alike a (List.mem_of_mem_getLast? ha), h.ends b hb]
    cases decimal <;> rfl
  rw [hright, hleft, hone, List.append_assoc]
  rfl

section flatten

variable {α : Type} {pieces : List (List α)} {a : α}

/-- The first item of joined lists is in the first of them. -/
lemma exists_of_head?_flatten (hne : ∀ piece ∈ pieces, piece ≠ [])
    (h : a ∈ pieces.flatten.head?) : ∃ piece ∈ pieces.head?, a ∈ piece := by
  cases pieces with
  | nil => cases h
  | cons first later =>
    rw [List.flatten_cons, List.head?_append_of_ne_nil _ (hne first List.mem_cons_self)] at h
    exact ⟨first, rfl, List.mem_of_mem_head? h⟩

/-- The last item of joined lists is in the last of them. -/
lemma exists_of_getLast?_flatten (hne : ∀ piece ∈ pieces, piece ≠ [])
    (h : a ∈ pieces.flatten.getLast?) : ∃ piece ∈ pieces.getLast?, a ∈ piece := by
  rcases List.eq_nil_or_concat pieces with rfl | ⟨earlier, last, rfl⟩
  · cases h
  · rw [List.concat_eq_append, List.flatten_concat,
      List.getLast?_append_of_ne_nil _ (hne last (by simp))] at h
    exact ⟨last, by simp, List.mem_of_mem_getLast? h⟩

end flatten

/-- The runs of a text are its longest stretches of decimal digits and of other characters. -/
theorem mem_runs_iff {cs run : List Char} :
    run ∈ runs cs ↔ ∃ decimal start rest, cs = start ++ run ++ rest ∧
      IsRun decimal start run rest := by
  constructor
  · intro h
    obtain ⟨hflatten, hall, hchain⟩ := runs_spec cs
    obtain ⟨before, after, hruns⟩ := List.append_of_mem h
    rw [hruns] at hflatten hall hchain
    rw [List.isChain_append] at hchain
    obtain ⟨_, hafter, hbefore⟩ := hchain
    rw [List.isChain_cons] at hafter
    have hleft : ∀ piece ∈ before, piece ≠ [] ∧ Uniform piece :=
      fun piece hpiece => hall piece (List.mem_append_left _ hpiece)
    have hright : ∀ piece ∈ after, piece ≠ [] ∧ Uniform piece :=
      fun piece hpiece => hall piece (List.mem_append_right _ (List.mem_cons_of_mem _ hpiece))
    obtain ⟨hne, huniform⟩ := hall run (List.mem_append_right _ List.mem_cons_self)
    refine ⟨run.all isDecimal, before.flatten, after.flatten, by simpa using hflatten, hne,
      huniform, fun c hc => ?_, fun c hc => ?_⟩
    · obtain ⟨piece, hpiece, hc⟩ := exists_of_getLast?_flatten (fun q hq => (hleft q hq).1) hc
      rw [(hleft piece (List.mem_of_mem_getLast? hpiece)).2 c hc, hbefore piece hpiece run rfl,
        Bool.not_not]
    · obtain ⟨piece, hpiece, hc⟩ := exists_of_head?_flatten (fun q hq => (hright q hq).1) hc
      rw [(hright piece (List.mem_of_mem_head? hpiece)).2 c hc, hafter.1 piece hpiece]
  · rintro ⟨decimal, start, rest, rfl, h⟩
    rw [runs_of_isRun h]
    exact List.mem_append_right _ List.mem_cons_self

/-! ## Folded texts -/

/-- Folded, a text has decimal digits only if it had no others. -/
lemma all_flatMap_foldChar (cs : List Char) :
    (cs.flatMap foldChar).all isDecimal = cs.all isDecimal :=
  (Text.keepsText_flatMap Text.caseless_isDecimal.keeps_foldChar cs).all_eq

/-- Decimal digits stay when they are folded. -/
lemma flatMap_foldChar_of_all {cs : List Char} (h : cs.all isDecimal = true) :
    cs.flatMap foldChar = cs :=
  (Text.keepsText_flatMap Text.caseless_isDecimal.keeps_foldChar cs).eq_of_all h

/-- The folded runs of a text are the runs of the folded text. -/
theorem runs_flatMap_foldChar (cs : List Char) :
    runs (cs.flatMap foldChar) = (runs cs).map (·.flatMap foldChar) := by
  obtain ⟨hflatten, hall, hchain⟩ := runs_spec cs
  refine runs_eq_iff.mpr ⟨?_, fun piece hpiece => ?_, ?_⟩
  · conv_lhs => rw [hflatten, ← List.flatMap_id, List.flatMap_assoc]
    rfl
  · obtain ⟨run, hrun, rfl⟩ := List.mem_map.mp hpiece
    obtain ⟨hne, huniform⟩ := hall run hrun
    constructor
    · intro hnil
      obtain ⟨c, rest, rfl⟩ := List.exists_cons_of_ne_nil hne
      rw [List.flatMap_cons, List.append_eq_nil_iff] at hnil
      exact (Text.caseless_isDecimal.keeps_foldChar c).ne_nil hnil.1
    · intro d hd
      obtain ⟨c, hc, hd⟩ := List.mem_flatMap.mp hd
      rw [all_flatMap_foldChar, (Text.caseless_isDecimal.keeps_foldChar c).same d hd]
      exact huniform c hc
  · rw [List.isChain_map]
    refine hchain.imp fun a b hab => ?_
    rw [all_flatMap_foldChar, all_flatMap_foldChar]
    exact hab

/-- Runs with one folded form are compared as the same thing. -/
lemma chunk_eq_of_fold {run run' : List Char} {k k' : SortChunk} (h : chunk run = .ok k)
    (h' : chunk run' = .ok k') (hfold : run.flatMap foldChar = run'.flatMap foldChar) :
    k = k' := by
  have hkind : run.all isDecimal = run'.all isDecimal := by
    rw [← all_flatMap_foldChar, hfold, all_flatMap_foldChar]
  cases hdecimal : run.all isDecimal with
  | true =>
    rw [flatMap_foldChar_of_all hdecimal,
      flatMap_foldChar_of_all (hkind.symm.trans hdecimal)] at hfold
    rw [hfold, h'] at h
    exact (Except.ok.inj h).symm
  | false =>
    have htext : ∀ {r k}, r.all isDecimal = false → chunk r = .ok k →
        k = .text (String.ofList (r.flatMap foldChar)) := by
      intro r k hr hk
      unfold chunk at hk
      rw [if_neg (Bool.eq_false_iff.mp hr)] at hk
      split_ifs at hk
      rw [← Except.ok.inj hk]
      unfold Text.fold
      rw [String.toList_ofList]
    rw [htext hdecimal h, htext (hkind.symm.trans hdecimal) h', hfold]

/-- The runs of texts with one folded form are compared as the same things. -/
theorem chunks_eq_of_fold {cs cs' : List Char} {chunks chunks' : List SortChunk}
    (h : (runs cs).mapM chunk = .ok chunks) (h' : (runs cs').mapM chunk = .ok chunks')
    (hfold : cs.flatMap foldChar = cs'.flatMap foldChar) : chunks = chunks' := by
  have hruns : (runs cs).map (·.flatMap foldChar) = (runs cs').map (·.flatMap foldChar) := by
    rw [← runs_flatMap_foldChar, hfold, runs_flatMap_foldChar]
  have hmatched := forall₂_of_mapM h
  have hmatched' := forall₂_of_mapM h'
  clear h h'
  generalize runs cs = pieces at hruns hmatched
  generalize runs cs' = pieces' at hruns hmatched'
  induction hmatched generalizing pieces' chunks' with
  | nil =>
    rw [List.map_nil, eq_comm, List.map_eq_nil_iff] at hruns
    subst hruns
    cases hmatched'
    rfl
  | cons hfirst _ ih =>
    cases hmatched' with
    | nil => cases hruns
    | cons hfirst' hrest' =>
      obtain ⟨hrun, hruns⟩ := List.cons.inj hruns
      rw [chunk_eq_of_fold hfirst hfirst' hrun, ih _ hruns hrest']

/-! ## Keys -/

/-- A name whose runs can be compared: a run of decimal digits is not too long, and a run of other
characters does not consist of digits alone, such as superscripts, which have no decimal value. -/
structure HasPlace (name : String) : Prop where
  short : ∀ {start run rest}, name.toList = start ++ run ++ rest → IsRun true start run rest →
    run.length ≤ Decimal.maxDigits
  readable : ∀ {start run rest}, name.toList = start ++ run ++ rest → IsRun false start run rest →
    ∃ c ∈ run, isDigit c = false

/-- A run can be compared if it is not too long or not made of digits without a value. -/
lemma exists_chunk_iff {decimal : Bool} {start run rest : List Char}
    (h : IsRun decimal start run rest) :
    (∃ k, chunk run = .ok k) ↔ if decimal then run.length ≤ Decimal.maxDigits
      else ∃ c ∈ run, isDigit c = false := by
  have hall := (uniform_of_alike h.ne_nil h.alike).2
  unfold chunk
  rw [hall]
  cases decimal with
  | true =>
    rw [if_pos rfl, if_pos rfl]
    unfold Directive.wholeNumber
    split_ifs with hlong
    · exact ⟨nofun, fun hshort => absurd hlong (Nat.not_lt.mpr hshort)⟩
    · exact ⟨fun _ => Nat.not_lt.mp hlong, fun _ => ⟨_, rfl⟩⟩
  | false =>
    rw [if_neg Bool.false_ne_true, if_neg Bool.false_ne_true]
    split_ifs with hdigits
    · refine ⟨nofun, fun ⟨c, hc, hno⟩ => ?_⟩
      rw [List.all_eq_true.mp hdigits c hc] at hno
      cases hno
    · refine ⟨fun _ => ?_, fun _ => ⟨_, rfl⟩⟩
      simpa using hdigits

/-- Exactly the names whose runs can be compared have a key. -/
theorem exists_key_iff {name : String} : (∃ chunks, key name = .ok chunks) ↔ HasPlace name := by
  have hkey : (∃ chunks, key name = .ok chunks) ↔
      ∀ run ∈ runs name.toList, ∃ k, chunk run = .ok k := by
    unfold key
    rw [exists_bind_pure_iff, exists_mapM_eq_ok_iff]
  rw [hkey]
  constructor
  · intro h
    refine ⟨fun heq hrun => ?_, fun heq hrun => ?_⟩
    · exact (exists_chunk_iff hrun).mp (h _ (mem_runs_iff.mpr ⟨_, _, _, heq, hrun⟩))
    · simpa using (exists_chunk_iff hrun).mp (h _ (mem_runs_iff.mpr ⟨_, _, _, heq, hrun⟩))
  · intro h run hrun
    obtain ⟨decimal, start, rest, heq, hrun⟩ := mem_runs_iff.mp hrun
    rw [exists_chunk_iff hrun]
    cases decimal with
    | true => exact h.short heq hrun
    | false => simpa using h.readable heq hrun

end NaturalOrder

end DesignTokens

import DesignTokens.Name.Order
import DesignTokens.Proofs.Outcome
import Mathlib.Data.List.Lex
import Mathlib.Data.List.Nodup
import Mathlib.Data.String.Basic
import Mathlib.Data.Sum.Order

/-!
# Items in natural order

Bringing items into the natural order of their names neither adds nor drops any.  The keys of names
are compared like lists over a linear order, and different names have different keys.  So items with
different names have exactly one order, in whatever order they are given
(`NaturalOrder.sortBy_perm`), and in it no item comes before an earlier one
(`NaturalOrder.pairwise_sortBy`).
-/

namespace DesignTokens

namespace NaturalOrder

variable {α : Type} {name : α → String}

/-- Items are kept beside their keys. -/
lemma map_snd_of_keyed {items : List α} {keyed : List (List SortChunk × α)}
    (h : (items.mapM fun item => do return (← key (name item), item)) = .ok keyed) :
    keyed.map (·.2) = items := by
  rw [map_of_mapM h fun item pair hpair => ?_, List.map_id]
  obtain ⟨chunks, _, hpair⟩ := bind_eq_ok.mp hpair
  cases hpair
  rfl

/-- Items are neither added nor dropped when they are brought into order. -/
theorem perm_sortBy {items result : List α} (h : sortBy name items = .ok result) :
    result.Perm items := by
  unfold sortBy at h
  obtain ⟨keyed, hkeyed, h⟩ := bind_eq_ok.mp h
  have hresult := Except.ok.inj h
  rw [← hresult, ← map_snd_of_keyed hkeyed]
  exact (List.mergeSort_perm keyed _).map (·.2)

/-- The items in order are the items. -/
theorem mem_sortBy {items result : List α} (h : sortBy name items = .ok result) {a : α} :
    a ∈ result ↔ a ∈ items :=
  (perm_sortBy h).mem_iff

/-- Items that are made of others are ordered as the others are by the names of what is made. -/
theorem sortBy_map {β : Type} (f : β → α) {items result : List β}
    (h : sortBy (name ∘ f) items = .ok result) :
    sortBy name (items.map f) = .ok (result.map f) := by
  unfold sortBy at h ⊢
  obtain ⟨keyed, hkeyed, h⟩ := bind_eq_ok.mp h
  have hresult := Except.ok.inj h
  have hmade : (items.map f).mapM (fun item => do return (← key (name item), item)) =
      .ok (keyed.map (Prod.map id f)) := by
    rw [List.mapM_map]
    refine mapM_of_mapM hkeyed fun item _ pair hpair => ?_
    obtain ⟨chunks, hchunks, hpair⟩ := bind_eq_ok.mp hpair
    cases hpair
    exact bind_of_ok hchunks _
  have hsorted : (keyed.map (Prod.map id f)).mergeSort (fun x y => !before y.1 x.1) =
      (keyed.mergeSort fun x y => !before y.1 x.1).map (Prod.map id f) := by
    refine (List.map_mergeSort ?_).symm
    exact fun _ _ _ _ => rfl
  rw [bind_of_ok hmade, hsorted, ← hresult, List.map_map, List.map_map]
  rfl

/-- Items whose keys are in order stay as they are. -/
lemma sortBy_of_pairwise {items : List α} {keyed : List (List SortChunk × α)}
    (h : (items.mapM fun item => do return (← key (name item), item)) = .ok keyed)
    (hsorted : keyed.Pairwise fun x y => before y.1 x.1 = false) :
    sortBy name items = .ok items := by
  have hstays : (keyed.mergeSort fun x y => !before y.1 x.1) = keyed := by
    refine List.mergeSort_of_pairwise (hsorted.imp fun hbefore => ?_)
    rw [hbefore]
    rfl
  unfold sortBy
  rw [bind_of_ok h, hstays, map_snd_of_keyed h]
  rfl

/-- A single item is in order. -/
lemma sortBy_singleton {item : α} {chunks : List SortChunk} (h : key (name item) = .ok chunks) :
    sortBy name [item] = .ok [item] := by
  have hkeyed : [item].mapM (fun item => do return (← key (name item), item)) =
      .ok [(chunks, item)] :=
    mapM_singleton (bind_of_ok h _)
  unfold sortBy
  rw [bind_of_ok hkeyed, List.mergeSort_singleton]
  rfl

end NaturalOrder

/-! ## The order of keys -/

/-- Where a run stands in the linear order of numbers, then texts, then whole names. -/
def SortChunk.place : SortChunk → ℕ ⊕ₗ String ⊕ₗ String
  | number value => Sum.inlₗ value
  | text folded => Sum.inrₗ (Sum.inlₗ folded)
  | whole name => Sum.inrₗ (Sum.inrₗ name)

/-- Different runs stand at different places. -/
lemma SortChunk.place_injective : Function.Injective place := by
  intro a b h
  cases a <;> cases b <;> cases h <;> rfl

/-- A run comes before another one if its place does. -/
lemma SortChunk.before_iff {a b : SortChunk} : a.before b = true ↔ a.place < b.place := by
  cases a <;> cases b <;> simp [before, rank, place, -String.lt_iff_ltb]

namespace NaturalOrder

/-- A key comes before another one if its places do, read like the letters of a word. -/
lemma before_iff {a b : List SortChunk} :
    before a b = true ↔ a.map SortChunk.place < b.map SortChunk.place := by
  induction a generalizing b with
  | nil =>
    cases b with
    | nil => simp [before]
    | cons _ _ => simp [before]
  | cons first rest ih =>
    cases b with
    | nil => simp [before]
    | cons second others =>
      rw [before, List.map_cons, List.map_cons, List.cons_lt_cons_iff]
      split_ifs with hsame
      · rw [hsame, ih]
        simp
      · rw [SortChunk.before_iff]
        simp [SortChunk.place_injective.ne hsame]

/-- A key does not come before another one if its places do not. -/
lemma not_before_iff {a b : List SortChunk} :
    (!before b a) = true ↔ a.map SortChunk.place ≤ b.map SortChunk.place := by
  rw [Bool.not_eq_true', Bool.eq_false_iff, ne_eq, before_iff, not_lt]

variable {α : Type} {name : α → String}

/-- Different names have different keys. -/
lemma key_injective {a b : String} {chunks : List SortChunk} (ha : key a = .ok chunks)
    (hb : key b = .ok chunks) : a = b := by
  unfold key at ha hb
  obtain ⟨first, _, ha⟩ := bind_eq_ok.mp ha
  obtain ⟨second, _, hb⟩ := bind_eq_ok.mp hb
  have hsame : first ++ [.whole a] = second ++ [.whole b] := by
    rw [Except.ok.inj ha, Except.ok.inj hb]
  have hlast := (List.append_inj' hsame rfl).2
  exact SortChunk.whole.inj (List.singleton_inj.mp hlast)

/-- A name without a key has a run of digits without a value. -/
lemma key_eq_error {a : String} {e : Fault} (h : key a = .error e) :
    e = .number .malformedNumeral := by
  unfold key at h
  rcases of_bind_eq_error h with h | ⟨chunks, _, h⟩
  · obtain ⟨run, _, h⟩ := exists_of_mapM_eq_error h
    unfold chunk Directive.wholeNumber at h
    split_ifs at h <;> cases h <;> rfl
  · cases h

/-- An item is kept beside the key of its name. -/
lemma key_of_keyed {items : List α} {keyed : List (List SortChunk × α)}
    (h : (items.mapM fun item => do return (← key (name item), item)) = .ok keyed)
    {x : List SortChunk × α} (hx : x ∈ keyed) : x.2 ∈ items ∧ key (name x.2) = .ok x.1 := by
  obtain ⟨item, hitem, hstep⟩ := exists_of_mem_mapM h hx
  obtain ⟨chunks, hchunks, heq⟩ := bind_eq_ok.mp hstep
  cases heq
  exact ⟨hitem, hchunks⟩

/-- Keyed items with one key are the same, if items with one name are. -/
lemma keyed_eq {items : List α} {keyed : List (List SortChunk × α)}
    (h : (items.mapM fun item => do return (← key (name item), item)) = .ok keyed)
    (hnames : ∀ a ∈ items, ∀ b ∈ items, name a = name b → a = b) {x y : List SortChunk × α}
    (hx : x ∈ keyed) (hy : y ∈ keyed) (hkey : x.1 = y.1) : x = y := by
  obtain ⟨ha, hchunks⟩ := key_of_keyed h hx
  obtain ⟨hb, hchunks'⟩ := key_of_keyed h hy
  rw [← hkey] at hchunks'
  exact Prod.ext hkey (hnames _ ha _ hb (key_injective hchunks hchunks'))

/-- Keyed items are in order after they have been sorted. -/
lemma pairwise_sorted (keyed : List (List SortChunk × α)) :
    (keyed.mergeSort fun x y => !before y.1 x.1).Pairwise fun x y => (!before y.1 x.1) = true := by
  refine List.pairwise_mergeSort (fun x y z hxy hyz => ?_) (fun x y => ?_) keyed
  · exact not_before_iff.mpr ((not_before_iff.mp hxy).trans (not_before_iff.mp hyz))
  · rw [Bool.or_eq_true, not_before_iff, not_before_iff]
    exact le_total _ _

/-- A name does not come after another one. -/
def NotAfter (a b : String) : Prop :=
  ∃ first second, key a = .ok first ∧ key b = .ok second ∧ before second first = false

/-- Items that have been brought into natural order are in it. -/
lemma pairwise_sortBy {items result : List α} (h : sortBy name items = .ok result) :
    result.Pairwise fun a b => NotAfter (name a) (name b) := by
  unfold sortBy at h
  obtain ⟨keyed, hkeyed, h⟩ := bind_eq_ok.mp h
  rw [← Except.ok.inj h, List.pairwise_map]
  have hmem := fun x => (List.mergeSort_perm keyed fun x y => !before y.1 x.1).mem_iff (a := x)
  refine List.Pairwise.imp_of_mem (fun hx hy hle => ?_) (pairwise_sorted keyed)
  exact ⟨_, _, (key_of_keyed hkeyed ((hmem _).mp hx)).2, (key_of_keyed hkeyed ((hmem _).mp hy)).2,
    Bool.not_eq_true' _ ▸ hle⟩

/-- Items of which no two have one name have the same order, in whatever order they are given; an
item may be given several times. -/
theorem sortBy_perm_of_names {items items' : List α} (h : items.Perm items')
    (hnames : ∀ a ∈ items, ∀ b ∈ items, name a = name b → a = b) :
    sortBy name items = sortBy name items' := by
  have hfault : ∀ item e, (do return (← key (name item), item) : Except Fault _) = .error e →
      e = .number .malformedNumeral := by
    intro item e hitem
    rcases of_bind_eq_error hitem with hkey | ⟨_, _, hitem⟩
    · exact key_eq_error hkey
    · cases hitem
  unfold sortBy
  rcases mapM_perm hfault h with ⟨keyed, keyed', hkeyed, hkeyed', hperm⟩ | ⟨hfails, hfails'⟩
  · have hsame : (keyed.mergeSort fun x y => !before y.1 x.1) =
        keyed'.mergeSort fun x y => !before y.1 x.1 := by
      refine List.Perm.eq_of_pairwise (fun x y hx hy hxy hyx => ?_) (pairwise_sorted keyed)
        (pairwise_sorted keyed')
        ((List.mergeSort_perm keyed _).trans (hperm.trans (List.mergeSort_perm keyed' _).symm))
      have hx : x ∈ keyed := (List.mergeSort_perm keyed _).mem_iff.mp hx
      have hy : y ∈ keyed := hperm.mem_iff.mpr ((List.mergeSort_perm keyed' _).mem_iff.mp hy)
      -- neither comes before the other one, so that they have the same key
      have hplaces := le_antisymm (not_before_iff.mp hxy) (not_before_iff.mp hyx)
      exact keyed_eq hkeyed hnames hx hy
        (List.map_injective_iff.mpr SortChunk.place_injective hplaces)
    rw [bind_of_ok hkeyed, bind_of_ok hkeyed', hsame]
  · rw [hfails, hfails']

/-- Items with different names have the same order, in whatever order they are given. -/
theorem sortBy_perm {items items' : List α} (h : items.Perm items')
    (hnames : (items.map name).Nodup) : sortBy name items = sortBy name items' :=
  sortBy_perm_of_names h fun _ ha _ hb => List.inj_on_of_nodup_map hnames ha hb

end NaturalOrder

end DesignTokens

import DesignTokens.Proofs.Name.Order
import DesignTokens.Proofs.Name.Runs

/-!
# The natural order of names

The names that have a place in the natural order are totally ordered by it: the keys of two names
differ at their ends at the latest, and a key is compared at its first difference.  Where two names
have one folded text before runs of decimal digits, the keys agree up to these runs, which decide by
their values.  Names have a place unless one of their runs cannot be compared, so that a list of
names is sorted if and only if all of them have one (`NaturalOrder.order_of_names`).
-/

namespace DesignTokens

open Text (isDecimal foldChar)

namespace NaturalOrder

/-- A name comes before another one. -/
def Precedes (a b : String) : Prop :=
  ∃ first second, key a = .ok first ∧ key b = .ok second ∧ before first second = true

/-- Two names have the same folded text before runs of decimal digits with these values. -/
def ReachNumbers (a b : String) (m n : ℕ) : Prop :=
  ∃ start run rest start' run' rest',
    a.toList = start ++ run ++ rest ∧ IsRun true start run rest ∧
    b.toList = start' ++ run' ++ rest' ∧ IsRun true start' run' rest' ∧
    Text.fold (String.ofList start) = Text.fold (String.ofList start') ∧
    Decimal.natOfDigits run = m ∧ Decimal.natOfDigits run' = n

variable {a b c : String}

/-! ## Comparing keys -/

lemma not_precedes_self (a : String) : ¬ Precedes a a := by
  rintro ⟨first, second, hfirst, hsecond, hbefore⟩
  obtain rfl : first = second := Except.ok.inj (hfirst.symm.trans hsecond)
  exact lt_irrefl _ (before_iff.mp hbefore)

lemma Precedes.trans (h : Precedes a b) (h' : Precedes b c) : Precedes a c := by
  obtain ⟨first, second, hfirst, hsecond, hbefore⟩ := h
  obtain ⟨second', third, hsecond', hthird, hbefore'⟩ := h'
  obtain rfl : second = second' := Except.ok.inj (hsecond.symm.trans hsecond')
  exact ⟨first, third, hfirst, hthird,
    before_iff.mpr ((before_iff.mp hbefore).trans (before_iff.mp hbefore'))⟩

/-- Of two different keys one comes before the other. -/
lemma before_or_before {first second : List SortChunk} (hne : first ≠ second) :
    before first second = true ∨ before second first = true := by
  rw [before_iff, before_iff]
  exact lt_or_gt_of_ne ((List.map_injective_iff.mpr SortChunk.place_injective).ne hne)

/-- What keys begin with in common does not decide. -/
lemma before_append (common first second : List SortChunk) :
    before (common ++ first) (common ++ second) = before first second := by
  induction common with
  | nil => rfl
  | cons chunk rest ih =>
    rw [List.cons_append, List.cons_append, before, if_pos rfl, ih]

/-- Of two names with a place one comes before the other, unless they are the same name. -/
lemma precedes_or_precedes (ha : HasPlace a) (hb : HasPlace b) (hne : a ≠ b) :
    key a ≠ key b ∧ (Precedes a b ∨ Precedes b a) := by
  obtain ⟨first, hfirst⟩ := exists_key_iff.mpr ha
  obtain ⟨second, hsecond⟩ := exists_key_iff.mpr hb
  have hkeys : first ≠ second := by
    rintro rfl
    exact hne (key_injective hfirst hsecond)
  refine ⟨fun heq => hkeys (Except.ok.inj (hfirst.symm.trans (heq.trans hsecond))), ?_⟩
  exact (before_or_before hkeys).imp (fun h => ⟨_, _, hfirst, hsecond, h⟩)
    fun h => ⟨_, _, hsecond, hfirst, h⟩

/-! ## Numbers in names -/

/-- The key of a name up to a run of decimal digits, and the number that they are. -/
lemma exists_key_of_isRun {name : String} {chunks : List SortChunk} {start run rest : List Char}
    (h : key name = .ok chunks) (hname : name.toList = start ++ run ++ rest)
    (hrun : IsRun true start run rest) :
    ∃ common later, (runs start).mapM chunk = .ok common ∧
      chunks = common ++ .number (Decimal.natOfDigits run) :: later := by
  unfold key at h
  obtain ⟨compared, hcompared, h⟩ := bind_eq_ok.mp h
  rw [hname, runs_of_isRun hrun] at hcompared
  obtain ⟨common, _, hcommon, hrest, rfl⟩ := mapM_append_eq_ok hcompared
  rw [List.mapM_cons] at hrest
  obtain ⟨number, hnumber, hrest⟩ := bind_eq_ok.mp hrest
  obtain ⟨later, _, hrest⟩ := bind_eq_ok.mp hrest
  have hvalue : number = .number (Decimal.natOfDigits run) := by
    unfold chunk Directive.wholeNumber at hnumber
    rw [if_pos (List.all_eq_true.mpr hrun.alike)] at hnumber
    split_ifs at hnumber
    · cases hnumber
    · exact (Except.ok.inj hnumber).symm
  refine ⟨common, later ++ [.whole name], hcommon, ?_⟩
  rw [← Except.ok.inj h, ← Except.ok.inj hrest, hvalue, List.append_assoc]
  rfl

/-- Different numbers after the same folded text decide. -/
lemma precedes_iff_of_numbers {m n : ℕ} (ha : HasPlace a) (hb : HasPlace b)
    (h : ReachNumbers a b m n) (hne : m ≠ n) : Precedes a b ↔ m < n := by
  obtain ⟨start, run, rest, start', run', rest', hname, hrun, hname', hrun', hfold, rfl, rfl⟩ := h
  obtain ⟨first, hfirst⟩ := exists_key_iff.mpr ha
  obtain ⟨second, hsecond⟩ := exists_key_iff.mpr hb
  obtain ⟨common, later, hcommon, rfl⟩ := exists_key_of_isRun hfirst hname hrun
  obtain ⟨common', later', hcommon', rfl⟩ := exists_key_of_isRun hsecond hname' hrun'
  have hsame : start.flatMap foldChar = start'.flatMap foldChar := by
    unfold Text.fold at hfold
    simpa using String.ofList_injective hfold
  obtain rfl : common = common' := chunks_eq_of_fold hcommon hcommon' hsame
  have hbefore : before (common ++ .number (Decimal.natOfDigits run) :: later)
      (common ++ .number (Decimal.natOfDigits run') :: later') =
        decide (Decimal.natOfDigits run < Decimal.natOfDigits run') := by
    rw [before_append, before, if_neg fun heq => hne (SortChunk.number.inj heq)]
    rfl
  constructor
  · rintro ⟨first, second, h, h', hdecided⟩
    rw [← Except.ok.inj (hfirst.symm.trans h), ← Except.ok.inj (hsecond.symm.trans h'),
      hbefore] at hdecided
    exact of_decide_eq_true hdecided
  · intro hless
    exact ⟨_, _, hfirst, hsecond, hbefore.trans (decide_eq_true hless)⟩

/-! ## Lists of names -/

/-- A list of names is sorted exactly if all of them have a place. -/
lemma exists_sortBy_iff {names : List String} :
    (∃ sorted, sortBy id names = .ok sorted) ↔ ∀ a ∈ names, HasPlace a := by
  unfold sortBy
  rw [exists_bind_pure_iff, exists_mapM_eq_ok_iff]
  refine forall₂_congr fun a _ => ?_
  rw [exists_bind_pure_iff]
  exact exists_key_iff

/-- A sorted list of names is in order. -/
lemma pairwise_precedes {names sorted : List String} (h : sortBy id names = .ok sorted) :
    sorted.Pairwise fun a b => a = b ∨ Precedes a b := by
  refine (pairwise_sortBy h).imp ?_
  rintro a b ⟨first, second, hfirst, hsecond, hnot⟩
  by_cases hkeys : first = second
  · subst hkeys
    exact Or.inl (key_injective hfirst hsecond)
  · refine Or.inr ⟨first, second, hfirst, hsecond, ?_⟩
    exact (before_or_before hkeys).resolve_right (Bool.eq_false_iff.mp hnot)

/-- The names that have a place are totally ordered.  A name has one exactly if it has a key.  The
keys of different names differ, and one of the names comes before the other; no name comes before
itself, and the order is transitive.  Numbers after the same folded text decide if they differ.  A
list of names is sorted exactly if all of its names have a place, and what it becomes depends on how
often it has which name only. -/
theorem order_of_names (a b c : String) (m n : ℕ) (names names' : List String) :
    ((∃ chunks, key a = .ok chunks) ↔ HasPlace a) ∧
    (HasPlace a → HasPlace b → a ≠ b → key a ≠ key b ∧ (Precedes a b ∨ Precedes b a)) ∧
    ¬ Precedes a a ∧
    (Precedes a b → Precedes b c → Precedes a c) ∧
    (HasPlace a → HasPlace b → ReachNumbers a b m n → m ≠ n → (Precedes a b ↔ m < n)) ∧
    ((∃ sorted, sortBy id names = .ok sorted) ↔ ∀ name ∈ names, HasPlace name) ∧
    (∀ sorted, sortBy id names = .ok sorted →
      sorted.Perm names ∧ sorted.Pairwise fun x y => x = y ∨ Precedes x y) ∧
    (names.Perm names' → sortBy id names = sortBy id names') := by
  refine ⟨exists_key_iff, precedes_or_precedes, not_precedes_self a, Precedes.trans,
    precedes_iff_of_numbers, exists_sortBy_iff, fun sorted h => ?_, fun h => ?_⟩
  · exact ⟨perm_sortBy h, pairwise_precedes h⟩
  · exact sortBy_perm_of_names h fun _ _ _ _ hsame => hsame

theorem order_of_names_spacing :
    HasPlace "Spacing-2" ∧ HasPlace "spacing-10" ∧
      ReachNumbers "Spacing-2" "spacing-10" 2 10 ∧ Precedes "Spacing-2" "spacing-10" := by
  have hfirst : HasPlace "Spacing-2" :=
    (order_of_names "Spacing-2" "" "" 0 0 [] []).1.mp
      ⟨[.text "spacing-", .number 2, .whole "Spacing-2"], by decide +kernel⟩
  have hsecond : HasPlace "spacing-10" :=
    (order_of_names "spacing-10" "" "" 0 0 [] []).1.mp
      ⟨[.text "spacing-", .number 10, .whole "spacing-10"], by decide +kernel⟩
  have hrun : IsRun true "Spacing-".toList ['2'] [] :=
    ⟨List.cons_ne_nil _ _, List.all_eq_true.mp (by decide), by rintro _ ⟨⟩; decide, nofun⟩
  have hrun' : IsRun true "spacing-".toList ['1', '0'] [] :=
    ⟨List.cons_ne_nil _ _, List.all_eq_true.mp (by decide), by rintro _ ⟨⟩; decide, nofun⟩
  have hreach : ReachNumbers "Spacing-2" "spacing-10" 2 10 :=
    ⟨_, _, _, _, _, _, by decide +kernel, hrun, by decide +kernel, hrun', by decide +kernel,
      by decide +kernel, by decide +kernel⟩
  obtain ⟨_, _, _, _, hnumbers, _⟩ := order_of_names "Spacing-2" "spacing-10" "" 2 10 [] []
  exact ⟨hfirst, hsecond, hreach, (hnumbers hfirst hsecond hreach (by decide)).mpr (by decide)⟩

-- a superscript is a digit, but not a decimal one: its name has no key
example : key "²" = .error (.number .malformedNumeral) := by decide +kernel

end NaturalOrder

end DesignTokens

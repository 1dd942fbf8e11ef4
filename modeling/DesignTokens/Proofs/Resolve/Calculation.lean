import DesignTokens.Proofs.Expr.WrittenReferences
import DesignTokens.Proofs.OrderedMap
import DesignTokens.Proofs.Outcome
import DesignTokens.Resolve.Calculation

/-!
# References of evaluated calculations

A calculation that comes to a number without a warning has found a variable for each of its
references.  So each custom property that it refers to has the name of a variable of the library
(`Scope.exists_of_calculated?`), the name of the variable alone, without its collection.
-/

namespace DesignTokens

/-- A reference among the pieces of a text has been read in it. -/
lemma exists_of_mem_pieces {reader : List Char → Option Reference} {cs : List Char} {r : Reference}
    (h : .reference r ∈ pieces reader cs) : ∃ rest, reader rest = some r := by
  induction cs using pieces.induct reader with
  | case1 =>
    rw [pieces] at h
    exact (List.not_mem_nil h).elim
  | case2 c rest found hread ih =>
    rw [pieces, hread] at h
    rcases List.mem_cons.mp h with heq | h
    · cases heq
      exact ⟨_, hread⟩
    · exact ih h
  | case3 c rest hnone ih =>
    rw [pieces, hnone] at h
    rcases List.mem_cons.mp h with heq | h
    · cases heq
    · exact ih h

/-- The name of a custom property that a text refers to is not empty and holds no parenthesis that
closes it. -/
lemma of_property_mem_referencesOf {text : String} {raw : List Char}
    (h : .property raw ∈ referencesOf Reference.any? text) : raw ≠ [] ∧ ')' ∉ raw := by
  obtain ⟨piece, hpiece, heq⟩ := List.mem_filterMap.mp h
  cases piece with
  | plain c => cases heq
  | reference r =>
    cases heq
    obtain ⟨rest, hread⟩ := exists_of_mem_pieces hpiece
    have hproperty : Reference.property? rest = some (.property raw) := by
      unfold Reference.any? at hread
      cases hpath : Reference.path? rest with
      | none =>
        rw [hpath] at hread
        exact hread
      | some r =>
        rw [hpath] at hread
        cases hread
        unfold Reference.path? at hpath
        split at hpath
        · split at hpath <;> cases hpath
        · cases hpath
    obtain ⟨raw', _, heq, _, hne, hclosing⟩ := Reference.property?_eq_some_iff.mp hproperty
    cases heq
    exact ⟨hne, hclosing⟩

/-- Only the characters of a reference make up its text. -/
lemma Reference.text_injective : Function.Injective Reference.text := by
  intro r r' h
  have hchars : r.chars = r'.chars := by
    have hlists := congrArg String.toList h
    unfold Reference.text at hlists
    rwa [String.toList_ofList, String.toList_ofList] at hlists
  cases r with
  | path raw =>
    cases r' with
    | path raw' => exact congrArg path (List.append_cancel_right (List.cons.inj hchars).2)
    | property raw' => exact absurd (List.cons.inj hchars).1 (by decide)
  | property raw =>
    cases r' with
    | path raw' => exact absurd (List.cons.inj hchars).1 (by decide)
    | property raw' =>
      exact congrArg property (List.append_cancel_left (List.append_cancel_right hchars))

namespace Calculation

/-- A calculation that gives no warning has a value for each of its references. -/
lemma isSome_of_ofText {text : String} {context : String → Option Quantity}
    (h : (ofText text context).warnings = []) {r : Reference}
    (hr : r ∈ referencesOf Reference.any? text) : (context r.text).isSome = true := by
  by_contra hnone
  have hmissing : r ∈ (distinctReferences text).filter fun r => (context r.text).isNone := by
    refine List.mem_filter.mpr ⟨List.mem_eraseDups.mpr hr, ?_⟩
    simpa using hnone
  unfold ofText at h
  dsimp only at h
  rw [if_pos (by simpa using List.ne_nil_of_mem hmissing)] at h
  exact List.ne_nil_of_mem hmissing (List.map_eq_nil_iff.mp h)

end Calculation

namespace Scope

variable {s : Scope}

/-- The variable behind a reference brings its number in its unit, or nothing where it has none. -/
lemma addEntry_cases {modeId : String} {found found' : Found} {r : Reference}
    {entry : LibraryEntry} (h : s.addEntry modeId found r entry = .ok found') :
    (∃ q : Quantity, entry.item.type = .number ∧ unitOf entry.item = .ok q.unit ∧
      s.numberInMode? entry.item modeId = some q.value ∧
      found'.quantities = found.quantities ++ [(r.text, q)]) ∨
    (¬ (entry.item.type = .number ∧ (s.numberInMode? entry.item modeId).isSome = true) ∧
      found'.quantities = found.quantities) := by
  unfold addEntry at h
  dsimp only at h
  split_ifs at h with htype
  · cases h
    exact Or.inr ⟨fun hnumber => htype hnumber.1, rfl⟩
  · obtain ⟨⟨number, unit⟩, hfound, h⟩ := bind_eq_ok.mp h
    obtain ⟨hunit, hnumber⟩ := numberWithUnit_eq_ok hfound
    cases number with
    | none =>
      cases h
      refine Or.inr ⟨fun hsome => ?_, rfl⟩
      rw [hnumber] at hsome
      exact Bool.noConfusion hsome.2
    | some value =>
      cases h
      exact Or.inl ⟨⟨value, unit⟩, not_not.mp htype, hunit, hnumber, rfl⟩

/-- What a variable brings depends on the numbers found so far, but not whether there is a fault. -/
lemma exists_addEntry_iff {modeId : String} {found : Found} {r : Reference} {entry : LibraryEntry} :
    (∃ found', s.addEntry modeId found r entry = .ok found') ↔
      (entry.item.type = .number → ∃ unit, unitOf entry.item = .ok unit) := by
  unfold addEntry
  dsimp only
  split_ifs with htype
  · exact ⟨fun _ hnumber => absurd hnumber htype, fun _ => ⟨_, rfl⟩⟩
  · rw [not_not] at htype
    constructor
    · rintro ⟨found', h⟩ -
      obtain ⟨⟨number, unit⟩, hfound, -⟩ := bind_eq_ok.mp h
      exact ⟨unit, (numberWithUnit_eq_ok hfound).1⟩
    · intro h
      obtain ⟨unit, hunit⟩ := h htype
      rw [bind_of_ok (numberWithUnit_of_unitOf hunit s modeId)]
      cases s.numberInMode? entry.item modeId <;> exact ⟨_, rfl⟩

/-- Each quantity that has been found is that of a reference which names a variable. -/
def Found.IsNamed (s : Scope) (found : Found) : Prop :=
  ∀ e ∈ found.quantities, ∃ r entry, r.text = e.1 ∧ s.byReference r = .ok (some entry)

/-- Looking up a reference finds the quantity of a variable, or none. -/
lemma Found.IsNamed.lookUp {modeId : String} {found found' : Found} (h : found.IsNamed s)
    {r : Reference} (hstep : s.lookUp modeId found r = .ok found') : found'.IsNamed s := by
  unfold Scope.lookUp at hstep
  split_ifs at hstep
  · cases hstep
    exact h
  · obtain ⟨named, hentry, hstep⟩ := bind_eq_ok.mp hstep
    cases named with
    | none =>
      cases hstep
      exact h
    | some entry =>
      rcases addEntry_cases hstep with ⟨q, -, -, -, hquantities⟩ | ⟨-, hquantities⟩
      · intro e he
        rw [hquantities] at he
        rcases List.mem_append.mp he with hold | hnew
        · exact h e hold
        · cases List.mem_singleton.mp hnew
          exact ⟨r, entry, rfl, hentry⟩
      · intro e he
        rw [hquantities] at he
        exact h e he

/-- The custom property in the text of a reference is the one that the reference is to. -/
lemma propertyIn?_text {raw : List Char} (hne : raw ≠ []) (hclosing : ')' ∉ raw) :
    propertyIn? (Reference.property raw).text = some ("--" ++ String.ofList raw) := by
  have hpieces := @pieces_property raw [] hne hclosing
  unfold propertyIn? referencesOf Reference.text
  rw [String.toList_ofList]
  have hchars : (Reference.property raw).chars = Reference.opening ++ (raw ++ [')']) :=
    List.append_assoc _ _ _
  rw [hchars, hpieces]
  rfl

/-- A reference to a custom property that names a variable is by the name of the variable. -/
lemma exists_of_byReference {raw : List Char} (hne : raw ≠ []) (hclosing : ')' ∉ raw)
    {r : Reference} {entry : LibraryEntry} (htext : r.text = (Reference.property raw).text)
    (h : s.byReference r = .ok (some entry)) :
    entry ∈ s.entries ∧ String.ofList raw = s.cssName entry.item := by
  rw [Reference.text_injective htext] at h
  have hfound : s.byProperty? (Reference.property raw).text = some entry := Except.ok.inj h
  unfold byProperty? at hfound
  rw [propertyIn?_text hne hclosing] at hfound
  have hmem := OrderedMap.mem_of_mem_ofList (OrderedMap.mem_of_find? hfound)
  obtain ⟨e, he, heq⟩ := List.mem_map.mp hmem
  obtain ⟨hname, rfl⟩ := Prod.mk.inj heq
  exact ⟨he, ((String.append_right_inj "--").mp hname).symm⟩

/-- Where a calculation comes to a number without a warning, each custom property that it refers to
has the name of a variable. -/
theorem exists_of_calculated? {f : Formatting} {modeId : String} {q : Quantity}
    (h : s.calculated? f modeId = .ok (some q)) {text : String}
    (htext : f.calculation? = some text) {raw : List Char}
    (hraw : .property raw ∈ referencesOf Reference.any? text) :
    ∃ entry ∈ s.entries, String.ofList raw = s.cssName entry.item := by
  obtain ⟨hne, hclosing⟩ := of_property_mem_referencesOf hraw
  obtain ⟨c, hcalculation, h⟩ := bind_eq_ok.mp h
  have hwarnings : c.warnings = [] := by
    by_contra hsome
    rw [if_neg (by simpa using hsome)] at h
    cases h
  unfold calculate at hcalculation
  rw [htext] at hcalculation
  obtain ⟨found, hfound, hcalculation⟩ := bind_eq_ok.mp hcalculation
  have hnamed : found.IsNamed s := by
    refine foldlM_invariant (Found.IsNamed s) (fun _ _ _ _ hold hstep => hold.lookUp hstep) ?_ hfound
    exact List.forall_mem_nil _
  cases hcalculation
  have hvalue := Calculation.isSome_of_ofText (List.append_eq_nil_iff.mp hwarnings).2 hraw
  obtain ⟨quantity, hlookup⟩ := Option.isSome_iff_exists.mp hvalue
  obtain ⟨before, after, hquantities, _⟩ := List.lookup_eq_some_iff.mp hlookup
  obtain ⟨r, entry, hrtext, hentry⟩ := hnamed ((Reference.property raw).text, quantity) (by
    rw [hquantities]
    exact List.mem_append_right _ List.mem_cons_self)
  obtain ⟨hmem, hname⟩ := exists_of_byReference hne hclosing hrtext hentry
  exact ⟨entry, hmem, hname⟩

end Scope

end DesignTokens

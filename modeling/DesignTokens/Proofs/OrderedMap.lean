import DesignTokens.OrderedMap
import Mathlib.Data.List.Forall2
import Mathlib.Tactic.Tauto

/-!
# Entries of ordered maps

What is stored in an ordered map, what is found there, and maps whose entries match one by one.
-/

namespace DesignTokens

/-- Each item of a list is related to an item of the list that it is matched with. -/
lemma exists_of_forall₂ {α β : Type} {R : α → β → Prop} {a : List α} {b : List β}
    (h : List.Forall₂ R a b) {x : α} (hx : x ∈ a) : ∃ y ∈ b, R x y := by
  induction h with
  | nil => exact (List.not_mem_nil hx).elim
  | @cons first second _ _ hfirst _ ih =>
    rcases List.mem_cons.mp hx with rfl | hrest
    · exact ⟨second, List.mem_cons_self, hfirst⟩
    · obtain ⟨y, hy, hrelated⟩ := ih hrest
      exact ⟨y, List.mem_cons_of_mem _ hy, hrelated⟩

/-- Items that are each related to something are matched with a list of such things. -/
lemma exists_forall₂ {α β : Type} {R : α → β → Prop} {b : List β} (h : ∀ y ∈ b, ∃ x, R x y) :
    ∃ a, List.Forall₂ R a b := by
  induction b with
  | nil => exact ⟨[], .nil⟩
  | cons y rest ih =>
    obtain ⟨x, hx⟩ := h y List.mem_cons_self
    obtain ⟨a, ha⟩ := ih fun z hz => h z (List.mem_cons_of_mem _ hz)
    exact ⟨x :: a, .cons hx ha⟩

/-- Lists that are matched show the same if matched items do. -/
lemma map_eq_of_forall₂ {α β γ : Type} {R : α → β → Prop} {f : α → γ} {g : β → γ}
    (hsame : ∀ x y, R x y → f x = g y) {a : List α} {b : List β} (h : List.Forall₂ R a b) :
    a.map f = b.map g := by
  induction h with
  | nil => rfl
  | cons hfirst _ ih => rw [List.map_cons, List.map_cons, hsame _ _ hfirst, ih]

/-- What is shown of the items that are kept of a list is shown of the list. -/
lemma sublist_filterMap {α β γ : Type} {g : α → Option β} {shown : β → γ} {given : α → γ}
    (h : ∀ a b, g a = some b → shown b = given a) (items : List α) :
    ((items.filterMap g).map shown).Sublist (items.map given) := by
  induction items with
  | nil => exact List.Sublist.refl _
  | cons a rest ih =>
    rw [List.filterMap_cons, List.map_cons]
    cases ha : g a with
    | none => exact List.Sublist.cons _ ih
    | some b =>
      rw [List.map_cons, h a b ha]
      exact List.cons_sublist_cons.mpr ih

namespace OrderedMap

/-! ## Storing -/

section storing

variable {α : Type u} {key : String} {value : α} {m : OrderedMap α}

/-- A value that is found is an entry. -/
lemma mem_of_find? (h : find? key m = some value) : (key, value) ∈ m := by
  induction m with
  | nil => cases h
  | cons e rest ih =>
    obtain ⟨k, v⟩ := e
    by_cases hk : k = key
    · have hv : v = value := by
        rw [find?, if_pos hk] at h
        exact Option.some.inj h
      rw [hk, hv]
      exact List.mem_cons_self
    · rw [find?, if_neg hk] at h
      exact List.mem_cons_of_mem _ (ih h)

/-- The stored value is an entry. -/
lemma self_mem_set (key : String) (value : α) (m : OrderedMap α) : (key, value) ∈ set key value m :=
  mem_of_find? (find?_set_self key value m)

/-- An entry after a value has been stored is the stored one or was there before. -/
lemma mem_of_mem_set {e : String × α} (h : e ∈ set key value m) : e = (key, value) ∨ e ∈ m := by
  induction m with
  | nil => exact Or.inl (List.mem_singleton.mp h)
  | cons d rest ih =>
    obtain ⟨k, v⟩ := d
    by_cases hk : k = key
    · rw [set, if_pos hk] at h
      rcases List.mem_cons.mp h with hself | hrest
      · exact Or.inl hself
      · exact Or.inr (List.mem_cons_of_mem _ hrest)
    · rw [set, if_neg hk] at h
      rcases List.mem_cons.mp h with hfirst | hrest
      · exact Or.inr (List.mem_cons.mpr (Or.inl hfirst))
      · exact (ih hrest).imp_right (List.mem_cons_of_mem _)

/-- A stored entry of a map that is built up is one of the entries. -/
lemma mem_of_mem_ofList {entries : List (String × α)} {e : String × α}
    (h : e ∈ ofList entries) : e ∈ entries := by
  have hstored : ∀ (m : OrderedMap α) (l : List (String × α)),
      e ∈ l.foldl (fun m d => set d.1 d.2 m) m → e ∈ m ∨ e ∈ l := by
    intro m l hm
    induction l generalizing m with
    | nil => exact Or.inl hm
    | cons d rest ih =>
      rcases ih _ hm with hset | hrest
      · rcases mem_of_mem_set hset with hself | hold
        · exact Or.inr (hself ▸ List.mem_cons_self)
        · exact Or.inl hold
      · exact Or.inr (List.mem_cons_of_mem _ hrest)
  exact (hstored [] entries h).resolve_left List.not_mem_nil

/-- An entry stays when a value is stored, unless it is the one that is found under the key. -/
lemma mem_set_of_mem {e : String × α} (h : e ∈ m) :
    e ∈ set key value m ∨ (e.1 = key ∧ find? key m = some e.2) := by
  induction m with
  | nil => cases h
  | cons d rest ih =>
    obtain ⟨k, v⟩ := d
    by_cases hk : k = key
    · rw [set, if_pos hk, find?, if_pos hk]
      rcases List.mem_cons.mp h with hfirst | hrest
      · rw [hfirst]
        exact Or.inr ⟨hk, rfl⟩
      · exact Or.inl (List.mem_cons_of_mem _ hrest)
    · rw [set, if_neg hk, find?, if_neg hk]
      rcases List.mem_cons.mp h with hfirst | hrest
      · exact Or.inl (List.mem_cons.mpr (Or.inl hfirst))
      · exact (ih hrest).imp_left (List.mem_cons_of_mem _)

/-- A value under a new key comes last. -/
lemma set_of_not_mem (h : key ∉ m.keys) : set key value m = m ++ [(key, value)] := by
  induction m with
  | nil => rfl
  | cons e rest ih =>
    obtain ⟨k, v⟩ := e
    have hne : k ≠ key := fun heq => h (heq ▸ List.mem_cons_self)
    have hrest : key ∉ keys rest := fun hmem => h (List.mem_cons_of_mem _ hmem)
    rw [set, if_neg hne, ih hrest]
    rfl

/-- The keys after a value has been stored are the key and those that were there. -/
lemma mem_keys_set {k : String} : k ∈ (set key value m).keys ↔ k = key ∨ k ∈ m.keys := by
  induction m with
  | nil => simp [set, keys]
  | cons e rest ih =>
    obtain ⟨j, v⟩ := e
    by_cases hj : j = key
    · simp [set, keys, hj]
    · have hstep : k ∈ (set key value ((j, v) :: rest)).keys ↔
          k = j ∨ k ∈ (set key value rest).keys := by
        simp [set, keys, hj]
      rw [hstep, ih]
      simp only [keys, List.map_cons, List.mem_cons]
      tauto

/-- Storing a value gives no two entries one key. -/
lemma nodup_keys_set (h : m.keys.Nodup) : (set key value m).keys.Nodup := by
  induction m with
  | nil => simp [set, keys]
  | cons e rest ih =>
    obtain ⟨j, v⟩ := e
    obtain ⟨hj, hrest⟩ := List.nodup_cons.mp h
    by_cases hk : j = key
    · rw [set, if_pos hk, ← hk]
      exact h
    · rw [set, if_neg hk]
      refine List.nodup_cons.mpr ⟨fun hmem => ?_, ih hrest⟩
      rcases mem_keys_set.mp hmem with hkey | hold
      · exact hk hkey
      · exact hj hold

/-- A map that stores entries with different keys has the entries. -/
lemma ofList_of_nodup {entries : List (String × α)} (h : (keys entries).Nodup) :
    ofList entries = entries := by
  have hstored : ∀ (m : OrderedMap α) (l : List (String × α)), (keys (m ++ l)).Nodup →
      l.foldl (fun m e => set e.1 e.2 m) m = m ++ l := by
    intro m l hkeys
    induction l generalizing m with
    | nil => exact (List.append_nil m).symm
    | cons e rest ih =>
      have hsplit : m ++ e :: rest = (m ++ [e]) ++ rest := (List.append_assoc m [e] rest).symm
      have hnew : e.1 ∉ keys m := by
        unfold keys at hkeys ⊢
        rw [List.map_append, List.map_cons] at hkeys
        exact fun hmem => (List.nodup_append.mp hkeys).2.2 _ hmem _ List.mem_cons_self rfl
      rw [hsplit] at hkeys ⊢
      rw [List.foldl_cons, set_of_not_mem hnew]
      exact ih _ hkeys
  exact hstored [] entries h

/-- A map that is built up has no key twice. -/
lemma nodup_keys_ofList (entries : List (String × α)) : (ofList entries).keys.Nodup := by
  have hstored : ∀ (m : OrderedMap α) (l : List (String × α)), m.keys.Nodup →
      (keys (l.foldl (fun m d => set d.1 d.2 m) m)).Nodup := by
    intro m l hm
    induction l generalizing m with
    | nil => exact hm
    | cons d rest ih => exact ih _ (nodup_keys_set hm)
  exact hstored [] entries List.nodup_nil

/-- A value that is found stands behind the entries of other keys, and is replaced there. -/
lemma exists_split_of_find? (h : find? key m = some value) :
    ∃ before after, m = before ++ (key, value) :: after ∧
      m.takeWhile (fun e => e.1 != key) = before ∧
      ∀ new, set key new m = before ++ (key, new) :: after := by
  induction m with
  | nil => cases h
  | cons e rest ih =>
    obtain ⟨k, v⟩ := e
    by_cases hk : k = key
    · subst hk
      rw [find?, if_pos rfl] at h
      cases h
      exact ⟨[], rest, rfl, by simp, fun new => by rw [set, if_pos rfl]; rfl⟩
    · rw [find?, if_neg hk] at h
      obtain ⟨before, after, rfl, hbefore, hset⟩ := ih h
      refine ⟨(k, v) :: before, after, rfl, ?_, fun new => ?_⟩
      · have hother : (k != key) = true := bne_iff_ne.mpr hk
        rw [List.takeWhile_cons, if_pos hother, hbefore]
      · rw [set, if_neg hk, hset]
        rfl

/-- Storing the value that is found changes nothing. -/
lemma set_of_find? (h : find? key m = some value) : set key value m = m := by
  obtain ⟨before, after, hm, _, hset⟩ := exists_split_of_find? h
  rw [hset, ← hm]

/-- Of two values that are stored under one key the second one stays. -/
lemma set_set (first second : α) :
    set key second (set key first m) = set key second m := by
  induction m with
  | nil => simp [set]
  | cons e rest ih =>
    obtain ⟨k, v⟩ := e
    by_cases hk : k = key
    · simp [set, hk]
    · simp [set, hk, ih]

/-- A map in which a value has been stored is not empty. -/
lemma set_ne_nil (key : String) (value : α) (m : OrderedMap α) : set key value m ≠ [] :=
  List.ne_nil_of_mem (self_mem_set key value m)

end storing

/-! ## Finding -/

/-- What is found in joined maps is found in the first one, or else in the second. -/
@[simp] lemma find?_append {α : Type u} (key : String) (a b : OrderedMap α) :
    find? key (a ++ b) = (find? key a).or (find? key b) := by
  induction a with
  | nil => rfl
  | cons e rest ih =>
    obtain ⟨k, v⟩ := e
    by_cases hk : k = key
    · rw [List.cons_append, find?, if_pos hk, find?, if_pos hk]
      rfl
    · rw [List.cons_append, find?, if_neg hk, find?, if_neg hk, ih]

/-- A key that is not among the keys is not there. -/
lemma find?_eq_none {α : Type u} {key : String} {m : OrderedMap α}
    (h : key ∉ m.keys) : find? key m = none := by
  induction m with
  | nil => rfl
  | cons e rest ih =>
    obtain ⟨k, v⟩ := e
    have hne : k ≠ key := fun heq => h (heq ▸ List.mem_cons_self)
    rw [find?, if_neg hne]
    exact ih fun hrest => h (List.mem_cons_of_mem _ hrest)

/-- Without the entries of a key everything else is found. -/
lemma find?_filter_ne {α : Type u} (removed key : String) (m : OrderedMap α) :
    find? key (m.filter (·.1 != removed)) = if key = removed then none else find? key m := by
  induction m with
  | nil => exact (ite_self none).symm
  | cons e rest ih =>
    obtain ⟨k, v⟩ := e
    rw [List.filter_cons]
    by_cases hk : k = removed
    · rw [if_neg (by simp [hk]), ih]
      refine ite_congr rfl (fun _ => rfl) fun hne => ?_
      rw [find?, if_neg fun heq => hne (heq.symm.trans hk)]
    · rw [if_pos (bne_iff_ne.mpr hk), find?, find?, ih]
      by_cases hkey : k = key
      · rw [if_pos hkey, if_pos hkey, if_neg (hkey ▸ hk)]
      · rw [if_neg hkey, if_neg hkey]

/-- Where no two entries have one key, a value is found under a key exactly if the two are an
entry. -/
lemma find?_eq_some_iff_mem {α : Type u} {key : String} {value : α} {m : OrderedMap α}
    (hkeys : m.keys.Nodup) : find? key m = some value ↔ (key, value) ∈ m := by
  refine ⟨mem_of_find?, fun hmem => ?_⟩
  induction m with
  | nil => exact (List.not_mem_nil hmem).elim
  | cons e rest ih =>
    obtain ⟨k, v⟩ := e
    obtain ⟨hk, hrest⟩ := List.nodup_cons.mp hkeys
    rcases List.mem_cons.mp hmem with hfirst | hlater
    · cases hfirst
      simp [find?]
    · have hne : k ≠ key := by
        intro heq
        have hkey : key ∈ keys rest := List.mem_map_of_mem hlater
        rw [← heq] at hkey
        exact hk hkey
      rw [find?, if_neg hne]
      exact ih hrest hlater

/-- A key that is among the keys is there. -/
lemma has_of_mem_keys {α : Type u} {key : String} {m : OrderedMap α}
    (h : key ∈ m.keys) : m.has key = true := by
  induction m with
  | nil => exact (List.not_mem_nil h).elim
  | cons e rest ih =>
    obtain ⟨k, v⟩ := e
    unfold has find?
    by_cases hk : k = key
    · rw [if_pos hk]
      rfl
    · rw [if_neg hk]
      exact ih ((List.mem_cons.mp h).resolve_left fun heq => hk heq.symm)

/-- A key under which nothing is found is not among the keys. -/
lemma not_mem_keys_of_find? {α : Type u} {key : String} {m : OrderedMap α}
    (h : find? key m = none) : key ∉ m.keys := by
  intro hmem
  have hhas := has_of_mem_keys hmem
  unfold has at hhas
  rw [h] at hhas
  cases hhas

/-- A map is put together again from what is found under its possible keys. -/
lemma filterMap_find? {α : Type} {names : List String} {m : OrderedMap α}
    (hnames : names.Nodup) (hkeys : m.keys.Sublist names) :
    (names.filterMap fun name => (find? name m).map (Prod.mk name)) = m := by
  induction names generalizing m with
  | nil => exact (List.map_eq_nil_iff.mp (List.eq_nil_of_sublist_nil hkeys)).symm
  | cons name rest ih =>
    obtain ⟨hname, hrest⟩ := List.nodup_cons.mp hnames
    cases m with
    | nil =>
      have hnone : ∀ n ∈ name :: rest, (find? n ([] : OrderedMap α)).map (Prod.mk n) = none :=
        fun _ _ => rfl
      exact List.filterMap_eq_nil_iff.mpr hnone
    | cons e entries =>
      obtain ⟨k, v⟩ := e
      by_cases hk : k = name
      · have hentries : (keys entries).Sublist rest := by
          rw [hk] at hkeys
          exact List.cons_sublist_cons.mp hkeys
        have hlater : ∀ n ∈ rest, (find? n ((k, v) :: entries)).map (Prod.mk n) =
            (find? n entries).map (Prod.mk n) := by
          intro n hn
          have hne : k ≠ n := fun heq => hname (hk ▸ heq ▸ hn)
          rw [find?, if_neg hne]
        have hfirst : (find? name ((k, v) :: entries)).map (Prod.mk name) = some (k, v) := by
          rw [find?, if_pos hk, hk]
          rfl
        rw [List.filterMap_cons, hfirst, List.filterMap_congr hlater, ih hrest hentries]
      · have hentries : (keys ((k, v) :: entries)).Sublist rest := by
          cases hkeys with
          | cons _ hsub => exact hsub
          | cons_cons _ _ => exact absurd rfl hk
        have habsent : name ∉ keys ((k, v) :: entries) :=
          fun hmem => hname (hentries.subset hmem)
        have hfirst : (find? name ((k, v) :: entries)).map (Prod.mk name) = none := by
          rw [find?_eq_none habsent]
          rfl
        rw [List.filterMap_cons, hfirst, ih hrest hentries]

/-- What is found in a map whose values have been changed is the changed value. -/
lemma find?_map {α β : Type} (g : α → β) (m : OrderedMap α) (key : String) :
    find? key (m.map fun (k, a) => (k, g a)) = (find? key m).map g := by
  induction m with
  | nil => rfl
  | cons e rest ih =>
    obtain ⟨k, a⟩ := e
    by_cases hkey : k = key
    · rw [List.map_cons, find?, if_pos hkey, find?, if_pos hkey]
      rfl
    · rw [List.map_cons, find?, if_neg hkey, find?, if_neg hkey, ih]

/-- In a map that is filtered and changed field by field, a key stands for its value, changed or
left out. -/
lemma find?_filterMap {α β : Type} {m : OrderedMap α} (hkeys : m.keys.Nodup)
    (g : String → α → Option β) (key : String) :
    find? key (m.filterMap fun e => (g e.1 e.2).map (Prod.mk e.1)) =
      (find? key m).bind (g key) := by
  induction m with
  | nil => rfl
  | cons e rest ih =>
    obtain ⟨k, a⟩ := e
    obtain ⟨hnew, hrest⟩ := List.nodup_cons.mp hkeys
    rw [List.filterMap_cons, find?]
    by_cases hk : k = key
    · subst hk
      rw [if_pos rfl, Option.bind_some]
      cases hg : g k a with
      | some b => simp [find?]
      | none =>
        rw [Option.map_none]
        dsimp only
        rw [ih hrest, find?_eq_none hnew]
        rfl
    · rw [if_neg hk, ← ih hrest]
      cases hg : g k a with
      | some b => simp [find?, hk]
      | none => rfl

/-- A value may be changed before or after it is stored. -/
lemma set_map {α β : Type} (g : α → β) (key : String) (value : α) (m : OrderedMap α) :
    set key (g value) (m.map fun e => (e.1, g e.2)) =
      (set key value m).map fun e => (e.1, g e.2) := by
  induction m with
  | nil => rfl
  | cons e rest ih =>
    obtain ⟨k, a⟩ := e
    by_cases hk : k = key
    · simp [set, hk]
    · simp [set, hk, ih]

/-- Values may be changed before or after they are stored one after the other. -/
lemma ofList_map {α β : Type} (g : α → β) (entries : List (String × α)) :
    ofList (entries.map fun e => (e.1, g e.2)) =
      (ofList entries).map fun e => (e.1, g e.2) := by
  have hstored : ∀ (m : OrderedMap α) (l : List (String × α)),
      (l.map fun e => (e.1, g e.2)).foldl (fun m e => set e.1 e.2 m)
        (m.map fun e => (e.1, g e.2)) =
      (l.foldl (fun m e => set e.1 e.2 m) m).map fun e => (e.1, g e.2) := by
    intro m l
    induction l generalizing m with
    | nil => rfl
    | cons e rest ih =>
      rw [List.map_cons, List.foldl_cons, List.foldl_cons, ← ih, ← set_map]
  exact hstored [] entries

/-- Where values are stored one after the other, under pairwise different keys, what is found is the
stored value or what was there before. -/
lemma find?_foldl_set {α β : Type} (g : α → β) {updates : OrderedMap α}
    (hkeys : updates.keys.Nodup) (m : OrderedMap β) (key : String) :
    find? key (updates.foldl (fun m e => set e.1 (g e.2) m) m) =
      ((find? key updates).map g).or (find? key m) := by
  induction updates generalizing m with
  | nil => rfl
  | cons e rest ih =>
    obtain ⟨k, a⟩ := e
    obtain ⟨hk, hrest⟩ := List.nodup_cons.mp hkeys
    rw [List.foldl_cons, ih hrest]
    by_cases hkey : k = key
    · have hnone : find? key rest = none := find?_eq_none (hkey ▸ hk)
      rw [hnone, find?, if_pos hkey, hkey, find?_set_self]
      rfl
    · rw [find?, if_neg hkey, find?_set_of_ne (Ne.symm hkey)]

/-! ## Matching -/

/-- Two maps have the same keys in the same order, with values that are related. -/
def Matches {α β : Type} (R : α → β → Prop) (a : OrderedMap α) (b : OrderedMap β) : Prop :=
  List.Forall₂ (fun x y => x.1 = y.1 ∧ R x.2 y.2) a b

/-- Maps that match have the same keys. -/
lemma Matches.keys {α β : Type} {R : α → β → Prop} {a : OrderedMap α} {b : OrderedMap β}
    (h : a.Matches R b) : a.keys = b.keys := by
  induction h with
  | nil => rfl
  | cons hfirst _ ih => exact congrArg₂ List.cons hfirst.1 ih

/-- In maps that match, the values found under a key are related. -/
lemma Matches.find? {α β : Type} {R : α → β → Prop} {a : OrderedMap α} {b : OrderedMap β}
    (h : a.Matches R b) (key : String) :
    Option.Rel R (OrderedMap.find? key a) (OrderedMap.find? key b) := by
  induction h with
  | nil => exact .none
  | @cons x y rest rest' hfirst _ ih =>
    obtain ⟨k, value⟩ := x
    obtain ⟨k', value'⟩ := y
    obtain ⟨rfl, hvalue⟩ := hfirst
    unfold OrderedMap.find?
    by_cases hk : k = key
    · rw [if_pos hk, if_pos hk]
      exact .some hvalue
    · rw [if_neg hk, if_neg hk]
      exact ih

/-- In maps that match, the values found by a condition on the keys are related. -/
lemma Matches.find?_key {α β : Type} {R : α → β → Prop} {a : OrderedMap α} {b : OrderedMap β}
    (h : a.Matches R b) (p : String → Bool) :
    Option.Rel (fun x y => R x.2 y.2) (List.find? (fun e => p e.1) a)
      (List.find? (fun e => p e.1) b) := by
  induction h with
  | nil => exact .none
  | @cons x y rest rest' hfirst _ ih =>
    rw [List.find?_cons, List.find?_cons, ← hfirst.1]
    cases p x.1 with
    | true => exact .some hfirst.2
    | false => exact ih

end OrderedMap

end DesignTokens

import Mathlib.Data.List.Forall2

/-!
# Computations that may fail

A computation that ends well has taken every one of its steps with a result.  The lemmas take such
computations apart, and carry an invariant along a list that is folded.
-/

namespace DesignTokens

variable {ε α β γ : Type}

/-- A sequence ends well exactly if both of its parts do. -/
lemma bind_eq_ok {x : Except ε α} {f : α → Except ε β} {b : β} :
    (x >>= f) = .ok b ↔ ∃ a, x = .ok a ∧ f a = .ok b := by
  constructor
  · intro h
    cases x with
    | error e => cases h
    | ok a => exact ⟨a, rfl, h⟩
  · rintro ⟨a, rfl, h⟩
    exact h

/-- A sequence goes on with the result of its first part. -/
lemma bind_of_ok {x : Except ε α} {a : α} (h : x = .ok a) (f : α → Except ε β) :
    (x >>= f) = f a := by
  rw [h]
  rfl

/-- A result that is built from another one is there if the other one is. -/
lemma exists_bind_pure_iff {x : Except ε α} {build : α → β} :
    (∃ b, (do return build (← x)) = .ok b) ↔ ∃ a, x = .ok a := by
  constructor
  · rintro ⟨_, h⟩
    obtain ⟨a, ha, _⟩ := bind_eq_ok.mp h
    exact ⟨a, ha⟩
  · rintro ⟨a, ha⟩
    exact ⟨build a, bind_of_ok ha _⟩

/-- A result that is converted was there before. -/
lemma map_eq_ok {x : Except ε α} {f : α → β} {b : β} :
    x.map f = .ok b ↔ ∃ a, x = .ok a ∧ f a = b := by
  constructor
  · intro h
    cases x with
    | error e => cases h
    | ok a => exact ⟨a, rfl, Except.ok.inj h⟩
  · rintro ⟨a, rfl, rfl⟩
    rfl

/-- A list of one item is converted to the result of the item. -/
lemma mapM_singleton {f : α → Except ε β} {a : α} {b : β} (h : f a = .ok b) :
    [a].mapM f = .ok [b] := by
  rw [List.mapM_cons, bind_of_ok h, List.mapM_nil]
  rfl

/-- Each item of a list that is converted has its own result. -/
lemma exists_of_mapM {f : α → Except ε β} {items : List α} {results : List β}
    (h : items.mapM f = .ok results) {a : α} (ha : a ∈ items) : ∃ b ∈ results, f a = .ok b := by
  induction items generalizing results with
  | nil => exact (List.not_mem_nil ha).elim
  | cons first rest ih =>
    rw [List.mapM_cons] at h
    obtain ⟨b, hfirst, h⟩ := bind_eq_ok.mp h
    obtain ⟨tail, htail, h⟩ := bind_eq_ok.mp h
    cases h
    rcases List.mem_cons.mp ha with rfl | hrest
    · exact ⟨b, List.mem_cons_self, hfirst⟩
    · obtain ⟨c, hc, hresult⟩ := ih htail hrest
      exact ⟨c, List.mem_cons_of_mem _ hc, hresult⟩

/-- Each result of a list that is converted is that of one of its items. -/
lemma exists_of_mem_mapM {f : α → Except ε β} {items : List α} {results : List β}
    (h : items.mapM f = .ok results) {b : β} (hb : b ∈ results) : ∃ a ∈ items, f a = .ok b := by
  induction items generalizing results with
  | nil =>
    cases h
    exact (List.not_mem_nil hb).elim
  | cons first rest ih =>
    rw [List.mapM_cons] at h
    obtain ⟨c, hfirst, h⟩ := bind_eq_ok.mp h
    obtain ⟨tail, htail, h⟩ := bind_eq_ok.mp h
    cases h
    rcases List.mem_cons.mp hb with rfl | hrest
    · exact ⟨first, List.mem_cons_self, hfirst⟩
    · obtain ⟨a, ha, hresult⟩ := ih htail hrest
      exact ⟨a, List.mem_cons_of_mem _ ha, hresult⟩

/-- The items of a list that is converted are matched with their results. -/
lemma forall₂_of_mapM {f : α → Except ε β} {items : List α} {results : List β}
    (h : items.mapM f = .ok results) : List.Forall₂ (fun a b => f a = .ok b) items results := by
  induction items generalizing results with
  | nil =>
    cases h
    exact .nil
  | cons first rest ih =>
    rw [List.mapM_cons] at h
    obtain ⟨b, hfirst, h⟩ := bind_eq_ok.mp h
    obtain ⟨tail, htail, h⟩ := bind_eq_ok.mp h
    cases h
    exact .cons hfirst (ih htail)

/-- Some result of a conversion has a property if and only if some item has the one that stands for
it. -/
lemma exists_mapM_iff {f : α → Except ε β} {items : List α} {results : List β} {P : α → Prop}
    {Q : β → Prop} (h : items.mapM f = .ok results) (hstep : ∀ a b, f a = .ok b → (Q b ↔ P a)) :
    (∃ b ∈ results, Q b) ↔ ∃ a ∈ items, P a := by
  constructor
  · rintro ⟨b, hb, hQ⟩
    obtain ⟨a, ha, hab⟩ := exists_of_mem_mapM h hb
    exact ⟨a, ha, (hstep a b hab).mp hQ⟩
  · rintro ⟨a, ha, hP⟩
    obtain ⟨b, hb, hab⟩ := exists_of_mapM h ha
    exact ⟨b, hb, (hstep a b hab).mpr hP⟩

/-- The results of a conversion show what the items show, if each result shows what its item does. -/
lemma map_of_mapM {f : α → Except ε β} {items : List α} {results : List β} {shown : β → γ}
    {given : α → γ} (h : items.mapM f = .ok results)
    (hstep : ∀ a b, f a = .ok b → shown b = given a) : results.map shown = items.map given := by
  induction items generalizing results with
  | nil =>
    cases h
    rfl
  | cons a rest ih =>
    rw [List.mapM_cons] at h
    obtain ⟨b, hfirst, h⟩ := bind_eq_ok.mp h
    obtain ⟨tail, htail, h⟩ := bind_eq_ok.mp h
    cases h
    rw [List.map_cons, List.map_cons, hstep a b hfirst, ih htail]

/-- The results of two conversions of one list show the same, if the two results of each item do. -/
lemma map_eq_of_mapM {δ : Type} {f : α → Except ε β} {g : α → Except ε γ} {items : List α}
    {results : List β} {results' : List γ} {shown : β → δ} {shown' : γ → δ}
    (h : items.mapM f = .ok results) (h' : items.mapM g = .ok results')
    (hstep : ∀ a b c, f a = .ok b → g a = .ok c → shown b = shown' c) :
    results.map shown = results'.map shown' := by
  induction items generalizing results results' with
  | nil =>
    cases h
    cases h'
    rfl
  | cons a rest ih =>
    rw [List.mapM_cons] at h h'
    obtain ⟨b, hfirst, h⟩ := bind_eq_ok.mp h
    obtain ⟨tail, htail, h⟩ := bind_eq_ok.mp h
    obtain ⟨c, hfirst', h'⟩ := bind_eq_ok.mp h'
    obtain ⟨tail', htail', h'⟩ := bind_eq_ok.mp h'
    cases h
    cases h'
    rw [List.map_cons, List.map_cons, hstep a b c hfirst hfirst', ih htail htail']

/-- A conversion ends well if another one does that ends well on more items. -/
lemma mapM_of_mapM {f : α → Except ε β} {g : α → Except ε γ} {items : List α} {results : List β}
    {change : β → γ} (h : items.mapM f = .ok results)
    (hstep : ∀ a ∈ items, ∀ b, f a = .ok b → g a = .ok (change b)) :
    items.mapM g = .ok (results.map change) := by
  induction items generalizing results with
  | nil =>
    cases h
    rfl
  | cons a rest ih =>
    rw [List.mapM_cons] at h
    obtain ⟨b, hfirst, h⟩ := bind_eq_ok.mp h
    obtain ⟨tail, htail, h⟩ := bind_eq_ok.mp h
    cases h
    have hrest := ih htail fun a ha => hstep a (List.mem_cons_of_mem _ ha)
    rw [List.mapM_cons, bind_of_ok (hstep a List.mem_cons_self b hfirst), bind_of_ok hrest]
    rfl

/-- Results may be changed one by one or all together. -/
lemma mapM_map (f : α → Except ε β) (g : β → γ) (items : List α) :
    items.mapM (fun a => (f a).map g) = (items.mapM f).map (List.map g) := by
  induction items with
  | nil => rfl
  | cons a rest ih =>
    rw [List.mapM_cons, List.mapM_cons, ih]
    cases f a with
    | error e => rfl
    | ok b => cases rest.mapM f <;> rfl

/-- Items are read back from what was written for them. -/
lemma mapM_of_inverse {read : β → Except ε α} {write : α → β} (h : ∀ a, read (write a) = .ok a)
    (items : List α) : (items.map write).mapM read = .ok items := by
  induction items with
  | nil => rfl
  | cons a rest ih =>
    rw [List.map_cons, List.mapM_cons, bind_of_ok (h a), bind_of_ok ih]
    rfl

/-- A sequence that fails has a part that does. -/
lemma of_bind_eq_error {x : Except ε α} {f : α → Except ε β} {e : ε} (h : (x >>= f) = .error e) :
    x = .error e ∨ ∃ a, x = .ok a ∧ f a = .error e := by
  cases x with
  | error e' =>
    cases h
    exact Or.inl rfl
  | ok a => exact Or.inr ⟨a, rfl, h⟩

/-- Computations with the same result, or with faults that look the same, stay so when both go on in
the same way. -/
lemma mapError_bind_congr {δ : Type} {view : ε → δ} {x y : Except ε α} {f g : α → Except ε β}
    (h : x.mapError view = y.mapError view)
    (hlater : ∀ a, (f a).mapError view = (g a).mapError view) :
    (x >>= f).mapError view = (y >>= g).mapError view := by
  cases x with
  | ok a =>
    cases y with
    | ok b =>
      obtain rfl := Except.ok.inj h
      exact hlater a
    | error e => cases h
  | error e =>
    cases y with
    | ok b => cases h
    | error e' => exact congrArg Except.error (Except.error.inj h)

/-- A conversion ends well if each item has a result. -/
lemma mapM_eq_ok {f : α → Except ε β} {items : List α} (h : ∀ a ∈ items, ∃ b, f a = .ok b) :
    items.mapM f = .ok (items.filterMap fun a => (f a).toOption) := by
  induction items with
  | nil => rfl
  | cons a rest ih =>
    obtain ⟨b, hb⟩ := h a List.mem_cons_self
    have hrest := ih fun c hc => h c (List.mem_cons_of_mem _ hc)
    rw [List.mapM_cons, bind_of_ok hb, bind_of_ok hrest, List.filterMap_cons, hb]
    rfl

/-- A conversion ends well exactly if each item has a result. -/
lemma exists_mapM_eq_ok_iff {f : α → Except ε β} {items : List α} :
    (∃ results, items.mapM f = .ok results) ↔ ∀ a ∈ items, ∃ b, f a = .ok b := by
  constructor
  · rintro ⟨results, h⟩ a ha
    obtain ⟨b, _, hb⟩ := exists_of_mapM h ha
    exact ⟨b, hb⟩
  · intro h
    exact ⟨_, mapM_eq_ok h⟩

/-- Joined lists are converted one after the other. -/
lemma mapM_append_eq_ok {f : α → Except ε β} {items items' : List α} {results : List β}
    (h : (items ++ items').mapM f = .ok results) :
    ∃ first later, items.mapM f = .ok first ∧ items'.mapM f = .ok later ∧
      results = first ++ later := by
  rw [List.mapM_append] at h
  obtain ⟨first, hfirst, h⟩ := bind_eq_ok.mp h
  obtain ⟨later, hlater, h⟩ := bind_eq_ok.mp h
  exact ⟨first, later, hfirst, hlater, (Except.ok.inj h).symm⟩

/-- Conversions in which each item has a result in both or in none end well together. -/
lemma exists_mapM_congr {f : α → Except ε β} {g : α → Except ε γ} {items : List α}
    (h : ∀ a, (∃ b, f a = .ok b) ↔ ∃ c, g a = .ok c) :
    (∃ bs, items.mapM f = .ok bs) ↔ ∃ cs, items.mapM g = .ok cs := by
  constructor
  · rintro ⟨bs, hbs⟩
    refine ⟨_, mapM_eq_ok fun a ha => (h a).mp ?_⟩
    obtain ⟨b, _, hb⟩ := exists_of_mapM hbs ha
    exact ⟨b, hb⟩
  · rintro ⟨cs, hcs⟩
    refine ⟨_, mapM_eq_ok fun a ha => (h a).mpr ?_⟩
    obtain ⟨c, _, hc⟩ := exists_of_mapM hcs ha
    exact ⟨c, hc⟩

/-- A conversion that fails does so at one of the items. -/
lemma exists_of_mapM_eq_error {f : α → Except ε β} {items : List α} {e : ε}
    (h : items.mapM f = .error e) : ∃ a ∈ items, f a = .error e := by
  induction items with
  | nil => cases h
  | cons a rest ih =>
    rw [List.mapM_cons] at h
    rcases of_bind_eq_error h with hfirst | ⟨b, _, h⟩
    · exact ⟨a, List.mem_cons_self, hfirst⟩
    · rcases of_bind_eq_error h with hrest | ⟨tail, _, h⟩
      · obtain ⟨c, hc, hfault⟩ := ih hrest
        exact ⟨c, List.mem_cons_of_mem _ hc, hfault⟩
      · cases h

/-- The order of the items of a conversion matters neither for its results, up to their order, nor
for its fault, if the items have only one. -/
theorem mapM_perm {f : α → Except ε β} {fault : ε} (hfault : ∀ a e, f a = .error e → e = fault)
    {items items' : List α} (h : items.Perm items') :
    (∃ results results', items.mapM f = .ok results ∧ items'.mapM f = .ok results' ∧
      results.Perm results') ∨
    (items.mapM f = .error fault ∧ items'.mapM f = .error fault) := by
  by_cases hall : ∀ a ∈ items, ∃ b, f a = .ok b
  · have hall' : ∀ a ∈ items', ∃ b, f a = .ok b := fun a ha => hall a (h.mem_iff.mpr ha)
    exact Or.inl ⟨_, _, mapM_eq_ok hall, mapM_eq_ok hall', h.filterMap _⟩
  · have hfails : ∀ l : List α, (¬ ∀ a ∈ l, ∃ b, f a = .ok b) → l.mapM f = .error fault := by
      intro l hl
      cases hresult : l.mapM f with
      | error e =>
        obtain ⟨a, _, ha⟩ := exists_of_mapM_eq_error hresult
        rw [hfault a e ha]
      | ok results =>
        refine absurd (fun a ha => ?_) hl
        obtain ⟨b, _, hb⟩ := exists_of_mapM hresult ha
        exact ⟨b, hb⟩
    refine Or.inr ⟨hfails items hall, hfails items' fun hall' => hall fun a ha => ?_⟩
    exact hall' a (h.mem_iff.mp ha)

/-- What each step of a fold keeps holds at its end. -/
theorem foldlM_invariant (P : β → Prop) {f : β → α → Except ε β} {items : List α}
    (hstep : ∀ b, ∀ a ∈ items, ∀ b', P b → f b a = .ok b' → P b') {b b' : β} (hb : P b)
    (h : items.foldlM f b = .ok b') : P b' := by
  induction items generalizing b with
  | nil =>
    cases h
    exact hb
  | cons a rest ih =>
    rw [List.foldlM_cons, bind_eq_ok] at h
    obtain ⟨c, hfirst, hrest⟩ := h
    have hc := hstep b a List.mem_cons_self c hb hfirst
    exact ih (fun b a ha => hstep b a (List.mem_cons_of_mem _ ha)) hc hrest

/-- What holds of the items that a fold has gone through and of what it has come to holds at its
end. -/
theorem foldlM_progress (P : List α → β → Prop) {f : β → α → Except ε β} {items : List α}
    (hstep : ∀ done b, ∀ a ∈ items, ∀ b', P done b → f b a = .ok b' → P (done ++ [a]) b')
    {done : List α} {b b' : β} (hb : P done b) (h : items.foldlM f b = .ok b') :
    P (done ++ items) b' := by
  induction items generalizing done b with
  | nil =>
    cases h
    rwa [List.append_nil]
  | cons a rest ih =>
    rw [List.foldlM_cons, bind_eq_ok] at h
    obtain ⟨c, hfirst, hrest⟩ := h
    have hc := hstep done b a List.mem_cons_self c hb hfirst
    rw [List.append_cons]
    exact ih (fun done b a ha => hstep done b a (List.mem_cons_of_mem _ ha)) hc hrest

/-- A fold over lists that follow one another goes through each of them. -/
lemma foldlM_flatMap {f : β → γ → Except ε β} (g : α → List γ) (items : List α) (b : β) :
    (items.flatMap g).foldlM f b = items.foldlM (fun c a => (g a).foldlM f c) b := by
  induction items generalizing b with
  | nil => rfl
  | cons a rest ih =>
    rw [List.flatMap_cons, List.foldlM_append, List.foldlM_cons]
    exact congrArg _ (funext ih)

/-- A fold that ends well has come to each of its items, and past it. -/
lemma exists_of_foldlM {f : β → α → Except ε β} {items : List α} {b b' : β}
    (h : items.foldlM f b = .ok b') {a : α} (ha : a ∈ items) : ∃ c c', f c a = .ok c' := by
  obtain ⟨before, after, rfl⟩ := List.append_of_mem ha
  rw [List.foldlM_append] at h
  obtain ⟨c, _, h⟩ := bind_eq_ok.mp h
  rw [List.foldlM_cons] at h
  obtain ⟨c', hstep, _⟩ := bind_eq_ok.mp h
  exact ⟨c, c', hstep⟩

/-- A fold ends well if each of its steps does. -/
lemma exists_foldlM {f : β → α → Except ε β} {items : List α}
    (h : ∀ b, ∀ a ∈ items, ∃ b', f b a = .ok b') (b : β) : ∃ b', items.foldlM f b = .ok b' := by
  induction items generalizing b with
  | nil => exact ⟨b, rfl⟩
  | cons a rest ih =>
    obtain ⟨c, hfirst⟩ := h b a List.mem_cons_self
    rw [List.foldlM_cons, bind_of_ok hfirst]
    exact ih (fun b a ha => h b a (List.mem_cons_of_mem _ ha)) c

/-- A fold that fails does so at one of its items. -/
lemma exists_of_foldlM_eq_error {f : β → α → Except ε β} {items : List α} {b : β} {e : ε}
    (h : items.foldlM f b = .error e) : ∃ a ∈ items, ∃ c, f c a = .error e := by
  induction items generalizing b with
  | nil => cases h
  | cons a rest ih =>
    rw [List.foldlM_cons] at h
    rcases of_bind_eq_error h with hfirst | ⟨c, _, h⟩
    · exact ⟨a, List.mem_cons_self, b, hfirst⟩
    · obtain ⟨a', ha', hfault⟩ := ih h
      exact ⟨a', List.mem_cons_of_mem _ ha', hfault⟩

/-- Folds with the same steps are the same. -/
lemma foldlM_congr {f g : β → α → Except ε β} {items : List α}
    (h : ∀ b, ∀ a ∈ items, f b a = g b a) (b : β) : items.foldlM f b = items.foldlM g b := by
  induction items generalizing b with
  | nil => rfl
  | cons a rest ih =>
    rw [List.foldlM_cons, List.foldlM_cons, h b a List.mem_cons_self]
    exact congrArg _ (funext fun c => ih (fun b a ha => h b a (List.mem_cons_of_mem _ ha)) c)

/-- What a step of a fold brings about holds at the end, if the later steps keep it. -/
theorem foldlM_of_step (P : β → Prop) {f : β → α → Except ε β} {before after : List α} {a : α}
    (hself : ∀ b b', f b a = .ok b' → P b')
    (hkeep : ∀ b, ∀ later ∈ after, ∀ b', P b → f b later = .ok b' → P b') {b b' : β}
    (h : (before ++ a :: after).foldlM f b = .ok b') : P b' := by
  rw [List.foldlM_append] at h
  obtain ⟨first, _, h⟩ := bind_eq_ok.mp h
  rw [List.foldlM_cons] at h
  obtain ⟨second, hsecond, h⟩ := bind_eq_ok.mp h
  exact foldlM_invariant P hkeep (hself first second hsecond) h

end DesignTokens

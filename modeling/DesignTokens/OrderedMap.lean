/-!
# Maps in insertion order

Collections, groups, modes and code names are maps whose keys keep the order in which they first
appeared. Such a map is a list of pairs; storing under a key that is present keeps its place.
-/

namespace DesignTokens

/-- A map from texts, as its entries in insertion order. -/
abbrev OrderedMap (α : Type u) := List (String × α)

namespace OrderedMap

variable {α : Type u}

/-- The value stored under a key. -/
def find? (key : String) : OrderedMap α → Option α
  | [] => none
  | (k, v) :: rest => if k = key then some v else find? key rest

/-- Whether a key is present. -/
def has (m : OrderedMap α) (key : String) : Bool :=
  (find? key m).isSome

/-- Stores a value: in place when the key is present, at the end otherwise. -/
def set (key : String) (value : α) : OrderedMap α → OrderedMap α
  | [] => [(key, value)]
  | (k, v) :: rest => if k = key then (key, value) :: rest else (k, v) :: set key value rest

/-- The map that stores the pairs one after the other. -/
def ofList (entries : List (String × α)) : OrderedMap α :=
  entries.foldl (fun m e => set e.1 e.2 m) []

/-- The keys in order. -/
def keys (m : OrderedMap α) : List String :=
  m.map (·.1)

@[simp] theorem find?_set_self (key : String) (value : α) (m : OrderedMap α) :
    find? key (set key value m) = some value := by
  induction m with
  | nil => simp [set, find?]
  | cons e rest ih =>
    obtain ⟨k, v⟩ := e
    by_cases h : k = key <;> simp [set, find?, h, ih]

theorem find?_set_of_ne {key other : String} (h : other ≠ key) (value : α) (m : OrderedMap α) :
    find? other (set key value m) = find? other m := by
  induction m with
  | nil => simp [set, find?, h.symm]
  | cons e rest ih =>
    obtain ⟨k, v⟩ := e
    by_cases hk : k = key
    · subst hk
      simp [set, find?, h.symm]
    · by_cases ho : k = other
      · subst ho
        simp [set, find?, hk]
      · simp [set, find?, hk, ho, ih]

end OrderedMap

end DesignTokens

import DesignTokens.Json.Basic
import Mathlib.Tactic.Lemma

/-!
# Equality of JSON values

Whether two JSON values are the same can be computed, since this is so for their texts and numbers
(`instDecidableEqJson`).  Floating-point numbers are the same here when their bits are.
-/

namespace DesignTokens

namespace Json

mutual

/-- Whether two values have the same form and the same contents. -/
def same : Json → Json → Bool
  | .null, .null => true
  | .bool a, .bool b => a = b
  | .int a, .int b => a = b
  | .float a, .float b => a = b
  | .text a, .text b => a = b
  | .list a, .list b => sameItems a b
  | .object a, .object b => sameFields a b
  | _, _ => false

/-- Whether two lists have the same items. -/
def sameItems : List Json → List Json → Bool
  | [], [] => true
  | a :: as, b :: bs => same a b && sameItems as bs
  | _, _ => false

/-- Whether two objects have the same fields in the same order. -/
def sameFields : List (String × Json) → List (String × Json) → Bool
  | [], [] => true
  | (k, a) :: as, (l, b) :: bs => k = l && same a b && sameFields as bs
  | _, _ => false

end

mutual

/-- What has the same form and the same contents is the same value. -/
theorem eq_of_same : ∀ a b : Json, same a b = true → a = b
  | .null, b, h => by
    cases b with
    | null => rfl
    | bool | int | float | text | list | object => cases h
  | .bool a, b, h => by
    cases b with
    | bool b => exact congrArg _ (of_decide_eq_true h)
    | null | int | float | text | list | object => cases h
  | .int a, b, h => by
    cases b with
    | int b => exact congrArg _ (of_decide_eq_true h)
    | null | bool | float | text | list | object => cases h
  | .float a, b, h => by
    cases b with
    | float b => exact congrArg _ (of_decide_eq_true h)
    | null | bool | int | text | list | object => cases h
  | .text a, b, h => by
    cases b with
    | text b => exact congrArg _ (of_decide_eq_true h)
    | null | bool | int | float | list | object => cases h
  | .list a, b, h => by
    cases b with
    | list b => exact congrArg _ (eq_of_sameItems a b h)
    | null | bool | int | float | text | object => cases h
  | .object a, b, h => by
    cases b with
    | object b => exact congrArg _ (eq_of_sameFields a b h)
    | null | bool | int | float | text | list => cases h

/-- Lists with the same items are the same. -/
theorem eq_of_sameItems : ∀ a b : List Json, sameItems a b = true → a = b
  | [], [], _ => rfl
  | [], _ :: _, h => by cases h
  | _ :: _, [], h => by cases h
  | a :: as, b :: bs, h => by
    obtain ⟨hfirst, hrest⟩ := Bool.and_eq_true_iff.mp h
    rw [eq_of_same a b hfirst, eq_of_sameItems as bs hrest]

/-- Objects with the same fields are the same. -/
theorem eq_of_sameFields : ∀ a b : List (String × Json), sameFields a b = true → a = b
  | [], [], _ => rfl
  | [], _ :: _, h => by cases h
  | _ :: _, [], h => by cases h
  | (k, a) :: as, (l, b) :: bs, h => by
    obtain ⟨hfirst, hrest⟩ := Bool.and_eq_true_iff.mp h
    obtain ⟨hkey, hvalue⟩ := Bool.and_eq_true_iff.mp hfirst
    rw [of_decide_eq_true hkey, eq_of_same a b hvalue, eq_of_sameFields as bs hrest]

end

mutual

/-- A value is the same as itself. -/
theorem same_self : ∀ a : Json, same a a = true
  | .null => rfl
  | .bool _ | .int _ | .float _ | .text _ => decide_eq_true rfl
  | .list items => sameItems_self items
  | .object fields => sameFields_self fields

/-- A list has the same items as itself. -/
theorem sameItems_self : ∀ items : List Json, sameItems items items = true
  | [] => rfl
  | a :: as => Bool.and_eq_true_iff.mpr ⟨same_self a, sameItems_self as⟩

/-- An object has the same fields as itself. -/
theorem sameFields_self : ∀ fields : List (String × Json), sameFields fields fields = true
  | [] => rfl
  | (_, a) :: as => Bool.and_eq_true_iff.mpr
    ⟨Bool.and_eq_true_iff.mpr ⟨decide_eq_true rfl, same_self a⟩, sameFields_self as⟩

end

/-- Values are the same exactly if they have the same form and the same contents. -/
lemma same_iff {a b : Json} : same a b = true ↔ a = b :=
  ⟨eq_of_same a b, fun h => h ▸ same_self a⟩

end Json

/-- Whether two JSON values are the same can be computed. -/
instance instDecidableEqJson : DecidableEq Json := fun _ _ => decidable_of_iff _ Json.same_iff

end DesignTokens

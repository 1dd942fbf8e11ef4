import DesignTokens.Directive
import DesignTokens.Proofs.Outcome
import DesignTokens.Schema

/-!
# Faults of readings

A computation may be known to have certain faults only.  What is put together of such computations
has no other ones, and so a record that is read field by field has one fault, whatever is wrong with
it, and a description has those of its directives.
-/

namespace DesignTokens

/-! ## Computations with certain faults -/

/-- A computation has no other faults than these. -/
def FailsOnly {α : Type} (P : Fault → Prop) (x : Except Fault α) : Prop :=
  ∀ fault, x = .error fault → P fault

section failing

variable {α β : Type} {P : Fault → Prop} {x : Except Fault α}

/-- A result is no fault. -/
lemma FailsOnly.ok (a : α) : FailsOnly P (.ok a) :=
  fun _ => nofun

/-- A fault is one of those that a computation has if it is the only one. -/
lemma FailsOnly.error {fault : Fault} (h : P fault) : FailsOnly P (.error fault : Except Fault α) :=
  fun _ heq => Except.error.inj heq ▸ h

/-- The faults of a computation are among any that comprise them. -/
lemma FailsOnly.mono {Q : Fault → Prop} (hx : FailsOnly P x) (h : ∀ fault, P fault → Q fault) :
    FailsOnly Q x :=
  fun fault heq => h fault (hx fault heq)

/-- A sequence has the faults of its parts. -/
lemma FailsOnly.bind {f : α → Except Fault β} (hx : FailsOnly P x) (hf : ∀ a, FailsOnly P (f a)) :
    FailsOnly P (x >>= f) := by
  intro fault h
  rcases of_bind_eq_error h with h | ⟨a, _, h⟩
  · exact hx fault h
  · exact hf a fault h

/-- A sequence has the faults of its second part if its first part ends well. -/
lemma FailsOnly.bind_ok {f : α → Except Fault β} (hx : FailsOnly P x)
    (hf : ∀ a, x = .ok a → FailsOnly P (f a)) : FailsOnly P (x >>= f) := by
  intro fault h
  rcases of_bind_eq_error h with h | ⟨a, ha, h⟩
  · exact hx fault h
  · exact hf a ha fault h

/-- A result that is changed has the faults that it had. -/
lemma FailsOnly.map {f : α → β} (hx : FailsOnly P x) : FailsOnly P (x.map f) := by
  cases x with
  | ok a => exact .ok (f a)
  | error fault =>
    intro fault' h
    exact hx fault' (congrArg Except.error (Except.error.inj h))

/-- A fold has the faults of its steps. -/
lemma FailsOnly.foldlM {f : β → α → Except Fault β} (hf : ∀ b a, FailsOnly P (f b a))
    (items : List α) (b : β) : FailsOnly P (items.foldlM f b) := by
  intro fault h
  obtain ⟨a, _, c, hstep⟩ := exists_of_foldlM_eq_error h
  exact hf c a fault hstep

/-- A sequence fails with a fault if its first part does, or its second part after it. -/
lemma bind_eq_error {f : α → Except Fault β} {fault : Fault} :
    (x >>= f) = .error fault ↔ x = .error fault ∨ ∃ a, x = .ok a ∧ f a = .error fault := by
  refine ⟨of_bind_eq_error, ?_⟩
  rintro (rfl | ⟨a, rfl, h⟩)
  · rfl
  · exact h

/-- A result that is changed fails with the faults that it had. -/
lemma map_eq_error {f : α → β} {fault : Fault} : x.map f = .error fault ↔ x = .error fault := by
  cases x with
  | ok a => exact ⟨nofun, nofun⟩
  | error fault' =>
    exact ⟨fun h => congrArg Except.error (Except.error.inj h),
      fun h => congrArg Except.error (Except.error.inj h)⟩

end failing

/-! ## Records -/

namespace Schema

variable {α : Type}

/-- A record that does not fit is invalid, which is its only fault. -/
abbrev FailsAsInvalid (x : Except Fault α) : Prop :=
  FailsOnly (· = .invalidRecord) x

/-- The fault of data that does not fit. -/
lemma failsAsInvalid_invalid : FailsAsInvalid (invalid : Except Fault α) :=
  .error rfl

/-- A value that is missing is invalid. -/
lemma failsAsInvalid_require (value : Option α) : FailsAsInvalid (require value) := by
  cases value with
  | none => exact failsAsInvalid_invalid
  | some a => exact .ok a

/-- What is no text is invalid. -/
lemma failsAsInvalid_text (j : Json) : FailsAsInvalid (text j) := by
  cases j with
  | text s => exact .ok s
  | _ => exact failsAsInvalid_invalid

/-- What is no number is invalid. -/
lemma failsAsInvalid_float (j : Json) : FailsAsInvalid (float j) := by
  cases j with
  | float x => exact .ok x
  | int n =>
    unfold float
    dsimp only
    split_ifs
    · exact failsAsInvalid_invalid
    · exact .ok _
  | bool b => exact .ok _
  | text s => exact failsAsInvalid_require (floatOfText? s)
  | _ => exact failsAsInvalid_invalid

/-- What is no name of a choice is invalid. -/
lemma failsAsInvalid_choice (ofName? : String → Option α) (j : Json) :
    FailsAsInvalid (choice ofName? j) := by
  cases j with
  | text s => exact failsAsInvalid_require (ofName? s)
  | _ => exact failsAsInvalid_invalid

/-- What is no record is invalid. -/
lemma failsAsInvalid_fields (j : Json) : FailsAsInvalid (fields j) := by
  cases j with
  | object f => exact .ok f
  | _ => exact failsAsInvalid_invalid

section fields

variable {r : Reader α} (hr : ∀ j, FailsAsInvalid (r j))
include hr

/-- A value that may be null is invalid as the value is. -/
lemma failsAsInvalid_optional (j : Json) : FailsAsInvalid (optional r j) := by
  cases j with
  | null => exact .ok none
  | _ => exact (hr _).map

/-- A field that must be present is invalid if it is missing or its value is. -/
lemma failsAsInvalid_required (f : List (String × Json)) (keys : List String) :
    FailsAsInvalid (required f keys r) := by
  unfold required
  cases find? keys f with
  | none => exact failsAsInvalid_invalid
  | some j => exact hr j

/-- A field that may be missing is invalid as its value is. -/
lemma failsAsInvalid_withDefault (f : List (String × Json)) (keys : List String) (default : α) :
    FailsAsInvalid (withDefault f keys default r) := by
  unfold withDefault
  cases find? keys f with
  | none => exact .ok default
  | some j => exact hr j

end fields

/-- Exactly texts are read as texts. -/
lemma exists_text_iff {j : Json} : (∃ s, text j = .ok s) ↔ ∃ s, j = .text s := by
  cases j with
  | text s => exact ⟨fun _ => ⟨s, rfl⟩, fun _ => ⟨s, rfl⟩⟩
  | _ => exact ⟨nofun, nofun⟩

/-- A text that may be missing is read if it is missing or a text. -/
lemma exists_withDefault_text_iff {f : List (String × Json)} {keys : List String}
    {default : String} : (∃ s, withDefault f keys default text = .ok s) ↔
      ∀ j, find? keys f = some j → ∃ s, j = .text s := by
  unfold withDefault
  cases find? keys f with
  | none => exact ⟨fun _ => nofun, fun _ => ⟨default, rfl⟩⟩
  | some j =>
    rw [exists_text_iff]
    exact ⟨fun h j' hj => Option.some.inj hj ▸ h, fun h => h j rfl⟩

end Schema

/-! ## Directives -/

/-- The fault is one of a directive: a color format that is none, as only a letter that is read for
another one can bring it about, or a number without a whole part or with too many digits. -/
abbrev Fault.IsOfDirective (fault : Fault) : Prop :=
  fault ∈ [.unknownName, .number .malformedNumeral, .number .notANumber, .number .infinite]

namespace Directive

/-- A unit directive has faults of directives only. -/
lemma failsOnly_withUnit (cs : List Char) (d : Directives) :
    FailsOnly Fault.IsOfDirective (withUnit cs d) := by
  have hfloor : ∀ x, FailsOnly Fault.IsOfDirective (floorFloat x) := by
    intro x
    unfold floorFloat
    split
    · exact .error (by decide)
    · exact .error (by decide)
    · exact .ok _
  unfold withUnit
  split
  · split
    · unfold ofUnit
      split
      · exact (hfloor _).bind fun _ => .ok _
      · exact .ok _
      · exact .ok _
    · exact .ok _
  · exact .ok _

/-- A format directive has faults of directives only. -/
lemma failsOnly_withFormat (cs : List Char) (d : Directives) :
    FailsOnly Fault.IsOfDirective (withFormat cs d) := by
  unfold withFormat
  split
  · split
    · exact .ok _
    · exact .error (by decide)
  · exact .ok _

/-- A precision directive has faults of directives only. -/
lemma failsOnly_withPrecision (cs : List Char) (d : Directives) :
    FailsOnly Fault.IsOfDirective (withPrecision cs d) := by
  have hnumber : ∀ digits, FailsOnly Fault.IsOfDirective (wholeNumber digits) := by
    intro digits
    unfold wholeNumber
    split_ifs
    · exact .error (by decide)
    · exact .ok _
  unfold withPrecision
  split
  · exact (hnumber _).bind fun _ => .ok _
  · exact .ok _

end Directive

/-- A description has the faults of its directives only. -/
lemma Directives.failsOnly_parse (description : String) :
    FailsOnly Fault.IsOfDirective (Directives.parse description) :=
  (Directive.failsOnly_withUnit _ _).bind fun _ =>
    (Directive.failsOnly_withFormat _ _).bind fun _ =>
      Directive.failsOnly_withPrecision _ _

end DesignTokens

import DesignTokens.Sheet.Basic

/-!
# SCSS sheets

A sheet is a list of variables, mixins and comments. Values are made for CSS and change when they
enter an SCSS sheet: a reference to a custom property becomes one to the variable of that name.
-/

namespace DesignTokens

namespace ScssValue

/-- What a reference to a custom property begins with. -/
def opening : List Char := ['v', 'a', 'r', '(', '-', '-']

/-- A character of the name of a variable. -/
def isNameChar (c : Char) : Bool :=
  c.isAlphanum || c == '_' || c == '-'

/-- The rest of a text after the parentheses that are open at its start are closed; nothing when the
text ends before. -/
def afterClosing : Nat → List Char → List Char
  | 0, cs => cs
  | _ + 1, [] => []
  | depth + 1, c :: cs =>
    if c = '(' then afterClosing (depth + 2) cs
    else if c = ')' then afterClosing depth cs
    else afterClosing (depth + 1) cs

theorem length_afterClosing_le (depth : Nat) (cs : List Char) :
    (afterClosing depth cs).length ≤ cs.length := by
  induction cs generalizing depth with
  | nil => cases depth <;> simp [afterClosing]
  | cons c cs ih =>
    cases depth with
    | zero => simp [afterClosing]
    | succ depth =>
      simp only [afterClosing, List.length_cons]
      split
      · exact Nat.le_succ_of_le (ih _)
      · split <;> exact Nat.le_succ_of_le (ih _)

theorem length_dropWhile_le (p : Char → Bool) (cs : List Char) :
    (cs.dropWhile p).length ≤ cs.length :=
  (List.dropWhile_sublist p).length_le

/-- The characters of a value with references to variables; the fallback value of a reference is
dropped. -/
def withVariables : List Char → List Char
  | [] => []
  | c :: cs =>
    if opening.isPrefixOf (c :: cs) then
      let tail := (c :: cs).drop opening.length
      '$' :: tail.takeWhile isNameChar ++
        withVariables (afterClosing 1 (tail.dropWhile isNameChar))
    else c :: withVariables cs
termination_by cs => cs.length
decreasing_by
  · have h1 := length_afterClosing_le 1 (((c :: cs).drop opening.length).dropWhile isNameChar)
    have h2 := length_dropWhile_le isNameChar ((c :: cs).drop opening.length)
    simp only [opening, List.length_drop, List.length_cons, List.length_nil] at h1 h2 ⊢
    omega
  · simp

/-- A value with references to variables. -/
def ofCss (value : String) : String :=
  String.ofList (withVariables value.toList)

end ScssValue

/-- A declaration with its value for SCSS. -/
def Declaration.toScss (d : Declaration) : Declaration :=
  { d with value := ScssValue.ofCss d.value }

/-- An item of a sheet. -/
inductive ScssItem where
  | blank
  | comment (text : String)
  | declaration (declaration : Declaration)
  /-- A mixin that takes the given parameters. -/
  | mixin (name parameters : String) (body : List Declaration)
deriving DecidableEq, Repr

namespace ScssItem

/-- The declaration of a variable, its value written for CSS. -/
def ofCss (name value : String) : ScssItem :=
  declaration (Declaration.dollar name value).toScss

/-- A mixin, its values written for CSS. -/
def mixinOfCss (name parameters : String) (body : List Declaration) : ScssItem :=
  mixin name parameters (body.map Declaration.toScss)

/-- The lines of an item. -/
def lines : ScssItem → List String
  | blank => [""]
  | comment text => ["// " ++ text]
  | declaration d => [d.text]
  | mixin name parameters body =>
    ["@mixin " ++ name ++ parameters ++ " \x7b"] ++ body.map ("  " ++ ·.text) ++ ["\x7d"]

end ScssItem

/-- The text of a sheet. -/
def scssText (header : Header) (items : List ScssItem) : String :=
  fileText .line header (items.flatMap ScssItem.lines)

/-- A mixin that colors a property of the caller's choice. -/
def colorMixin (name value : String) : ScssItem :=
  .mixinOfCss name "($property: color)" [⟨"#\x7b$property\x7d", value⟩]

end DesignTokens

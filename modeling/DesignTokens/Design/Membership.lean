import DesignTokens.Design.Variable
import DesignTokens.Name.Order
import DesignTokens.Text.Case

/-!
# Members of collections

The variables of a collection in the order of their names, and the mode that stands for the whole
collection where there is room for one mode only. Where one of several modes has to be chosen by name,
it is the one called "default", in any case, or else the first one.
-/

namespace DesignTokens

/-- The name of a mode that is preferred to all others. -/
def isDefaultName (name : String) : Bool :=
  Text.lower name == "default"

/-- Of several items with names the first one with the preferred name, or else the first one. -/
def preferDefault? {α : Type u} (name : α → String) (items : List α) : Option α :=
  items.find? (fun item => isDefaultName (name item)) <|> items.head?

namespace Collection

/-- The variables of a collection in the natural order of a name. -/
def members (c : Collection) (name : Variable → String) (vars : List Variable) :
    Except Fault (List Variable) :=
  NaturalOrder.sortBy name (vars.filter (·.collectionId == c.id))

/-- The id of the mode that stands for the collection: the one with the preferred name, or else the
default mode. -/
def flatModeId (c : Collection) : String :=
  ((c.modes.find? fun m => isDefaultName m.name).map (·.id)).getD c.defaultModeId

end Collection

end DesignTokens

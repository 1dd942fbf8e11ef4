import DesignTokens.Settings
import DesignTokens.Sheet.Css

/-!
# Layouts of custom properties

Custom properties are laid out in one of two ways. The flat layout is one rule that holds all
collections, each at the values of one mode. The layout by modes has a rule for each mode of each
collection. Declarations of styles come last in the flat rule, and stand in the first rule of a
default mode otherwise, or in a rule of their own when there is none.
-/

namespace DesignTokens

/-- The declarations of a collection for one mode. -/
structure CollectionSection where
  name : String
  declarations : List Declaration

/-- The declarations of a mode. -/
structure ModeBlock where
  mode : String
  isDefault : Bool
  declarations : List Declaration

/-- The declarations of a collection, mode by mode. -/
structure CollectionBlocks where
  name : String
  blocks : List ModeBlock

namespace Layout

/-- The selector that settings ask for; a blank one counts as missing. -/
def selector (s : Settings) : String :=
  let text := Text.trimmed s.selector
  if text = "" then ":root" else text

/-! ### One rule -/

/-- The items of a section in the flat rule. -/
def sectionItems (s : Settings) (c : CollectionSection) : List BodyItem :=
  (if s.collectionComments then [.comment c.name] else []) ++ c.declarations.map .declaration

/-- The flat rule, with a blank line between collections. -/
def flat (s : Settings) (sections : List CollectionSection) (styles : List BodyItem) : CssItem :=
  .rule (selector s) ([BodyItem.blank].intercalate (sections.map (sectionItems s)) ++ styles)

/-! ### A rule for each mode -/

/-- The items of the rule of a mode. -/
def blockItems (s : Settings) (b : ModeBlock) (styles : List BodyItem) : List CssItem :=
  (if s.modeComments then [.comment ("Mode: " ++ b.mode)] else []) ++
    [.rule (modeSelector (selector s) b.mode b.isDefault)
        (b.declarations.map .declaration ++ styles),
      .blank]

/-- The items of the rules of several modes, and the style declarations that no rule of a default
mode has taken. -/
def blocksItems (s : Settings) : List ModeBlock → List BodyItem → List CssItem × List BodyItem
  | [], styles => ([], styles)
  | b :: rest, styles =>
    let (taken, left) := if b.isDefault then (styles, []) else ([], styles)
    let (items, left) := blocksItems s rest left
    (blockItems s b taken ++ items, left)

/-- The items of several collections, and the style declarations that are left. -/
def collectionsItems (s : Settings) :
    List CollectionBlocks → List BodyItem → List CssItem × List BodyItem
  | [], styles => ([], styles)
  | c :: rest, styles =>
    let title := if s.collectionComments then [CssItem.comment ("Collection: " ++ c.name)] else []
    let (items, left) := blocksItems s c.blocks styles
    let (later, left) := collectionsItems s rest left
    (title ++ items ++ later, left)

/-- The rules of all modes of all collections. -/
def byMode (s : Settings) (collections : List CollectionBlocks) (styles : List BodyItem) :
    List CssItem :=
  let (items, left) := collectionsItems s collections styles
  items ++ if left.isEmpty then [] else [.rule (selector s) left, .blank]

end Layout

end DesignTokens

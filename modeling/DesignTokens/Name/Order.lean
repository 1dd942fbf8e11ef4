import DesignTokens.Directive

/-!
# Natural order of names

Names are compared run by run: runs of decimal digits by their value, all other runs by their folded
text, numbers before texts. Names that agree in all runs are ordered by their characters. A run that
consists of digits without a decimal value has no place in this order.
-/

namespace DesignTokens

/-- A run of a name as it is compared; a name ends with the whole name. -/
inductive SortChunk where
  | number (value : Nat)
  | text (folded : String)
  | whole (name : String)
deriving DecidableEq, Repr

namespace SortChunk

/-- Numbers come before texts and these before whole names. -/
def rank : SortChunk → Nat
  | number _ => 0
  | text _ => 1
  | whole _ => 2

/-- Whether a run comes strictly before another one. -/
def before : SortChunk → SortChunk → Bool
  | number m, number n => m < n
  | text s, text t => s < t
  | whole s, whole t => s < t
  | a, b => a.rank < b.rank

end SortChunk

namespace NaturalOrder

/-- The runs of decimal digits and of other characters of a name. -/
def runs (cs : List Char) : List (List Char) :=
  cs.splitBy fun a b => Text.isDecimal a == Text.isDecimal b

/-- A run as it is compared. -/
def chunk (cs : List Char) : Except Fault SortChunk :=
  if cs.all Text.isDecimal then (Directive.wholeNumber cs).map .number
  else if cs.all Text.isDigit then .error (.number .malformedNumeral)
  else .ok (.text (Text.fold (String.ofList cs)))

/-- What a name is compared by. -/
def key (name : String) : Except Fault (List SortChunk) := do
  let chunks ← (runs name.toList).mapM chunk
  return chunks ++ [.whole name]

/-- Whether a key comes strictly before another one: at the first difference the lesser run decides,
and a beginning comes before what it begins. -/
def before : List SortChunk → List SortChunk → Bool
  | _, [] => false
  | [], _ :: _ => true
  | a :: as, b :: bs => if a = b then before as bs else a.before b

/-- Items in the natural order of their names; items of one name keep their order. -/
def sortBy (name : α → String) (items : List α) : Except Fault (List α) := do
  let keyed ← items.mapM fun item => return (← key (name item), item)
  return (keyed.mergeSort fun x y => !before y.1 x.1).map (·.2)

end NaturalOrder

end DesignTokens

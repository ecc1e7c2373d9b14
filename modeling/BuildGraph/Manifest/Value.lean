import BuildGraph.Decimal.Number

/-! Data of a target file: the values that its markup can spell. -/

set_option autoImplicit false

namespace BuildGraph.Manifest

inductive Number where
  | int (value : Int)
  | float (negative : Bool) (magnitude : Decimal.Double)
  deriving DecidableEq, Repr

def Number.text : Number → String
  | int value => toString value
  | float negative magnitude =>
    String.ofList ((if negative then ['-'] else []) ++ magnitude.text)

/-- A value; the entries of an object are in the order of the file. -/
inductive Value where
  | null
  | bool (value : Bool)
  | number (value : Number)
  | string (text : String)
  | array (items : List Value)
  | object (entries : List (String × Value))

namespace Value

/-- The spellings of nothing. Nulls that are written out arrive as strings. -/
def isNothing : Value → Bool
  | null => true
  | string text => text ∈ ["", "~", "null", "Null", "NULL"]
  | _ => false

/-- The text of a scalar that is not null. -/
def leafText? : Value → Option String
  | null => none
  | bool value => some (if value then "true" else "false")
  | number value => some value.text
  | string text => some text
  | array _ => none
  | object _ => none

end Value

end BuildGraph.Manifest

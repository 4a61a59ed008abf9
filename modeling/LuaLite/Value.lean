import LuaLite.Decimal.Shortest

/-!
# Values

What registers, globals and constants hold. Two values can be the same in two senses: `=` compares
floats by their bits, and `Value.same` compares them as numbers.
-/

namespace LuaLite

/-- A function that the host provides: the name it goes by, and which function it is. -/
structure NativeFunction where
  name : String
  id : Nat
  deriving DecidableEq, Repr

inductive Value where
  | nil
  | boolean (b : Bool)
  | integer (n : Int64)
  | float (x : Binary64)
  | string (s : String)
  | function (f : NativeFunction)
  deriving DecidableEq

inductive ValueType where
  | nil
  | boolean
  | integer
  | float
  | string
  | function
  deriving DecidableEq, Repr

def ValueType.name : ValueType → String
  | .nil => "nil"
  | .boolean => "boolean"
  | .integer => "integer"
  | .float => "float"
  | .string => "string"
  | .function => "function"

/-- Whole numbers are written with one place up to here, `10 ^ 16`. -/
def placeLimit : Nat := 10000000000000000

/-- The text of a float. A whole number below `placeLimit` keeps one place, so that it does not look
like an integer; any other finite number has its shortest digits and no exponent. -/
def floatText (x : Binary64) : String :=
  let bits := Binary64.magnitude x
  let sign := if Binary64.isNegative x then "-" else ""
  let units := Binary64.units bits
  if Binary64.infinity < bits then "nan"
  else if bits = Binary64.infinity then sign ++ "inf"
  else if units % Binary64.unitsPerOne = 0 ∧ units < placeLimit * Binary64.unitsPerOne then
    sign ++ toString (units / Binary64.unitsPerOne) ++ ".0"
  else sign ++ String.ofList (Decimal.shortest .up bits).positional

namespace Value

def type : Value → ValueType
  | .nil => .nil
  | .boolean _ => .boolean
  | .integer _ => .integer
  | .float _ => .float
  | .string _ => .string
  | .function _ => .function

/-- The text of a value, as it is printed. -/
def text : Value → String
  | .nil => "nil"
  | .boolean b => if b then "true" else "false"
  | .integer n => toString n.toInt
  | .float x => floatText x
  | .string s => s
  | .function f => "function: " ++ f.name

/-- Whether two values are equal in the language: of one type, floats as numbers, and functions
only if they are the same function, whatever they are called. -/
def same : Value → Value → Bool
  | .nil, .nil => true
  | .boolean a, .boolean b => a == b
  | .integer a, .integer b => a == b
  | .float a, .float b => a.toFloat == b.toFloat
  | .string a, .string b => a == b
  | .function a, .function b => a.id == b.id
  | _, _ => false

end Value

end LuaLite

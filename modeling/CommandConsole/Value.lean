import CommandConsole.Number.Integer
import CommandConsole.Number.Shortest

set_option autoImplicit false

/-!
# Values

What commands take and return: a number, a vector of two to four components, a text, or nothing.
A parameter declares which of them it accepts.
-/

namespace CommandConsole

/-- A value passed to a command or returned by one. -/
inductive Value where
  /-- No value: a command without a result, or a malformed vector literal. -/
  | nil
  | int (n : Int64)
  | float (x : Float)
  | vector2 (x y : Float)
  | vector3 (x y z : Float)
  | vector4 (x y z w : Float)
  | text (t : Text)
  deriving Repr, Inhabited

/-- What a parameter accepts. -/
inductive ParamKind where
  | int
  /-- A float; an integer is widened. -/
  | float
  | vector2
  | vector3
  | vector4
  | text
  /-- Any value. -/
  | any
  deriving DecidableEq, Repr, Inhabited

/-- The name shown in signatures and messages. -/
def ParamKind.name : ParamKind → Text
  | .int => "int".toList
  | .float => "float".toList
  | .vector2 => "vector2".toList
  | .vector3 => "vector3".toList
  | .vector4 => "vector4".toList
  | .text => "string".toList
  | .any => "any".toList

namespace Value

/-- The name of the kind of value, as messages show it. -/
def kindName : Value → Text
  | .nil => "nil".toList
  | .int _ => "int".toList
  | .float _ => "float".toList
  | .vector2 .. => "vector2".toList
  | .vector3 .. => "vector3".toList
  | .vector4 .. => "vector4".toList
  | .text _ => "string".toList

/-- Whether there is no value. -/
def isNil : Value → Bool
  | .nil => true
  | _ => false

/-- The number that a value stands for as a component or as a float parameter. -/
def asFloat? : Value → Option Float
  | .int n => some n.toFloat
  | .float x => some x
  | _ => none

/-- Two to four components as a vector; no other number of them makes one. -/
def ofComponents : List Float → Value
  | [x, y] => .vector2 x y
  | [x, y, z] => .vector3 x y z
  | [x, y, z, w] => .vector4 x y z w
  | _ => .nil

/-- Components between square brackets. -/
def componentsText (xs : List Float) : Text :=
  '[' :: (Text.commaSeparated (xs.map Number.floatText) ++ [']'])

/-- The text of a value as results and messages show it. -/
def display : Value → Text
  | .nil => "nil".toList
  | .int n => Number.int64Text n
  | .float x => Number.floatText x
  | .vector2 x y => componentsText [x, y]
  | .vector3 x y z => componentsText [x, y, z]
  | .vector4 x y z w => componentsText [x, y, z, w]
  | .text t => t

end Value

end CommandConsole

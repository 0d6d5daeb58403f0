import CommandConsole.Number.Binary64
import CommandConsole.Number.Integer

set_option autoImplicit false

/-!
# Floating point literals

A literal is an optional sign, digits with an optional point before, between or after them, and an
optional power of ten.  Words such as `inf` and `nan` have no digit and are no literals; neither
is a literal whose nearest number is infinite.
-/

namespace CommandConsole.Number

/-- A decimal as it is written: `± mantissa * 10 ^ exponent`. -/
structure DecimalLiteral where
  negative : Bool
  mantissa : Nat
  exponent : Int
  deriving DecidableEq, Repr, Inhabited

/-- The power of ten at the end of a literal: nothing, or `e` or `E` and a whole number. -/
def exponentPart? : Text → Option Int
  | [] => some 0
  | c :: rest => if c = 'e' ∨ c = 'E' then wholeLiteral? rest else none

/-- The digits after the point, if there is a point, and what follows them. -/
def fractionPart : Text → Text × Text
  | '.' :: rest => (rest.takeWhile isDigit, rest.dropWhile isDigit)
  | t => ([], t)

/-- The decimal that a literal denotes. -/
def decimalLiteral? (t : Text) : Option DecimalLiteral :=
  let (negative, unsigned) := splitSign t
  let whole := unsigned.takeWhile isDigit
  let (fraction, rest) := fractionPart (unsigned.dropWhile isDigit)
  if whole.isEmpty && fraction.isEmpty then none
  else
    match exponentPart? rest with
    | none => none
    | some exponent =>
      some ⟨negative, digitsValue (whole ++ fraction), exponent - fraction.length⟩

/-- The number nearest to the decimal. -/
def DecimalLiteral.toFloat (d : DecimalLiteral) : Float :=
  Binary64.nearestDecimal d.negative d.mantissa d.exponent

/-- The finite number that a literal denotes. -/
def floatLiteral? (t : Text) : Option Float :=
  match decimalLiteral? t with
  | some d => if d.toFloat.isFinite then some d.toFloat else none
  | none => none

end CommandConsole.Number

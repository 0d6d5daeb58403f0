import CommandConsole.Number.FloatLiteral
import CommandConsole.Number.Radix
import CommandConsole.Toml.DateTime
import CommandConsole.Toml.Quoted

set_option autoImplicit false

/-!
# TOML values

The values of TOML and the rules for those that hold no others.
-/

namespace CommandConsole.Toml

open Number
open Text (Rule)

/-- A value. -/
inductive Item where
  | string (t : Text)
  | integer (n : Int64)
  | float (x : Float)
  | boolean (b : Bool)
  | dateTime (d : DateTime)
  | array (items : List Item)
  | table (entries : List (Text × Item))
  deriving Repr, Inhabited

/-! ## Numbers -/

/-- The digits at the start of a text and what follows them.  An underscore may stand between two
digits. -/
def moreDigits (isDigit : Char → Bool) : Text → Text × Text
  | [] => ([], [])
  | [c] => if isDigit c then ([c], []) else ([], [c])
  | '_' :: c :: rest =>
    if isDigit c then
      let (digits, rest) := moreDigits isDigit rest
      (c :: digits, rest)
    else ([], '_' :: c :: rest)
  | c :: rest =>
    if isDigit c then
      let (digits, rest) := moreDigits isDigit rest
      (c :: digits, rest)
    else ([], c :: rest)

/-- One or more digits. -/
def readDigits (isDigit : Char → Bool) : Rule Text
  | c :: rest => if isDigit c then some (moreDigits isDigit (c :: rest)) else none
  | [] => none

/-- The digits before the point of a decimal number: no other digit follows a zero in front. -/
def readWhole : Rule Text
  | '0' :: rest => some (['0'], rest)
  | t => readDigits isDigit t

/-- An integer, if it is a signed one of 64 bits. -/
def integerOf? (n : Int) : Option Item :=
  if fitsInt64 n then some (.integer (.ofInt n)) else none

/-- A number in another base after its mark. -/
def readRadix (base : Nat) : Rule Item := fun t => do
  let (digits, t) ← readDigits (fun c => (digitIn? base c).isSome) t
  let n ← valueIn? base digits
  some (← integerOf? n, t)

/-- Whether a power of ten begins here. -/
def startsExponent : Text → Bool
  | c :: _ => c == 'e' || c == 'E'
  | [] => false

/-- A power of ten, if one is written. -/
def readExponent : Rule Int := fun t => do
  if startsExponent t then
    let (negative, t) := splitSign (t.drop 1)
    let (digits, t) ← readDigits isDigit t
    some (if negative then -(digitsValue digits : Int) else digitsValue digits, t)
  else some (0, t)

/-- The float that a decimal denotes.  One that is too large is refused, but not one that is too
far below zero. -/
def floatOf? (d : DecimalLiteral) : Option Item :=
  if d.toFloat == 1.0 / 0.0 then none else some (.float d.toFloat)

/-- A decimal number after its sign. -/
def readDecimal (negative : Bool) : Rule Item := fun t => do
  let (whole, t) ← readWhole t
  match after? '.' t with
  | some t =>
    let (fraction, t) ← readDigits isDigit t
    let (exponent, t) ← readExponent t
    some (← floatOf? ⟨negative, digitsValue (whole ++ fraction), exponent - fraction.length⟩, t)
  | none =>
    if startsExponent t then
      let (exponent, t) ← readExponent t
      some (← floatOf? ⟨negative, digitsValue whole, exponent⟩, t)
    else
      let n : Int := digitsValue whole
      some (← integerOf? (if negative then -n else n), t)

/-- A number after its sign. -/
def readUnsigned (negative : Bool) : Rule Item
  | 'i' :: 'n' :: 'f' :: rest =>
    some (.float (if negative then -1.0 / 0.0 else 1.0 / 0.0), rest)
  | 'n' :: 'a' :: 'n' :: rest => some (.float (0.0 / 0.0), rest)
  | t => readDecimal negative t

/-- A number of any form. -/
def readNumber : Rule Item
  | '0' :: 'x' :: rest => readRadix 16 rest
  | '0' :: 'o' :: rest => readRadix 8 rest
  | '0' :: 'b' :: rest => readRadix 2 rest
  | t =>
    let (negative, t) := splitSign t
    readUnsigned negative t

/-! ## Values without others in them -/

/-- A string, a truth value, a date or time, or a number. -/
def readScalar : Rule Item
  | 't' :: 'r' :: 'u' :: 'e' :: rest => some (.boolean true, rest)
  | 'f' :: 'a' :: 'l' :: 's' :: 'e' :: rest => some (.boolean false, rest)
  | '"' :: rest => (string ('"' :: rest)).map fun p => (.string p.1, p.2)
  | '\'' :: rest => (string ('\'' :: rest)).map fun p => (.string p.1, p.2)
  | t =>
    if startsDate t || startsTime t then (readDateTime t).map fun p => (.dateTime p.1, p.2)
    else readNumber t

end CommandConsole.Toml

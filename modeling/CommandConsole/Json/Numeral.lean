import CommandConsole.Number.FloatLiteral
import CommandConsole.Text.Rule

set_option autoImplicit false

/-!
# JSON numbers

A numeral is kept as it is written until its reader says which kind of number is wanted.  It is an
integer if it has neither point nor power of ten and fits 64 bits; `-0` is no integer, because
only a float has a negative zero.  Every integer is also a float.

The float of any other numeral comes from few operations rather than from one exact rounding:
digits are taken from the left while the number that they make fits 64 bits, the rest count for
their place only, and the number is then scaled by a power of ten.
-/

namespace CommandConsole.Json

open Number

/-- A number as it is written. -/
structure Numeral where
  negative : Bool
  /-- The digits before the point. -/
  whole : Text
  /-- The digits after the point, if there is one. -/
  fraction : Option Text
  /-- The power of ten, if one is written. -/
  exponent : Option Int
  deriving DecidableEq, Repr, Inhabited

namespace Numeral

/-! ## Reading -/

/-- One or more digits. -/
def readDigits : Text.Rule Text := fun t =>
  let digits := t.takeWhile isDigit
  if digits.isEmpty then none else some (digits, t.dropWhile isDigit)

/-- The digits before the point: no other digit follows a zero in front. -/
def readWhole : Text.Rule Text
  | '0' :: rest => some (['0'], rest)
  | t => readDigits t

/-- A point and the digits after it, if the text goes on with a point. -/
def readFraction : Text.Rule (Option Text)
  | '.' :: rest => (readDigits rest).map fun p => (some p.1, p.2)
  | t => some (none, t)

/-- A power of ten, if the text goes on with one. -/
def readExponent : Text.Rule (Option Int)
  | [] => some (none, [])
  | c :: rest =>
    if c = 'e' ∨ c = 'E' then
      let (negative, unsigned) := splitSign rest
      (readDigits unsigned).map fun p =>
        let n : Int := digitsValue p.1
        (some (if negative then -n else n), p.2)
    else some (none, c :: rest)

/-- The sign of a numeral: a minus, or nothing. -/
def readSign : Text → Bool × Text
  | '-' :: rest => (true, rest)
  | t => (false, t)

/-- A numeral. -/
def read : Text.Rule Numeral := fun t => do
  let (negative, t) := readSign t
  let (whole, t) ← readWhole t
  let (fraction, t) ← readFraction t
  let (exponent, t) ← readExponent t
  some (⟨negative, whole, fraction, exponent⟩, t)

/-! ## The number -/

/-- The integer that a numeral denotes: a signed one of 64 bits, or an unsigned one. -/
def integer? (n : Numeral) : Option Int :=
  match n.fraction, n.exponent with
  | none, none =>
    let magnitude := digitsValue n.whole
    if n.negative then
      if 0 < magnitude ∧ magnitude ≤ 0x8000000000000000 then some (-magnitude) else none
    else if magnitude ≤ 0xFFFFFFFFFFFFFFFF then some magnitude
    else none
  | _, _ => none

/-- The number that `start` becomes when digits are written after it for as long as it fits 64
bits, and how many they are. -/
def takeDigits (start : Nat) : Text → Nat × Nat
  | [] => (start, 0)
  | c :: rest =>
    let next := 10 * start + digitValue c
    if next ≤ 0xFFFFFFFFFFFFFFFF then
      let (n, count) := takeDigits next rest
      (n, count + 1)
    else (start, 0)

/-- A power of ten. -/
def tenTo (n : Nat) : Float := Binary64.nearestDecimal false 1 n

/-- `x * 10 ^ exponent`, unless it is too large: one multiplication, or divisions by powers that
are numbers themselves. -/
def scale (x : Float) (exponent : Int) : Option Float :=
  if 308 < exponent then if x == 0 then some x else none
  else if 0 ≤ exponent then
    let scaled := x * tenTo exponent.toNat
    if scaled.isFinite then some scaled else none
  else if -308 ≤ exponent then some (x / tenTo (-exponent).toNat)
  else if x == 0 then some x
  else scale (x / tenTo 308) (exponent + 308)
termination_by (-exponent).toNat

/-- The float that a numeral denotes, unless it is too large. -/
def float? (n : Numeral) : Option Float :=
  match n.integer? with
  | some i => some (Binary64.nearestDecimal (i < 0) i.natAbs 0)
  | none =>
    let (start, taken) := takeDigits 0 n.whole
    let (digits, places) := takeDigits start (n.fraction.getD [])
    let exponent : Int := n.exponent.getD 0 + (n.whole.length - taken : Nat) - places
    (scale (Binary64.nearestDecimal false digits 0) exponent).map fun x =>
      if n.negative then -x else x

/-- Digits that are taken make a number of 64 bits. -/
theorem takeDigits_le {start : Nat} (h : start ≤ 0xFFFFFFFFFFFFFFFF) (t : Text) :
    (takeDigits start t).1 ≤ 0xFFFFFFFFFFFFFFFF := by
  fun_induction takeDigits start t with
  | case1 => exact h
  | case2 start c rest next fits n count heq ih => simpa [heq] using ih fits
  | case3 => exact h

end Numeral

end CommandConsole.Json

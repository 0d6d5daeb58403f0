import CommandConsole.Number.Natural

set_option autoImplicit false

/-!
# Binary floating point

A finite 64-bit number is `± m · 2 ^ e` with `m < 2 ^ 53` and `-1074 ≤ e`.  This module takes a
number apart into sign, `m` and `e`, and rounds a ratio of naturals to the nearest such number in
exact arithmetic, a tie going to the even `m`.  Apart from the two conversions between a number
and its bits, all of it is arithmetic on naturals.
-/

namespace CommandConsole.Number

/-- A number taken apart: a finite one is `mantissa * 2 ^ exponent`, with its sign. -/
inductive Binary64 where
  | finite (negative : Bool) (mantissa : Nat) (exponent : Int)
  | infinite (negative : Bool)
  | notANumber
  deriving DecidableEq, Repr, Inhabited

namespace Binary64

/-- The bits of the magnitude of an infinity. -/
def infinityBits : Nat := 0x7FF0000000000000

/-- The parts of the number with the given bits. -/
def ofBits (bits : UInt64) : Binary64 :=
  let n := bits.toNat
  let negative := decide (0x8000000000000000 ≤ n)
  let field : Nat := n / 0x10000000000000 % 2048
  let fraction := n % 0x10000000000000
  if field = 0 then .finite negative fraction (-1074)
  else if field < 2047 then .finite negative (0x10000000000000 + fraction) ((field : Int) - 1075)
  else if fraction = 0 then .infinite negative
  else .notANumber

/-- The parts of a number. -/
def ofFloat (x : Float) : Binary64 := ofBits x.toBits

/-- `num / den` as a quotient of two naturals after division by `2 ^ e`. -/
def scaleDown (num den : Nat) (e : Int) : Nat × Nat :=
  if 0 ≤ e then (num, den * Nat.pow 2 e.toNat) else (num * Nat.pow 2 (-e).toNat, den)

/-- The quotient rounded to the nearest natural, a tie going to the even one. -/
def roundDiv (num den : Nat) : Nat :=
  let q := num / den
  let r := num % den
  if den < 2 * r ∨ (2 * r = den ∧ q % 2 = 1) then q + 1 else q

/-- The exponent at which `num / den` has 53 binary digits, or the least exponent there is. -/
def exponentFor (num den : Nat) : Int :=
  let guess : Int := (num.log2 : Int) - den.log2 - 52
  let (n, d) := scaleDown num den guess
  let exact := if n / d < 0x10000000000000 then guess - 1 else guess
  max exact (-1074)

/-- The bits of the magnitude nearest to `num / den`; those of an infinity when it is too large. -/
def nearestBits (num den : Nat) : Nat :=
  if num = 0 then 0
  else
    let e := exponentFor num den
    let (n, d) := scaleDown num den e
    min infinityBits ((e + 1074).toNat * 0x10000000000000 + roundDiv n d)

/-- The number with the given sign and magnitude bits. -/
def assemble (negative : Bool) (magnitude : Nat) : Float :=
  Float.ofBits (UInt64.ofNat (if negative then 0x8000000000000000 + magnitude else magnitude))

/-- The number nearest to `± mantissa * 10 ^ exponent`.  Beyond 400 places on either side of the
point the magnitude is settled without computing the power. -/
def nearestDecimal (negative : Bool) (mantissa : Nat) (exponent : Int) : Float :=
  let places : Int := (decimal mantissa).length + exponent
  assemble negative <|
    if mantissa = 0 ∨ places < -400 then 0
    else if 400 < places then infinityBits
    else if 0 ≤ exponent then nearestBits (mantissa * Nat.pow 10 exponent.toNat) 1
    else nearestBits mantissa (Nat.pow 10 (-exponent).toNat)

end Binary64

end CommandConsole.Number

import CommandConsole.Number.Binary64

set_option autoImplicit false

/-!
# Shortest decimals

The text of a floating point number has the fewest digits that read back as the same number, and
of those the ones nearest to it; an exact tie goes up.  The numbers that read back as
`m * 2 ^ e` are those between the midpoints to its neighbours, the midpoints included when `m` is
even.  The digits come from the coarsest power of ten that has a multiple in that interval.

The layout is always positional: no exponent, and no point on a whole number.
-/

namespace CommandConsole.Number

/-- The decimals that read back as one number: `value`, `low` and `high` are naturals over the
common denominator `den`. -/
structure ReadBack where
  value : Nat
  low : Nat
  high : Nat
  den : Nat
  closed : Bool
  deriving DecidableEq, Repr, Inhabited

namespace ReadBack

/-- The interval of `mantissa * 2 ^ exponent`, in quarters of the distance to the next number.
Below a power of two the distance is half of that above it. -/
def ofBinary (mantissa : Nat) (exponent : Int) : ReadBack :=
  let below := if mantissa = 0x10000000000000 ∧ -1074 < exponent then 1 else 2
  let scale := Nat.pow 2 exponent.toNat
  { value := 4 * mantissa * scale
    low := (4 * mantissa - below) * scale
    high := (4 * mantissa + 2) * scale
    den := 4 * Nat.pow 2 (-exponent).toNat
    closed := mantissa % 2 = 0 }

/-- Whether `n * 10 ^ p` lies in the interval; `num` and `den` are those of `10 ^ p`. -/
def holds (r : ReadBack) (n num den : Nat) : Bool :=
  let x := n * num * r.den
  if r.closed then r.low * den ≤ x && x ≤ r.high * den
  else r.low * den < x && x < r.high * den

/-- The multiple of `10 ^ p` in the interval that is nearest to the value. -/
def multiple? (r : ReadBack) (p : Int) : Option Nat :=
  let num := Nat.pow 10 p.toNat
  let den := Nat.pow 10 (-p).toNat
  let down := r.value * den / (num * r.den)
  let rest := r.value * den % (num * r.den)
  let nearer := if 2 * rest < num * r.den then [down, down + 1] else [down + 1, down]
  nearer.find? fun n => r.holds n num den

/-- The digits and the power of ten of the shortest decimal, trying `tries` powers from `p`
down. -/
def search (r : ReadBack) : Nat → Int → Nat × Int
  | 0, p => (0, p)
  | tries + 1, p =>
    match r.multiple? p with
    | some n => (n, p)
    | none => search r tries (p - 1)

/-- A power of ten that is too coarse, at most three above the first digit of the value. -/
def top (r : ReadBack) : Int :=
  (((r.value.log2 : Int) - r.den.log2) * 30103).fdiv 100000 + 2

/-- The digits and the power of ten of the shortest decimal. -/
def shortest (r : ReadBack) : Nat × Int := r.search 24 r.top

end ReadBack

/-- The positional text of `n * 10 ^ p`. -/
def positional (n : Nat) (p : Int) : Text :=
  if 0 ≤ p then decimal n ++ List.replicate p.toNat '0'
  else
    let places := (-p).toNat
    let digits := List.replicate (places + 1 - (decimal n).length) '0' ++ decimal n
    digits.take (digits.length - places) ++ '.' :: digits.drop (digits.length - places)

/-- The text of a number taken apart. -/
def Binary64.text : Binary64 → Text
  | .notANumber => "NaN".toList
  | .infinite negative => if negative then "-inf".toList else "inf".toList
  | .finite negative mantissa exponent =>
    let magnitude :=
      if mantissa = 0 then ['0']
      else
        let (n, p) := (ReadBack.ofBinary mantissa exponent).shortest
        positional n p
    if negative then '-' :: magnitude else magnitude

/-- The text of a floating point number. -/
def floatText (x : Float) : Text := (Binary64.ofFloat x).text

end CommandConsole.Number

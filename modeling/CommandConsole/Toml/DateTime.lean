import CommandConsole.Number.Natural
import CommandConsole.Text.Rule

set_option autoImplicit false

/-!
# TOML dates and times

A date, a time of day, or both with an optional distance from universal time.  Every field has a
fixed width and range; a month has as many days as it has in its year.
-/

namespace CommandConsole.Toml

open Number (isDigit digitValue digitsValue)
open Text (Rule)

/-- A day of the calendar. -/
structure Date where
  year : Nat
  month : Nat
  day : Nat
  deriving DecidableEq, Repr, Inhabited

/-- A time of day. -/
structure Time where
  hour : Nat
  minute : Nat
  second : Nat
  nanosecond : Nat
  deriving DecidableEq, Repr, Inhabited

/-- A moment, as far as it is given. -/
structure DateTime where
  date : Option Date
  time : Option Time
  /-- Minutes ahead of universal time. -/
  offset : Option Int
  deriving DecidableEq, Repr, Inhabited

/-- Whether the year has 366 days. -/
def isLeapYear (year : Nat) : Bool := year % 4 == 0 && (year % 100 != 0 || year % 400 == 0)

/-- Number of days of a month. -/
def daysIn (year month : Nat) : Nat :=
  if month = 2 then if isLeapYear year then 29 else 28
  else if month = 4 ∨ month = 6 ∨ month = 9 ∨ month = 11 then 30
  else 31

/-- Two digits that denote a number from `least` to `most`. -/
def twoDigits (least most : Nat) : Rule Nat
  | a :: b :: rest =>
    let n := digitsValue [a, b]
    if isDigit a ∧ isDigit b ∧ least ≤ n ∧ n ≤ most then some (n, rest) else none
  | _ => none

/-- The text after a given character. -/
def after? (c : Char) : Text → Option Text
  | d :: rest => if d = c then some rest else none
  | [] => none

/-- Whether a date begins here: four digits and a hyphen. -/
def startsDate : Text → Bool
  | a :: b :: c :: d :: '-' :: _ => [a, b, c, d].all isDigit
  | _ => false

/-- Whether a time begins here: two digits and a colon. -/
def startsTime : Text → Bool
  | a :: b :: ':' :: _ => isDigit a && isDigit b
  | _ => false

/-- A date. -/
def readDate : Rule Date := fun t => do
  let year := digitsValue (t.take 4)
  let (month, t) ← twoDigits 1 12 (t.drop 5)
  let t ← after? '-' t
  let (day, t) ← twoDigits 1 (daysIn year month) t
  some (⟨year, month, day⟩, t)

/-- Billionths after the point of a second; digits beyond the ninth are dropped. -/
def readNanosecond (t : Text) : Nat × Text :=
  match t with
  | '.' :: rest =>
    let digits := rest.takeWhile isDigit
    if digits.isEmpty then (0, t)
    else
      let kept := digits.take 9
      (digitsValue kept * Nat.pow 10 (9 - kept.length), rest.dropWhile isDigit)
  | _ => (0, t)

/-- A time of day; a minute may have a leap second. -/
def readTime : Rule Time := fun t => do
  let (hour, t) ← twoDigits 0 23 t
  let t ← after? ':' t
  let (minute, t) ← twoDigits 0 59 t
  let t ← after? ':' t
  let (second, t) ← twoDigits 0 60 t
  let (nanosecond, t) := readNanosecond t
  some (⟨hour, minute, second, nanosecond⟩, t)

/-- Hours and minutes of an offset. -/
def readOffsetMinutes : Rule Int := fun t => do
  let (hours, t) ← twoDigits 0 23 t
  let t ← after? ':' t
  let (minutes, t) ← twoDigits 0 59 t
  some ((60 * hours + minutes : Nat), t)

/-- An offset, if one is given. -/
def readOffset : Rule (Option Int)
  | [] => some (none, [])
  | c :: rest =>
    if c = 'Z' ∨ c = 'z' then some (some 0, rest)
    else if c = '+' then (readOffsetMinutes rest).map fun p => (some p.1, p.2)
    else if c = '-' then (readOffsetMinutes rest).map fun p => (some (-p.1), p.2)
    else some (none, c :: rest)

/-- Whether a date goes on with a time. -/
def continuesWithTime : Text → Bool
  | c :: rest => (c == 'T' || c == 't' || c == ' ') && startsTime rest
  | [] => false

/-- A date, a time, or both, where one begins. -/
def readDateTime : Rule DateTime := fun t => do
  if startsDate t then
    let (date, t) ← readDate t
    if continuesWithTime t then
      let (time, t) ← readTime (t.drop 1)
      let (offset, t) ← readOffset t
      some (⟨some date, some time, offset⟩, t)
    else some (⟨some date, none, none⟩, t)
  else
    let (time, t) ← readTime t
    some (⟨none, some time, none⟩, t)

end CommandConsole.Toml

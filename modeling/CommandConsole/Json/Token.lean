import CommandConsole.Json.Numeral
import CommandConsole.Number.Radix

set_option autoImplicit false

/-!
# JSON tokens

The words of a JSON text.  A string is kept as a list of code points, in which the two halves of a
pair of escapes count as two: whether they make a text is asked only where a text is wanted.
-/

namespace CommandConsole.Json

/-- The code points of a string, those of escapes as they are written. -/
abbrev Points := List Nat

/-- One token. -/
inductive Token where
  | openArray
  | closeArray
  | openObject
  | closeObject
  | comma
  | colon
  | null
  | boolean (b : Bool)
  | number (n : Numeral)
  | string (s : Points)
  deriving DecidableEq, Repr, Inhabited

/-! ## Strings -/

/-- The code point of a one-letter escape. -/
def escaped? : Char → Option Nat
  | '"' => some 34
  | '\\' => some 92
  | '/' => some 47
  | 'b' => some 8
  | 'f' => some 12
  | 'n' => some 10
  | 'r' => some 13
  | 't' => some 9
  | _ => none

/-- Puts a code point before a string that was read. -/
def consPoint (point : Option Nat) (read : Option (Points × Text)) : Option (Points × Text) := do
  let n ← point
  let (s, rest) ← read
  some (n :: s, rest)

/-- A string after its opening quote.  Control characters are written as escapes only. -/
def readString : Text.Rule Points
  | [] => none
  | '"' :: rest => some ([], rest)
  | '\\' :: 'u' :: a :: b :: c :: d :: rest =>
    consPoint (Number.valueIn? 16 [a, b, c, d]) (readString rest)
  | '\\' :: c :: rest => consPoint (escaped? c) (readString rest)
  | c :: rest => if c.toNat < 32 then none else consPoint (some c.toNat) (readString rest)

/-- Whether a code point is the first half of a pair. -/
def isLeading (n : Nat) : Bool := 0xD800 ≤ n && n < 0xDC00

/-- Whether a code point is the second half of a pair. -/
def isTrailing (n : Nat) : Bool := 0xDC00 ≤ n && n < 0xE000

/-- The text of a string: a first half and the second half after it are one character, and any
other half makes no text. -/
def textOf? : Points → Option Text
  | [] => some []
  | a :: b :: rest =>
    if isLeading a && isTrailing b then
      (textOf? rest).map (Char.ofNat (0x10000 + (a - 0xD800) * 0x400 + (b - 0xDC00)) :: ·)
    else if isLeading a || isTrailing a then none
    else (textOf? (b :: rest)).map (Char.ofNat a :: ·)
  | [a] => if isLeading a || isTrailing a then none else some [Char.ofNat a]

/-- The code points of a text. -/
def pointsOf (t : Text) : Points := t.map Char.toNat

/-! ## Tokens -/

/-- Whether a character may stand between tokens. -/
def isBlank (c : Char) : Bool := c == ' ' || c == '\t' || c == '\n' || c == '\r'

/-- One token. -/
def Token.read : Text.Rule Token
  | '[' :: rest => some (.openArray, rest)
  | ']' :: rest => some (.closeArray, rest)
  | '\x7b' :: rest => some (.openObject, rest)
  | '\x7d' :: rest => some (.closeObject, rest)
  | ',' :: rest => some (.comma, rest)
  | ':' :: rest => some (.colon, rest)
  | 'n' :: 'u' :: 'l' :: 'l' :: rest => some (.null, rest)
  | 't' :: 'r' :: 'u' :: 'e' :: rest => some (.boolean true, rest)
  | 'f' :: 'a' :: 'l' :: 's' :: 'e' :: rest => some (.boolean false, rest)
  | '"' :: rest => (readString rest).map fun p => (.string p.1, p.2)
  | t => (Numeral.read t).map fun p => (.number p.1, p.2)

/-- The tokens of a text. -/
def tokens? (t : Text) : Option (List Token) :=
  Text.Rule.all (fun t => (Token.read t).map fun p => (p.1, p.2.dropWhile isBlank))
    (t.dropWhile isBlank)

/-! ## Text and code points -/

theorem isLeading_toNat (c : Char) : isLeading c.toNat = false := by
  have h : c.toNat < 0xD800 ∨ 0xDFFF < c.toNat ∧ c.toNat < 0x110000 := c.valid
  simp only [isLeading, Bool.and_eq_false_iff, decide_eq_false_iff_not]
  omega

theorem isTrailing_toNat (c : Char) : isTrailing c.toNat = false := by
  have h : c.toNat < 0xD800 ∨ 0xDFFF < c.toNat ∧ c.toNat < 0x110000 := c.valid
  simp only [isTrailing, Bool.and_eq_false_iff, decide_eq_false_iff_not]
  omega

/-- Every text is the text of its code points. -/
theorem textOf?_pointsOf (t : Text) : textOf? (pointsOf t) = some t := by
  induction t with
  | nil => rfl
  | cons c t ih =>
    cases t with
    | nil => simp [pointsOf, textOf?, isLeading_toNat, isTrailing_toNat]
    | cons d t =>
      simp only [pointsOf, List.map_cons] at ih ⊢
      simp [textOf?, isLeading_toNat, isTrailing_toNat, ih]

end CommandConsole.Json

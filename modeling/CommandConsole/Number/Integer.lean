import CommandConsole.Number.Natural

set_option autoImplicit false

/-!
# Integer literals

A 64-bit integer literal is an optional sign and at least one digit, and its value must fit.
A literal out of range is no integer: nothing wraps and nothing is clamped.
-/

namespace CommandConsole.Number

/-- Whether the literal has a minus sign, and what follows its sign. -/
def splitSign : Text → Bool × Text
  | '+' :: rest => (false, rest)
  | '-' :: rest => (true, rest)
  | t => (false, t)

theorem splitSign_isSuffix (t : Text) : (splitSign t).2 <:+ t := by
  unfold splitSign
  split
  · exact List.suffix_cons '+' _
  · exact List.suffix_cons '-' _
  · exact List.suffix_rfl

/-- Whether the text is a non-empty run of digits. -/
def isDigits (t : Text) : Bool := !t.isEmpty && t.all isDigit

/-- The whole number that a literal denotes, of any size. -/
def wholeLiteral? (t : Text) : Option Int :=
  let (negative, digits) := splitSign t
  if isDigits digits then
    some (if negative then -(digitsValue digits : Int) else digitsValue digits)
  else none

/-- Whether the number is a signed 64-bit integer. -/
def fitsInt64 (n : Int) : Bool := -0x8000000000000000 ≤ n && n ≤ 0x7FFFFFFFFFFFFFFF

theorem fitsInt64_iff {n : Int} :
    fitsInt64 n = true ↔ -0x8000000000000000 ≤ n ∧ n ≤ 0x7FFFFFFFFFFFFFFF := by
  simp [fitsInt64]

theorem fitsInt64_toInt (i : Int64) : fitsInt64 i.toInt = true :=
  fitsInt64_iff.2 ⟨i.le_toInt, Int.le_sub_one_of_lt i.toInt_lt⟩

theorem toInt_ofInt_of_fits {n : Int} (h : fitsInt64 n = true) : (Int64.ofInt n).toInt = n := by
  obtain ⟨hlow, hhigh⟩ := fitsInt64_iff.1 h
  exact Int64.toInt_ofInt_of_le hlow (Int.lt_of_le_sub_one hhigh)

/-- The signed 64-bit integer that a literal denotes. -/
def int64Literal? (t : Text) : Option Int64 :=
  match wholeLiteral? t with
  | some n => if fitsInt64 n then some (Int64.ofInt n) else none
  | none => none

/-- The decimal text of a signed 64-bit integer. -/
def int64Text (n : Int64) : Text := decimalInt n.toInt

end CommandConsole.Number

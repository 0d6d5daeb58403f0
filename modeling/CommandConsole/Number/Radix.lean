import CommandConsole.Number.Natural

set_option autoImplicit false

/-!
# Digits of other bases

Numbers written in a base up to sixteen, with letters of either case for the digits from ten on.
-/

namespace CommandConsole.Number

/-- The value of a digit in any base up to sixteen. -/
def hexDigit? (c : Char) : Option Nat :=
  if isDigit c then some (digitValue c)
  else if 'a' ≤ c ∧ c ≤ 'f' then some (c.toNat - 87)
  else if 'A' ≤ c ∧ c ≤ 'F' then some (c.toNat - 55)
  else none

/-- The value of a digit of the base. -/
def digitIn? (base : Nat) (c : Char) : Option Nat :=
  match hexDigit? c with
  | some d => if d < base then some d else none
  | none => none

/-- The number that digits of the base denote. -/
def valueIn? (base : Nat) (digits : Text) : Option Nat :=
  digits.foldlM (fun n c => (digitIn? base c).map (base * n + ·)) 0

theorem digitIn?_lt {base d : Nat} {c : Char} (h : digitIn? base c = some d) : d < base := by
  unfold digitIn? at h
  split at h
  · split at h
    · cases h; assumption
    · cases h
  · cases h

end CommandConsole.Number

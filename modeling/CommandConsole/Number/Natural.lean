import CommandConsole.Text.Word

set_option autoImplicit false

/-!
# Decimal naturals

Writing a natural number in decimal and reading digits back.  The text is made of digits, it
reads back as the number, and a number of at least `10 ^ k` takes more than `k` digits.
-/

namespace CommandConsole.Number

/-- Whether the character is one of the ten digits. -/
def isDigit (c : Char) : Bool := '0' ≤ c && c ≤ '9'

/-- The digit of a number below ten. -/
def digit (n : Nat) : Char := Char.ofNat (48 + n)

/-- The value of a digit. -/
def digitValue (c : Char) : Nat := c.toNat - 48

/-- The number in decimal, without leading zeros. -/
def decimal (n : Nat) : Text :=
  if n < 10 then [digit n] else decimal (n / 10) ++ [digit (n % 10)]

/-- The number that the digits denote. -/
def digitsValue (t : Text) : Nat := t.foldl (fun n c => 10 * n + digitValue c) 0

/-- The whole number in decimal, with a minus sign when it is negative. -/
def decimalInt : Int → Text
  | .ofNat n => decimal n
  | .negSucc n => '-' :: decimal (n + 1)

/-! ## Digits -/

theorem toNat_digit {n : Nat} (h : n < 10) : (digit n).toNat = 48 + n := by
  have hv : (48 + n).isValidChar := Or.inl (by omega)
  unfold digit Char.ofNat
  rw [dif_pos hv]
  rfl

theorem isDigit_iff (c : Char) : isDigit c = true ↔ 48 ≤ c.toNat ∧ c.toNat ≤ 57 := by
  simp only [isDigit, Bool.and_eq_true, decide_eq_true_eq]
  exact Iff.rfl

theorem isDigit_digit {n : Nat} (h : n < 10) : isDigit (digit n) = true := by
  rw [isDigit_iff, toNat_digit h]
  omega

theorem digitValue_digit {n : Nat} (h : n < 10) : digitValue (digit n) = n := by
  simp [digitValue, toNat_digit h]

theorem isDigit_of_mem_decimal {n : Nat} {c : Char} (h : c ∈ decimal n) : isDigit c = true := by
  fun_induction decimal n with
  | case1 n hn =>
    rw [List.mem_singleton] at h
    exact h ▸ isDigit_digit hn
  | case2 n hn ih =>
    rcases List.mem_append.1 h with h | h
    · exact ih h
    · rw [List.mem_singleton] at h
      exact h ▸ isDigit_digit (Nat.mod_lt _ (by decide))

/-- A decimal text holds word characters only. -/
theorem isWordChar_of_mem_decimal {n : Nat} {c : Char} (h : c ∈ decimal n) :
    Text.isWordChar c = true := by
  have hd := isDigit_of_mem_decimal h
  simp only [isDigit, Bool.and_eq_true, decide_eq_true_eq] at hd
  exact Text.isWordChar_digit hd.1 hd.2

theorem decimal_ne_nil (n : Nat) : decimal n ≠ [] := by
  unfold decimal
  split <;> simp

/-! ## Value and length -/

theorem digitsValue_append_singleton (t : Text) (c : Char) :
    digitsValue (t ++ [c]) = 10 * digitsValue t + digitValue c := by
  simp [digitsValue]

theorem digitsValue_decimal (n : Nat) : digitsValue (decimal n) = n := by
  fun_induction decimal n with
  | case1 n hn => simp [digitsValue, digitValue_digit hn]
  | case2 n hn ih =>
    rw [digitsValue_append_singleton, ih, digitValue_digit (Nat.mod_lt _ (by decide))]
    omega

theorem lt_pow_length_decimal (n : Nat) : n < Nat.pow 10 (decimal n).length := by
  fun_induction decimal n with
  | case1 n hn => exact hn
  | case2 n hn ih =>
    rw [List.length_append, List.length_singleton]
    have step : Nat.pow 10 ((decimal (n / 10)).length + 1) =
        Nat.pow 10 (decimal (n / 10)).length * 10 := rfl
    omega

/-- Large numbers take many digits. -/
theorem lt_length_decimal {k n : Nat} (h : Nat.pow 10 k ≤ n) : k < (decimal n).length := by
  have := Nat.lt_of_le_of_lt h (lt_pow_length_decimal n)
  exact (Nat.pow_lt_pow_iff_right (by decide)).1 this

end CommandConsole.Number

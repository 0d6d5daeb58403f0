import CommandConsole.Json.Numeral

set_option autoImplicit false

/-!
# The digits of a JSON numeral that count

The float of a numeral that is no integer is made from the longest run of its digits, from the left,
whose number fits 64 bits (`taken_takeDigits`), and the digits before the point that are left out
count for their place (`float?_eq`).  If all digits fit, it is made from all of them
(`float?_of_fits`).
-/

namespace CommandConsole.Json.Numeral

open Number

/-- The greatest number of 64 bits. -/
def largest : Nat := 0xFFFFFFFFFFFFFFFF

/-- The number that `start` becomes when the digits are written after it. -/
def valueAfter (start : Nat) (digits : Text) : Nat :=
  digits.foldl (fun n c => 10 * n + digitValue c) start

theorem valueAfter_cons (start : Nat) (c : Char) (digits : Text) :
    valueAfter start (c :: digits) = valueAfter (10 * start + digitValue c) digits := by
  rw [valueAfter, List.foldl_cons, valueAfter]

theorem valueAfter_zero (digits : Text) : valueAfter 0 digits = digitsValue digits := rfl

theorem valueAfter_append (start : Nat) (digits digits' : Text) :
    valueAfter start (digits ++ digits') = valueAfter (valueAfter start digits) digits' :=
  List.foldl_append

/-- A number does not become smaller by digits after it. -/
theorem le_valueAfter (start : Nat) (digits : Text) : start ≤ valueAfter start digits := by
  induction digits generalizing start with
  | nil => exact Nat.le_refl start
  | cons c digits ih =>
      rw [valueAfter_cons]
      have hrest := ih (10 * start + digitValue c)
      omega

/-- The number is made from `start` and the first `count` of the digits, as many as fit. -/
structure Taken (start : Nat) (digits : Text) (n count : Nat) : Prop where
  le : count ≤ digits.length
  value : n = valueAfter start (digits.take count)
  fits : n ≤ largest
  /-- No more of the digits fit. -/
  longest : ∀ k ≤ digits.length, valueAfter start (digits.take k) ≤ largest → k ≤ count

namespace Taken

variable {start n n' count count' : Nat} {digits : Text}

theorem unique (h : Taken start digits n count) (h' : Taken start digits n' count') :
    n = n' ∧ count = count' := by
  have hcount : count = count' := by
    apply Nat.le_antisymm
    · exact h'.longest count h.le (h.value ▸ h.fits)
    · exact h.longest count' h'.le (h'.value ▸ h'.fits)
  exact ⟨by rw [h.value, h'.value, hcount], hcount⟩

/-- Digits that all fit are all taken. -/
theorem of_fits (h : valueAfter start digits ≤ largest) :
    Taken start digits (valueAfter start digits) digits.length where
  le := Nat.le_refl _
  value := by rw [List.take_length]
  fits := h
  longest _ hk _ := hk

end Taken

/-- As many digits are taken as fit. -/
theorem taken_takeDigits {start : Nat} (h : start ≤ largest) (digits : Text) :
    Taken start digits (takeDigits start digits).1 (takeDigits start digits).2 := by
  suffices hrun : (takeDigits start digits).2 ≤ digits.length ∧
      (takeDigits start digits).1 = valueAfter start (digits.take (takeDigits start digits).2) ∧
        ∀ k ≤ digits.length, valueAfter start (digits.take k) ≤ largest →
          k ≤ (takeDigits start digits).2 from
    ⟨hrun.1, hrun.2.1, takeDigits_le h digits, hrun.2.2⟩
  fun_induction takeDigits start digits with
  | case1 start => exact ⟨Nat.le_refl 0, rfl, fun k hk _ => hk⟩
  | case2 start c rest next fits n count heq ih =>
      rw [heq] at ih
      obtain ⟨hle, hvalue, hlongest⟩ := ih fits
      refine ⟨Nat.succ_le_succ hle, hvalue, ?_⟩
      intro k hk hk'
      cases k with
      | zero => exact Nat.zero_le _
      | succ k => exact Nat.succ_le_succ (hlongest k (Nat.le_of_succ_le_succ hk) hk')
  | case3 start c rest next hover =>
      refine ⟨Nat.zero_le _, rfl, ?_⟩
      intro k _ hk'
      cases k with
      | zero => exact Nat.le_refl 0
      | succ k =>
          -- the first digit is too much already, and the number does not become smaller
          exact absurd (Nat.le_trans (le_valueAfter next (rest.take k)) hk') hover

/-- The float of a numeral that is no integer, by the digits that count before the point and after
it.  The digits before the point that do not count stand for places. -/
theorem float?_eq {n : Numeral} (hint : n.integer? = none) {start taken digits places : Nat}
    (hwhole : Taken 0 n.whole start taken)
    (hfraction : Taken start (n.fraction.getD []) digits places) :
    n.float? =
      (scale (Binary64.nearestDecimal false digits 0)
        (n.exponent.getD 0 + (n.whole.length - taken : Nat) - places)).map fun x =>
          if n.negative then -x else x := by
  obtain ⟨hstart, htaken⟩ := hwhole.unique (taken_takeDigits (Nat.zero_le _) n.whole)
  obtain ⟨hdigits, hplaces⟩ := hfraction.unique (taken_takeDigits hwhole.fits _)
  unfold float?
  rw [hint]
  subst hstart htaken hdigits hplaces
  rfl

/-- If all digits together fit 64 bits, the float is made from their number. -/
theorem float?_of_fits {n : Numeral} (hint : n.integer? = none)
    (h : digitsValue (n.whole ++ n.fraction.getD []) ≤ largest) :
    n.float? =
      (scale (Binary64.nearestDecimal false (digitsValue (n.whole ++ n.fraction.getD [])) 0)
        (n.exponent.getD 0 - (n.fraction.getD []).length)).map fun x =>
          if n.negative then -x else x := by
  have hvalue : digitsValue (n.whole ++ n.fraction.getD []) =
      valueAfter (digitsValue n.whole) (n.fraction.getD []) := by
    rw [← valueAfter_zero, valueAfter_append, valueAfter_zero]
  rw [hvalue] at h ⊢
  have hwhole : Taken 0 n.whole (digitsValue n.whole) n.whole.length :=
    .of_fits (Nat.le_trans (le_valueAfter _ _) h)
  rw [float?_eq hint hwhole (.of_fits h), Nat.sub_self, Int.natCast_zero, Int.add_zero]

end CommandConsole.Json.Numeral

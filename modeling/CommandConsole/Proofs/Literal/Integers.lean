import CommandConsole.Proofs.Literal.Grammar
import Mathlib.Data.List.Induction
import Mathlib.Data.Nat.Digits.Defs

set_option autoImplicit false

/-!
# Integer literals

The text of an integer is an optional sign and at least one decimal digit, and it denotes the number
that the places of its digits give (`Signed`).  A token is an integer exactly if its text denotes
one that has 64 bits (`convert_eq_int_iff`); a text that denotes another number is no integer, least
of all one that is wrapped or clamped.  The decimal text of every integer is such a text
(`signed_decimalInt`), so it is read back, with any blanks around it (`readsIntegers`).
-/

namespace CommandConsole

namespace Number

/-! ## Decimal texts -/

/-- The digits denote the number: the last one counts ones, the one before it tens, and so on. -/
structure Digits (ds : Text) (n : Nat) : Prop where
  ne_nil : ds ≠ []
  digits : ∀ c ∈ ds, c.isDigit = true
  value : Nat.ofDigits 10 (ds.reverse.map fun c => c.toNat - '0'.toNat) = n

/-- The text denotes the whole number, with a sign or without one. -/
inductive Signed : Text → Int → Prop where
  | bare {ds : Text} {n : Nat} (h : Digits ds n) : Signed ds n
  | plus {ds : Text} {n : Nat} (h : Digits ds n) : Signed ('+' :: ds) n
  | minus {ds : Text} {n : Nat} (h : Digits ds n) : Signed ('-' :: ds) (-n)

/-- Reading digits from the left gives each its place. -/
theorem digitsValue_eq_ofDigits (ds : Text) :
    digitsValue ds = Nat.ofDigits 10 (ds.reverse.map fun c => c.toNat - '0'.toNat) := by
  induction ds using List.reverseRecOn with
  | nil => rfl
  | append_singleton ds c ih =>
      rw [digitsValue_append_singleton, List.reverse_append, List.reverse_singleton,
        List.singleton_append, List.map_cons, Nat.ofDigits_cons, ih, Nat.add_comm]
      rfl

theorem digits_iff {ds : Text} {n : Nat} :
    Digits ds n ↔ isDigits ds = true ∧ digitsValue ds = n := by
  rw [digitsValue_eq_ofDigits, isDigits, Bool.and_eq_true, List.all_eq_true]
  constructor
  · rintro ⟨hne, hdigits, hvalue⟩
    exact ⟨⟨by simpa using hne, hdigits⟩, hvalue⟩
  · rintro ⟨⟨hne, hdigits⟩, hvalue⟩
    exact ⟨by simpa using hne, hdigits, hvalue⟩

/-- A digit is no sign. -/
theorem Digits.splitSign {ds : Text} {n : Nat} (h : Digits ds n) :
    splitSign ds = (false, ds) := by
  cases ds with
  | nil => rfl
  | cons c ds =>
      have hc := h.digits c List.mem_cons_self
      unfold Number.splitSign
      split
      · rename_i heq
        cases heq
        cases hc
      · rename_i heq
        cases heq
        cases hc
      · rfl

theorem wholeLiteral?_eq_some_iff {t : Text} {n : Int} :
    wholeLiteral? t = some n ↔ Signed t n := by
  constructor
  · intro h
    unfold wholeLiteral? at h
    split at h
    · rename_i negative ds hsplit
      split at h
      · rename_i hdigits
        have hds : Digits ds (digitsValue ds) := digits_iff.2 ⟨hdigits, rfl⟩
        cases h
        unfold splitSign at hsplit
        split at hsplit <;> cases hsplit
        · exact .plus hds
        · exact .minus hds
        · exact .bare hds
      · cases h
  · intro h
    cases h with
    | bare h =>
        obtain ⟨hdigits, rfl⟩ := digits_iff.1 h
        simp only [wholeLiteral?, h.splitSign, hdigits, if_true]
        rfl
    | plus h =>
        obtain ⟨hdigits, rfl⟩ := digits_iff.1 h
        simp only [wholeLiteral?, splitSign, hdigits, if_true]
        rfl
    | minus h =>
        obtain ⟨hdigits, rfl⟩ := digits_iff.1 h
        simp only [wholeLiteral?, splitSign, hdigits, if_true]

/-- A text denotes one number. -/
theorem Signed.unique {t : Text} {m n : Int} (hm : Signed t m) (hn : Signed t n) : m = n :=
  Option.some.inj ((wholeLiteral?_eq_some_iff.2 hm).symm.trans (wholeLiteral?_eq_some_iff.2 hn))

/-! ## Sixty-four bits -/

theorem int64Literal?_eq_some_iff {t : Text} {i : Int64} :
    int64Literal? t = some i ↔ Signed t i.toInt := by
  rw [← wholeLiteral?_eq_some_iff]
  unfold int64Literal?
  cases hwhole : wholeLiteral? t with
  | none => simp
  | some n =>
      rw [Option.some.injEq]
      dsimp only
      constructor
      · intro h
        split at h
        · rename_i hfits
          cases h
          exact (toInt_ofInt_of_fits hfits).symm
        · cases h
      · rintro rfl
        rw [if_pos (fitsInt64_toInt i), Int64.ofInt_toInt]

/-! ## The decimal text of an integer -/

theorem digits_decimal (n : Nat) : Digits (decimal n) n :=
  digits_iff.2 ⟨by
    rw [isDigits, Bool.and_eq_true, List.all_eq_true]
    exact ⟨by simpa using decimal_ne_nil n, fun _ hc => isDigit_of_mem_decimal hc⟩,
    digitsValue_decimal n⟩

theorem signed_decimalInt (n : Int) : Signed (decimalInt n) n := by
  cases n with
  | ofNat n => exact .bare (digits_decimal n)
  | negSucc n => exact .minus (digits_decimal (n + 1))

theorem decimal_eq_toDigits (n : Nat) : decimal n = Nat.toDigits 10 n := by
  have hdigit : ∀ {d : Nat}, d < 10 → digit d = d.digitChar := by decide
  fun_induction decimal n with
  | case1 n hn => rw [Nat.toDigits_of_lt_base hn, hdigit hn]
  | case2 n hn ih =>
      rw [Nat.toDigits_eq_if (by decide), if_neg hn, ih, hdigit (Nat.mod_lt n (by decide))]

/-- Integers are written as they are everywhere. -/
theorem decimalInt_eq_toString (n : Int) : decimalInt n = (toString n).toList := by
  cases n with
  | ofNat n =>
      change decimal n = n.repr.toList
      rw [Nat.toList_repr, decimal_eq_toDigits]
  | negSucc n =>
      change '-' :: decimal (n + 1) = ("-" ++ (n + 1).repr).toList
      rw [String.toList_append, Nat.toList_repr, decimal_eq_toDigits]
      rfl

theorem trimmed_decimalInt (n : Int) : Text.Trimmed (decimalInt n) := by
  have hblank : ∀ c ∈ decimalInt n, Text.isBlank c = false := by
    intro c hc
    cases n with
    | ofNat n => exact Text.not_isBlank_of_isWordChar (isWordChar_of_mem_decimal hc)
    | negSucc n =>
        rcases List.mem_cons.1 hc with rfl | hc
        · decide
        · exact Text.not_isBlank_of_isWordChar (isWordChar_of_mem_decimal hc)
  exact ⟨fun c hc => hblank c (List.mem_of_head? hc),
    fun c hc => hblank c (List.mem_of_getLast? hc)⟩

end Number

/-! ## Tokens -/

namespace Literal

open Number (Signed int64Literal?)
open Text (Blank)

/-- A token is an integer exactly if its text denotes one: floats, vectors and texts are none. -/
theorem convertWith_eq_int_iff {σ : Type} {ask : Text → σ → Option Value × σ} {token : Text}
    {s : σ} {i : Int64} :
    (convertWith ask token s).1 = .int i ↔ Signed (Text.trim token) i.toInt := by
  rw [← Number.int64Literal?_eq_some_iff, fst_convertWith_eq_iff]
  constructor
  · rintro ⟨s', asked, h⟩
    cases h with
    | number hnumber => exact denotesNumber_int_iff.1 hnumber
    | vector _ _ _ hv => cases hv
  · intro h
    exact ⟨s, [], .number (.int h) s⟩

theorem convert_eq_int_iff {token : Text} {i : Int64} :
    convert token = .int i ↔ Signed (Text.trim token) i.toInt :=
  convertWith_eq_int_iff

/-- Integer literals are read exactly over the whole range of 64 bits: a token is an integer exactly
if its text denotes one that is in the range, the decimal text of an integer is read back, and a
number beyond the range is no integer. -/
theorem readsIntegers :
    (∀ (token : Text) (n : Int), (∃ i : Int64, convert token = .int i ∧ i.toInt = n) ↔
        Signed (Text.trim token) n ∧ -2 ^ 63 ≤ n ∧ n ≤ 2 ^ 63 - 1) ∧
      (∀ i : Int64, (Value.int i).display = (toString i.toInt).toList ∧
        ∀ b d : Text, Blank b → Blank d →
          convert (b ++ ((Value.int i).display ++ d)) = .int i) ∧
      ∀ (token : Text) (n : Int), Signed (Text.trim token) n →
        ¬ (-2 ^ 63 ≤ n ∧ n ≤ 2 ^ 63 - 1) → ∀ i : Int64, convert token ≠ .int i := by
  have hrange : ∀ i : Int64, -2 ^ 63 ≤ i.toInt ∧ i.toInt ≤ 2 ^ 63 - 1 := fun i =>
    Number.fitsInt64_iff.1 (Number.fitsInt64_toInt i)
  refine ⟨fun token n => ⟨?_, ?_⟩, fun i => ⟨Number.decimalInt_eq_toString i.toInt, ?_⟩, ?_⟩
  · rintro ⟨i, hi, rfl⟩
    exact ⟨convert_eq_int_iff.1 hi, hrange i⟩
  · rintro ⟨hsigned, hfits⟩
    have hn := Number.toInt_ofInt_of_fits (Number.fitsInt64_iff.2 hfits)
    refine ⟨Int64.ofInt n, convert_eq_int_iff.2 ?_, hn⟩
    rwa [hn]
  · intro b d hb hd
    have hdisplay : (Value.int i).display = Number.decimalInt i.toInt := rfl
    rw [hdisplay, convert_eq_int_iff,
      Text.trim_of_trimmed (Number.trimmed_decimalInt i.toInt) hb hd]
    exact Number.signed_decimalInt i.toInt
  · intro token n hsigned hout i hi
    have hn : i.toInt = n := (convert_eq_int_iff.1 hi).unique hsigned
    exact hout (hn ▸ hrange i)

/-- The least integer is read back between blanks, and one less is no integer. -/
theorem readsIntegers_least :
    convert (' ' :: ((Value.int Int64.minValue).display ++ ['\t'])) = .int Int64.minValue ∧
      ∀ i : Int64, convert "-9223372036854775809".toList ≠ .int i := by
  refine ⟨(readsIntegers.2.1 Int64.minValue).2 [' '] ['\t'] (by decide) (by decide), ?_⟩
  refine readsIntegers.2.2 _ (-9223372036854775809) ?_ (by decide)
  exact Number.wholeLiteral?_eq_some_iff.1 (by decide)

end Literal

end CommandConsole

import Mathlib.Algebra.Group.Nat.Defs
import Mathlib.Data.List.Infix
import Mathlib.Data.List.Nodup
import Mathlib.Data.List.Perm.Subperm
import CommandConsole.Proofs.CallSite.Innermost
import CommandConsole.Reduction

set_option autoImplicit false

/-!
# The search for a placeholder

The candidates for a call are tried in order, the plain placeholder first and then the numbered
ones.  They are all different, and what is taken is either a key of a value that waits or a part
of the line beside the call.  There are only so many of these, so the search is short
(`le_occupied_of_taken`), and it ends with the first candidate that is free.
-/

namespace CommandConsole

/-! ## Parts of a text -/

namespace Text

/-- All parts of a text, by the place where they begin. -/
def parts : Text → List Text
  | [] => [[]]
  | c :: t => (c :: t).inits ++ parts t

theorem mem_parts {s t : Text} : s ∈ parts t ↔ s <:+: t := by
  induction t with
  | nil => simp [parts]
  | cons c t ih => rw [parts, List.mem_append, List.mem_inits, ih, List.infix_cons_iff]

theorem length_parts_le (t : Text) : (parts t).length ≤ (t.length + 1) ^ 2 := by
  induction t with
  | nil => exact Nat.le_refl 1
  | cons c t ih =>
      have hsquare : (t.length + 1 + 1) ^ 2 = (t.length + 1) ^ 2 + 2 * (t.length + 1) + 1 := by
        simp only [Nat.pow_two, Nat.add_mul, Nat.mul_add]
        omega
      rw [parts, List.length_append, List.length_inits, List.length_cons, hsquare]
      omega

end Text

theorem Number.decimal_injective : Function.Injective Number.decimal := by
  intro m n h
  rw [← Number.digitsValue_decimal m, h, Number.digitsValue_decimal]

namespace Placeholder

/-! ## Candidates -/

/-- The words that are tried for a call, in order. -/
def candidate (s : CallSite) : Nat → Text
  | 0 => base s
  | n + 1 => numbered s (n + 1)

theorem candidate_injective (s : CallSite) : Function.Injective (candidate s) := by
  have hlonger : ∀ n, base s ≠ numbered s n := by
    intro n h
    have hlen := congrArg List.length h
    simp [numbered] at hlen
  intro m n h
  cases m with
  | zero =>
      cases n with
      | zero => rfl
      | succ n => exact absurd h (hlonger (n + 1))
  | succ m =>
      cases n with
      | zero => exact absurd h.symm (hlonger (m + 1))
      | succ n =>
          have htail := List.append_cancel_left h
          exact Number.decimal_injective (List.cons.inj htail).2

/-- All words that are taken: the keys of the values that wait, and the parts of the line beside
the call. -/
def occupied (s : CallSite) (p : Pending) : List Text :=
  p.map Prod.fst ++ (Text.parts s.before ++ Text.parts s.after)

theorem mem_occupied_of_isTaken {s : CallSite} {p : Pending} {key : Text}
    (h : isTaken s p key = true) : key ∈ occupied s p := by
  simp only [isTaken, Bool.or_eq_true, Text.contains_iff] at h
  simp only [occupied, List.mem_append, Text.mem_parts]
  rcases h with (h | h) | h
  · obtain ⟨x, hx, hkey⟩ := List.any_eq_true.1 h
    exact Or.inl (List.mem_map.2 ⟨x, hx, by simpa using hkey⟩)
  · exact Or.inr (Or.inl h)
  · exact Or.inr (Or.inr h)

/-- There are no more taken candidates in a row than taken words. -/
theorem le_occupied_of_taken {s : CallSite} {p : Pending} {n : Nat}
    (h : ∀ m, m < n → isTaken s p (candidate s m) = true) : n ≤ (occupied s p).length := by
  have hnodup : ((List.range n).map (candidate s)).Nodup :=
    List.nodup_range.map (candidate_injective s)
  have hsub : (List.range n).map (candidate s) ⊆ occupied s p := by
    intro key hkey
    obtain ⟨m, hm, rfl⟩ := List.mem_map.1 hkey
    exact mem_occupied_of_isTaken (h m (List.mem_range.1 hm))
  simpa using (hnodup.subperm hsub).length_le

/-! ## The search -/

theorem exists_first_numbered (s : CallSite) (p : Pending) (n : Nat) :
    ∃ k, n ≤ k ∧ numberedFrom s p n = numbered s k ∧
      ∀ m, n ≤ m → m < k → isTaken s p (numbered s m) = true := by
  fun_induction numberedFrom s p n with
  | case1 n h ih =>
      obtain ⟨k, hk, hfound, htaken⟩ := ih
      refine ⟨k, by omega, hfound, ?_⟩
      intro m hn hm
      by_cases heq : m = n
      · exact heq ▸ h
      · exact htaken m (by omega) hm
  | case2 n h =>
      refine ⟨n, Nat.le_refl n, rfl, ?_⟩
      intro m hn hm
      omega

/-- The placeholder is the first candidate that is free. -/
theorem exists_first_candidate (s : CallSite) (p : Pending) :
    ∃ n, choose s p = candidate s n ∧ ∀ m, m < n → isTaken s p (candidate s m) = true := by
  unfold choose
  split
  · rename_i hbase
    obtain ⟨k, hk, hfound, htaken⟩ := exists_first_numbered s p 1
    obtain ⟨n, rfl⟩ : ∃ n, k = n + 1 := ⟨k - 1, by omega⟩
    refine ⟨n + 1, hfound, ?_⟩
    intro m hm
    cases m with
    | zero => exact hbase
    | succ m => exact htaken (m + 1) (by omega) hm
  · refine ⟨0, rfl, ?_⟩
    intro m hm
    omega

theorem choose_ne_nil (s : CallSite) (p : Pending) : choose s p ≠ [] := by
  unfold choose
  split
  · obtain ⟨n, hn⟩ := exists_numberedFrom s p 1
    simp [hn, numbered]
  · simp [base, Number.decimal_ne_nil]

/-- A placeholder stands nowhere else in the line. -/
theorem not_isInfix_choose (s : CallSite) (p : Pending) :
    ¬ choose s p <:+: s.before ∧ ¬ choose s p <:+: s.after := by
  have hfree := isTaken_choose s p
  simp only [isTaken, Bool.or_eq_false_iff] at hfree
  rw [← Text.contains_iff, ← Text.contains_iff, hfree.1.2, hfree.2]
  exact ⟨Bool.false_ne_true, Bool.false_ne_true⟩

/-- The search for the placeholder of a call ends with the word after so many attempts. -/
structure Found (s : CallSite) (p : Pending) (attempts : Nat) (key : Text) : Prop where
  candidate : key = candidate s attempts
  /-- All earlier candidates are taken. -/
  first : ∀ m, m < attempts → isTaken s p (Placeholder.candidate s m) = true
  bound : attempts ≤ p.length + (s.before.length + 1) ^ 2 + (s.after.length + 1) ^ 2
  word : Text.isWord key = true
  fresh : p.has key = false
  absentBefore : ¬ key <:+: s.before
  absentAfter : ¬ key <:+: s.after

/-- The search for a placeholder ends. -/
theorem exists_found {s : CallSite} (hs : s.IsCall) (p : Pending) :
    ∃ attempts, Found s p attempts (choose s p) := by
  obtain ⟨n, hfound, hfirst⟩ := exists_first_candidate s p
  have hoccupied := le_occupied_of_taken hfirst
  have hbefore := Text.length_parts_le s.before
  have hafter := Text.length_parts_le s.after
  simp only [occupied, List.length_append, List.length_map] at hoccupied
  have hfree := isTaken_choose s p
  simp only [isTaken, Bool.or_eq_false_iff] at hfree
  obtain ⟨hnotBefore, hnotAfter⟩ := not_isInfix_choose s p
  refine ⟨n, hfound, hfirst, by omega, ?_, hfree.1.1, hnotBefore, hnotAfter⟩
  rw [Text.isWord, Bool.and_eq_true, List.all_eq_true]
  exact ⟨by simp [choose_ne_nil], fun c hc => isWordChar_of_mem_choose hs.word hc⟩

end Placeholder

end CommandConsole

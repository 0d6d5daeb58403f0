import CommandConsole.Proofs.Completion.Replacing
import CommandConsole.Proofs.Text.Parentheses
import Mathlib.Order.Bounds.Basic

set_option autoImplicit false

/-!
# The last open parenthesis

An opening parenthesis stays open if no prefix of what follows it closes more than it opens.  The
stack of a run from the left holds the bytes of these and no others (`mem_unclosed`): a character
moves an entry of the stack as it changes how many parentheses are open above it
(`getElem?_unclosed_singleton`), so an entry is lost exactly where a prefix closes more than that.
The bytes descend (`descends_unclosed`).  So the one on top, which is what the scan finds, is the
last that stays open, and after it nothing does (`findsLastOpen`).
-/

namespace CommandConsole.Completion

/-! ## Parentheses that stay open -/

/-- The text has an opening parenthesis at byte `i`, and no prefix of what follows closes more than
it opens. -/
def StaysOpen (t : Text) (i : Nat) : Prop :=
  ∃ u v, t = u ++ '(' :: v ∧ Text.byteSize u = i ∧ ∀ p, p <+: v → p.count ')' ≤ p.count '('

theorem not_staysOpen_nil (i : Nat) : ¬ StaysOpen [] i := by
  rintro ⟨u, v, ht, -⟩
  cases u <;> cases ht

theorem staysOpen_cons_iff {c : Char} {t : Text} {i : Nat} :
    StaysOpen (c :: t) i ↔
      (c = '(' ∧ i = 0 ∧ Text.ClosesWithin 0 t) ∨ ∃ k, StaysOpen t k ∧ i = c.utf8Size + k := by
  constructor
  · rintro ⟨u, v, ht, rfl, hv⟩
    cases u with
    | nil =>
        cases ht
        exact Or.inl ⟨rfl, rfl, Text.closesWithin_zero_iff.2 hv⟩
    | cons d u =>
        cases ht
        exact Or.inr ⟨Text.byteSize u, ⟨u, v, rfl, rfl, hv⟩, rfl⟩
  · rintro (⟨rfl, rfl, ht⟩ | ⟨k, ⟨u, v, rfl, rfl, hv⟩, rfl⟩)
    · exact ⟨[], t, rfl, rfl, Text.closesWithin_zero_iff.1 ht⟩
    · exact ⟨c :: u, v, rfl, rfl, hv⟩

/-- What stays open does so in a longer text that ends in the same way. -/
theorem StaysOpen.append {t : Text} {i : Nat} (h : StaysOpen t i) (s : Text) :
    StaysOpen (s ++ t) (Text.byteSize s + i) := by
  obtain ⟨u, v, rfl, rfl, hv⟩ := h
  exact ⟨s ++ u, v, (List.append_assoc s u ('(' :: v)).symm, Text.byteSize_append s u, hv⟩

/-! ## What the stack holds -/

theorem unclosed_cons (stack : List Nat) (i : Nat) (c : Char) (t : Text) :
    unclosed stack i (c :: t) = unclosed (unclosed stack i [c]) (i + c.utf8Size) t := rfl

/-- A character moves an entry with `n` open parentheses above it to where as many are above it as
are open after the character.  An opening parenthesis puts itself on top. -/
theorem getElem?_unclosed_singleton {stack : List Nat} {i j m : Nat} {c : Char} :
    (unclosed stack i [c])[m]? = some j ↔
      (c = '(' ∧ m = 0 ∧ j = i) ∨
        ∃ n, stack[n]? = some j ∧ Text.openAfterChar? n c = some m := by
  simp only [unclosed, Text.openAfterChar?_eq_some_iff]
  by_cases hopen : c = '('
  · subst hopen
    cases m with
    | zero => simp [eq_comm]
    | succ m => simp
  · by_cases hclose : c = ')'
    · subst hclose
      simp
    · simp [hopen, hclose]

/-- After a text the stack holds what stays open in the text, and an older entry if the text closes
within what was above that. -/
theorem mem_unclosed_iff {stack : List Nat} {i j : Nat} {t : Text} :
    j ∈ unclosed stack i t ↔
      (∃ k, StaysOpen t k ∧ j = i + k) ∨ ∃ n, stack[n]? = some j ∧ Text.ClosesWithin n t := by
  induction t generalizing stack i with
  | nil => simp [unclosed, not_staysOpen_nil, Text.closesWithin_nil, List.mem_iff_getElem?]
  | cons c t ih =>
      rw [unclosed_cons, ih]
      -- An entry that `t` finds on the stack is `c` itself, or `c` has moved it from `n` to `m`.
      constructor
      · rintro (⟨k, hk, rfl⟩ | ⟨m, hm, ht⟩)
        · exact Or.inl ⟨_, staysOpen_cons_iff.2 (Or.inr ⟨k, hk, rfl⟩), Nat.add_assoc _ _ _⟩
        · rcases getElem?_unclosed_singleton.1 hm with ⟨rfl, rfl, rfl⟩ | ⟨n, hn, hc⟩
          · exact Or.inl ⟨0, staysOpen_cons_iff.2 (Or.inl ⟨rfl, rfl, ht⟩), rfl⟩
          · exact Or.inr ⟨n, hn, Text.closesWithin_cons_iff.2 ⟨m, hc, ht⟩⟩
      · rintro (⟨l, hl, rfl⟩ | ⟨n, hn, hct⟩)
        · rcases staysOpen_cons_iff.1 hl with ⟨rfl, rfl, ht⟩ | ⟨k, hk, rfl⟩
          · exact Or.inr ⟨0, getElem?_unclosed_singleton.2 (Or.inl ⟨rfl, rfl, rfl⟩), ht⟩
          · exact Or.inl ⟨k, hk, (Nat.add_assoc _ _ _).symm⟩
        · obtain ⟨m, hc, ht⟩ := Text.closesWithin_cons_iff.1 hct
          exact Or.inr ⟨m, getElem?_unclosed_singleton.2 (Or.inr ⟨n, hn, hc⟩), ht⟩

theorem mem_unclosed {t : Text} {i : Nat} : i ∈ unclosed [] 0 t ↔ StaysOpen t i := by
  simp [mem_unclosed_iff]

/-! ## The order of the stack -/

theorem unclosed_singleton_sublist (stack : List Nat) (i : Nat) (c : Char) :
    (unclosed stack i [c]).Sublist (i :: stack) := by
  rw [unclosed, unclosed]
  split
  · exact List.Sublist.refl _
  · split
    · exact (List.tail_sublist stack).cons i
    · exact List.sublist_cons_self i stack

/-- The bytes on the stack descend, from below the byte that the run has come to. -/
theorem descends_unclosed {stack : List Nat} {i : Nat} (t : Text)
    (h : (i :: stack).Pairwise (· > ·)) :
    ((i + Text.byteSize t) :: unclosed stack i t).Pairwise (· > ·) := by
  induction t generalizing stack i with
  | nil => exact h
  | cons c t ih =>
      rw [unclosed_cons, Text.byteSize_cons, ← Nat.add_assoc]
      apply ih
      -- What is on the stack now was on it before or is `i`, and the run is beyond `i`.
      have hbeyond : ((i + c.utf8Size) :: i :: stack).Pairwise (· > ·) := by
        refine List.pairwise_cons.2 ⟨?_, h⟩
        intro j hj
        have hpos := c.utf8Size_pos
        rcases List.mem_cons.1 hj with rfl | hj
        · omega
        · have hlt := (List.pairwise_cons.1 h).1 j hj
          omega
      exact hbeyond.sublist ((unclosed_singleton_sublist stack i c).cons_cons _)

theorem head?_eq_some_iff_isGreatest {l : List Nat} (h : l.Pairwise (· > ·)) {i : Nat} :
    l.head? = some i ↔ IsGreatest {j | j ∈ l} i := by
  cases l with
  | nil => simp [IsGreatest]
  | cons a l =>
      have hgreatest : IsGreatest {j | j ∈ a :: l} a := by
        refine ⟨List.mem_cons_self, ?_⟩
        intro j hj
        rcases List.mem_cons.1 hj with rfl | hj
        · exact Nat.le_refl _
        · exact Nat.le_of_lt ((List.pairwise_cons.1 h).1 j hj)
      constructor
      · intro hi
        cases hi
        exact hgreatest
      · intro hi
        exact congrArg some (hgreatest.unique hi)

/-! ## What the scan finds -/

theorem lastOpen?_eq_some_iff {t : Text} {i : Nat} :
    lastOpen? t = some i ↔ IsGreatest {j | StaysOpen t j} i := by
  have hdescends : (unclosed [] 0 t).Pairwise (· > ·) :=
    (descends_unclosed t (List.pairwise_singleton _ 0)).of_cons
  rw [lastOpen?_eq_head?, head?_eq_some_iff_isGreatest hdescends]
  simp only [mem_unclosed]

theorem lastOpen?_eq_none_iff {t : Text} : lastOpen? t = none ↔ ∀ i, ¬ StaysOpen t i := by
  rw [lastOpen?_eq_head?, List.head?_eq_none_iff, List.eq_nil_iff_forall_not_mem]
  simp only [mem_unclosed]

/-- Nothing stays open after the last parenthesis that does. -/
theorem not_staysOpen_cut (t : Text) (i : Nat) : ¬ StaysOpen (cut t).2 i := by
  intro hopen
  have hlater : StaysOpen t (Text.byteSize (head t) + i) := by
    have happend := hopen.append (cut t).1
    rwa [cut_append] at happend
  rw [byteSize_head] at hlater
  cases hlast : lastOpen? t with
  | none => exact lastOpen?_eq_none_iff.1 hlast _ hlater
  | some j =>
      rw [hlast] at hlater
      have hle : j.succ + i ≤ j := (lastOpen?_eq_some_iff.1 hlast).2 hlater
      omega

/-- The scan of a text finds the last parenthesis that stays open, and none exactly if none stays
open.  In what follows, which is the whole text if it finds none, no parenthesis stays open. -/
theorem findsLastOpen (t : Text) :
    (∀ i, lastOpen? t = some i ↔ IsGreatest {j | StaysOpen t j} i) ∧
      (lastOpen? t = none ↔ ∀ i, ¬ StaysOpen t i) ∧
      Text.splitAt? t ((lastOpen? t).elim 0 Nat.succ) = some (cut t) ∧
      ∀ i, ¬ StaysOpen (cut t).2 i :=
  ⟨fun _ => lastOpen?_eq_some_iff, lastOpen?_eq_none_iff, splitAt?_lastOpen? t,
    not_staysOpen_cut t⟩

end CommandConsole.Completion

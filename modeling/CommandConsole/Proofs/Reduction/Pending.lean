import CommandConsole.Reduction

set_option autoImplicit false

/-!
# Values that wait

`take` hands a value out once: it removes the entry whose value it answers and no other, so what
waited before is that entry and what waits after (`take_perm`).  A look-up of any other key is not
affected.
-/

namespace CommandConsole.Pending

/-- The value that waits under a key. -/
def find? (key : Text) (p : Pending) : Option Value := (p.take key).1

@[simp] theorem find?_nil (key : Text) : find? key [] = none := rfl

theorem find?_cons (key : Text) (e : Text × Value) (p : Pending) :
    find? key (e :: p) = if e.1 = key then some e.2 else find? key p := by
  unfold find?
  rw [take]
  split <;> rfl

theorem take_cons_of_ne {key : Text} {e : Text × Value} (h : e.1 ≠ key) (p : Pending) :
    take key (e :: p) = (find? key p, e :: (p.take key).2) := by
  rw [take, if_neg h]
  rfl

theorem find?_eq_none_iff (key : Text) (p : Pending) :
    find? key p = none ↔ ∀ e ∈ p, e.1 ≠ key := by
  induction p with
  | nil => simp
  | cons e p ih =>
      rw [find?_cons, List.forall_mem_cons]
      by_cases h : e.1 = key
      · simp [h]
      · simp [h, ih]

/-! ## Taking -/

/-- Nothing is taken from where nothing waits. -/
theorem take_of_find?_none {key : Text} {p : Pending} (h : find? key p = none) :
    p.take key = (none, p) := by
  induction p with
  | nil => rfl
  | cons e p ih =>
      rw [find?_cons] at h
      split at h
      · simp at h
      · rename_i hne
        rw [take_cons_of_ne hne, ih h, h]

theorem take_of_find?_some {key : Text} {p : Pending} {v : Value} (h : find? key p = some v) :
    p.take key = (some v, (p.take key).2) :=
  Prod.ext h rfl

/-- What is taken is an entry, and the others still wait. -/
theorem take_perm {key : Text} {p : Pending} {v : Value} (h : find? key p = some v) :
    List.Perm p ((key, v) :: (p.take key).2) := by
  induction p with
  | nil => simp at h
  | cons e p ih =>
      rw [find?_cons] at h
      split at h
      · rename_i heq
        cases h
        rw [take, if_pos heq, ← heq]
      · rename_i hne
        rw [take_cons_of_ne hne]
        exact ((ih h).cons e).trans (List.Perm.swap _ _ _)

theorem take_sublist (key : Text) (p : Pending) : List.Sublist (p.take key).2 p := by
  induction p with
  | nil => exact List.Sublist.refl _
  | cons e p ih =>
      by_cases h : e.1 = key
      · rw [take, if_pos h]
        exact List.sublist_cons_self e p
      · rw [take_cons_of_ne h]
        exact ih.cons_cons e

theorem find?_eq_none_of_sublist {key : Text} {p q : Pending} (hq : List.Sublist q p)
    (h : find? key p = none) : find? key q = none := by
  rw [find?_eq_none_iff] at h ⊢
  exact fun e he => h e (hq.subset he)

/-- Taking does not change what waits under another key. -/
theorem find?_take_of_ne {key other : Text} (h : key ≠ other) (p : Pending) :
    find? other (p.take key).2 = find? other p := by
  induction p with
  | nil => rfl
  | cons e p ih =>
      by_cases he : e.1 = key
      · rw [take, if_pos he, find?_cons, if_neg (he ▸ h)]
      · rw [take_cons_of_ne he, find?_cons, find?_cons, ih]

end CommandConsole.Pending

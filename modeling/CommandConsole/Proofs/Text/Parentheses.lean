import CommandConsole.Text.Word

set_option autoImplicit false

/-!
# Parentheses in a text

Two scans of a text.  `openAfter?` runs through it with the number of open parentheses, and agrees
with counting: for a character (`openAfterChar?_eq_some_iff`), for the prefixes of a text
(`closesWithin_cons_iff`) and for all of it (`openAfter?_eq_some_iff`).  `OpensAfter` looks at what
each opening parenthesis stands behind, and agrees with cutting the text there (`opensAfter_iff`).
Both go through a text part by part, so a part may be exchanged for another that they do not tell
apart.
-/

namespace CommandConsole.Text

/-! ## Balance -/

/-- How many parentheses are open after a character when `n` were open before it.  There is no
answer if it closes one and none is open. -/
def openAfterChar? (n : Nat) (c : Char) : Option Nat :=
  if c = '(' then some (n + 1)
  else if c = ')' then if n = 0 then none else some (n - 1)
  else some n

/-- How many parentheses are open after a text when `n` were open before it. -/
def openAfter? (n : Nat) (t : Text) : Option Nat := t.foldlM openAfterChar? n

theorem openAfter?_cons (n : Nat) (c : Char) (t : Text) :
    openAfter? n (c :: t) = (openAfterChar? n c).bind fun m => openAfter? m t := rfl

theorem openAfter?_append (n : Nat) (s t : Text) :
    openAfter? n (s ++ t) = (openAfter? n s).bind fun m => openAfter? m t := by
  unfold openAfter?
  rw [List.foldlM_append]
  rfl

/-- A text without parentheses opens and closes nothing. -/
theorem openAfter?_of_flat {t : Text} (h : ∀ c ∈ t, c ≠ '(' ∧ c ≠ ')') (n : Nat) :
    openAfter? n t = some n := by
  induction t with
  | nil => rfl
  | cons c t ih =>
      obtain ⟨hopen, hclose⟩ := h c List.mem_cons_self
      rw [openAfter?_cons, openAfterChar?, if_neg hopen, if_neg hclose]
      exact ih fun d hd => h d (List.mem_cons_of_mem c hd)

theorem forall_prefix_cons_iff (P : Text → Prop) (c : Char) (t : Text) :
    (∀ u, u <+: c :: t → P u) ↔ P [] ∧ ∀ u, u <+: t → P (c :: u) := by
  constructor
  · intro h
    exact ⟨h [] List.nil_prefix, fun u hu => h _ ((List.prefix_cons_inj c).2 hu)⟩
  · rintro ⟨hnil, hcons⟩ u hu
    rcases List.prefix_cons_iff.1 hu with rfl | ⟨u', rfl, hu'⟩
    · exact hnil
    · exact hcons u' hu'

/-- A character leaves open what was open before it and what it opens, less what it closes.  There
is no such number if it closes one and none is open. -/
theorem openAfterChar?_eq_some_iff {n m : Nat} {c : Char} :
    openAfterChar? n c = some m ↔ n + [c].count '(' = m + [c].count ')' := by
  rw [openAfterChar?]
  by_cases hopen : c = '('
  · subst hopen
    simp
  · by_cases hclose : c = ')'
    · subst hclose
      cases n <;> simp
    · simp [hopen, hclose]

theorem count_cons_eq (a c : Char) (t : Text) : (c :: t).count a = [c].count a + t.count a := by
  rw [← List.singleton_append, List.count_append]

/-- With `n` parentheses open before the text, no prefix of it closes more than are open. -/
def ClosesWithin (n : Nat) (t : Text) : Prop := ∀ u, u <+: t → u.count ')' ≤ n + u.count '('

theorem closesWithin_nil (n : Nat) : ClosesWithin n [] := by
  intro u hu
  rw [List.prefix_nil.1 hu]
  exact Nat.zero_le _

theorem closesWithin_zero_iff {t : Text} :
    ClosesWithin 0 t ↔ ∀ u, u <+: t → u.count ')' ≤ u.count '(' := by
  simp only [ClosesWithin, Nat.zero_add]

/-- A text closes within what is open if its first character does, and the rest within what is open
after that. -/
theorem closesWithin_cons_iff {n : Nat} {c : Char} {t : Text} :
    ClosesWithin n (c :: t) ↔ ∃ m, openAfterChar? n c = some m ∧ ClosesWithin m t := by
  simp only [ClosesWithin, forall_prefix_cons_iff, openAfterChar?_eq_some_iff]
  constructor
  · rintro ⟨-, hcons⟩
    have hfirst := hcons [] List.nil_prefix
    refine ⟨n + [c].count '(' - [c].count ')', by omega, ?_⟩
    intro u hu
    have hle := hcons u hu
    rw [count_cons_eq '(' c u, count_cons_eq ')' c u] at hle
    omega
  · rintro ⟨m, hm, hrest⟩
    refine ⟨Nat.zero_le _, ?_⟩
    intro u hu
    have hle := hrest u hu
    rw [count_cons_eq '(' c u, count_cons_eq ')' c u]
    omega

/-- Running agrees with counting: no prefix closes more than is open, and the counts add up. -/
theorem openAfter?_eq_some_iff {n m : Nat} {t : Text} :
    openAfter? n t = some m ↔ ClosesWithin n t ∧ n + t.count '(' = m + t.count ')' := by
  induction t generalizing n with
  | nil =>
      constructor
      · intro h
        cases h
        exact ⟨closesWithin_nil _, rfl⟩
      · intro h
        exact congrArg some h.2
  | cons c t ih =>
      rw [openAfter?_cons, Option.bind_eq_some_iff, closesWithin_cons_iff,
        count_cons_eq '(' c t, count_cons_eq ')' c t]
      constructor
      · rintro ⟨k, hk, hrun⟩
        obtain ⟨hcloses, htotal⟩ := ih.1 hrun
        have hcount := openAfterChar?_eq_some_iff.1 hk
        exact ⟨⟨k, hk, hcloses⟩, by omega⟩
      · rintro ⟨⟨k, hk, hcloses⟩, htotal⟩
        have hcount := openAfterChar?_eq_some_iff.1 hk
        exact ⟨k, hk, ih.2 ⟨hcloses, by omega⟩⟩

/-! ## Opening parentheses and what they follow -/

/-- An opening parenthesis may stand after the character: it ends a name or a call. -/
def EndsCallee (c : Char) : Prop := isWordChar c = true ∨ c = ')'

/-- Every opening parenthesis of the text stands after a name or a call.  The text follows the
character `p`, if it follows one. -/
def OpensAfter : Option Char → Text → Prop
  | _, [] => True
  | p, c :: rest => (c = '(' → ∃ d, p = some d ∧ EndsCallee d) ∧ OpensAfter (some c) rest

theorem opensAfter_append (p : Option Char) (s t : Text) :
    OpensAfter p (s ++ t) ↔ OpensAfter p s ∧ OpensAfter (s.getLast?.or p) t := by
  induction s generalizing p with
  | nil => simp [OpensAfter]
  | cons c s ih =>
      have hlast : (c :: s).getLast?.or p = s.getLast?.or (some c) := by
        cases h : s.getLast? <;> simp [List.getLast?_cons, h]
      rw [List.cons_append, OpensAfter, OpensAfter, ih, hlast, and_assoc]

theorem opensAfter_of_flat {t : Text} (h : '(' ∉ t) (p : Option Char) : OpensAfter p t := by
  induction t generalizing p with
  | nil => trivial
  | cons c t ih =>
      have hrest : '(' ∉ t := by
        intro hm
        exact h (List.mem_cons_of_mem c hm)
      refine ⟨?_, ih hrest (some c)⟩
      intro hc
      exact absurd (hc ▸ List.mem_cons_self) h

/-- A text may follow any end of a callee if it may follow something. -/
theorem OpensAfter.after {p : Option Char} {t : Text} (h : OpensAfter p t) {d : Char}
    (hd : EndsCallee d) : OpensAfter (some d) t := by
  cases t with
  | nil => trivial
  | cons c t => exact ⟨fun _ => ⟨d, rfl, hd⟩, h.2⟩

theorem opensAfter_iff {p : Option Char} {t : Text} :
    OpensAfter p t ↔
      ∀ u v, t = u ++ '(' :: v → ∃ d, u.getLast?.or p = some d ∧ EndsCallee d := by
  constructor
  · rintro h u v rfl
    exact ((opensAfter_append p u _).1 h).2.1 rfl
  · intro h
    induction t generalizing p with
    | nil => trivial
    | cons c t ih =>
        refine ⟨?_, ih ?_⟩
        · rintro rfl
          exact h [] t rfl
        · rintro u v rfl
          obtain ⟨d, hd, hends⟩ := h (c :: u) v rfl
          refine ⟨d, ?_, hends⟩
          cases hu : u.getLast? <;> simp_all [List.getLast?_cons]

end CommandConsole.Text

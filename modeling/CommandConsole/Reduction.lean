import CommandConsole.CallSite
import CommandConsole.Literal

set_option autoImplicit false

/-!
# Reduction of a line

A line is reduced one call at a time, the innermost first.  The place of a reduced call is taken
by a placeholder, a word that stands nowhere else in the line, and the value of the call waits
under that word until a field or a vector component that is exactly the word takes it.

This module is the part of evaluation that runs nothing: what the next call is, with its
arguments, and how the line goes on once the call has a value.  The line loses an opening
parenthesis with every call, so the reduction of a line ends.
-/

namespace CommandConsole

/-- The values that wait under their placeholders. -/
abbrev Pending := List (Text × Value)

namespace Pending

/-- Whether a value waits under the key. -/
def has (key : Text) (p : Pending) : Bool := p.any fun e => e.1 == key

/-- The value that waits under a key, which then waits no more. -/
def take (key : Text) : Pending → Option Value × Pending
  | [] => (none, [])
  | e :: rest =>
    if e.1 = key then (some e.2, rest)
    else
      let (v, rest) := take key rest
      (v, e :: rest)

/-- The length of all keys together. -/
def keyLength : Pending → Nat
  | [] => 0
  | e :: rest => e.1.length + keyLength rest

theorem length_le_of_has {key : Text} {p : Pending} (h : p.has key = true) :
    key.length ≤ p.keyLength := by
  induction p with
  | nil => simp [has] at h
  | cons e rest ih =>
    simp only [has, List.any_cons, Bool.or_eq_true, beq_iff_eq] at h
    rcases h with rfl | h
    · exact Nat.le_add_right _ _
    · exact Nat.le_trans (ih h) (Nat.le_add_left _ _)

end Pending

/-! ## Placeholders -/

namespace Placeholder

/-- Whether a word cannot stand for the call: a value waits under it, or it occurs in the line
before or after the call. -/
def isTaken (s : CallSite) (p : Pending) (key : Text) : Bool :=
  p.has key || Text.contains key s.before || Text.contains key s.after

/-- The name of the call followed by the byte at which it starts. -/
def base (s : CallSite) : Text := s.name ++ Number.decimal s.start

/-- The placeholder with a number at its end. -/
def numbered (s : CallSite) (n : Nat) : Text := base s ++ '_' :: Number.decimal n

/-- A length that no taken word exceeds. -/
def longest (s : CallSite) (p : Pending) : Nat :=
  p.keyLength + s.before.length + s.after.length

theorem length_le_longest {s : CallSite} {p : Pending} {key : Text}
    (h : isTaken s p key = true) : key.length ≤ longest s p := by
  simp only [isTaken, Bool.or_eq_true] at h
  unfold longest
  rcases h with (h | h) | h
  · have := Pending.length_le_of_has h
    omega
  · have := Text.length_le_of_contains h
    omega
  · have := Text.length_le_of_contains h
    omega

/-- A taken placeholder has a number that is not too large. -/
theorem lt_of_isTaken_numbered {s : CallSite} {p : Pending} {n : Nat}
    (h : isTaken s p (numbered s n) = true) : n < Nat.pow 10 (longest s p) := by
  refine Nat.lt_of_not_le fun hn => ?_
  have hlen := length_le_longest h
  have hlong := Number.lt_length_decimal hn
  simp only [numbered, List.length_append, List.length_cons] at hlen
  omega

/-- The first free placeholder with a number from `n` on. -/
def numberedFrom (s : CallSite) (p : Pending) (n : Nat) : Text :=
  if h : isTaken s p (numbered s n) = true then numberedFrom s p (n + 1) else numbered s n
termination_by Nat.pow 10 (longest s p) - n
decreasing_by
  have := lt_of_isTaken_numbered h
  omega

/-- The placeholder of a call: the plain one, or the first with a number that is free. -/
def choose (s : CallSite) (p : Pending) : Text :=
  if isTaken s p (base s) then numberedFrom s p 1 else base s

/-! ### What a placeholder is made of -/

theorem isTaken_numberedFrom (s : CallSite) (p : Pending) (n : Nat) :
    isTaken s p (numberedFrom s p n) = false := by
  fun_induction numberedFrom s p n with
  | case1 n h ih => exact ih
  | case2 n h => simpa using h

/-- A placeholder waits nowhere and occurs nowhere else in the line. -/
theorem isTaken_choose (s : CallSite) (p : Pending) : isTaken s p (choose s p) = false := by
  unfold choose
  split
  · exact isTaken_numberedFrom s p 1
  · rename_i h
    simpa using h

theorem exists_numberedFrom (s : CallSite) (p : Pending) (n : Nat) :
    ∃ k, numberedFrom s p n = numbered s k := by
  fun_induction numberedFrom s p n with
  | case1 n h ih => exact ih
  | case2 n h => exact ⟨n, rfl⟩

theorem isWordChar_of_mem_base {s : CallSite} (hs : ∀ c ∈ s.name, Text.isWordChar c = true)
    {c : Char} (h : c ∈ base s) : Text.isWordChar c = true := by
  rcases List.mem_append.1 h with h | h
  · exact hs c h
  · exact Number.isWordChar_of_mem_decimal h

/-- A placeholder of a call whose name is a word holds word characters only. -/
theorem isWordChar_of_mem_choose {s : CallSite} {p : Pending}
    (hs : ∀ c ∈ s.name, Text.isWordChar c = true) {c : Char} (h : c ∈ choose s p) :
    Text.isWordChar c = true := by
  unfold choose at h
  split at h
  · obtain ⟨k, hk⟩ := exists_numberedFrom s p 1
    rw [hk, numbered, List.mem_append, List.mem_cons] at h
    rcases h with h | rfl | h
    · exact isWordChar_of_mem_base hs h
    · exact Text.isWordChar_underscore
    · exact Number.isWordChar_of_mem_decimal h
  · exact isWordChar_of_mem_base hs h

end Placeholder

/-! ## Arguments -/

namespace Pending

/-- The value of one argument field: the one that waits under it, or the one it denotes. -/
def argument (field : Text) (p : Pending) : Value × Pending :=
  match p.take field with
  | (some v, p) => (v, p)
  | (none, p) => Literal.convertWith take field p

/-- The values of argument fields, from left to right. -/
def arguments : List Text → Pending → List Value × Pending
  | [], p => ([], p)
  | field :: rest, p =>
    let (v, p) := argument field p
    let (vs, p) := arguments rest p
    (v :: vs, p)

end Pending

/-! ## Steps -/

/-- A line on its way: its text with placeholders, the values that wait, and the placeholder
written last. -/
structure Reduction where
  text : Text
  pending : Pending := []
  last : Option Text := none
  deriving Repr, Inhabited

/-- The next call of a line: where it stands, its arguments, and the values that still wait. -/
structure Reduction.Step where
  site : CallSite
  args : List Value
  pending : Pending
  deriving Repr, Inhabited

namespace Reduction

/-- The line before its first call. -/
def start (line : Text) : Reduction := { text := line }

/-- The next call of a line. -/
def step? (r : Reduction) : Option Step :=
  (CallSite.innermost? r.text).map fun site =>
    let (args, pending) := Pending.arguments (Field.split site.args) r.pending
    { site, args, pending }

/-- The line after a call that had the value. -/
def Step.resume (s : Step) (v : Value) : Reduction :=
  let key := Placeholder.choose s.site s.pending
  { text := s.site.replace key, pending := (key, v) :: s.pending, last := some key }

/-- The value of a line without calls: that of the last call, if nothing else is left. -/
def value? (r : Reduction) : Option Value :=
  match r.last with
  | some key => if key = Text.trim r.text then (r.pending.take key).1 else none
  | none => none

/-! ## Reduction ends -/

/-- Number of opening parentheses. -/
def openings (t : Text) : Nat := t.count '('

theorem openings_eq_zero_of_word {t : Text} (h : ∀ c ∈ t, Text.isWordChar c = true) :
    openings t = 0 := by
  refine List.count_eq_zero.2 fun hm => ?_
  have := h _ hm
  simp at this

/-- A step leaves fewer opening parentheses than it found. -/
theorem openings_resume_lt {r : Reduction} {s : Step} (h : r.step? = some s) (v : Value) :
    openings (s.resume v).text < openings r.text := by
  obtain ⟨site, hsite, rfl⟩ := Option.map_eq_some_iff.1 h
  have hname := CallSite.word_of_innermost? hsite
  have hkey := openings_eq_zero_of_word
    fun c (hc : c ∈ Placeholder.choose site (Pending.arguments (Field.split site.args)
      r.pending).2) => Placeholder.isWordChar_of_mem_choose hname hc
  rw [← CallSite.line_of_innermost? hsite]
  simp only [openings, Step.resume, CallSite.line, CallSite.replace, List.count_append,
    List.count_cons_self] at hkey ⊢
  have : List.count '(' (')' :: site.after) = List.count '(' site.after := by
    simp
  omega

end Reduction

end CommandConsole

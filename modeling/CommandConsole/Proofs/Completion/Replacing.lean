import CommandConsole.Proofs.Completion.Accepting
import CommandConsole.Proofs.Text.Slicing
import Mathlib.Data.List.TakeWhile

set_option autoImplicit false

/-!
# Replacing the partial token

`scan` runs from the right and counts.  A stack that runs from the left, with the bytes of the
parentheses that are not closed yet, ends with the same parenthesis on top (`lastOpen?_eq_head?`),
and a text is cut after that byte (`splitAt?_lastOpen?`).  An accepted name stands after it as well.
So a text loses nothing but its partial token and the blanks before that, and the next name that is
accepted finds the text as the first did (`replacesToken`).
-/

namespace CommandConsole.Completion

/-! ## A stack of open parentheses -/

/-- The bytes of the parentheses that are not closed after a text, the last one first.  The text
begins at byte `i`, where those of `stack` are not closed.  A closing parenthesis closes the last
one, if there is any. -/
def unclosed (stack : List Nat) (i : Nat) : Text → List Nat
  | [] => stack
  | c :: rest =>
    unclosed (if c = '(' then i :: stack else if c = ')' then stack.tail else stack)
      (i + c.utf8Size) rest

/-- What a scan of a text from byte `i` tells of the stack after it. -/
def Scan.Leaves (stack : List Nat) (i : Nat) (after : List Nat) : Scan → Prop
  | .opened head _ => ∃ front, head = front ++ ['('] ∧ after.head? = some (i + Text.byteSize front)
  | .closers count => after = stack.drop count

theorem Scans.leaves {t : Text} {x : Scan} (h : Scans t x) (stack : List Nat) (i : Nat) :
    x.Leaves stack i (unclosed stack i t) := by
  induction h generalizing stack i with
  | nil => rfl
  | found ht ih =>
      obtain ⟨front, rfl, htop⟩ := ih _ _
      refine ⟨_ :: front, rfl, htop.trans ?_⟩
      rw [Text.byteSize_cons, Nat.add_assoc]
  | opens ht ih =>
      refine ⟨[], rfl, ?_⟩
      rw [unclosed, if_pos rfl, ih]
      rfl
  | pairs ht ih => exact ih (i :: stack) _
  | closes ht ih => exact (ih stack.tail _).trans List.drop_tail
  | passes hopen hclose ht ih =>
      rw [unclosed, if_neg hopen, if_neg hclose]
      exact ih stack _

/-! ## Where a text is cut -/

/-- The head ends with the last open parenthesis, and that is the one on top of the stack. -/
theorem exists_front {t head tail : Text} (h : scan t = .opened head tail) :
    ∃ front, head = front ++ ['('] ∧ lastOpen? t = some (Text.byteSize front) ∧
      (unclosed [] 0 t).head? = some (Text.byteSize front) := by
  obtain ⟨front, rfl, htop⟩ := (scans_iff.2 h).leaves [] 0
  rw [Nat.zero_add] at htop
  refine ⟨front, rfl, ?_, htop⟩
  rw [lastOpen?, h]
  change some (Text.byteSize (front ++ ['(']) - 1) = some (Text.byteSize front)
  rw [Text.byteSize_append]
  rfl

theorem lastOpen?_eq_head? (t : Text) : lastOpen? t = (unclosed [] 0 t).head? := by
  cases hscan : scan t with
  | opened head tail =>
      obtain ⟨front, -, hlast, htop⟩ := exists_front hscan
      rw [hlast, htop]
  | closers count =>
      have hleaves : unclosed [] 0 t = [].drop count := (scans_iff.2 hscan).leaves [] 0
      rw [lastOpen?, hscan, hleaves, List.drop_nil]
      rfl

theorem byteSize_head (t : Text) : Text.byteSize (head t) = (lastOpen? t).elim 0 Nat.succ := by
  rw [head, cut]
  cases hscan : scan t with
  | opened head tail =>
      obtain ⟨front, rfl, hlast, -⟩ := exists_front hscan
      rw [hlast]
      exact Text.byteSize_append front ['(']
  | closers count =>
      rw [lastOpen?, hscan]
      rfl

/-- A text is cut after its last open parenthesis, or where it begins. -/
theorem splitAt?_lastOpen? (t : Text) :
    Text.splitAt? t ((lastOpen? t).elim 0 Nat.succ) = some (cut t) :=
  Text.splitAt?_eq_some_iff.2 ⟨(cut_append t).symm, byteSize_head t⟩

/-! ## What an accepted name replaces -/

/-- A text comes apart after the last parenthesis that a stack leaves open: there is the head, then
blanks, and then the partial token, which does not begin with a blank. -/
structure ComesApart (t : Text) : Prop where
  last : lastOpen? t = (unclosed [] 0 t).head?
  halves : Text.splitAt? t ((lastOpen? t).elim 0 Nat.succ) = some (cut t)
  parts : ∃ b, Text.Blank b ∧ t = head t ++ (b ++ token t)
  first : ∀ c, (token t).head? = some c → Text.isBlank c = false

theorem comesApart (t : Text) : ComesApart t where
  last := lastOpen?_eq_head? t
  halves := splitAt?_lastOpen? t
  parts := by
    refine ⟨(cut t).2.takeWhile Text.isBlank, fun c hc => List.mem_takeWhile_imp hc, ?_⟩
    rw [token, Text.trimStart, List.takeWhile_append_dropWhile]
    exact (cut_append t).symm
  first := Text.first_trimStart (cut t).2

/-- The text `t'` is `t` with a name in the place of its partial token.  The name is the partial
token now, so the next name that is accepted takes its place. -/
structure Replaces (t name t' : Text) : Prop where
  text : t' = head t ++ name
  kept : head t' = head t
  last : lastOpen? t' = lastOpen? t
  typed : token t' = name
  next : ∀ other, accept t' other = accept t other
  again : accept t' name = t'

/-- The head tells where the last open parenthesis stands. -/
theorem lastOpen?_eq_of_head_eq {s t : Text} (h : head s = head t) : lastOpen? s = lastOpen? t := by
  have hbytes := congrArg Text.byteSize h
  rw [byteSize_head, byteSize_head] at hbytes
  cases hs : lastOpen? s with
  | none =>
      cases ht : lastOpen? t with
      | none => rfl
      | some j => simp [hs, ht] at hbytes
  | some i =>
      cases ht : lastOpen? t with
      | none => simp [hs, ht] at hbytes
      | some j => simpa [hs, ht] using hbytes

theorem replaces_accept (t : Text) {name : Text} (h : ∀ c ∈ name, Text.isWordChar c = true) :
    Replaces t name (accept t name) where
  text := rfl
  kept := head_accept t h
  last := lastOpen?_eq_of_head_eq (head_accept t h)
  typed := token_accept t h
  next other := accept_accept t other h
  again := accept_accept t name h

/-- Every text comes apart into a head, blanks and a partial token, and to accept a name replaces
all but the head. -/
theorem replacesToken (t : Text) :
    ComesApart t ∧
      ∀ name, (∀ c ∈ name, Text.isWordChar c = true) → Replaces t name (accept t name) :=
  ⟨comesApart t, fun _ h => replaces_accept t h⟩

/-- The text loses parentheses that are in pairs. -/
theorem replacesToken_outer :
    Replaces "a(b)( (x)(y) in".toList "inner".toList "a(b)(inner".toList := by
  have hword : "inner".toList.all Text.isWordChar = true := by decide
  exact (replacesToken "a(b)( (x)(y) in".toList).2 "inner".toList (List.all_eq_true.1 hword)

end CommandConsole.Completion

import CommandConsole.Text.Blank

set_option autoImplicit false

/-!
# Fields

The argument text of a call and the body of a vector are lists of fields separated by commas.  A
comma inside parentheses or brackets belongs to a field.  Both kinds of bracket share one depth,
and a closing one without an opening one before it counts for nothing.

`pieces` cuts a text at the commas of depth zero and loses nothing; the fields are the trimmed
pieces, and a blank text has none.
-/

namespace CommandConsole.Field

/-- The depth after a character. -/
def depthAfter (depth : Nat) (c : Char) : Nat :=
  match c with
  | '(' | '[' => depth + 1
  | ')' | ']' => depth - 1
  | _ => depth

/-- The pieces with a character put before the first one. -/
def consFirst (c : Char) : List Text → List Text
  | [] => [[c]]
  | piece :: rest => (c :: piece) :: rest

/-- The text cut at its commas of depth zero, when it starts at the given depth. -/
def pieces (depth : Nat) : Text → List Text
  | [] => [[]]
  | c :: rest =>
    if c = ',' ∧ depth = 0 then [] :: pieces 0 rest
    else consFirst c (pieces (depthAfter depth c) rest)

/-- The fields of an argument text. -/
def split (t : Text) : List Text :=
  if Text.isAllBlank t then [] else (pieces 0 t).map Text.trim

/-! ## Pieces -/

theorem length_le_of_mem_consFirst {c : Char} {ps : List Text} {p : Text} {n : Nat}
    (hps : ∀ q ∈ ps, q.length ≤ n) (h : p ∈ consFirst c ps) : p.length ≤ n + 1 := by
  cases ps with
  | nil =>
    rw [consFirst, List.mem_singleton] at h
    simp [h]
  | cons q rest =>
    rcases List.mem_cons.1 h with rfl | h
    · simpa using hps q List.mem_cons_self
    · exact Nat.le_succ_of_le (hps p (List.mem_cons_of_mem _ h))

/-- A piece is no longer than the text. -/
theorem length_le_of_mem_pieces {depth : Nat} {t p : Text} (h : p ∈ pieces depth t) :
    p.length ≤ t.length := by
  induction t generalizing depth p with
  | nil =>
    rw [pieces, List.mem_singleton] at h
    simp [h]
  | cons c rest ih =>
    unfold pieces at h
    split at h
    · rcases List.mem_cons.1 h with rfl | h
      · simp
      · exact Nat.le_succ_of_le (ih h)
    · exact length_le_of_mem_consFirst (fun q hq => ih hq) h

/-- A field is no longer than the text. -/
theorem length_le_of_mem_split {t f : Text} (h : f ∈ split t) : f.length ≤ t.length := by
  unfold split at h
  split at h
  · simp at h
  · obtain ⟨p, hp, rfl⟩ := List.mem_map.1 h
    exact Nat.le_trans (Text.length_trim_le p) (length_le_of_mem_pieces hp)

end CommandConsole.Field

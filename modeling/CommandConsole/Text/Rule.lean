import CommandConsole.Text.Basic

set_option autoImplicit false

/-!
# Reading rules

A rule reads a first part of a text and leaves the rest.  The rules of this library look at one
character after another and never go back, so a rule is a function and an alternative is decided
by the next characters.  Three ways to repeat a rule are here: to the end of the text, up to a stop,
and with separators between the parts.
-/

namespace CommandConsole.Text

/-- A rule for the first part of a text: what was read, and the rest. -/
abbrev Rule (α : Type) := Text → Option (α × Text)

namespace Rule

variable {α : Type}

/-- Reads part after part to the end of the text.  A part is never empty. -/
def all (rule : Rule α) (t : Text) : Option (List α) :=
  if t.isEmpty then some []
  else
    match rule t with
    | none => none
    | some (a, rest) =>
      if _shorter : rest.length < t.length then (all rule rest).map (a :: ·) else none
termination_by t.length

/-- Reads part after part until `stop` applies.  A part is never empty. -/
def upTo {β : Type} (stop : Rule β) (part : Rule α) (t : Text) :
    Option ((List α × β) × Text) :=
  match stop t with
  | some (b, rest) => some (([], b), rest)
  | none =>
    match part t with
    | none => none
    | some (a, rest) =>
      if _shorter : rest.length < t.length then
        (upTo stop part rest).map fun p => ((a :: p.1.1, p.1.2), p.2)
      else none
termination_by t.length

/-- Reads parts with `separator` between neighbours, at least one. -/
def separatedBy (separator : Char) (rule : Rule α) (t : Text) : Option (List α × Text) :=
  match rule t with
  | none => none
  | some (a, []) => some ([a], [])
  | some (a, c :: rest) =>
    if c = separator then
      if _shorter : rest.length < t.length then
        (separatedBy separator rule rest).map fun p => (a :: p.1, p.2)
      else none
    else some ([a], c :: rest)
termination_by t.length

@[simp] theorem all_nil (rule : Rule α) : all rule [] = some [] := by
  rw [all]; rfl

/-- Every rule that reads to the end reads at least one character for each part. -/
theorem length_le_of_all {rule : Rule α} {t : Text} {parts : List α}
    (h : all rule t = some parts) : parts.length ≤ t.length := by
  fun_induction all rule t generalizing parts with
  | case1 t ht => cases h; exact Nat.zero_le _
  | case2 => cases h
  | case3 t ht a rest _ shorter ih =>
    obtain ⟨ps, hps, rfl⟩ := Option.map_eq_some_iff.1 h
    exact Nat.lt_of_le_of_lt (ih hps) shorter
  | case4 => cases h

end Rule

end CommandConsole.Text

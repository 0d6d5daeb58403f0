import CommandConsole.Text.Basic

set_option autoImplicit false

/-!
# History

The submitted lines, newest first, without repeats of the newest and no more than a capacity of
them.  A cursor walks through them; before the newest entry it stands at the draft, the text that
was being typed when the walk began.
-/

namespace CommandConsole

/-- Up or down. -/
inductive Direction where
  | up
  | down
  deriving DecidableEq, Repr, Inhabited

/-- The submitted lines and the place of the cursor. -/
structure History where
  capacity : Nat
  /-- Newest first. -/
  entries : List Text := []
  /-- The entry shown, or nothing at the draft. -/
  cursor : Option Nat := none
  /-- The text to return to below the newest entry. -/
  draft : Text := []
  deriving DecidableEq, Repr, Inhabited

namespace History

/-- A history without entries. -/
def empty (capacity : Nat) : History := { capacity }

/-- Whether the cursor is on an entry. -/
def isNavigating (h : History) : Bool := h.cursor.isSome

/-- The cursor at the draft. -/
def resetCursor (h : History) : History := { h with cursor := none }

/-- Adds a line unless it repeats the newest one, and drops what exceeds the capacity. -/
def push (line : Text) (h : History) : History :=
  let h := h.resetCursor
  if h.entries.head? = some line then h
  else { h with entries := (line :: h.entries).take h.capacity }

/-- The cursor one step on: up to the oldest entry, down to the draft. -/
def moved (direction : Direction) (h : History) : Option Nat :=
  match direction, h.cursor with
  | .up, cursor =>
    if h.entries.isEmpty then none
    else some (match cursor with
      | none => 0
      | some i => min (i + 1) (h.entries.length - 1))
  | .down, none => none
  | .down, some 0 => none
  | .down, some (i + 1) => some i

/-- The text at the cursor. -/
def shown (h : History) : Text :=
  match h.cursor with
  | none => h.draft
  | some i => h.entries.getD i h.draft

/-- Moves the cursor one step and answers the text there.  A step from the draft keeps `draft` to
return to. -/
def navigate (direction : Direction) (draft : Text) (h : History) : Text × History :=
  let h := if h.cursor.isNone then { h with draft } else h
  let h := { h with cursor := h.moved direction }
  (h.shown, h)

end History

end CommandConsole

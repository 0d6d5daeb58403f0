import CommandConsole.Completion
import CommandConsole.History
import CommandConsole.Text.Lowercase

set_option autoImplicit false

/-!
# Suggestions

The command names that begin like the partial token, letter case aside, in the order of the names.
A cursor may select one of them; while the suggestions have the focus, the arrows move the cursor
instead of walking through the history.
-/

namespace CommandConsole

/-- One suggestion as it is shown. -/
structure Suggestion where
  name : Text
  /-- Number of bytes of the name that match what was typed. -/
  matchedBytes : Nat
  selected : Bool
  deriving DecidableEq, Repr, Inhabited

/-- The suggestions for a partial token. -/
structure Suggestions where
  names : List Text := []
  /-- Number of characters of the partial token. -/
  typed : Nat := 0
  cursor : Option Nat := none
  focused : Bool := false
  deriving DecidableEq, Repr, Inhabited

namespace Suggestions

/-- Whether the name begins with the characters of `typed`, each alike. -/
def startsAlike : Text → Text → Bool
  | _, [] => true
  | [], _ :: _ => false
  | a :: name, b :: typed => Text.alike a b && startsAlike name typed

/-- The names that begin like the partial token; none when there is no token. -/
def matching (token : Text) (names : List Text) : List Text :=
  if token.isEmpty then [] else names.filter fun name => startsAlike name token

/-- No selection and no focus. -/
def resetCursor (s : Suggestions) : Suggestions := { s with cursor := none, focused := false }

/-- The suggestions for a new text.  The cursor stays where it is as far as the new list goes. -/
def refresh (text : Text) (names : List Text) (s : Suggestions) : Suggestions :=
  let token := Completion.token text
  let found := matching token names
  let s := { s with names := found, typed := token.length }
  if found.isEmpty then s.resetCursor
  else { s with cursor := s.cursor.map fun i => min i (found.length - 1) }

/-- Whether there is anything to show. -/
def isVisible (s : Suggestions) : Bool := !s.names.isEmpty

/-- Whether the arrows move the cursor of the suggestions. -/
def isFocused (s : Suggestions) : Bool := s.focused && s.isVisible

/-- Gives the focus to the suggestions, which selects the first, or takes it away. -/
def toggleFocus (s : Suggestions) : Suggestions :=
  let focused := !s.focused && s.isVisible
  { s with focused, cursor := if focused then some 0 else none }

/-- Moves the cursor around the list. -/
def cycle (direction : Direction) (s : Suggestions) : Suggestions :=
  let n := s.names.length
  if n = 0 then s
  else
    let next :=
      match direction, s.cursor with
      | .up, none => 0
      | .up, some i => (i + 1) % n
      | .down, none => n - 1
      | .down, some i => (i + n - 1) % n
    { s with cursor := some next }

/-- The selected name. -/
def selected? (s : Suggestions) : Option Text := s.cursor.bind fun i => s.names[i]?

/-- The first name. -/
def first? (s : Suggestions) : Option Text := s.names.head?

/-- The suggestions as they are shown. -/
def entries (s : Suggestions) : List Suggestion :=
  s.names.zipIdx.map fun (name, i) =>
    { name, matchedBytes := Text.byteSize (name.take s.typed), selected := s.cursor == some i }

end Suggestions

end CommandConsole

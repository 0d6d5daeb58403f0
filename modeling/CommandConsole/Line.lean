import CommandConsole.Text.Basic

set_option autoImplicit false

/-!
# Output lines

A line of the transcript is a text with a severity.
-/

namespace CommandConsole

/-- How serious a line is. -/
inductive Severity where
  | info
  | warn
  | error
  deriving DecidableEq, Repr, Inhabited

/-- One line of output. -/
structure Line where
  text : Text
  severity : Severity
  deriving DecidableEq, Repr, Inhabited

namespace Line

/-- A line of regular output. -/
def info (text : Text) : Line := ⟨text, .info⟩

/-- A warning. -/
def warn (text : Text) : Line := ⟨text, .warn⟩

/-- The line of a failure. -/
def error (text : Text) : Line := ⟨text, .error⟩

end Line

end CommandConsole

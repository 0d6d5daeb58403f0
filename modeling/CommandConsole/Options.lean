import CommandConsole.Text.Basic

set_option autoImplicit false

/-!
# Options

How a console behaves.  Every option has a default, so that a configuration may name any of them.
-/

namespace CommandConsole

/-- The options of a console. -/
structure Options where
  /-- Whether the console starts open. -/
  startOpened : Bool := false
  /-- Whether every call is described before it runs. -/
  showFunctionInfo : Bool := false
  /-- Whether a line without parentheses calls the command it names. -/
  quickCommands : Bool := true
  /-- Whether submitting completes the first suggestion when none is selected. -/
  alwaysAutocomplete : Bool := false
  /-- Number of lines that the history keeps. -/
  historySize : Nat := 100
  /-- Budget of the transcript in characters. -/
  maxCharacters : Nat := 15000
  deriving DecidableEq, Repr, Inhabited

end CommandConsole

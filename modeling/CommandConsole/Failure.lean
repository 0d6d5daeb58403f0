import CommandConsole.CommandLine
import CommandConsole.Error
import CommandConsole.Files

set_option autoImplicit false

/-!
# Failures of the program

What can keep the program from running or end it early.  Faults of commands are not among them:
those end up in the transcript.
-/

namespace CommandConsole

/-- Why the program stops. -/
inductive Failure where
  /-- The configuration file cannot be read. -/
  | configRead (path : Text) (reason : ReadFailure)
  /-- The configuration file does not hold options. -/
  | configParse (path : Text)
  | usage (e : CommandLine.UsageError)
  /-- A command of the program was refused by the registry. -/
  | console (e : ConsoleError)
  /-- A line of input is not UTF-8. -/
  | invalidInput
  deriving DecidableEq, Repr, Inhabited

/-- The text of a failure. -/
def Failure.message : Failure → Text
  | .configRead path reason => "failed to read ".toList ++ path ++ ": ".toList ++ reason.message
  | .configParse path => "failed to parse ".toList ++ path ++ ": invalid configuration".toList
  | .usage e => e.message
  | .console e => e.message
  | .invalidInput => "stream did not contain valid UTF-8".toList

end CommandConsole

import CommandConsole.Command.Fault
import CommandConsole.Line

set_option autoImplicit false

/-!
# Errors of the console

Why a registration, a look-up or a line failed, and how each failure is worded.  None of them
leaves the console: each is reported as lines of the transcript.
-/

namespace CommandConsole

/-- Why a registration, a look-up or a line failed. -/
inductive ConsoleError where
  /-- No command has the name. -/
  | notFound (name : Text)
  /-- Commands have the name, but none takes that many arguments. -/
  | arityMismatch (name : Text) (expected received : List Text)
  /-- The line does not reduce to a single call. -/
  | unresolved (line : Text)
  /-- The body of the command failed. -/
  | invocationFault (name : Text) (fault : Fault)
  /-- The registry refused the command. -/
  | invalidRegistration (name reason : Text)
  deriving DecidableEq, Repr, Inhabited

namespace ConsoleError

/-- The text that calls a name or a line unknown. -/
def notImplemented (text : Text) : Text :=
  "Command \"".toList ++ text ++
    "\" was not implemented. Type \"help\" for a list of implemented commands.".toList

/-- The error in one line. -/
def message : ConsoleError → Text
  | .notFound name => notImplemented name
  | .arityMismatch name _ _ =>
    "The parameters for the command \"".toList ++ name ++ "\" are invalid.".toList
  | .unresolved line => notImplemented line
  | .invocationFault name fault =>
    "Command \"".toList ++ name ++ "\" failed: ".toList ++ fault.message
  | .invalidRegistration name reason =>
    "Could not register command \"".toList ++ name ++ "\": ".toList ++ reason

/-- The lines that report the error.  A wrong number of arguments also shows the signatures that
were expected and the kinds that were received. -/
def reportLines (e : ConsoleError) : List Line :=
  match e with
  | .arityMismatch _ expected received =>
    Line.error (e.message ++ " Expected:".toList) :: expected.map Line.error ++
      [Line.error "Received:".toList,
        Line.error ('(' :: (Text.commaSeparated received ++ [')']))]
  | _ => [Line.error e.message]

end ConsoleError

end CommandConsole

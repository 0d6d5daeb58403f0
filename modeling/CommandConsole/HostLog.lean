import CommandConsole.Line

set_option autoImplicit false

/-!
# The host log

Warnings and errors that the host raises wait here until they are shown in the transcript.  What
the console's engine raises itself is left out, since the engine writes its own lines; so are
events without a message.
-/

namespace CommandConsole

/-- How serious an event is. -/
inductive Level where
  | trace
  | debug
  | info
  | warn
  | error
  deriving DecidableEq, Repr, Inhabited

/-- The severity of the line that shows an event; the lesser levels are not shown. -/
def Level.severity? : Level → Option Severity
  | .warn => some .warn
  | .error => some .error
  | _ => none

/-- Something that the host reports. -/
structure Event where
  /-- The part of the program that reports it. -/
  target : Text
  level : Level
  message : Option Text
  deriving DecidableEq, Repr, Inhabited

/-- The lines that wait to be shown, oldest first. -/
structure HostLog where
  pending : List Line := []
  deriving DecidableEq, Repr, Inhabited

namespace HostLog

/-- How the targets of the console's engine begin. -/
def engineTarget : Text := "dev_console".toList

/-- The line that shows an event, if it is shown. -/
def line? (e : Event) : Option Line :=
  if engineTarget.isPrefixOf e.target then none
  else
    match e.level.severity?, e.message with
    | some severity, some (c :: rest) => some ⟨c :: rest, severity⟩
    | _, _ => none

/-- Keeps the line of an event. -/
def emit (e : Event) (log : HostLog) : HostLog :=
  match line? e with
  | some line => ⟨log.pending ++ [line]⟩
  | none => log

/-- The lines that wait, which then wait no more. -/
def drain (log : HostLog) : List Line × HostLog := (log.pending, {})

/-- A host line as the transcript shows it. -/
def tagged (line : Line) : Line :=
  let tag :=
    match line.severity with
    | .info => "HOST: ".toList
    | .warn => "HOST [Warn]: ".toList
    | .error => "HOST [Error]: ".toList
  { line with text := tag ++ line.text }

end HostLog

end CommandConsole

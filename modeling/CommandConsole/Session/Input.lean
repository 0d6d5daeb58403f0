import CommandConsole.Console

set_option autoImplicit false

/-!
# Session input

One line of a session is a command line to submit, or a directive after a colon: the name of a
key, a text to type, or the end of the session.
-/

namespace CommandConsole.Session

/-- One line of input. -/
inductive Input where
  /-- Type a line and submit it. -/
  | submit (text : Text)
  /-- Type a text only. -/
  | type (text : Text)
  | key (action : Action)
  /-- A key without an action. -/
  | unknownKey (name : Text)
  | quit
  deriving DecidableEq, Repr, Inhabited

/-- The directive after a colon. -/
def Input.ofDirective (directive : Text) : Input :=
  if directive = "quit".toList ∨ directive = "q".toList then .quit
  else
    match Text.dropStart? "type ".toList directive with
    | some text => .type text
    | none =>
      match Action.ofKey? (Text.trim directive) with
      | some action => .key action
      | none => .unknownKey (Text.trim directive)

/-- Reads a line. -/
def Input.parse : Text → Input
  | ':' :: directive => ofDirective directive
  | line => .submit line

/-- The bytes of a script cut after its line feeds, without them.  What follows the last one is a
line if it is not empty. -/
def scriptLines : List UInt8 → List (List UInt8)
  | [] => []
  | b :: rest =>
    if b = 10 then [] :: scriptLines rest
    else
      match scriptLines rest with
      | [] => [[b]]
      | line :: lines => (b :: line) :: lines

/-- The text of one line of a script, without the carriage returns at its end, if it is UTF-8. -/
def decodeLine? (bytes : List UInt8) : Option Text :=
  (String.fromUTF8? ⟨bytes.toArray⟩).map fun s =>
    (s.toList.reverse.dropWhile fun c => c == '\r').reverse

end CommandConsole.Session

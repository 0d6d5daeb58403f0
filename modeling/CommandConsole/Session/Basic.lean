import CommandConsole.Session.Input
import CommandConsole.Text.Quoted

set_option autoImplicit false

/-!
# Sessions

A session drives a console from lines of input and writes what a view of it would show.  After
every line comes a frame: waiting host lines are forwarded, unread lines are written, and the
suggestions and the input line are shown if there are any.
-/

namespace CommandConsole.Session

variable {β σ : Type}

/-- What one part of a session wrote, and the console after it. -/
structure Shown (β σ : Type) where
  output : List Text
  console : Console β σ

/-- The answer to input that a closed console ignores. -/
def closedNotice : Text := "(console closed; press :Backquote to open it)".toList

/-- A line of the transcript as a session shows it. -/
def lineText (line : Line) : Text :=
  match line.severity with
  | .info => line.text
  | .warn => "warning: ".toList ++ line.text
  | .error => "error: ".toList ++ line.text

/-- A result as a session shows it: texts are quoted. -/
def valueText : Value → Text
  | .text t => Text.quote t
  | v => v.display

/-- The line of the suggestions, the selected one in brackets. -/
def suggestionsLine (s : Suggestions) : Text :=
  let shown := s.entries.map fun e => if e.selected then '[' :: (e.name ++ [']']) else e.name
  "  suggestions: ".toList ++ Text.join [' '] shown

/-- One frame. -/
def frame (c : Console β σ) : Shown β σ :=
  let (_, c) := c.forwardLog
  let (unread, c) := c.takeUnread
  let suggestions := if c.suggestions.isVisible then [suggestionsLine c.suggestions] else []
  let input := if c.text.isEmpty then [] else ["  input: ".toList ++ c.text]
  let (_, c) := c.endFrame
  ⟨unread.map lineText ++ suggestions ++ input, c⟩

/-- Submits the input line of an open console and shows the result, if there is one. -/
def submit (h : Host β σ) (c : Console β σ) : Shown β σ :=
  if !c.isOpen then ⟨[closedNotice], c⟩
  else
    match c.submit h with
    | (some v, c) => ⟨if v.isNil then [] else ["= ".toList ++ valueText v], c⟩
    | (none, c) => ⟨[], c⟩

/-- Applies one line of input; nothing is left to show when it ends the session. -/
def apply (h : Host β σ) (input : Input) (c : Console β σ) : Option (Shown β σ) :=
  match input with
  | .quit => none
  | .type text => some ⟨[], c.setText text⟩
  | .key .submit => some (submit h c)
  | .key action =>
    match c.handle h action with
    | (true, c) => some ⟨[], c⟩
    | (false, c) => some ⟨[closedNotice], c⟩
  | .unknownKey name => some ⟨["(unknown key ".toList ++ Text.quote name ++ [')']], c⟩
  | .submit text =>
    if !c.isOpen then some ⟨[closedNotice], c⟩ else some (submit h (c.setText text))

/-- One line of input and the frame after it. -/
def step (h : Host β σ) (line : Text) (c : Console β σ) : Option (Shown β σ) :=
  (apply h (Input.parse line) c).map fun applied =>
    let shown := frame applied.console
    ⟨applied.output ++ shown.output, shown.console⟩

/-- How a session ended. -/
structure Result (β σ : Type) where
  output : List Text
  console : Console β σ
  /-- Whether a line of input was not UTF-8, which ends the session. -/
  invalidInput : Bool

/-- Reads the lines of a script up to the one that ends the session.  A line that is not UTF-8 is
`none`. -/
def readLines (h : Host β σ) : List (Option Text) → Console β σ → Result β σ
  | [], c => ⟨[], c, false⟩
  | none :: _, c => ⟨[], c, true⟩
  | some line :: rest, c =>
    match step h line c with
    | none => ⟨[], c, false⟩
    | some shown =>
      let result := readLines h rest shown.console
      { result with output := shown.output ++ result.output }

/-- A whole session: a frame, and then the lines of the script. -/
def run (h : Host β σ) (lines : List (Option Text)) (c : Console β σ) : Result β σ :=
  let shown := frame c
  let result := readLines h lines shown.console
  { result with output := shown.output ++ result.output }

/-- A whole session over the bytes of a script. -/
def runScript (h : Host β σ) (script : List UInt8) (c : Console β σ) : Result β σ :=
  run h ((scriptLines script).map decodeLine?) c

end CommandConsole.Session

import CommandConsole.Completion
import CommandConsole.Invocation
import CommandConsole.Reduction

set_option autoImplicit false

/-!
# Evaluation of a line

A submitted line is trimmed.  A blank line does nothing.  A line without parentheses names a
command that is called without arguments, if that is allowed.  Any other line is reduced call by
call; a call that faults counts as a call without value, and any other failure ends the line.
Failures are reported in the transcript.
-/

namespace CommandConsole

/-- How lines are evaluated: by which host, and with which options. -/
structure Evaluator (β σ : Type) where
  host : Host β σ
  /-- Whether a line without parentheses calls the command it names. -/
  quickCommands : Bool := true
  /-- Whether every call is described before it runs. -/
  functionInfo : Bool := false

namespace Evaluator

variable {β σ : Type}

/-- The lines that describe a call. -/
def description (name rawArgs : Text) (args : List Value) : List Line :=
  [ "Function: ".toList ++ name,
    "Arg count: ".toList ++ Number.decimal args.length,
    "Raw args: ".toList ++ rawArgs,
    "Args: ".toList ++ Text.commaSeparated (args.map Value.display) ].map Line.info

/-- Describes a call if that is asked for. -/
def trace (e : Evaluator β σ) (name rawArgs : Text) (args : List Value) (w : World β σ) :
    World β σ :=
  if e.functionInfo then w.write (description name rawArgs args) else w

/-- Makes one call.  Without a value the line ends. -/
def call (e : Evaluator β σ) (name rawArgs : Text) (args : List Value) (w : World β σ) :
    Option Value × World β σ :=
  match e.host.invoke name args (e.trace name rawArgs args w) with
  | (.ok v, w) => (some v, w)
  | (.error (.invocationFault name f), w) => (some .nil, w.report (.invocationFault name f))
  | (.error err, w) => (none, w.report err)

/-- Reduces a line to its value.  A rest that is no call is reported with the submitted `line`. -/
def reduce (e : Evaluator β σ) (line : Text) (r : Reduction) (w : World β σ) :
    Option Value × World β σ :=
  match h : r.step? with
  | some s =>
    match e.call s.site.name s.site.args s.args w with
    | (none, w) => (none, w)
    | (some v, w) =>
      have := Reduction.openings_resume_lt h v
      reduce e line (s.resume v) w
  | none =>
    match r.value? with
    | some v => (some v, w)
    | none => (none, w.report (.unresolved line))
termination_by Reduction.openings r.text

/-- Evaluates a submitted line.  The value is that of the outermost call; there is none if the
line was blank or ended before. -/
def evaluate (e : Evaluator β σ) (line : Text) (w : World β σ) : Option Value × World β σ :=
  let line := Text.trim line
  if line.isEmpty then (none, w)
  else if Completion.hasParenthesis line then e.reduce line (Reduction.start line) w
  else if e.quickCommands then e.call line [] [] w
  else (none, w.report (.unresolved line))

end Evaluator

end CommandConsole

import CommandConsole.HostLog
import CommandConsole.Registry
import CommandConsole.Transcript

set_option autoImplicit false

/-!
# The world of a command body

A body runs in a world: the registry, the transcript, the host log, and a state `σ` that belongs to
the host.  It may change any of them, and it ends with a value, a fault or a panic.  What the
host's bodies do is given by one function, so a statement about every host is a statement about
bodies that are arbitrary state-changing functions.
-/

namespace CommandConsole

/-- All that a command body can see and change. -/
structure World (β σ : Type) where
  registry : Registry β
  transcript : Transcript
  log : HostLog
  host : σ

namespace World

variable {β σ : Type}

/-- The world with another transcript. -/
def mapTranscript (f : Transcript → Transcript) (w : World β σ) : World β σ :=
  { w with transcript := f w.transcript }

/-- Writes a line of regular output. -/
def info (text : Text) (w : World β σ) : World β σ := w.mapTranscript (·.info text)

/-- Writes lines. -/
def write (lines : List Line) (w : World β σ) : World β σ := w.mapTranscript (·.extend lines)

/-- Writes the lines that report an error. -/
def report (e : ConsoleError) (w : World β σ) : World β σ := w.write e.reportLines

end World

/-- How a command body ended. -/
inductive Outcome where
  | value (v : Value)
  | fault (f : Fault)
  /-- The body gave up; the message is there if what it raised was a text. -/
  | panic (message : Option Text)
  deriving Repr, Inhabited

/-- The outcome of a computation that may fault. -/
def Outcome.ofExcept : Except Fault Value → Outcome
  | .ok v => .value v
  | .error f => .fault f

/-- The result of a call: a panic counts as a fault. -/
def Outcome.toExcept : Outcome → Except Fault Value
  | .value v => .ok v
  | .fault f => .error f
  | .panic message => .error ⟨message.getD "command panicked".toList⟩

/-- A host: what its command bodies do, and how it enumerates its instances. -/
structure Host (β σ : Type) where
  /-- Runs a body on a receiver, if the call has one, with the arguments. -/
  run : β → Option Instance → List Value → World β σ → Outcome × World β σ
  lookup : Lookup σ

end CommandConsole

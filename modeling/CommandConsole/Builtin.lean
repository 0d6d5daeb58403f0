import CommandConsole.Command.Args
import CommandConsole.Help
import CommandConsole.World

set_option autoImplicit false

/-!
# The console's own commands

`help` lists the registered commands, `clear` empties the transcript, and `print` writes a text a
number of times.
-/

namespace CommandConsole

namespace Builtin

variable {β σ : Type}

/-- Writes a text a number of times. -/
def printTimes (text : Text) : Nat → World β σ → World β σ
  | 0, w => w
  | n + 1, w => printTimes text n (w.info text)

/-- Runs a body of the console. -/
def run (b : Builtin) (args : List Value) (w : World β σ) : Outcome × World β σ :=
  match b with
  | .help => (.value .nil, w.write ((Help.lines w.registry.descriptors).map Line.info))
  | .clear => (.value .nil, w.mapTranscript Transcript.clear)
  | .print =>
    match Args.text args 0, Args.int args 1 with
    | .error f, _ => (.fault f, w)
    | .ok _, .error f => (.fault f, w)
    | .ok text, .ok times => (.value .nil, printTimes text times.toInt.toNat w)

/-- The heading of the console's own commands in the help listing. -/
def category : Text := "Utility".toList

/-- The console's own commands. -/
def commands : List (Command β) :=
  [ (Command.bound "help".toList [] (.builtin .help)).describe
      "Show all registered commands.".toList,
    (Command.action "clear".toList (.builtin .clear)).describe "Clear the console.".toList,
    (Command.bound "print".toList [.text, .int] (.builtin .print)).describe
      "Print the typed text in the console a number of times.".toList ].map
    fun c => c.categorize (some category)

end Builtin

/-- Runs a body, of the console or of the host. -/
def Host.perform {β σ : Type} (h : Host β σ) (body : Body β) (receiver : Option Instance)
    (args : List Value) (w : World β σ) : Outcome × World β σ :=
  match body with
  | .builtin b => b.run args w
  | .custom b => h.run b receiver args w

end CommandConsole

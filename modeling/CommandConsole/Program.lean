import CommandConsole.Arena.Commands
import CommandConsole.Configuration
import CommandConsole.Session.Basic

set_option autoImplicit false

/-!
# The program

A session over a console with the arena's commands, as it is run from a command line: arguments,
files and input determine an exit code and what is written to the two output streams.
-/

namespace CommandConsole.Program

/-- What a run leaves behind. -/
structure Outcome where
  exitCode : Nat
  /-- The lines of the standard output. -/
  output : List Text
  /-- The lines of the error output. -/
  errors : List Text
  deriving DecidableEq, Repr, Inhabited

/-- The console of the arena. -/
abbrev ArenaConsole := Console Arena.Body Arena

/-- A console with all commands of the arena. -/
def console (options : Options) : Except Failure ArenaConsole :=
  match Arena.Slot.whole.register (.new options {} {}) with
  | (.error e, _) => .error (.console e)
  | (.ok _, c) => .ok (Arena.Slot.whole.discover c).2

/-- The line that reports a failure. -/
def failureLine (e : Failure) : Text := "error: ".toList ++ e.message

/-- The console that the arguments ask for, or what is written instead of running one. -/
def begin (arguments : List Text) (files : Files) : Except Outcome ArenaConsole :=
  match CommandLine.parse arguments with
  | .error e => .error ⟨2, [], failureLine (.usage e) :: CommandLine.usage⟩
  | .ok .help => .error ⟨0, [], CommandLine.usage⟩
  | .ok (.run config) =>
    match Configuration.load files config >>= console with
    | .ok c => .ok c
    | .error e => .error ⟨1, [], [failureLine e]⟩

/-- What is left to do when a session has ended. -/
def finish (invalidInput : Bool) : Outcome :=
  if invalidInput then ⟨1, [], [failureLine .invalidInput]⟩ else ⟨0, [], []⟩

/-- A whole run. -/
def run (arguments : List Text) (files : Files) (input : List UInt8) : Outcome :=
  match begin arguments files with
  | .error outcome => outcome
  | .ok c =>
    let result := Session.runScript Arena.host input c
    { finish result.invalidInput with output := result.output }

/-- The file that a run reads, if it gets that far. -/
def configFile? (arguments : List Text) : Option Text :=
  match CommandLine.parse arguments with
  | .ok (.run config) => some (Configuration.file config)
  | _ => none

/-- Only the configuration file matters of all files. -/
theorem begin_congr {arguments : List Text} {files files' : Files}
    (h : ∀ path, configFile? arguments = some path → files path = files' path) :
    begin arguments files = begin arguments files' := by
  unfold begin
  cases hp : CommandLine.parse arguments with
  | error e => rfl
  | ok request =>
    cases request with
    | help => rfl
    | run config =>
      have hf : files (Configuration.file config) = files' (Configuration.file config) :=
        h _ (by simp [configFile?, hp])
      simp only [Configuration.load, hf]

end CommandConsole.Program

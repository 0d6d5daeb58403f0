import CommandConsole.Text.Basic

set_option autoImplicit false

/-!
# The command line

The arguments of the program ask for help or name a configuration file.  They are read from the
left: a request for help settles the matter, the last file named counts, and the first argument
that makes no sense is reported.
-/

namespace CommandConsole.CommandLine

/-- What the program is asked to do. -/
inductive Request where
  | help
  /-- Run a session, with the configuration file that is named, if any. -/
  | run (config : Option Text)
  deriving DecidableEq, Repr, Inhabited

/-- Why arguments make no sense. -/
inductive UsageError where
  | missingPath
  | unknownArgument (argument : Text)
  deriving DecidableEq, Repr, Inhabited

/-- The text of a usage error. -/
def UsageError.message : UsageError → Text
  | .missingPath => "--config requires a path".toList
  | .unknownArgument argument => "unknown argument: ".toList ++ argument

/-- Whether an argument asks for help. -/
def isHelp (argument : Text) : Bool :=
  ["help".toList, "--help".toList, "-h".toList].contains argument

/-- Whether the argument after this one names the configuration file. -/
def isConfig (argument : Text) : Bool := ["--config".toList, "-c".toList].contains argument

/-- Reads arguments after those that named `config`. -/
def parseFrom (config : Option Text) : List Text → Except UsageError Request
  | [] => .ok (.run config)
  | [argument] =>
    if isHelp argument then .ok .help
    else if isConfig argument then .error .missingPath
    else
      match Text.dropStart? "--config=".toList argument with
      | some path => .ok (.run (some path))
      | none => .error (.unknownArgument argument)
  | argument :: next :: rest =>
    if isHelp argument then .ok .help
    else if isConfig argument then parseFrom (some next) rest
    else
      match Text.dropStart? "--config=".toList argument with
      | some path => parseFrom (some path) (next :: rest)
      | none => .error (.unknownArgument argument)

/-- Reads the arguments. -/
def parse (arguments : List Text) : Except UsageError Request := parseFrom none arguments

/-- The lines that explain the arguments and the input of a session. -/
def usage : List Text :=
  [ "Usage: console_repl [--config <path>]".toList,
    [],
    "Options:".toList,
    "-c, --config <path>   Load [console] options from this TOML file (default: console.toml)".toList,
    "-h, --help            Show this help".toList,
    [],
    "Input:".toList,
    "<line>                Type a line and submit it".toList,
    ":<Key>                Press a key: :Tab, :ArrowUp, :ArrowDown, :Enter, :Backquote".toList,
    ":type <text>          Replace the input text without submitting".toList,
    ":quit                 Exit".toList,
    [] ]

/-- Whatever the other arguments are, a request for help that comes first is answered. -/
theorem parse_help (argument : Text) (rest : List Text) (h : isHelp argument = true) :
    parse (argument :: rest) = .ok .help := by
  cases rest <;> simp [parse, parseFrom, h]

end CommandConsole.CommandLine

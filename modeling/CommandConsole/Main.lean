import CommandConsole.Program

set_option autoImplicit false

/-!
# The executable

Reads the configuration file and the lines of the standard input, and writes every frame as soon as
it is complete.
-/

namespace CommandConsole

/-- The number of a failure of the operating system, which may come negated. -/
def failureNumber (code : UInt32) : UInt32 := min code (0 - code)

/-- The reason behind a failure of the operating system. -/
def readFailureOf : IO.Error → ReadFailure
  | .noFileOrDirectory .. => .missing
  | .permissionDenied .. => .denied
  | .inappropriateType _ code _ =>
    if failureNumber code = 20 then .notDirectory else .directory
  | .invalidArgument name code details =>
    if failureNumber code = 36 then .tooLong
    else .other (IO.Error.invalidArgument name code details).toString.toList
  | e => .other e.toString.toList

/-- Reads a file. -/
def readFile (path : Text) : IO (Except ReadFailure Text) := do
  match Files.refusal? path with
  | some reason => return .error reason
  | none =>
    try
      let bytes ← IO.FS.readBinFile (String.ofList path)
      match String.fromUTF8? bytes with
      | some s => return .ok s.toList
      | none => return .error .notText
    catch e => return .error (readFailureOf e)

/-- Writes lines to a stream. -/
def writeLines (stream : IO.FS.Stream) (lines : List Text) : IO Unit := do
  for line in lines do
    stream.putStr (String.ofList line)
    stream.putStr "\n"
  stream.flush

/-- The bytes of the next line of a stream with its line feed; none at the end. -/
partial def readLine (stream : IO.FS.Stream) (read : ByteArray) : IO ByteArray := do
  let bytes ← stream.read 1
  if bytes.isEmpty then return read
  else if bytes.toList = [10] then return read ++ bytes
  else readLine stream (read ++ bytes)

/-- Runs a session over the standard streams and answers whether a line was not UTF-8. -/
partial def interact (input output : IO.FS.Stream) (c : Program.ArenaConsole) : IO Bool := do
  let bytes ← readLine input .empty
  match (Session.scriptLines bytes.toList).map Session.decodeLine? with
  | [] => return false
  | none :: _ => return true
  | some line :: _ =>
    match Session.step Arena.host line c with
    | none => return false
    | some shown =>
      writeLines output shown.output
      interact input output shown.console

end CommandConsole

open CommandConsole

/-- The program. -/
def main (arguments : List String) : IO UInt32 := do
  let arguments := arguments.map String.toList
  let content ← match Program.configFile? arguments with
    | some path => readFile path
    | none => pure (.error .missing)
  let outcome ← match Program.begin arguments fun _ => content with
    | .error outcome => pure outcome
    | .ok c =>
      let output ← IO.getStdout
      let first := Session.frame c
      writeLines output first.output
      let invalidInput ← interact (← IO.getStdin) output first.console
      pure (Program.finish invalidInput)
  writeLines (← IO.getStdout) outcome.output
  writeLines (← IO.getStderr) outcome.errors
  return outcome.exitCode.toUInt32

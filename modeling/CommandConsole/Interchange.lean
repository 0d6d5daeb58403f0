import CommandConsole.Command.Descriptor
import CommandConsole.Command.Fault
import CommandConsole.Json.Reader
import CommandConsole.Line
import CommandConsole.Options

set_option autoImplicit false

/-!
# The JSON form of the library's data

How values, descriptors, lines, faults, options and spans of calls are written in JSON.  A value
is tagged with its kind; the rest are records.
-/

namespace CommandConsole.Interchange

open Json
open Json.Reader

/-- Names and what they stand for. -/
def names {α : Type} (table : List (String × α)) : List (Text × α) :=
  table.map fun e => (e.1.toList, e.2)

/-- The kind of a parameter. -/
def paramKind : Reader ParamKind :=
  choice (names [("int", .int), ("float", .float), ("vector2", .vector2), ("vector3", .vector3),
    ("vector4", .vector4), ("text", .text), ("any", .any)])

/-- A target mode. -/
def targetMode : Reader TargetMode :=
  choice (names [("direct", .direct), ("single", .single), ("all", .all),
    ("registry", .registry)])

/-- A severity. -/
def severity : Reader Severity :=
  choice (names [("info", .info), ("warn", .warn), ("error", .error)])

/-! ## Values -/

/-- The components of a vector under their names. -/
def components (axes : List String) : Reader (List Float) := fun t =>
  (fields (axes.map String.toList) false t).bind fun found => found.mapM (required float)

/-- The content of a value, by the name of its kind. -/
def contents : List (Text × Reader Value) :=
  names [
    ("nil", fun t => match t with
      | .null => some .nil
      | _ => none),
    ("int", fun t => (int64 t).map .int),
    ("float", fun t => (float t).map .float),
    ("vector2", fun t => (components ["x", "y"] t).map .ofComponents),
    ("vector3", fun t => (components ["x", "y", "z"] t).map .ofComponents),
    ("vector4", fun t => (components ["x", "y", "z", "w"] t).map .ofComponents),
    ("text", fun t => (text t).map .text)]

/-- A value: its kind and, but for the missing value, a content. -/
def value : Reader Value := fun t => do
  let (tag, content?) ← tagged "kind".toList "value".toList t
  let kind ← choice (contents.map fun e => (e.1, e.1)) tag
  match content? with
  | some content => (← contents.lookup kind) content
  | none => if kind = "nil".toList then some .nil else none

/-! ## Records -/

/-- A line of output. -/
def line : Reader Line := fun t => do
  match ← fields ["text".toList, "severity".toList] false t with
  | [lineText, lineSeverity] =>
    some ⟨← required text lineText, ← required severity lineSeverity⟩
  | _ => none

/-- A fault. -/
def fault : Reader Fault := fun t => do
  match ← fields ["message".toList] false t with
  | [message] => some ⟨← required text message⟩
  | _ => none

/-- The names of the fields of a descriptor. -/
def descriptorFields : List Text :=
  ["name".toList, "description".toList, "category".toList, "params".toList, "target_mode".toList,
    "declaring_type".toList]

/-- A descriptor. -/
def descriptor : Reader Descriptor := fun t => do
  match ← fields descriptorFields false t with
  | [name, description, category, params, mode, declaringType] =>
    some {
      name := ← required text name
      description := ← optional text description
      category := ← optional text category
      params := ← required (list paramKind) params
      targetMode := ← required targetMode mode
      declaringType := ← optional text declaringType }
  | _ => none

/-- The names of the options. -/
def optionFields : List Text :=
  ["start_opened".toList, "show_function_info".toList, "quick_commands".toList,
    "always_autocomplete".toList, "history_size".toList, "max_characters".toList]

/-- Options; what is left out has its default. -/
def options : Reader Options := fun t => do
  match ← fields optionFields true t with
  | [startOpened, showFunctionInfo, quickCommands, alwaysAutocomplete, historySize,
      maxCharacters] =>
    let defaults : Options := {}
    some {
      startOpened := ← withDefault boolean defaults.startOpened startOpened
      showFunctionInfo := ← withDefault boolean defaults.showFunctionInfo showFunctionInfo
      quickCommands := ← withDefault boolean defaults.quickCommands quickCommands
      alwaysAutocomplete := ← withDefault boolean defaults.alwaysAutocomplete alwaysAutocomplete
      historySize := ← withDefault count defaults.historySize historySize
      maxCharacters := ← withDefault count defaults.maxCharacters maxCharacters }
  | _ => none

/-- A call found in a line: its name, the bytes it takes up, and the text of its arguments. -/
structure CallSpan where
  name : Text
  start : Nat
  stop : Nat
  args : Text
  deriving DecidableEq, Repr, Inhabited

/-- A span of a call. -/
def callSpan : Reader CallSpan := fun t => do
  match ← fields ["name".toList, "start".toList, "end".toList, "args".toList] false t with
  | [name, start, stop, args] =>
    some {
      name := ← required text name
      start := ← required count start
      stop := ← required count stop
      args := ← required text args }
  | _ => none

end CommandConsole.Interchange

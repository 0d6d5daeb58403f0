import CommandConsole.Failure
import CommandConsole.Options
import CommandConsole.Toml.Document

set_option autoImplicit false

/-!
# Configuration

The options of a console from the table `console` of a TOML file.  A file that is named must
exist; the default one need not.
-/

namespace CommandConsole.Configuration

open Toml (Item)

/-- A truth value. -/
def boolean? : Item → Option Bool
  | .boolean b => some b
  | _ => none

/-- A number that is not negative. -/
def count? : Item → Option Nat
  | .integer n => if 0 ≤ n.toInt then some n.toInt.toNat else none
  | _ => none

/-- The value of a field, or its default where it is left out. -/
def orDefault {α : Type} (reader : Item → Option α) (default : α) : Option Item → Option α
  | some v => reader v
  | none => some default

/-- Options of which each is given by the value that `find` has for its name and place, if any. -/
def optionsBy? (find : String → Nat → Option Item) : Option Options := do
  let defaults : Options := {}
  some {
    startOpened := ← orDefault boolean? defaults.startOpened (find "start_opened" 0)
    showFunctionInfo :=
      ← orDefault boolean? defaults.showFunctionInfo (find "show_function_info" 1)
    quickCommands := ← orDefault boolean? defaults.quickCommands (find "quick_commands" 2)
    alwaysAutocomplete :=
      ← orDefault boolean? defaults.alwaysAutocomplete (find "always_autocomplete" 3)
    historySize := ← orDefault count? defaults.historySize (find "history_size" 4)
    maxCharacters := ← orDefault count? defaults.maxCharacters (find "max_characters" 5) }

/-- The options that a value denotes.  A table has them by their names, an array by their places;
a date is a record of fields that mean nothing here. -/
def options? : Item → Option Options
  | .table entries => optionsBy? fun name _ => entries.lookup name.toList
  | .array items => optionsBy? fun _ place => items[place]?
  | .dateTime _ => some {}
  | _ => none

/-- The options of a configuration file with this content. -/
def ofText? (t : Text) : Option Options :=
  (Toml.table? t).bind fun entries =>
    match entries.lookup "console".toList with
    | some v => options? v
    | none => some {}

/-- The file that is read when none is named. -/
def defaultFile : Text := "console.toml".toList

/-- The file that is read. -/
def file (explicit : Option Text) : Text := explicit.getD defaultFile

/-- Loads the options. -/
def load (files : Files) (explicit : Option Text) : Except Failure Options :=
  match files (file explicit) with
  | .ok content =>
    match ofText? content with
    | some options => .ok options
    | none => .error (.configParse (file explicit))
  | .error reason =>
    if explicit = none ∧ reason = .missing then .ok {}
    else .error (.configRead (file explicit) reason)

/-- Without any file the options are the defaults. -/
theorem load_none_of_missing (files : Files) (h : files defaultFile = .error .missing) :
    load files none = .ok {} := by
  simp [load, file, h]

end CommandConsole.Configuration

import CommandConsole.Evaluation
import CommandConsole.History
import CommandConsole.Options
import CommandConsole.Suggestions

set_option autoImplicit false

/-!
# The console

One interactive console: the world its commands run in, the input text, the history and the
suggestions.  Keys and text changes act on it only as far as it is open; submitting the text first
completes a suggestion, and else echoes and evaluates the line.

Every operation is a function from consoles to consoles.  Those that may run a command take the
host whose bodies they run.
-/

namespace CommandConsole

/-- What a key asks of the console. -/
inductive Action where
  /-- Open or close it. -/
  | toggle
  /-- Move the arrows between the history and the suggestions. -/
  | toggleSuggestions
  | up
  | down
  | submit
  deriving DecidableEq, Repr, Inhabited

/-- The action of a key, by the key's name. -/
def Action.ofKey? (key : Text) : Option Action :=
  if key = "`".toList ∨ key = "Backquote".toList then some .toggle
  else if key = "Tab".toList then some .toggleSuggestions
  else if key = "ArrowUp".toList then some .up
  else if key = "ArrowDown".toList then some .down
  else if key = "Enter".toList ∨ key = "NumpadEnter".toList then some .submit
  else none

/-- A console over the bodies `β` and the state `σ` of a host. -/
structure Console (β σ : Type) where
  options : Options
  world : World β σ
  history : History
  suggestions : Suggestions := {}
  /-- The input line as it is shown. -/
  text : Text := []
  /-- The input line as it was last typed or completed. -/
  draft : Text := []
  isOpen : Bool
  /-- What the host does whenever the console opens. -/
  openHooks : List (World β σ → World β σ) := []
  /-- What the host does whenever the console closes. -/
  closeHooks : List (World β σ → World β σ) := []

namespace Console

variable {β σ : Type}

/-- The first line of every transcript. -/
def greeting : Text :=
  "> Welcome to the developer console! Type \"help\" to see a list of all registered commands.".toList

/-- The world of a new console: its own commands and the greeting. -/
def initialWorld (maxCharacters : Nat) (log : HostLog) (host : σ) : World β σ :=
  let (result, registry) := Registry.registerAll Builtin.commands {}
  let w : World β σ := { registry, transcript := .empty maxCharacters, log, host }
  let w := match result with
    | .ok () => w
    | .error e => w.report e
  w.info greeting

/-- A new console in front of a host. -/
def new (options : Options) (log : HostLog) (host : σ) : Console β σ where
  options := options
  world := initialWorld options.maxCharacters log host
  history := .empty options.historySize
  isOpen := options.startOpened

/-- The evaluator of the submitted lines. -/
def evaluator (h : Host β σ) (c : Console β σ) : Evaluator β σ where
  host := h
  quickCommands := c.options.quickCommands
  functionInfo := c.options.showFunctionInfo

/-- Changes the world. -/
def mapWorld (f : World β σ → World β σ) (c : Console β σ) : Console β σ :=
  { c with world := f c.world }

/-- Changes the transcript. -/
def mapTranscript (f : Transcript → Transcript) (c : Console β σ) : Console β σ :=
  c.mapWorld (·.mapTranscript f)

/-! ## Registration -/

/-- Writes the report of a registration that was refused. -/
def reported {α : Type} (result : Except ConsoleError α) (c : Console β σ) :
    Except ConsoleError α × Console β σ :=
  match result with
  | .ok a => (.ok a, c)
  | .error e => (.error e, c.mapWorld (·.report e))

/-- Changes the registry. -/
def setRegistry (registry : Registry β) (c : Console β σ) : Console β σ :=
  c.mapWorld fun w => { w with registry }

/-- Registers a command. -/
def register (command : Command β) (c : Console β σ) :
    Except ConsoleError Unit × Console β σ :=
  match c.world.registry.register command with
  | .ok registry => c.setRegistry registry |>.reported (.ok ())
  | .error e => c.reported (.error e)

/-- Registers every overload of a method of one receiver as a direct command. -/
def registerBound (name description : Text) (category : Option Text) (type : TypeKey)
    (table : List (Method β)) (method : Text) (c : Console β σ) :
    Except ConsoleError Nat × Console β σ :=
  let (result, registry) :=
    c.world.registry.registerBound name (some description) category type table method
  c.setRegistry registry |>.reported result

/-- Makes an instance the singleton of its type and answers the one it replaces, with a warning
in the transcript. -/
def registerSingleton (i : Instance) (c : Console β σ) : Option Instance × Console β σ :=
  let (previous, registry) := c.world.registry.registerSingleton i
  let c := c.setRegistry registry
  match previous with
  | some j =>
    (some j, c.mapTranscript (·.warn ("A singleton of type ".toList ++ i.type.name ++
      " was already registered and has been replaced.".toList)))
  | none => (none, c)

/-- Forgets the singleton of a type and answers it. -/
def unregisterSingleton (type : TypeKey) (c : Console β σ) : Option Instance × Console β σ :=
  let (previous, registry) := c.world.registry.unregisterSingleton type
  (previous, c.setRegistry registry)

/-! ## The input line -/

/-- Shows a text in the input line, with the suggestions for it. -/
def applyText (text : Text) (c : Console β σ) : Console β σ :=
  { c with text, suggestions := c.suggestions.refresh text c.world.registry.names }

/-- Types a text. -/
def setText (text : Text) (c : Console β σ) : Console β σ :=
  { c with draft := text }.applyText text

/-- Runs the hooks in order. -/
def runHooks (hooks : List (World β σ → World β σ)) (c : Console β σ) : Console β σ :=
  c.mapWorld fun w => hooks.foldl (fun w hook => hook w) w

/-- Opens or closes the console.  Opening starts with fresh cursors and scrolls to the end;
closing drops the input. -/
def setOpen (isOpen : Bool) (c : Console β σ) : Console β σ :=
  if c.isOpen = isOpen then c
  else if isOpen then
    { c with
      isOpen := true
      history := c.history.resetCursor
      suggestions := c.suggestions.resetCursor }
      |>.mapTranscript (·.scheduleScroll.2)
      |>.runHooks c.openHooks
  else
    { c with isOpen := false }.setText [] |>.runHooks c.closeHooks

/-- Closes an open console and opens a closed one. -/
def toggle (c : Console β σ) : Console β σ := c.setOpen !c.isOpen

/-- Moves through the suggestions if they have the focus, and else through the history. -/
def navigate (direction : Direction) (c : Console β σ) : Console β σ :=
  if c.suggestions.isFocused then { c with suggestions := c.suggestions.cycle direction }
  else
    let (text, history) := c.history.navigate direction c.draft
    { c with history }.applyText text

/-! ## Submitting -/

/-- The suggestion that submitting would complete: the selected one, or the first if that option
is set. -/
def chosenSuggestion? (c : Console β σ) : Option Text :=
  match c.suggestions.selected? with
  | some name => some name
  | none => if c.options.alwaysAutocomplete then c.suggestions.first? else none

/-- The text that submitting would complete the input to, if that changes it. -/
def completion? (c : Console β σ) : Option Text :=
  match c.chosenSuggestion? with
  | some name =>
    let completed := Completion.accept c.text name
    if completed = c.text then none else some completed
  | none => none

/-- Evaluates a line without echo or history. -/
def execute (h : Host β σ) (line : Text) (c : Console β σ) : Option Value × Console β σ :=
  let (v, world) := (c.evaluator h).evaluate line c.world
  (v, { c with world })

/-- Echoes a line, keeps it in the history and clears the input. -/
def echo (line : Text) (c : Console β σ) : Console β σ :=
  let c := c.mapTranscript (·.info ("> ".toList ++ line))
  { c with
    history := c.history.push line
    suggestions := c.suggestions.resetCursor }.setText []

/-- Submits the input: a blank one is only echoed, a suggestion may complete it, and else the line
is evaluated. -/
def submit (h : Host β σ) (c : Console β σ) : Option Value × Console β σ :=
  let line := Text.trim c.text
  if line.isEmpty then (none, c.mapTranscript (·.info ">".toList))
  else
    match c.completion? with
    | some completed => (none, c.setText completed)
    | none => (c.echo line).execute h line

/-- Handles an action and answers whether it had an effect.  A closed console only opens. -/
def handle (h : Host β σ) (action : Action) (c : Console β σ) : Bool × Console β σ :=
  match action with
  | .toggle => (true, c.toggle)
  | action =>
    if !c.isOpen then (false, c)
    else
      match action with
      | .toggle => (true, c.toggle)
      | .toggleSuggestions => (true, { c with suggestions := c.suggestions.toggleFocus })
      | .up => (true, c.navigate .up)
      | .down => (true, c.navigate .down)
      | .submit => (true, (c.submit h).2)

/-! ## Frames -/

/-- Shows a line of the host. -/
def appendHostLine (line : Line) (c : Console β σ) : Console β σ :=
  c.mapTranscript (·.push (HostLog.tagged line))

/-- Shows the lines that wait in the host log and answers their number. -/
def forwardLog (c : Console β σ) : Nat × Console β σ :=
  let (lines, log) := c.world.log.drain
  let c := c.mapWorld fun w => { w with log }
  (lines.length, lines.foldl (fun c line => c.appendHostLine line) c)

/-- The lines of the transcript that nobody has read. -/
def takeUnread (c : Console β σ) : List Line × Console β σ :=
  let (lines, transcript) := c.world.transcript.takeUnread
  (lines, c.mapTranscript fun _ => transcript)

/-- Ends a frame and answers whether the view should scroll to the end. -/
def endFrame (c : Console β σ) : Bool × Console β σ :=
  let (scroll, transcript) := c.world.transcript.takeScroll
  (scroll, c.mapTranscript fun _ => transcript)

end Console

end CommandConsole

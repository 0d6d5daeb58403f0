import CommandConsole.Proofs.Console.Reachable

set_option autoImplicit false

/-!
# What operations do to the input

The input of a console is all of it that is neither the world nor a setting: the text that is shown,
the draft, the history, the suggestions, and whether it is open.  Whatever happens to a console, its
input stays or changes in one of seven ways (`input_step`), and the world gives no more to the
change than the names that are registered then.  So what is to hold of the input of every console
that can be reached has to be shown for the seven changes only (`Reachable.input_induct`).
-/

namespace CommandConsole

variable {β σ : Type}

/-- The part of a console that keys and texts change. -/
structure Input where
  text : Text
  draft : Text
  history : History
  suggestions : Suggestions
  isOpen : Bool

/-- The input of a console. -/
def Console.input (c : Console β σ) : Input where
  text := c.text
  draft := c.draft
  history := c.history
  suggestions := c.suggestions
  isOpen := c.isOpen

namespace Input

/-- Another text, with the suggestions for it. -/
def withText (names : List Text) (text : Text) (i : Input) : Input :=
  { i with text, suggestions := i.suggestions.refresh text names }

/-- A text that is typed or completed. -/
def typed (names : List Text) (text : Text) (i : Input) : Input :=
  { i with draft := text }.withText names text

/-- A line that is submitted. -/
def entered (names : List Text) (line : Text) (i : Input) : Input :=
  { i with history := i.history.push line, suggestions := i.suggestions.resetCursor }.typed names []

/-- A step through the history. -/
def walked (names : List Text) (direction : Direction) (i : Input) : Input :=
  { i with history := (i.history.navigate direction i.draft).2 }.withText names
    (i.history.navigate direction i.draft).1

/-- What an operation can do to the input, with the names that are registered. -/
inductive Step (names : List Text) (i : Input) : Input → Prop where
  | stays : Step names i i
  | types (text : Text) : Step names i (i.typed names text)
  | enters (line : Text) : Step names i (i.entered names line)
  | walks (direction : Direction) (hopen : i.isOpen = true)
      (hfocus : i.suggestions.isFocused = false) : Step names i (i.walked names direction)
  | cycles (direction : Direction) (hopen : i.isOpen = true)
      (hfocus : i.suggestions.isFocused = true) :
      Step names i { i with suggestions := i.suggestions.cycle direction }
  | focuses (hopen : i.isOpen = true) :
      Step names i { i with suggestions := i.suggestions.toggleFocus }
  | opens (hclosed : i.isOpen = false) : Step names i
      { i with
        isOpen := true
        history := i.history.resetCursor
        suggestions := i.suggestions.resetCursor }
  | closes (hopen : i.isOpen = true) : Step names i ({ i with isOpen := false }.typed names [])

end Input

open Input (Step)

namespace Console

/-- The names that are registered. -/
def names (c : Console β σ) : List Text := c.world.registry.names

/-! ## The changes -/

theorem input_navigate (direction : Direction) {c : Console β σ} (hopen : c.isOpen = true) :
    Step c.names c.input (c.navigate direction).input := by
  unfold navigate
  split
  · rename_i hfocus
    exact .cycles direction hopen hfocus
  · rename_i hfocus
    exact .walks direction hopen (eq_false_of_ne_true hfocus)

theorem input_submit (h : Host β σ) (c : Console β σ) :
    Step c.names c.input (c.submit h).2.input := by
  unfold submit
  dsimp only
  split
  · exact .stays
  · split
    · exact .types _
    · exact .enters _

theorem input_setOpen (isOpen : Bool) (c : Console β σ) :
    Step c.names c.input (c.setOpen isOpen).input := by
  unfold setOpen
  split
  · exact .stays
  · rename_i hother
    cases isOpen with
    | true => exact .opens (eq_false_of_ne_true hother)
    | false => exact .closes (eq_true_of_ne_false hother)

/-- A closed console stays as it is. -/
theorem input_if_open {c c' : Console β σ}
    (hstep : c.isOpen = true → Step c.names c.input c'.input) :
    Step c.names c.input (if !c.isOpen then (false, c) else (true, c')).2.input := by
  cases hopen : c.isOpen with
  | false => exact .stays
  | true => exact hstep hopen

theorem input_handle (h : Host β σ) (action : Action) (c : Console β σ) :
    Step c.names c.input (c.handle h action).2.input := by
  cases action with
  | toggle => exact input_setOpen _ c
  | toggleSuggestions => exact input_if_open fun hopen => .focuses hopen
  | up => exact input_if_open (input_navigate .up)
  | down => exact input_if_open (input_navigate .down)
  | submit => exact input_if_open fun _ => input_submit h c

/-! ## What leaves the input as it is -/

theorem input_reported {α : Type} (result : Except ConsoleError α) (c : Console β σ) :
    (c.reported result).2.input = c.input := by
  cases result <;> rfl

theorem input_register (command : Command β) (c : Console β σ) :
    (c.register command).2.input = c.input := by
  unfold register
  split <;> exact input_reported _ _

theorem input_registerSingleton (i : Instance) (c : Console β σ) :
    (c.registerSingleton i).2.input = c.input := by
  unfold registerSingleton
  dsimp only
  split <;> rfl

theorem input_appendHostLines (lines : List Line) (c : Console β σ) :
    (lines.foldl (fun c line => c.appendHostLine line) c).input = c.input := by
  induction lines generalizing c with
  | nil => rfl
  | cons line lines ih => exact ih (c.appendHostLine line)

end Console

/-- Each operation changes the input in one of the ways. -/
theorem Operation.input_step (h : Host β σ) (op : Operation β σ) (c : Console β σ) :
    Step c.names c.input (op.apply h c).input := by
  have hstays : ∀ {c' : Console β σ}, c'.input = c.input → Step c.names c.input c'.input :=
    fun hsame => hsame ▸ .stays
  cases op with
  | setText text => exact .types text
  | submit => exact c.input_submit h
  | handle action => exact c.input_handle h action
  | setOpen isOpen => exact c.input_setOpen isOpen
  | register command => exact hstays (c.input_register command)
  | registerBound => exact hstays (Console.input_reported _ _)
  | registerSingleton i => exact hstays (c.input_registerSingleton i)
  | forwardLog => exact hstays (Console.input_appendHostLines _ _)
  | _ => exact .stays

/-- What holds of the input of a new console and is kept by each change holds of the input of every
console that can be reached. -/
theorem Reachable.input_induct {h : Host β σ} {P : Input → Prop}
    (hnew : ∀ (options : Options) (log : HostLog) (host : σ),
      P (Console.new options log host : Console β σ).input)
    (hstep : ∀ {names : List Text} {i i' : Input}, Step names i i' → P i → P i')
    {c : Console β σ} (hc : Reachable h c) : P c.input := by
  induction hc with
  | new options log host => exact hnew options log host
  | step op _ _ ih => exact hstep (op.input_step h _) ih

end CommandConsole

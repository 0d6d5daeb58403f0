import CommandConsole.Proofs.Evaluation.Run
import CommandConsole.Proofs.Session.Frame

set_option autoImplicit false

/-!
# A session over a closed console

Keys and submitted lines have no effect on a closed console, until the toggle key opens it.  A text
that is typed does have one: it becomes the input at once, together with the suggestions for it, and
is there when the console opens.  Nothing else changes, neither by one line nor by a whole session,
and no command runs (`whileClosed`).
-/

namespace CommandConsole

namespace Session

variable {β σ : Type}

/-! ## The inputs of a script -/

/-- The text that an input types. -/
def Input.typed? : Input → Option Text
  | .type text => some text
  | _ => none

/-- The inputs of a script, up to the one that ends the session. -/
def inputs : List (Option Text) → List Input
  | [] => []
  | none :: _ => []
  | some line :: rest =>
    if Input.parse line = .quit then [] else Input.parse line :: inputs rest

/-- The console after texts have been typed. -/
def typing (texts : List Text) (c : Console β σ) : Console β σ :=
  texts.foldl (fun c text => c.setText text) c

/-- Typing changes the input text, the draft and the suggestions, and nothing else. -/
theorem exists_typing (texts : List Text) (c : Console β σ) : ∃ text draft suggestions,
    typing texts c = { c with text, draft, suggestions } := by
  induction texts generalizing c with
  | nil => exact ⟨c.text, c.draft, c.suggestions, rfl⟩
  | cons text rest ih =>
      obtain ⟨text', draft, suggestions, heq⟩ := ih (c.setText text)
      exact ⟨text', draft, suggestions, heq⟩

theorem console_frame_typing (texts : List Text) (c : Console β σ) :
    (frame (typing texts c)).console = typing texts (frame c).console := by
  induction texts generalizing c with
  | nil => rfl
  | cons text rest ih =>
      have hrest := ih (c.setText text)
      rw [console_frame_setText] at hrest
      exact hrest

/-! ## One line -/

section

variable {h : Host β σ} {c : Console β σ}

theorem handle_of_closed (hclosed : c.isOpen = false) {action : Action}
    (haction : action ≠ .toggle) : c.handle h action = (false, c) := by
  cases action with
  | toggle => exact absurd rfl haction
  | toggleSuggestions | up | down | submit =>
      unfold Console.handle
      rw [hclosed]
      rfl

/-- What a line does to a closed console is to type its text, if it has one to type. -/
theorem apply_of_closed (hclosed : c.isOpen = false) {input : Input} (hquit : input ≠ .quit)
    (htoggle : input ≠ .key .toggle) :
    ∃ output, apply h input c = some ⟨output, typing input.typed?.toList c⟩ := by
  have hsubmit : submit h c = ⟨[closedNotice], c⟩ := by
    rw [submit, hclosed]
    rfl
  cases input with
  | quit => exact absurd rfl hquit
  | type text => exact ⟨[], rfl⟩
  | unknownKey name => exact ⟨_, rfl⟩
  | submit text =>
      refine ⟨[closedNotice], ?_⟩
      rw [apply, hclosed]
      rfl
  | key action =>
      have haction : action ≠ .toggle := fun heq => htoggle (congrArg Input.key heq)
      refine ⟨[closedNotice], ?_⟩
      by_cases henter : action = .submit
      · subst henter
        exact congrArg some hsubmit
      · rw [apply_key henter, handle_of_closed hclosed haction]
        rfl

end

/-! ## Whole sessions -/

/-- Without the toggle key, lines after a frame do no more than type. -/
theorem readLines_of_closed {h : Host β σ} {c : Console β σ} (hclosed : c.isOpen = false)
    (hframed : (frame c).console = c) {lines : List (Option Text)}
    (htoggle : .key .toggle ∉ inputs lines) :
    (readLines h lines c).console = typing ((inputs lines).filterMap Input.typed?) c := by
  induction lines generalizing c with
  | nil => rfl
  | cons line? rest ih =>
      cases line? with
      | none => rfl
      | some line =>
          unfold readLines step
          by_cases hquit : Input.parse line = .quit
          · have hinputs : inputs (some line :: rest) = [] := if_pos hquit
            rw [hquit, hinputs]
            rfl
          · have hinputs : inputs (some line :: rest) = Input.parse line :: inputs rest :=
              if_neg hquit
            rw [hinputs, List.mem_cons, not_or] at htoggle
            obtain ⟨output, happly⟩ := apply_of_closed (h := h) hclosed hquit (Ne.symm htoggle.1)
            let c₁ := typing (Input.parse line).typed?.toList c
            have hframe : (frame c₁).console = c₁ := by
              rw [console_frame_typing, hframed]
            have hclosed₁ : c₁.isOpen = false := by
              obtain ⟨text, draft, suggestions, heq⟩ :=
                exists_typing (Input.parse line).typed?.toList c
              exact (congrArg Console.isOpen heq).trans hclosed
            have hrest : (readLines h rest c₁).console =
                typing ((inputs rest).filterMap Input.typed?) c₁ := ih hclosed₁ hframe htoggle.2
            have htyped : (inputs (some line :: rest)).filterMap Input.typed? =
                (Input.parse line).typed?.toList ++ (inputs rest).filterMap Input.typed? := by
              rw [hinputs, List.filterMap_cons]
              cases (Input.parse line).typed? <;> rfl
            rw [happly, htyped]
            change (readLines h rest (frame c₁).console).console = _
            rw [hframe, hrest, typing, typing, List.foldl_append]
            rfl

/-- What a session does to a closed console. -/
structure WhileClosed (h : Host β σ) (c : Console β σ) : Prop where
  /-- A line leaves it as it is, unless it is the toggle key or types a text. -/
  keeps : ∀ line shown, Input.parse line ≠ .key .toggle → (∀ text, Input.parse line ≠ .type text) →
    apply h (Input.parse line) c = some shown → shown.console = c
  /-- A typed text becomes the input, with the suggestions for it, and all else stays. -/
  types : ∀ text, apply h (.type text) c = some ⟨[],
    { c with
      text
      draft := text
      suggestions := c.suggestions.refresh text c.world.registry.names }⟩
  /-- It is the input when the console opens. -/
  opens : ∀ text, (c.setText text).toggle.isOpen = true ∧ (c.setText text).toggle.text = text
  /-- A session without the toggle key does what its first frame does, and types. -/
  session : ∀ lines, .key .toggle ∉ inputs lines →
    (run h lines c).console = typing ((inputs lines).filterMap Input.typed?) (frame c).console
  /-- So no command runs, and nothing enters the history. -/
  idle : ∀ lines, .key .toggle ∉ inputs lines →
    (run h lines c).console.world = c.world.framed ∧ (run h lines c).console.history = c.history ∧
      (run h lines c).console.isOpen = false

/-- A closed console takes over what is typed, and nothing else, until it is toggled. -/
theorem whileClosed (h : Host β σ) {c : Console β σ} (hclosed : c.isOpen = false) :
    WhileClosed h c := by
  have hclosedFrame : (frame c).console.isOpen = false := by
    rw [console_frame]
    exact hclosed
  have hsession : ∀ lines, .key .toggle ∉ inputs lines → (run h lines c).console =
      typing ((inputs lines).filterMap Input.typed?) (frame c).console := fun lines htoggle =>
    readLines_of_closed hclosedFrame (frame_frame c) htoggle
  refine ⟨fun line shown htoggle htype happly => ?_, fun text => rfl, fun text => ?_, hsession,
    fun lines htoggle => ?_⟩
  · have hquit : Input.parse line ≠ .quit := by
      intro hquit
      rw [hquit] at happly
      cases happly
    have hnone : (Input.parse line).typed? = none := by
      unfold Input.typed?
      split
      · exact absurd ‹_› (htype _)
      · rfl
    obtain ⟨output, heq⟩ := apply_of_closed (h := h) hclosed hquit htoggle
    rw [happly, hnone] at heq
    cases heq
    rfl
  · unfold Console.toggle Console.setOpen
    have hclosed' : (c.setText text).isOpen = false := hclosed
    rw [hclosed']
    exact ⟨rfl, rfl⟩
  · obtain ⟨text, draft, suggestions, heq⟩ :=
      exists_typing ((inputs lines).filterMap Input.typed?) (frame c).console
    rw [hsession lines htoggle, heq, console_frame]
    exact ⟨rfl, rfl, hclosed⟩

/-! ## A text that is typed into a closed console -/

/-- A new console, which is closed. -/
def closedConsole : Console Unit Unit := Console.new {} {} ()

theorem whileClosed_new : WhileClosed Evaluator.echo.host closedConsole ∧
    (run Evaluator.echo.host [some "help".toList, some ":Tab".toList] closedConsole).console.text =
      [] ∧
    (run Evaluator.echo.host [some ":type x".toList] closedConsole).console.text = "x".toList :=
  ⟨whileClosed Evaluator.echo.host rfl, by decide, by decide⟩

/-- So not every line leaves a closed console as it is. -/
theorem not_closed_keeps : ¬ ∀ (c : Console Unit Unit) (line : Text), c.isOpen = false →
    Input.parse line ≠ .key .toggle → ∀ shown,
    apply Evaluator.echo.host (Input.parse line) c = some shown → shown.console = c := by
  intro hkeeps
  have hsame := hkeeps closedConsole ":type x".toList rfl (by decide)
    ⟨[], closedConsole.setText "x".toList⟩ rfl
  have htext : "x".toList = closedConsole.text := congrArg Console.text hsame
  exact absurd htext (by decide)

end Session

end CommandConsole

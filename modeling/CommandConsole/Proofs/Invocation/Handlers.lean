import CommandConsole.Invocation

set_option autoImplicit false

/-!
# The handlers of a call

What a resolved command runs is settled before anything of it runs: its `handlers`, one for every
receiver of a method and one in all for any other command.  They run one after the other, whatever
their results, and the result of the call is made of theirs (`runCommand_eq`).  So the call faults
exactly if a handler does, and then with the first fault.
-/

namespace CommandConsole

/-- One body that a call runs, with all that the body gets. -/
inductive Handler (β : Type) where
  | action (body : Body β)
  | bound (body : Body β) (args : List Value)
  | method (type : TypeKey) (body : Body β) (receiver : Instance) (args : List Value)
  deriving Repr

/-- A handler that has run, and its result. -/
structure HandlerRun (β : Type) where
  handler : Handler β
  result : Except Fault Value

/-- The body that an invoker calls. -/
def Invoker.body {β : Type} : Invoker β → Body β
  | .action body | .bound body | .method _ body => body

/-- The body that a handler runs. -/
def Handler.body {β : Type} : Handler β → Body β
  | .action body | .bound body _ | .method _ body _ _ => body

namespace Host

variable {β σ : Type} (h : Host β σ)

/-- Runs a handler.  An action has no result, so only a panic makes it fault. -/
def runHandler (x : Handler β) (w : World β σ) : Except Fault Value × World β σ :=
  match x with
  | .action body =>
    match h.perform body none [] w with
    | (.panic message, w) => ((Outcome.panic message).toExcept, w)
    | (_, w) => (.ok .nil, w)
  | .bound body args =>
    let (outcome, w) := h.perform body none args w
    (outcome.toExcept, w)
  | .method type body receiver args => h.runOn type body args receiver w

/-- Runs handlers in order. -/
def runHandlers : List (Handler β) → World β σ → List (HandlerRun β) × World β σ
  | [], w => ([], w)
  | x :: rest, w =>
    let (result, w) := h.runHandler x w
    let (runs, w) := runHandlers rest w
    (⟨x, result⟩ :: runs, w)

/-- The handlers of a command. -/
def handlers (c : Command β) (args : List Value) (w : World β σ) : List (Handler β) :=
  match c.invoker with
  | .action body => [.action body]
  | .bound body => [.bound body args]
  | .method type body =>
    (h.targets type c.descriptor.targetMode w).map fun receiver =>
      .method type body receiver args

/-- All handlers of a command run its body. -/
theorem body_of_mem_handlers {c : Command β} {args : List Value} {w : World β σ} {x : Handler β}
    (hx : x ∈ h.handlers c args w) : x.body = c.invoker.body := by
  unfold handlers at hx
  cases hinvoker : c.invoker <;> rw [hinvoker] at hx
  case action body | bound body =>
    obtain rfl := List.mem_singleton.1 hx
    rfl
  case method type body =>
    obtain ⟨receiver, -, rfl⟩ := List.mem_map.1 hx
    rfl

/-- A handler changes the world by its body, if it changes it at all. -/
theorem world_runHandler (x : Handler β) (w : World β σ) :
    (h.runHandler x w).2 = w ∨
      ∃ receiver args, (h.runHandler x w).2 = (h.perform x.body receiver args w).2 := by
  cases x with
  | action body =>
      refine Or.inr ⟨none, [], ?_⟩
      rcases hrun : h.perform body none [] w with ⟨outcome, w'⟩
      cases outcome <;> simp only [runHandler, Handler.body, hrun]
  | bound body args => exact Or.inr ⟨none, args, rfl⟩
  | method type body receiver args =>
      unfold runHandler runOn
      dsimp only
      split
      · exact Or.inr ⟨some receiver, args, rfl⟩
      · exact Or.inl rfl

theorem runOnEach_eq (type : TypeKey) (body : Body β) (args : List Value)
    (receivers : List Instance) (w : World β σ) :
    h.runOnEach type body args receivers w =
      ((h.runHandlers (receivers.map fun i => .method type body i args) w).1.map
          HandlerRun.result,
        (h.runHandlers (receivers.map fun i => .method type body i args) w).2) := by
  induction receivers generalizing w with
  | nil => rfl
  | cons i rest ih => simp only [runOnEach, List.map_cons, runHandlers, runHandler, ih]

/-- A command runs its handlers, and combines their results. -/
theorem runCommand_eq (c : Command β) (args : List Value) (w : World β σ) :
    h.runCommand c args w =
      (combine ((h.runHandlers (h.handlers c args w) w).1.map HandlerRun.result),
        (h.runHandlers (h.handlers c args w) w).2) := by
  unfold runCommand handlers
  cases c.invoker with
  | action body =>
      rcases hrun : h.perform body none [] w with ⟨outcome, w'⟩
      cases outcome <;>
        simp only [runHandlers, runHandler, hrun, List.map_cons, List.map_nil, combine]
  | bound body => rfl
  | method type body => simp only [runOnEach_eq]

/-- A call of a name that no command has runs nothing. -/
theorem invoke_of_notFound {name : Text} {args : List Value} {w : World β σ}
    (hresolve : w.registry.resolve name args.length = .notFound) :
    h.invoke name args w = (.error (.notFound name), w) := by
  rw [invoke, hresolve]

/-- The world changes by the handlers of the command that is found, if one is. -/
theorem world_invoke (name : Text) (args : List Value) (w : World β σ) :
    (h.invoke name args w).2 =
      match w.registry.resolve name args.length with
      | .found c => (h.runHandlers (h.handlers c args w) w).2
      | _ => w := by
  unfold invoke
  cases w.registry.resolve name args.length with
  | notFound | arityMismatch candidates => rfl
  | found c =>
      dsimp only
      rw [runCommand_eq]
      cases combine ((h.runHandlers (h.handlers c args w) w).1.map HandlerRun.result) <;> rfl

/-- Every handler runs, in order. -/
theorem map_handler_runHandlers (xs : List (Handler β)) (w : World β σ) :
    (h.runHandlers xs w).1.map HandlerRun.handler = xs := by
  induction xs generalizing w with
  | nil => rfl
  | cons x rest ih => simp only [runHandlers, List.map_cons, ih]

/-! ## Faults -/

/-- A combined result is the first fault, if there is one. -/
theorem combine_of_fault {results : List (Except Fault Value)} {f : Fault}
    (hf : firstFault? results = some f) : combine results = .error f := by
  unfold combine
  split
  · rename_i result
    cases result with
    | ok v => simp [firstFault?] at hf
    | error g =>
        cases hf
        rfl
  · rw [hf]

/-- Without a fault, the combined result is a value. -/
theorem combine_of_no_fault {results : List (Except Fault Value)}
    (hf : firstFault? results = none) : ∃ v, combine results = .ok v := by
  unfold combine
  split
  · rename_i result
    cases result with
    | ok v => exact ⟨v, rfl⟩
    | error g => cases hf
  · rw [hf]
    exact ⟨.nil, rfl⟩

/-- There is a first fault exactly if there is a fault. -/
theorem firstFault?_eq_none_iff {results : List (Except Fault Value)} :
    firstFault? results = none ↔ ∀ f, .error f ∉ results := by
  induction results with
  | nil => simp [firstFault?]
  | cons result rest ih =>
      cases result with
      | ok v => simp [firstFault?, ih]
      | error f =>
          constructor
          · intro hnone
            cases hnone
          · intro hall
            exact absurd List.mem_cons_self (hall f)

end Host

end CommandConsole

import CommandConsole.Builtin

set_option autoImplicit false

/-!
# Invocation

One call of a command.  The name and the number of arguments resolve to an overload; its invoker
says how the body runs.  A method runs on every receiver that its target mode yields, in order and
whatever happens on the way: with one receiver its result is the result of the call, with several
the call has no value and faults if any of them does, with none nothing runs.
-/

namespace CommandConsole

namespace Host

variable {β σ : Type}

/-- The receivers of a call on a type, under a target mode. -/
def targets (h : Host β σ) (type : TypeKey) (mode : TargetMode) (w : World β σ) :
    List Instance :=
  match mode with
  | .direct => []
  | .single => (h.lookup.single type w.host).toList
  | .all => h.lookup.all type w.host
  | .registry => (w.registry.singleton? type).toList

/-- Runs a method on one receiver, which must be of its type. -/
def runOn (h : Host β σ) (type : TypeKey) (body : Body β) (args : List Value)
    (receiver : Instance) (w : World β σ) : Except Fault Value × World β σ :=
  if receiver.type = type then
    let (outcome, w) := h.perform body (some receiver) args w
    (outcome.toExcept, w)
  else (.error ⟨"receiver is not a ".toList ++ type.name⟩, w)

/-- Runs a method on each receiver in order, and collects the results. -/
def runOnEach (h : Host β σ) (type : TypeKey) (body : Body β) (args : List Value) :
    List Instance → World β σ → List (Except Fault Value) × World β σ
  | [], w => ([], w)
  | receiver :: rest, w =>
    let (result, w) := h.runOn type body args receiver w
    let (results, w) := runOnEach h type body args rest w
    (result :: results, w)

/-- The fault in a list of results that comes first. -/
def firstFault? : List (Except Fault Value) → Option Fault
  | [] => none
  | .error f :: _ => some f
  | .ok _ :: rest => firstFault? rest

/-- The result of a call from those of its receivers. -/
def combine : List (Except Fault Value) → Except Fault Value
  | [result] => result
  | results =>
    match firstFault? results with
    | some f => .error f
    | none => .ok .nil

/-- Runs a resolved command. -/
def runCommand (h : Host β σ) (c : Command β) (args : List Value) (w : World β σ) :
    Except Fault Value × World β σ :=
  match c.invoker with
  | .action body =>
    match h.perform body none [] w with
    | (.panic message, w) => ((Outcome.panic message).toExcept, w)
    | (_, w) => (.ok .nil, w)
  | .bound body =>
    let (outcome, w) := h.perform body none args w
    (outcome.toExcept, w)
  | .method type body =>
    let (results, w) :=
      h.runOnEach type body args (h.targets type c.descriptor.targetMode w) w
    (combine results, w)

/-- Calls the command of a name with arguments. -/
def invoke (h : Host β σ) (name : Text) (args : List Value) (w : World β σ) :
    Except ConsoleError Value × World β σ :=
  match w.registry.resolve name args.length with
  | .notFound => (.error (.notFound name), w)
  | .arityMismatch candidates =>
    (.error (.arityMismatch name (candidates.map Descriptor.signature)
      (args.map Value.kindName)), w)
  | .found c =>
    match h.runCommand c args w with
    | (.ok v, w) => (.ok v, w)
    | (.error f, w) => (.error (.invocationFault name f), w)

end Host

end CommandConsole

import CommandConsole.Command.Descriptor
import CommandConsole.Error
import CommandConsole.Instance
import CommandConsole.Text.Word

set_option autoImplicit false

/-!
# The registry

The commands in the order of their registration, and the singleton of each type.  Commands of one
name are overloads: a call takes the first of them with as many parameters as it has arguments.
Nothing is registered that fails validation.

The body of a command is one of the console's own or one of the host's.  The registry keeps a
body as a name for it, of type `β` for the host's: what a body does is for the host to say.
-/

namespace CommandConsole

/-- The bodies of the console's own commands. -/
inductive Builtin where
  /-- Lists the registered commands. -/
  | help
  /-- Drops every line of the transcript. -/
  | clear
  /-- Writes a text a number of times. -/
  | print
  deriving DecidableEq, Repr, Inhabited

/-- The body of a command. -/
inductive Body (β : Type) where
  | builtin (body : Builtin)
  | custom (body : β)
  deriving DecidableEq, Repr, Inhabited

/-- How a body is called. -/
inductive Invoker (β : Type) where
  /-- Without arguments, for its effect only. -/
  | action (body : Body β)
  /-- With the arguments; the body knows its receiver, if it has one. -/
  | bound (body : Body β)
  /-- With the arguments, on each receiver of a type that the call is directed at. -/
  | method (type : TypeKey) (body : Body β)
  deriving DecidableEq, Repr, Inhabited

/-- One overload of a command. -/
structure Command (β : Type) where
  descriptor : Descriptor
  invoker : Invoker β
  deriving DecidableEq, Repr, Inhabited

namespace Command

variable {β : Type}

/-- A direct command without parameters or result. -/
def action (name : Text) (body : Body β) : Command β :=
  ⟨{ name, params := [] }, .action body⟩

/-- A direct command. -/
def bound (name : Text) (params : List ParamKind) (body : Body β) : Command β :=
  ⟨{ name, params }, .bound body⟩

/-- A command for the instances of a type. -/
def method (type : TypeKey) (name : Text) (params : List ParamKind) (mode : TargetMode)
    (body : Body β) : Command β :=
  ⟨{ name, params, targetMode := mode, declaringType := some type.name }, .method type body⟩

/-- The command with a description. -/
def describe (description : Text) (c : Command β) : Command β :=
  { c with descriptor := { c.descriptor with description := some description } }

/-- The command under a heading of the help listing, or under none. -/
def categorize (category : Option Text) (c : Command β) : Command β :=
  { c with descriptor := { c.descriptor with category } }

/-- The command's name. -/
def name (c : Command β) : Text := c.descriptor.name

/-- Number of parameters. -/
def arity (c : Command β) : Nat := c.descriptor.arity

/-- Why the registry refuses a command: its name is no word, its target mode does not fit its
invoker, or it is an action with parameters. -/
def refusal? (c : Command β) : Option Text :=
  if !Text.isWord c.name then some "names must be non-empty word characters".toList
  else
    match c.invoker, c.descriptor.targetMode with
    | .method .., .direct => some "direct commands need a bound callable".toList
    | .method .., _ => none
    | .action _, .direct =>
      if c.descriptor.params.isEmpty then none else some "actions take no parameters".toList
    | .bound _, .direct => none
    | _, _ => some "targeted commands need a declaring type".toList

end Command

/-- One overload in the table of a type's methods. -/
structure Method (β : Type) where
  name : Text
  params : List ParamKind
  body : β
  deriving DecidableEq, Repr, Inhabited

/-- The command that runs the method on the instances of a type. -/
def Method.toCommand {β : Type} (type : TypeKey) (name : Text) (mode : TargetMode)
    (m : Method β) : Command β :=
  .method type name m.params mode (.custom m.body)

/-- The overloads of a method in a table. -/
def Method.overloads {β : Type} (name : Text) (table : List (Method β)) : List (Method β) :=
  table.filter fun m => m.name = name

/-- What a name and a number of arguments resolve to. -/
inductive Resolution (β : Type) where
  | found (command : Command β)
  | notFound
  /-- Commands have the name, but none takes that many arguments. -/
  | arityMismatch (candidates : List Descriptor)
  deriving DecidableEq, Repr, Inhabited

/-- The registered commands and the singletons. -/
structure Registry (β : Type) where
  /-- In the order of registration. -/
  commands : List (Command β) := []
  singletons : List (TypeKey × Instance) := []
  deriving DecidableEq, Repr, Inhabited

namespace Registry

variable {β : Type}

/-! ## Registration -/

/-- Adds a command at the end, or says why not. -/
def register (c : Command β) (r : Registry β) : Except ConsoleError (Registry β) :=
  match c.refusal? with
  | some reason => .error (.invalidRegistration c.name reason)
  | none => .ok { r with commands := r.commands ++ [c] }

/-- Adds a command that a discovery pass has built, like any other. -/
def registerDiscovered (c : Command β) (r : Registry β) : Except ConsoleError (Registry β) :=
  r.register c

/-- Adds commands in order up to the first that is refused. -/
def registerAll : List (Command β) → Registry β → Except ConsoleError Unit × Registry β
  | [], r => (.ok (), r)
  | c :: rest, r =>
    match r.register c with
    | .error e => (.error e, r)
    | .ok r => registerAll rest r

/-- Adds a direct command for every overload of a method, and answers how many there are.  The
bodies in the table are those of one receiver. -/
def registerBound (name : Text) (description category : Option Text) (type : TypeKey)
    (table : List (Method β)) (method : Text) (r : Registry β) :
    Except ConsoleError Nat × Registry β :=
  match Method.overloads method table with
  | [] =>
    (.error (.invalidRegistration name
      ("could not find method \"".toList ++ method ++ "\" on ".toList ++ type.name)), r)
  | found =>
    let commands := found.map fun m =>
      let c := (Command.bound name m.params (.custom m.body)).categorize category
      match description with
      | some d => c.describe d
      | none => c
    match registerAll commands r with
    | (.error e, r) => (.error e, r)
    | (.ok (), r) => (.ok found.length, r)

/-! ## Look-up -/

/-- The commands of a name, in registration order. -/
def named (name : Text) (r : Registry β) : List (Command β) :=
  r.commands.filter fun c => c.name = name

/-- The descriptors of a name, in registration order. -/
def lookup (name : Text) (r : Registry β) : List Descriptor :=
  (r.named name).map Command.descriptor

/-- The first command of the name with as many parameters as there are arguments. -/
def resolve (name : Text) (argCount : Nat) (r : Registry β) : Resolution β :=
  match r.named name with
  | [] => .notFound
  | candidates =>
    match candidates.find? fun c => c.arity = argCount with
    | some c => .found c
    | none => .arityMismatch (candidates.map Command.descriptor)

/-- All descriptors, in registration order. -/
def descriptors (r : Registry β) : List Descriptor := r.commands.map Command.descriptor

/-- The distinct elements of a list, each where it stands first. -/
def distinct : List Text → List Text
  | [] => []
  | t :: rest => t :: (distinct rest).filter fun u => u ≠ t

/-- The distinct names, in the order of their first registration. -/
def names (r : Registry β) : List Text := distinct (r.commands.map Command.name)

/-- Number of registered overloads. -/
def size (r : Registry β) : Nat := r.commands.length

/-! ## Singletons -/

/-- The singleton of a type. -/
def singleton? (type : TypeKey) (r : Registry β) : Option Instance := r.singletons.lookup type

/-- Forgets the singleton of a type and answers it. -/
def unregisterSingleton (type : TypeKey) (r : Registry β) : Option Instance × Registry β :=
  (r.singleton? type, { r with singletons := r.singletons.filter fun e => e.1 ≠ type })

/-- Makes an instance the singleton of its type and answers the one it replaces. -/
def registerSingleton (i : Instance) (r : Registry β) : Option Instance × Registry β :=
  let (previous, r) := r.unregisterSingleton i.type
  (previous, { r with singletons := (i.type, i) :: r.singletons })

end Registry

end CommandConsole

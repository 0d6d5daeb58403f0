import CommandConsole.Command.Fault

set_option autoImplicit false

/-!
# Arguments

Typed access to the arguments of a call.  Each accessor answers the argument at an index or the
fault of a body that needed it: a missing argument comes before one of the wrong kind.
-/

namespace CommandConsole

/-- The arguments of a call. -/
abbrev Args := List Value

namespace Args

/-- The argument at the index, of any kind. -/
def value (args : Args) (index : Nat) : Except Fault Value :=
  match args[index]? with
  | some v => .ok v
  | none => .error (.missingArgument index)

/-- The argument at the index read by `view`, which knows the kind it accepts. -/
def read {α : Type} (args : Args) (index : Nat) (kind : ParamKind) (view : Value → Option α) :
    Except Fault α :=
  match args.value index with
  | .error fault => .error fault
  | .ok v =>
    match view v with
    | some a => .ok a
    | none => .error (.kindMismatch index kind v)

/-- The integer at the index. -/
def int (args : Args) (index : Nat) : Except Fault Int64 :=
  args.read index .int fun
    | .int n => some n
    | _ => none

/-- The float at the index; an integer is widened. -/
def float (args : Args) (index : Nat) : Except Fault Float :=
  args.read index .float Value.asFloat?

/-- The vector of two components at the index. -/
def vector2 (args : Args) (index : Nat) : Except Fault (Float × Float) :=
  args.read index .vector2 fun
    | .vector2 x y => some (x, y)
    | _ => none

/-- The vector of three components at the index. -/
def vector3 (args : Args) (index : Nat) : Except Fault (Float × Float × Float) :=
  args.read index .vector3 fun
    | .vector3 x y z => some (x, y, z)
    | _ => none

/-- The vector of four components at the index. -/
def vector4 (args : Args) (index : Nat) : Except Fault (Float × Float × Float × Float) :=
  args.read index .vector4 fun
    | .vector4 x y z w => some (x, y, z, w)
    | _ => none

/-- The text at the index. -/
def text (args : Args) (index : Nat) : Except Fault Text :=
  args.read index .text fun
    | .text t => some t
    | _ => none

/-- The argument at the index as a parameter of the given kind takes it. -/
def accept (args : Args) (kind : ParamKind) (index : Nat) : Except Fault Value :=
  match kind with
  | .int => .int <$> args.int index
  | .float => .float <$> args.float index
  | .vector2 => (fun (x, y) => .vector2 x y) <$> args.vector2 index
  | .vector3 => (fun (x, y, z) => .vector3 x y z) <$> args.vector3 index
  | .vector4 => (fun (x, y, z, w) => .vector4 x y z w) <$> args.vector4 index
  | .text => .text <$> args.text index
  | .any => args.value index

end Args

end CommandConsole

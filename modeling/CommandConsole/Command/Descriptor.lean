import CommandConsole.Value

set_option autoImplicit false

/-!
# Descriptors

What the registry records about one overload of a command apart from its body.
-/

namespace CommandConsole

/-- Which receivers a command runs against. -/
inductive TargetMode where
  /-- None: the command brings all it needs. -/
  | direct
  /-- The one live instance that the host selects. -/
  | single
  /-- Every live instance of the declaring type. -/
  | all
  /-- The singleton registered for the declaring type. -/
  | registry
  deriving DecidableEq, Repr, Inhabited

/-- The description of one overload. -/
structure Descriptor where
  /-- The command's name; overloads share it. -/
  name : Text
  /-- One line for the help listing. -/
  description : Option Text := none
  /-- The heading of the help listing under which the command stands. -/
  category : Option Text := none
  params : List ParamKind
  targetMode : TargetMode := .direct
  /-- The name of the type whose instances receive the call. -/
  declaringType : Option Text := none
  deriving DecidableEq, Repr, Inhabited

namespace Descriptor

/-- Number of parameters. -/
def arity (d : Descriptor) : Nat := d.params.length

/-- The names of the parameters' kinds. -/
def parametersText (d : Descriptor) : Text := Text.commaSeparated (d.params.map ParamKind.name)

/-- The name followed by the parameters in parentheses. -/
def signature (d : Descriptor) : Text := d.name ++ '(' :: (d.parametersText ++ [')'])

end Descriptor

end CommandConsole

import CommandConsole.Value

set_option autoImplicit false

/-!
# Faults

A command body that fails says why in one message.
-/

namespace CommandConsole

/-- Why a command body failed. -/
structure Fault where
  message : Text
  deriving DecidableEq, Repr, Inhabited

/-- An argument of another kind than the parameter. -/
def Fault.kindMismatch (index : Nat) (expected : ParamKind) (got : Value) : Fault :=
  ⟨"argument ".toList ++ Number.decimal index ++ " expected ".toList ++ expected.name ++
    ", got ".toList ++ got.kindName⟩

/-- An argument that the call does not have. -/
def Fault.missingArgument (index : Nat) : Fault :=
  ⟨"missing argument ".toList ++ Number.decimal index⟩

end CommandConsole

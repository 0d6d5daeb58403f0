import CommandConsole.Text.Basic

set_option autoImplicit false

/-!
# Instances

The receivers of commands.  An instance has a type and an identity; two types may share a name.  A
pool keeps a table of live instances for each type, in the order in which they were spawned, and
gives each one a serial number that no earlier instance had.  A look-up is how a host enumerates its
live instances.
-/

namespace CommandConsole

/-- A type of receivers.  The tag tells types of one name apart. -/
structure TypeKey where
  tag : Nat
  name : Text
  deriving DecidableEq, Repr, Inhabited

/-- A receiver: its type and its identity among the instances of that type. -/
structure Instance where
  type : TypeKey
  serial : Nat
  deriving DecidableEq, Repr, Inhabited

/-- The live instances of each type, in spawn order, and the serial number of the next one. -/
structure InstancePool where
  tables : List (TypeKey × List Instance) := []
  next : Nat := 0
  deriving DecidableEq, Repr, Inhabited

namespace InstancePool

/-- The live instances of a type, in spawn order. -/
def findAll (type : TypeKey) (p : InstancePool) : List Instance :=
  (p.tables.lookup type).getD []

/-- Number of live instances of a type. -/
def count (type : TypeKey) (p : InstancePool) : Nat := (p.findAll type).length

/-- Replaces the table of a type. -/
def setTable (type : TypeKey) (instances : List Instance) (p : InstancePool) : InstancePool :=
  { p with tables := (type, instances) :: p.tables.filter fun e => e.1 ≠ type }

/-- Adds a new instance of a type and answers it. -/
def spawn (type : TypeKey) (p : InstancePool) : Instance × InstancePool :=
  let i := ⟨type, p.next⟩
  (i, { p.setTable type (p.findAll type ++ [i]) with next := p.next + 1 })

/-- Removes an instance and answers whether it was live, which is whether its table has become
shorter. -/
def despawn (i : Instance) (p : InstancePool) : Bool × InstancePool :=
  match p.tables.lookup i.type with
  | none => (false, p)
  | some instances =>
    let rest := instances.filter fun j => j ≠ i
    (instances.length != rest.length, p.setTable i.type rest)

end InstancePool

/-- How a host with state `σ` enumerates its live instances. -/
structure Lookup (σ : Type) where
  /-- Every live instance of a type, in the host's order. -/
  all : TypeKey → σ → List Instance
  /-- The one instance that the host selects for a type. -/
  single : TypeKey → σ → Option Instance

namespace Lookup

variable {σ : Type}

/-- The look-up that selects the first instance of each type. -/
def ofAll (all : TypeKey → σ → List Instance) : Lookup σ where
  all := all
  single := fun type s => (all type s).head?

/-- The look-up of a host without instances. -/
def none : Lookup σ := ofAll fun _ _ => []

/-- The look-up in a pool that the host's state holds. -/
def ofPool (pool : σ → InstancePool) : Lookup σ := ofAll fun type s => (pool s).findAll type

end Lookup

end CommandConsole

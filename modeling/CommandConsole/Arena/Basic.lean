import CommandConsole.Command.Args
import CommandConsole.Instance
import CommandConsole.Registry

set_option autoImplicit false

/-!
# The arena

A small world to try the console on: a player with a position and health, and any number of
enemies with a name and health.  Players are reached as the singleton of their type, enemies
through the pool of live instances.
-/

namespace CommandConsole

namespace Arena

/-- A position. -/
structure Position where
  x : Float := 0
  y : Float := 0
  z : Float := 0
  deriving Repr, Inhabited

/-- A player. -/
structure Player where
  position : Position := {}
  health : Int64
  deriving Repr, Inhabited

/-- An enemy. -/
structure Enemy where
  name : Text
  health : Int64
  deriving DecidableEq, Repr, Inhabited

/-- The methods of players and enemies. -/
inductive Method where
  /-- Moves a player to a vector. -/
  | teleport
  /-- Moves a player to three coordinates. -/
  | teleportTo
  | heal
  | position
  | damage
  | inspect
  deriving DecidableEq, Repr, Inhabited

/-- The bodies of the arena's commands. -/
inductive Body where
  | add
  | echo
  | spawnEnemy
  | countEnemies
  | alarm
  /-- A method on the receiver of the call. -/
  | method (m : Method)
  /-- A method on a receiver of its own. -/
  | bound (m : Method) (receiver : Instance)
  deriving DecidableEq, Repr, Inhabited

/-- The type of players. -/
def playerType : TypeKey := ⟨0, "Player".toList⟩

/-- The type of enemies. -/
def enemyType : TypeKey := ⟨1, "Enemy".toList⟩

/-- The methods of a player. -/
def playerMethods : List (CommandConsole.Method Method) :=
  [ ⟨"teleport".toList, [.vector3], .teleport⟩,
    ⟨"teleport".toList, [.float, .float, .float], .teleportTo⟩,
    ⟨"heal".toList, [.int], .heal⟩,
    ⟨"position".toList, [], .position⟩ ]

/-- The methods of an enemy. -/
def enemyMethods : List (CommandConsole.Method Method) :=
  [ ⟨"damage".toList, [.int], .damage⟩,
    ⟨"inspect".toList, [], .inspect⟩ ]

/-! ## Health -/

/-- The 64-bit integer nearest to a number. -/
def clamp (n : Int) : Int64 :=
  Int64.ofInt (max (-0x8000000000000000) (min n 0x7FFFFFFFFFFFFFFF))

/-- The player after healing; health goes no higher than it can be written. -/
def Player.heal (amount : Int64) (p : Player) : Except Fault Player :=
  if amount < 0 then .error ⟨"heal amount must not be negative".toList⟩
  else .ok { p with health := clamp (p.health.toInt + amount.toInt) }

/-- The enemy after damage; health goes no lower than zero. -/
def Enemy.damage (amount : Int64) (e : Enemy) : Enemy :=
  { e with health := max 0 (clamp (e.health.toInt - amount.toInt)) }

/-- The enemy's name and health. -/
def Enemy.summary (e : Enemy) : Text :=
  e.name ++ " (".toList ++ Number.int64Text e.health ++ " hp)".toList

end Arena

/-- The state of the arena. -/
structure Arena where
  /-- The players, each at the place that is its serial number. -/
  players : List Arena.Player := []
  /-- The live instances of all types. -/
  pool : InstancePool := {}
  /-- The enemies among them. -/
  enemies : List (Instance × Arena.Enemy) := []
  deriving Repr, Inhabited

namespace Arena

/-- Number of live enemies. -/
def enemyCount (a : Arena) : Int64 := Int64.ofNat (a.pool.count enemyType)

/-- Adds an enemy. -/
def spawnEnemy (e : Enemy) (a : Arena) : Arena :=
  let (i, pool) := a.pool.spawn enemyType
  { a with pool, enemies := a.enemies ++ [(i, e)] }

/-- Adds a player and answers its instance. -/
def addPlayer (p : Player) (a : Arena) : Instance × Arena :=
  (⟨playerType, a.players.length⟩, { a with players := a.players ++ [p] })

/-- The enemy of an instance. -/
def enemy? (i : Instance) (a : Arena) : Option Enemy := a.enemies.lookup i

/-- Replaces the enemy of an instance. -/
def setEnemy (i : Instance) (e : Enemy) (a : Arena) : Arena :=
  { a with enemies := a.enemies.map fun entry => if entry.1 = i then (i, e) else entry }

/-- Replaces the player with a serial number. -/
def setPlayer (serial : Nat) (p : Player) (a : Arena) : Arena :=
  { a with players := a.players.set serial p }

/-! ## Methods -/

/-- Runs a player's method. -/
def Player.call (m : Method) (args : Args) (p : Player) : Except Fault (Value × Player) := do
  match m with
  | .teleport =>
    let (x, y, z) ← args.vector3 0
    return (.nil, { p with position := ⟨x, y, z⟩ })
  | .teleportTo =>
    let x ← args.float 0
    let y ← args.float 1
    let z ← args.float 2
    return (.nil, { p with position := ⟨x, y, z⟩ })
  | .heal =>
    let p ← p.heal (← args.int 0)
    return (.int p.health, p)
  | .position => return (.vector3 p.position.x p.position.y p.position.z, p)
  | _ => throw ⟨"not a method of Player".toList⟩

/-- Runs an enemy's method. -/
def Enemy.call (m : Method) (args : Args) (e : Enemy) : Except Fault (Value × Enemy) := do
  match m with
  | .damage =>
    let e := e.damage (← args.int 0)
    return (.int e.health, e)
  | .inspect => return (.text e.summary, e)
  | _ => throw ⟨"not a method of Enemy".toList⟩

/-- Runs a method on an instance.  A fault changes nothing. -/
def callMethod (m : Method) (receiver : Instance) (args : Args) (a : Arena) :
    Except Fault Value × Arena :=
  if receiver.type = playerType then
    match a.players[receiver.serial]? with
    | some p =>
      match p.call m args with
      | .ok (v, p) => (.ok v, a.setPlayer receiver.serial p)
      | .error f => (.error f, a)
    | none => (.error ⟨"no such player".toList⟩, a)
  else
    match a.enemy? receiver with
    | some e =>
      match e.call m args with
      | .ok (v, e) => (.ok v, a.setEnemy receiver e)
      | .error f => (.error f, a)
    | none => (.error ⟨"no such enemy".toList⟩, a)

/-! ## Addition -/

/-- The sum of integers on top of `total`, checked after every step. -/
def sumIntegers : List Int64 → Int64 → Except Fault Int64
  | [], total => .ok total
  | n :: rest, total =>
    let sum := total.toInt + n.toInt
    if Number.fitsInt64 sum then sumIntegers rest (Int64.ofInt sum)
    else .error ⟨"integer overflow".toList⟩

/-- The sum of the arguments from `index` on, as floats, on top of `total`. -/
def sumFloats (args : Args) : List Nat → Float → Except Fault Float
  | [], total => .ok total
  | index :: rest, total =>
    match args.float index with
    | .ok x => sumFloats args rest (total + x)
    | .error f => .error f

/-- The integers of a list that holds nothing else. -/
def integers? : List Value → Option (List Int64)
  | [] => some []
  | .int n :: rest => (integers? rest).map (n :: ·)
  | _ :: _ => none

/-- Adds numbers; integers alone have an integer sum. -/
def add (args : Args) : Except Fault Value :=
  match integers? args with
  | some ns => Value.int <$> sumIntegers ns 0
  | none => Value.float <$> sumFloats args (List.range args.length) 0

end Arena

end CommandConsole

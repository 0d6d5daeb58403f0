import CommandConsole.Arena.Basic
import CommandConsole.Console

set_option autoImplicit false

/-!
# The commands of the arena

What the bodies of the arena's commands do, and how a console gets to know them.  The arena may be
part of a larger host: `Slot` says where its state and its bodies are there.
-/

namespace CommandConsole

namespace Arena

/-- Where the arena's state stands in that of a host, and its bodies among the host's. -/
structure Slot (β σ : Type) where
  get : σ → Arena
  set : Arena → σ → σ
  body : Body → β

namespace Slot

variable {β σ : Type}

/-- The arena as a host of its own. -/
def whole : Slot Body Arena := ⟨id, fun a _ => a, id⟩

/-- The world with another arena. -/
def put (slot : Slot β σ) (a : Arena) (w : World β σ) : World β σ :=
  { w with host := slot.set a w.host }

/-- Runs a method on a receiver. -/
def runMethod (slot : Slot β σ) (m : Method) (receiver : Instance) (args : Args)
    (w : World β σ) : Outcome × World β σ :=
  let (result, a) := (slot.get w.host).callMethod m receiver args
  (.ofExcept result, slot.put a w)

/-- Adds an enemy and answers how many there are. -/
def runSpawn (slot : Slot β σ) (args : Args) (w : World β σ) : Outcome × World β σ :=
  match args.text 0, args.int 1 with
  | .error f, _ => (.fault f, w)
  | .ok _, .error f => (.fault f, w)
  | .ok name, .ok health =>
    let a := (slot.get w.host).spawnEnemy ⟨name, health⟩
    (.value (.int a.enemyCount), slot.put a w)

/-- Runs a body of the arena. -/
def run (slot : Slot β σ) (b : Body) (receiver : Option Instance) (args : Args)
    (w : World β σ) : Outcome × World β σ :=
  match b with
  | .add => (.ofExcept (add args), w)
  | .echo =>
    match args.value 0 with
    | .ok v => (.value v, w.info v.display)
    | .error f => (.fault f, w)
  | .spawnEnemy => slot.runSpawn args w
  | .countEnemies => (.value (.int (slot.get w.host).enemyCount), w)
  | .alarm =>
    match args.text 0 with
    | .ok t => (.value .nil, { w with log := w.log.emit ⟨"game".toList, .warn, some t⟩ })
    | .error f => (.fault f, w)
  | .bound m i => slot.runMethod m i args w
  | .method m =>
    match receiver with
    | some i => slot.runMethod m i args w
    | none => (.fault ⟨"no receiver".toList⟩, w)

/-! ## Registration -/

/-- A direct command of the arena. -/
def direct (slot : Slot β σ) (name description : Text) (category : Option Text)
    (params : List ParamKind) (b : Body) : Command β :=
  (Command.bound name params (.custom (slot.body b))).describe description
    |>.categorize category

/-- The commands that need no receiver. -/
def directCommands (slot : Slot β σ) : List (Command β) :=
  let sum := "Add numbers; integers stay integers.".toList
  let math := some "Math".toList
  let enemies := some "Enemies".toList
  [ slot.direct "add".toList sum math [.any, .any] .add,
    slot.direct "add".toList sum math [.any, .any, .any] .add,
    slot.direct "echo".toList "Print a value and return it.".toList none [.any] .echo,
    slot.direct "spawn_enemy".toList "Spawn an enemy with a name and health.".toList enemies
      [.text, .int] .spawnEnemy,
    slot.direct "enemies".toList "Count spawned enemies.".toList enemies [] .countEnemies,
    slot.direct "alarm".toList "Emit a host warning with the given text.".toList none [.text]
      .alarm ]

/-- Registers commands in order up to the first that is refused. -/
def registerEach : List (Command β) → Console β σ → Except ConsoleError Unit × Console β σ
  | [], c => (.ok (), c)
  | command :: rest, c =>
    match c.register command with
    | (.error e, c) => (.error e, c)
    | (.ok (), c) => registerEach rest c

/-- The methods of a player bound to one. -/
def boundTable (slot : Slot β σ) (receiver : Instance) : List (CommandConsole.Method β) :=
  playerMethods.map fun m => ⟨m.name, m.params, slot.body (.bound m.body receiver)⟩

/-- Adds a player, the singleton of its type, and registers the commands that need no discovery.
The answer is the player. -/
def register (slot : Slot β σ) (c : Console β σ) :
    Except ConsoleError Instance × Console β σ :=
  let (player, a) := (slot.get c.world.host).addPlayer { health := 100 }
  let c := c.mapWorld (slot.put a)
  let (_, c) := c.registerSingleton player
  match registerEach slot.directCommands c with
  | (.error e, c) => (.error e, c)
  | (.ok (), c) =>
    match c.registerBound "whereami".toList "Show the player position.".toList
      (some "Player".toList) playerType (slot.boundTable player) "position".toList with
    | (.error e, c) => (.error e, c)
    | (.ok _, c) => (.ok player, c)

/-- A command for every overload of a method of a type. -/
def declare (slot : Slot β σ) (type : TypeKey) (table : List (CommandConsole.Method Method))
    (method name : Text) (mode : TargetMode) (description category : Text) :
    List (Command β) :=
  (CommandConsole.Method.overloads method table).map fun m =>
    (Command.method type name m.params mode (.custom (slot.body (.method m.body)))).describe
      description |>.categorize (some category)

/-- The commands of players and enemies, in the order of their names. -/
def declaredCommands (slot : Slot β σ) : List (Command β) :=
  slot.declare enemyType enemyMethods "damage".toList "damage_all".toList .all
      "Damage every enemy.".toList "Enemies".toList ++
    slot.declare playerType playerMethods "heal".toList "heal".toList .registry
      "Restore player health.".toList "Player".toList ++
    slot.declare enemyType enemyMethods "inspect".toList "inspect_enemy".toList .single
      "Describe the first spawned enemy.".toList "Enemies".toList ++
    slot.declare playerType playerMethods "teleport".toList "teleport".toList .registry
      "Move the player to a position.".toList "Player".toList

/-- The event of a declared command that was refused. -/
def refusal : Event := ⟨"arena".toList, .warn, some "declared command rejected".toList⟩

/-- Registers commands, past those that are refused, and answers how many were accepted. -/
def acceptEach : List (Command β) → Console β σ → Nat × Console β σ
  | [], c => (0, c)
  | command :: rest, c =>
    match c.register command with
    | (.ok (), c) =>
      let (n, c) := acceptEach rest c
      (n + 1, c)
    | (.error _, c) => acceptEach rest (c.mapWorld fun w => { w with log := w.log.emit refusal })

/-- Registers the declared commands and answers how many were accepted. -/
def discover (slot : Slot β σ) (c : Console β σ) : Nat × Console β σ :=
  acceptEach slot.declaredCommands c

end Slot

/-- The arena as a host: its bodies, and the pool as look-up. -/
def host : Host Body Arena where
  run := Slot.whole.run
  lookup := .ofPool Arena.pool

end Arena

end CommandConsole

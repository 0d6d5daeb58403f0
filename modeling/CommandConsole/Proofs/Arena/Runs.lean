import CommandConsole.Program
import CommandConsole.Proofs.Console.Changes

set_option autoImplicit false

/-!
# Runs of the arena

The program starts with a console that has the commands of the arena (`console_eq`).  What happens
in it from then on is told by the calls that are made, each with its name and its arguments, whether
or not there is such a command (`Played`).  The evaluation of a line is a row of calls, so every
world that lines lead to is reached by the calls of these lines (`played_lines`), and so is every
world on the way.

No body of the arena registers anything: the commands are those of the start at all times
(`registry_of_played`).
-/

namespace CommandConsole.Arena

/-! ## The console of the program -/

/-- The console of a program before its first line. -/
def start (options : Options) : Console Body Arena :=
  (Slot.whole.discover (Slot.whole.register (.new options {} {})).2).2

/-- The command that shows the position of the player. -/
def whereami : Command Body :=
  ((Command.bound "whereami".toList [] (.custom (.bound .position ⟨playerType, 0⟩))).describe
    "Show the player position.".toList).categorize (some "Player".toList)

/-- The commands of the arena, after those of the console itself, and the player. -/
def registry : Registry Body where
  commands :=
    Builtin.commands ++ Slot.whole.directCommands ++ [whereami] ++ Slot.whole.declaredCommands
  singletons := [(playerType, ⟨playerType, 0⟩)]

theorem console_eq (options : Options) : Program.console options = .ok (start options) := rfl

theorem registry_start (options : Options) : (start options).world.registry = registry := by
  unfold start
  rfl

/-- There is a player at the start, and no enemy. -/
theorem host_start (options : Options) :
    (start options).world.host = { players := [{ health := 100 }] } := rfl

/-! ## Calls -/

/-- The name and the arguments of a call. -/
structure Call where
  name : Text
  args : List Value

/-- What the console of a program comes to by calls, one after the other. -/
inductive Played : List Call → World Body Arena → Prop where
  | start (options : Options) : Played [] (start options).world
  | call {calls : List Call} {w : World Body Arena} {e : Evaluator Body Arena} (he : e.host = host)
      (name rawArgs : Text) (args : List Value) (h : Played calls w) :
      Played (calls ++ [⟨name, args⟩]) (e.call name rawArgs args w).2
  /-- What is written and shown besides touches neither the commands nor the arena. -/
  | aside {calls : List Call} {w w' : World Body Arena} (hregistry : w'.registry = w.registry)
      (hhost : w'.host = w.host) (h : Played calls w) : Played calls w'

/-- The calls of a line. -/
def lineCalls (log : LineLog Body) : List Call := log.calls.map fun c => ⟨c.name, c.args⟩

/-- The console after lines have been executed. -/
def play (lines : List Text) (c : Console Body Arena) : Console Body Arena :=
  lines.foldl (fun c line => (c.execute host line).2) c

/-- The calls that lines make. -/
def playedCalls : List Text → Console Body Arena → List Call
  | [], _ => []
  | line :: rest, c =>
    lineCalls ((c.evaluator host).log line c.world) ++ playedCalls rest (c.execute host line).2

section

variable {e : Evaluator Body Arena} {calls : List Call} {w : World Body Arena}

/-- Nothing more than a report is written. -/
theorem Played.report (h : Played calls w) (err : ConsoleError) :
    Played (calls ++ []) (w.report err) := by
  rw [List.append_nil]
  exact .aside (w := w) rfl rfl h

theorem played_reduce (he : e.host = host) (line : Text) (r : Reduction) (h : Played calls w) :
    Played (calls ++ lineCalls (e.reduceLog line r w)) (e.reduce line r w).2 := by
  induction r, w using e.reduction_induct generalizing calls with
  | done r w hs =>
      rw [Evaluator.reduceLog_of_no_step hs, Evaluator.reduce_of_no_step hs]
      cases r.value? with
      | some v => exact (List.append_nil calls).symm ▸ h
      | none => exact h.report (.unresolved line)
  | halted r w s w' hs hcall =>
      have hmade := h.call he s.site.name s.site.args s.args
      rw [Evaluator.reduceLog_of_step hs, Evaluator.reduce_of_step hs]
      rw [hcall] at hmade ⊢
      exact hmade
  | next r w s v w' hs hcall ih =>
      have hmade := h.call he s.site.name s.site.args s.args
      rw [Evaluator.reduceLog_of_step hs, Evaluator.reduce_of_step hs]
      rw [hcall] at hmade ⊢
      have hrest := ih hmade
      rw [List.append_assoc] at hrest
      exact hrest

/-- A line leads on by its calls. -/
theorem played_evaluate (he : e.host = host) (line : Text) (h : Played calls w) :
    Played (calls ++ lineCalls (e.log line w)) (e.evaluate line w).2 := by
  unfold Evaluator.log Evaluator.evaluate
  dsimp only
  split
  · exact (List.append_nil calls).symm ▸ h
  · split
    · exact played_reduce he _ _ h
    · split
      · exact h.call he _ _ _
      · exact h.report (.unresolved (Text.trim line))

theorem played_play {c : Console Body Arena} (lines : List Text) (h : Played calls c.world) :
    Played (calls ++ playedCalls lines c) (play lines c).world := by
  induction lines generalizing c calls with
  | nil => exact (List.append_nil calls).symm ▸ h
  | cons line rest ih =>
      have hline := played_evaluate (e := c.evaluator host) rfl line h
      have hrest := ih (c := (c.execute host line).2) hline
      rw [List.append_assoc] at hrest
      exact hrest

/-- What lines lead to from the start, their calls lead to. -/
theorem played_lines (options : Options) (lines : List Text) :
    Played (playedCalls lines (start options)) (play lines (start options)).world := by
  have hplay := played_play lines (.start options)
  rwa [List.nil_append] at hplay

end

/-! ## The commands stay -/

/-- No body registers anything. -/
theorem registry_run (b : Body) (receiver : Option Instance) (args : Args)
    (w : World Body Arena) : (host.run b receiver args w).2.registry = w.registry := by
  change (Slot.whole.run b receiver args w).2.registry = w.registry
  unfold Slot.run Slot.runSpawn
  cases b with
  | add | countEnemies | bound => rfl
  | echo => cases args.value 0 <;> rfl
  | alarm => cases args.text 0 <;> rfl
  | spawnEnemy => cases args.text 0 <;> cases args.int 1 <;> rfl
  | method => cases receiver <;> rfl

theorem registry_changes {w w' : World Body Arena} (h : World.Changes host [] w w') :
    w'.registry = w.registry := by
  induction h with
  | refl => rfl
  | tail _ hchange ih =>
      refine Eq.trans ?_ ih
      cases hchange with
      | act | scroll => rfl
      | body b receiver args => exact registry_run b receiver args _
      | hook hhook => exact absurd hhook List.not_mem_nil

/-- The commands are always those of the start. -/
theorem registry_of_played {calls : List Call} {w : World Body Arena} (h : Played calls w) :
    w.registry = registry := by
  induction h with
  | start options => exact registry_start options
  | @call calls w e he name rawArgs args _ ih =>
      have hacts := e.performs_callLog name rawArgs args w
      rw [he] at hacts
      exact (registry_changes (Host.changes_performs hacts)).trans ih
  | aside hregistry _ _ ih => exact hregistry.trans ih

end CommandConsole.Arena

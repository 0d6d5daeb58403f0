import CommandConsole.Proofs.Arena.Runs
import CommandConsole.Proofs.Receivers.Live
import CommandConsole.Proofs.Registry.Resolution

set_option autoImplicit false

/-!
# The enemies of the arena

The arena keeps an enemy for each live instance of the type in its pool, in the same order
(`Sound`).  Only two kinds of calls matter to the enemies: `spawn_enemy` with a text and an integer
adds one, and `damage_all` with an integer runs on every enemy there is (`Deed`).  All other calls
run bodies that leave the pool and the enemies alone, or fault before they do anything.  So what the
enemies are after calls is told by the deeds among the calls alone (`roster_of_played`).
-/

namespace CommandConsole.Arena

/-! ## The table of enemies -/

/-- What holds of every arena: there is one enemy for each live instance of the type. -/
structure Sound (a : Arena) : Prop where
  keys : a.enemies.map Prod.fst = a.pool.findAll enemyType
  pool : a.pool.Sound

/-- Each key stands in the table once. -/
def Keyed (table : List (Instance × Enemy)) : Prop := (table.map Prod.fst).Nodup

theorem Sound.keyed {a : Arena} (h : a.Sound) : Keyed a.enemies := by
  rw [Keyed, h.keys]
  exact h.pool.once enemyType

section Table

variable {front back : List (Instance × Enemy)} {i : Instance} {e : Enemy} {a : Arena}

theorem Keyed.not_mem (h : Keyed (front ++ (i, e) :: back)) :
    i ∉ front.map Prod.fst ∧ i ∉ back.map Prod.fst := by
  rw [Keyed, List.map_append, List.map_cons, List.nodup_middle, List.nodup_cons] at h
  exact not_or.1 fun hi => h.1 (List.mem_append.2 hi)

theorem enemy?_of_split (hkeyed : Keyed (front ++ (i, e) :: back))
    (ha : a.enemies = front ++ (i, e) :: back) : a.enemy? i = some e := by
  rw [enemy?, ha]
  refine List.lookup_eq_some_iff.2 ⟨front, back, rfl, fun entry hentry => bne_iff_ne.2 ?_⟩
  rintro rfl
  exact hkeyed.not_mem.1 (List.mem_map_of_mem hentry)

/-- Where a key does not stand, replacing its enemy changes nothing. -/
theorem map_of_not_mem {table : List (Instance × Enemy)} (hi : i ∉ table.map Prod.fst)
    (e : Enemy) : (table.map fun entry => if entry.1 = i then (i, e) else entry) = table := by
  refine (List.map_congr_left fun entry hentry => if_neg ?_).trans (List.map_id table)
  rintro rfl
  exact hi (List.mem_map_of_mem hentry)

theorem setEnemy_of_split (hkeyed : Keyed (front ++ (i, e) :: back))
    (ha : a.enemies = front ++ (i, e) :: back) (e' : Enemy) :
    a.setEnemy i e' = { a with enemies := front ++ (i, e') :: back } := by
  rw [setEnemy, ha, List.map_append, List.map_cons, if_pos rfl, map_of_not_mem hkeyed.not_mem.1,
    map_of_not_mem hkeyed.not_mem.2]

end Table

/-! ## Methods -/

section Methods

variable {a : Arena} {m : Method} {args : Args}

/-- No method of an enemy but `damage` changes it. -/
theorem Enemy.call_of_ne_damage {e e' : Enemy} {v : Value} (hm : m ≠ .damage)
    (h : e.call m args = .ok (v, e')) : e' = e := by
  cases m with
  | damage => exact absurd rfl hm
  | inspect =>
      cases h
      rfl
  | teleport | teleportTo | heal | position => cases h

/-- The pool and the enemies are these. -/
def Holds (pool : InstancePool) (enemies : List (Instance × Enemy)) (a : Arena) : Prop :=
  a.pool = pool ∧ a.enemies = enemies

theorem holds_callMethod {pool : InstancePool} {enemies : List (Instance × Enemy)}
    (hkeyed : Keyed enemies) (hm : m ≠ .damage) (receiver : Instance) (h : Holds pool enemies a) :
    Holds pool enemies (a.callMethod m receiver args).2 := by
  unfold callMethod
  split
  · -- a player
    split
    · split <;> exact h
    · exact h
  · split
    · rename_i e he
      split
      · rename_i v e' hcall
        obtain rfl := Enemy.call_of_ne_damage hm hcall
        obtain ⟨front, back, hsplit, -⟩ := List.lookup_eq_some_iff.1 he
        rw [← h.2, hsplit] at hkeyed
        rw [setEnemy_of_split hkeyed hsplit, ← hsplit]
        exact h
      · exact h
    · exact h

/-- Without an integer, `damage` faults. -/
theorem callMethod_damage_of_ne {v : Value} (hv : ∀ n, v ≠ .int n) (receiver : Instance)
    (a : Arena) : (a.callMethod .damage receiver [v]).2 = a := by
  have hfault : ∃ f, Args.int [v] 0 = .error f := by
    cases v with
    | int n => exact absurd rfl (hv n)
    | _ => exact ⟨_, rfl⟩
  obtain ⟨f, hfault⟩ := hfault
  unfold callMethod Enemy.call
  rw [hfault]
  split
  · split <;> rfl
  · split <;> rfl

theorem callMethod_damage {front back : List (Instance × Enemy)} {i : Instance} {e : Enemy}
    (hkeyed : Keyed (front ++ (i, e) :: back)) (ha : a.enemies = front ++ (i, e) :: back)
    (htype : i.type = enemyType) (n : Int64) :
    (a.callMethod .damage i [.int n]).2 =
      { a with enemies := front ++ (i, e.damage n) :: back } := by
  have hplayer : i.type ≠ playerType := htype ▸ by decide
  rw [callMethod, if_neg hplayer, enemy?_of_split hkeyed ha]
  exact setEnemy_of_split hkeyed ha (e.damage n)

end Methods

/-! ## Bodies -/

/-- The bodies that leave the enemies alone. -/
def quiet : CommandConsole.Body Body → Bool
  | .custom .spawnEnemy | .custom (.method .damage) | .custom (.bound .damage _) => false
  | _ => true

section Bodies

variable {pool : InstancePool} {enemies : List (Instance × Enemy)} {w : World Body Arena}

theorem host_printTimes (text : Text) (n : Nat) (w : World Body Arena) :
    (Builtin.printTimes text n w).host = w.host := by
  induction n generalizing w with
  | zero => rfl
  | succ n ih => exact ih (w.info text)

theorem holds_perform {body : CommandConsole.Body Body} (hquiet : quiet body = true)
    (hkeyed : Keyed enemies) (receiver : Option Instance) (args : Args)
    (h : Holds pool enemies w.host) :
    Holds pool enemies (host.perform body receiver args w).2.host := by
  cases body with
  | builtin b =>
      cases b with
      | help | clear => exact h
      | print =>
          unfold Host.perform Builtin.run
          dsimp only
          split
          · exact h
          · exact h
          · exact (host_printTimes _ _ w).symm ▸ h
  | custom b =>
      change Holds pool enemies (Slot.whole.run b receiver args w).2.host
      unfold Slot.run
      cases b with
      | add | countEnemies => exact h
      | echo => cases args.value 0 <;> exact h
      | alarm => cases args.text 0 <;> exact h
      | spawnEnemy => cases hquiet
      | bound m i =>
          refine holds_callMethod hkeyed ?_ i h
          rintro rfl
          cases hquiet
      | method m =>
          cases receiver with
          | none => exact h
          | some i =>
              refine holds_callMethod hkeyed ?_ i h
              rintro rfl
              cases hquiet

theorem holds_runHandler {x : Handler Body} (hquiet : quiet x.body = true)
    (hkeyed : Keyed enemies) (h : Holds pool enemies w.host) :
    Holds pool enemies (host.runHandler x w).2.host := by
  rcases host.world_runHandler x w with hsame | ⟨receiver, args, hrun⟩
  · exact hsame.symm ▸ h
  · exact hrun.symm ▸ holds_perform hquiet hkeyed receiver args h

/-- What each handler keeps, all of them keep. -/
theorem kept_runHandlers {P : Arena → Prop} {xs : List (Handler Body)}
    (hkept : ∀ x ∈ xs, ∀ w, P w.host → P (host.runHandler x w).2.host) (h : P w.host) :
    P (host.runHandlers xs w).2.host := by
  induction xs generalizing w with
  | nil => exact h
  | cons x rest ih =>
      obtain ⟨hx, hrest⟩ := List.forall_mem_cons.1 hkept
      exact ih hrest (hx w h)

/-- A receiver that gets no integer for its damage is not damaged. -/
theorem host_runHandler_of_ne {v : Value} (hv : ∀ n, v ≠ .int n) (type : TypeKey)
    (i : Instance) (w : World Body Arena) :
    (host.runHandler (.method type (.custom (.method .damage)) i [v]) w).2.host = w.host := by
  unfold Host.runHandler Host.runOn
  dsimp only
  split
  · exact callMethod_damage_of_ne hv i w.host
  · rfl

/-- A handler for each enemy leaves every one damaged. -/
theorem host_damageEach (n : Int64) (front : List (Instance × Enemy))
    {back : List (Instance × Enemy)}
    (hkeyed : Keyed (front ++ back)) (hw : w.host.enemies = front ++ back)
    (htype : ∀ i ∈ back.map Prod.fst, i.type = enemyType) :
    (host.runHandlers ((back.map Prod.fst).map fun i =>
        .method enemyType (.custom (.method .damage)) i [.int n]) w).2.host =
      { w.host with enemies := front ++ back.map fun entry => (entry.1, entry.2.damage n) } := by
  induction back generalizing front w with
  | nil => exact (hw ▸ rfl : w.host = { w.host with enemies := front ++ [] })
  | cons entry rest ih =>
      obtain ⟨i, e⟩ := entry
      obtain ⟨hi, hrest⟩ := List.forall_mem_cons.1 htype
      have hrun : (host.runHandler (.method enemyType (.custom (.method .damage)) i [.int n])
          w).2.host = (w.host.callMethod .damage i [.int n]).2 := by
        rw [Host.runHandler, Host.runOn, if_pos hi]
        rfl
      have hone := hrun.trans (callMethod_damage hkeyed hw hi n)
      -- one more enemy stands in front now
      have hnext := ih (front ++ [(i, e.damage n)]) (by simpa [Keyed] using hkeyed)
        (by rw [hone, List.append_assoc]; rfl) hrest
      refine hnext.trans ?_
      rw [hone, List.append_assoc]
      rfl

end Bodies

/-! ## Deeds -/

/-- What a call does to the enemies. -/
inductive Deed where
  | spawn (e : Enemy)
  | damageAll (amount : Int64)
  deriving DecidableEq, Repr

/-- What a call does to the enemies, if it does anything to them. -/
def Call.deed? (c : Call) : Option Deed :=
  if c.name = "spawn_enemy".toList then
    match c.args with
    | [.text name, .int health] => some (.spawn ⟨name, health⟩)
    | _ => none
  else if c.name = "damage_all".toList then
    match c.args with
    | [.int amount] => some (.damageAll amount)
    | _ => none
  else none

/-- The enemies after a deed. -/
def Deed.apply (d : Deed) (es : List Enemy) : List Enemy :=
  match d with
  | .spawn e => es ++ [e]
  | .damageAll amount => es.map (Enemy.damage amount)

/-- The enemies after deeds. -/
def runDeeds (ds : List Deed) (es : List Enemy) : List Enemy :=
  ds.foldl (fun es d => d.apply es) es

/-- The enemies of an arena, in the order in which they were spawned. -/
def roster (a : Arena) : List Enemy := a.enemies.map Prod.snd

/-- The second arena is the first after a deed, if there is one, as far as enemies go. -/
structure Obeys (deed : Option Deed) (a a' : Arena) : Prop where
  sound : a'.Sound
  roster : a'.roster = runDeeds deed.toList a.roster

section Deeds

variable {a a' : Arena}

theorem obeys_of_holds (ha : a.Sound) (h : Holds a.pool a.enemies a') : Obeys none a a' where
  sound := ⟨h.1 ▸ h.2 ▸ ha.keys, h.1 ▸ ha.pool⟩
  roster := congrArg (List.map Prod.snd) h.2

theorem obeys_spawnEnemy (ha : a.Sound) (e : Enemy) :
    Obeys (some (.spawn e)) a (a.spawnEnemy e) where
  sound := by
    refine ⟨?_, ha.pool.spawn enemyType⟩
    have hfound := a.pool.findAll_spawn enemyType enemyType
    rw [if_pos rfl, ← ha.keys] at hfound
    exact List.map_append.trans hfound.symm
  roster := List.map_append

theorem obeys_damageAll (ha : a.Sound) (n : Int64) :
    Obeys (some (.damageAll n)) a
      { a with enemies := a.enemies.map fun entry => (entry.1, entry.2.damage n) } where
  sound := ⟨List.map_map.trans ha.keys, ha.pool⟩
  roster := by
    change (a.enemies.map _).map Prod.snd = (a.enemies.map Prod.snd).map (Enemy.damage n)
    rw [List.map_map, List.map_map]
    rfl

end Deeds

/-! ## Calls -/

/-- The command that adds an enemy. -/
def spawnCommand : Command Body :=
  Slot.whole.direct "spawn_enemy".toList "Spawn an enemy with a name and health.".toList
    (some "Enemies".toList) [.text, .int] .spawnEnemy

/-- The command that damages all enemies. -/
def damageCommand : Command Body :=
  ((Command.method enemyType "damage_all".toList [.int] .all (.custom (.method .damage))).describe
    "Damage every enemy.".toList).categorize (some "Enemies".toList)

theorem named_spawn_enemy : registry.named "spawn_enemy".toList = [spawnCommand] := by decide

theorem named_damage_all : registry.named "damage_all".toList = [damageCommand] := by decide

/-- No other command has a body that reaches the enemies. -/
theorem quiet_of_mem : ∀ c ∈ registry.commands, c.name ≠ "spawn_enemy".toList →
    c.name ≠ "damage_all".toList → quiet c.invoker.body = true := by
  decide

section Calls

variable {w : World Body Arena}

/-- A call of a name that one command has runs this command or nothing. -/
theorem invoke_of_named_singleton {name : Text} {c : Command Body} (hw : w.registry = registry)
    (hnamed : registry.named name = [c]) (args : List Value) :
    (host.invoke name args w).2 =
      if c.arity = args.length then (host.runHandlers (host.handlers c args w) w).2 else w := by
  rw [Host.world_invoke, hw, Registry.resolve_of_named_singleton hnamed]
  by_cases harity : c.arity = args.length
  · rw [if_pos harity, if_pos harity]
  · rw [if_neg harity, if_neg harity]

theorem deed?_spawn_enemy (args : List Value) :
    Call.deed? ⟨"spawn_enemy".toList, args⟩ =
      match args with
      | [.text name, .int health] => some (.spawn ⟨name, health⟩)
      | _ => none :=
  if_pos rfl

theorem deed?_damage_all (args : List Value) :
    Call.deed? ⟨"damage_all".toList, args⟩ =
      match args with
      | [.int amount] => some (.damageAll amount)
      | _ => none :=
  (if_neg (by decide : "damage_all".toList ≠ "spawn_enemy".toList)).trans (if_pos rfl)

theorem obeys_spawn_enemy (hw : w.registry = registry) (ha : w.host.Sound) (args : List Value) :
    Obeys (Call.deed? ⟨"spawn_enemy".toList, args⟩) w.host
      (host.invoke "spawn_enemy".toList args w).2.host := by
  have hstay : Obeys none w.host w.host := obeys_of_holds ha ⟨rfl, rfl⟩
  rw [invoke_of_named_singleton hw named_spawn_enemy, deed?_spawn_enemy]
  by_cases harity : spawnCommand.arity = args.length
  · rw [if_pos harity]
    obtain ⟨name, health, rfl⟩ := List.length_eq_two.1 harity.symm
    -- anything but a text and an integer is a fault
    cases name with
    | text name =>
        cases health with
        | int health => exact obeys_spawnEnemy ha ⟨name, health⟩
        | _ => exact hstay
    | _ => exact hstay
  · rw [if_neg harity]
    split
    · exact absurd rfl harity
    · exact hstay

/-- The command runs on every enemy. -/
theorem handlers_damageCommand (ha : w.host.Sound) (args : List Value) :
    host.handlers damageCommand args w = (w.host.enemies.map Prod.fst).map fun i =>
      .method enemyType (.custom (.method .damage)) i args := by
  rw [ha.keys]
  rfl

theorem obeys_damage_all (hw : w.registry = registry) (ha : w.host.Sound) (args : List Value) :
    Obeys (Call.deed? ⟨"damage_all".toList, args⟩) w.host
      (host.invoke "damage_all".toList args w).2.host := by
  have hstay : Obeys none w.host w.host := obeys_of_holds ha ⟨rfl, rfl⟩
  rw [invoke_of_named_singleton hw named_damage_all, deed?_damage_all]
  by_cases harity : damageCommand.arity = args.length
  · rw [if_pos harity, handlers_damageCommand ha]
    obtain ⟨amount, rfl⟩ := List.length_eq_one_iff.1 harity.symm
    by_cases hint : ∃ n, amount = .int n
    · obtain ⟨n, rfl⟩ := hint
      have htype : ∀ i ∈ w.host.enemies.map Prod.fst, i.type = enemyType :=
        ha.keys ▸ ha.pool.typed enemyType
      rw [host_damageEach n [] ha.keyed rfl htype]
      exact obeys_damageAll ha n
    · -- every receiver faults, and the call is no deed
      have hne : ∀ n, amount ≠ .int n := not_exists.1 hint
      rw [kept_runHandlers (P := (· = w.host)) (fun x hx w' hw' => ?_) rfl]
      · cases amount with
        | int n => exact absurd rfl (hne n)
        | _ => exact hstay
      · obtain ⟨i, -, rfl⟩ := List.mem_map.1 hx
        exact (host_runHandler_of_ne hne enemyType i w').trans hw'
  · rw [if_neg harity]
    split
    · exact absurd rfl harity
    · exact hstay

theorem obeys_invoke (hw : w.registry = registry) (ha : w.host.Sound) (name : Text)
    (args : List Value) :
    Obeys (Call.deed? ⟨name, args⟩) w.host (host.invoke name args w).2.host := by
  by_cases hspawn : name = "spawn_enemy".toList
  · exact hspawn ▸ obeys_spawn_enemy hw ha args
  by_cases hdamage : name = "damage_all".toList
  · exact hdamage ▸ obeys_damage_all hw ha args
  have hnone : Call.deed? ⟨name, args⟩ = none := by rw [Call.deed?, if_neg hspawn, if_neg hdamage]
  rw [hnone, Host.world_invoke, hw]
  refine obeys_of_holds ha ?_
  split
  · rename_i c hfound
    have hfind := Registry.resolve_eq_found_iff.1 hfound
    have htakes : Registry.Takes name args.length c := by simpa using List.find?_some hfind
    have hquiet := quiet_of_mem c (List.mem_of_find?_eq_some hfind) (htakes.1 ▸ hspawn)
      (htakes.1 ▸ hdamage)
    refine kept_runHandlers (P := Holds w.host.pool w.host.enemies) (fun x hx w' h => ?_)
      ⟨rfl, rfl⟩
    exact holds_runHandler (host.body_of_mem_handlers hx ▸ hquiet) ha.keyed h
  · exact ⟨rfl, rfl⟩

end Calls

/-! ## Runs -/

/-- The deeds among calls. -/
def deeds (calls : List Call) : List Deed := calls.filterMap Call.deed?

theorem deeds_concat (calls : List Call) (c : Call) :
    deeds (calls ++ [c]) = deeds calls ++ c.deed?.toList := by
  rw [deeds, deeds, List.filterMap_append, List.filterMap_cons, List.filterMap_nil]
  cases c.deed? <;> rfl

section Runs

variable {e : Evaluator Body Arena} {calls : List Call} {w : World Body Arena}

/-- A call changes the arena by its invocation alone. -/
theorem host_call (name rawArgs : Text) (args : List Value) :
    (e.call name rawArgs args w).2.host =
      (e.host.invoke name args (e.trace name rawArgs args w)).2.host := by
  unfold Evaluator.call
  rcases e.host.invoke name args (e.trace name rawArgs args w) with ⟨err | v, w'⟩
  · cases err <;> rfl
  · rfl

theorem obeys_call (he : e.host = host) (hw : w.registry = registry) (ha : w.host.Sound)
    (name rawArgs : Text) (args : List Value) :
    Obeys (Call.deed? ⟨name, args⟩) w.host (e.call name rawArgs args w).2.host := by
  have htrace : (e.trace name rawArgs args w).registry = w.registry ∧
      (e.trace name rawArgs args w).host = w.host := by
    unfold Evaluator.trace
    split <;> exact ⟨rfl, rfl⟩
  have hinvoke := obeys_invoke (htrace.1.trans hw) (htrace.2.symm ▸ ha) name args
  rw [htrace.2] at hinvoke
  rw [host_call, he]
  exact hinvoke

theorem sound_of_played (h : Played calls w) : w.host.Sound := by
  induction h with
  | start options => exact host_start options ▸ ⟨rfl, InstancePool.sound_empty⟩
  | call he name rawArgs args h ih =>
      exact (obeys_call he (registry_of_played h) ih name rawArgs args).sound
  | aside _ hhost _ ih => exact hhost ▸ ih

/-- The enemies are those that the deeds among the calls lead to. -/
theorem roster_of_played (h : Played calls w) : w.host.roster = runDeeds (deeds calls) [] := by
  induction h with
  | start options => rw [host_start]; rfl
  | @call calls w e he name rawArgs args h ih =>
      have hobeys := obeys_call he (registry_of_played h) (sound_of_played h) name rawArgs args
      rw [hobeys.roster, ih, deeds_concat, runDeeds, runDeeds, runDeeds, List.foldl_append]
  | aside _ hhost _ ih => rw [hhost, ih]

end Runs

end CommandConsole.Arena

import CommandConsole.Invocation
import CommandConsole.Proofs.Receivers.Live

set_option autoImplicit false

/-!
# Calls on live instances

A method runs on its receivers only if they are of its type, and else faults.  In a host that finds
its instances in a pool, all that a target mode yields comes from the tables of the pool and of the
registry, so that every receiver is of the type and the fault never occurs: a call does what it
would do without looking at the types (`liveReceivers`).
-/

namespace CommandConsole

variable {β σ : Type}

namespace Host

/-- Runs a body on each receiver in order, whatever its type, and collects the results. -/
def performOnEach (h : Host β σ) (body : Body β) (args : List Value) :
    List Instance → World β σ → List (Except Fault Value) × World β σ
  | [], w => ([], w)
  | receiver :: rest, w =>
    let (outcome, w) := h.perform body (some receiver) args w
    let (results, w) := performOnEach h body args rest w
    (outcome.toExcept :: results, w)

theorem runOn_of_type (h : Host β σ) {type : TypeKey} {receiver : Instance}
    (htype : receiver.type = type) (body : Body β) (args : List Value) (w : World β σ) :
    h.runOn type body args receiver w =
      ((h.perform body (some receiver) args w).1.toExcept,
        (h.perform body (some receiver) args w).2) := by
  rw [runOn, if_pos htype]

/-- Among receivers of its type, a method never faults for the type of one. -/
theorem runOnEach_of_type (h : Host β σ) {type : TypeKey} {receivers : List Instance}
    (htype : ∀ i ∈ receivers, i.type = type) (body : Body β) (args : List Value)
    (w : World β σ) :
    h.runOnEach type body args receivers w = h.performOnEach body args receivers w := by
  induction receivers generalizing w with
  | nil => rfl
  | cons i rest ih =>
      have hrest : ∀ j ∈ rest, j.type = type := fun j hj => htype j (List.mem_cons_of_mem i hj)
      rw [runOnEach, h.runOn_of_type (htype i List.mem_cons_self)]
      simp only [ih hrest, performOnEach]

end Host

namespace Receivers

/-- A world in which calls find these receivers. -/
structure HeldBy (pool : σ → InstancePool) (w : World β σ) (u : Receivers β) : Prop where
  pool : pool w.host = u.pool
  singletons : w.registry.singletons = u.registry.singletons

/-- The instances that a target mode selects for a type. -/
def select (type : TypeKey) (u : Receivers β) : TargetMode → List Instance
  | .direct => []
  | .single => (u.pool.findAll type).head?.toList
  | .all => u.pool.findAll type
  | .registry => (u.registry.singleton? type).toList

section

variable {h : Host β σ} {pool : σ → InstancePool} {w : World β σ} {u : Receivers β}

theorem targets_of_held (hlookup : h.lookup = .ofPool pool) (hw : HeldBy pool w u)
    (type : TypeKey) (mode : TargetMode) : h.targets type mode w = u.select type mode := by
  unfold Host.targets select
  rw [hlookup]
  cases mode with
  | direct => rfl
  | single => exact congrArg (fun p => ((InstancePool.findAll type p).head?).toList) hw.pool
  | all => exact congrArg (InstancePool.findAll type) hw.pool
  | registry => exact congrArg (fun t => (List.lookup type t).toList) hw.singletons

/-- What is selected for a type is of that type. -/
theorem type_of_mem_select (as : List Change) {type : TypeKey} {mode : TargetMode} {i : Instance}
    (hi : i ∈ (run as ({} : Receivers β)).select type mode) : i.type = type := by
  have hsound := sound_run (u := ({} : Receivers β)) InstancePool.sound_empty as
  cases mode with
  | direct => exact absurd hi List.not_mem_nil
  | single =>
      have hfirst := Option.mem_toList.1 hi
      exact hsound.typed type i (List.mem_of_mem_head? hfirst)
  | all => exact hsound.typed type i hi
  | registry =>
      obtain ⟨-, -, -, htype, -⟩ := (singleton?_run as type i).1 (Option.mem_toList.1 hi)
      exact htype

end

/-- What calls on a type find after changes to empty tables. -/
structure LiveReceivers (h : Host β σ) (as : List Change) (w : World β σ) (type : TypeKey) :
    Prop where
  /-- The instances of the type that were spawned and not despawned since, in spawn order. -/
  found : (run as ({} : Receivers β)).pool.findAll type =
    (survivors as ({} : Receivers β)).filter fun i => i.type = type
  once : ((run as ({} : Receivers β)).pool.findAll type).Nodup
  /-- Despawning answers whether the instance was live, and takes out only that one. -/
  despawns : ∀ i, ((run as ({} : Receivers β)).pool.despawn i).1 = true ↔
    i ∈ survivors as ({} : Receivers β)
  remain : ∀ i, ((run as ({} : Receivers β)).pool.despawn i).2.findAll type =
    ((run as ({} : Receivers β)).pool.findAll type).filter fun j => j ≠ i
  /-- The singleton is the last one registered, if none was unregistered since. -/
  singleton : ∀ i, (run as ({} : Receivers β)).registry.singleton? type = some i ↔
    LastRegistered as type i
  /-- A target mode yields these instances, and they are of the type. -/
  targets : ∀ mode, h.targets type mode w = (run as ({} : Receivers β)).select type mode
  typed : ∀ mode, ∀ i ∈ h.targets type mode w, i.type = type
  /-- So a method of the type runs on all of them, and faults for the type of none. -/
  runs : ∀ (c : Command β) (body : Body β), c.invoker = .method type body → ∀ args,
    h.runCommand c args w =
      let (results, w') :=
        h.performOnEach body args (h.targets type c.descriptor.targetMode w) w
      (Host.combine results, w')

/-- After any changes the receivers of a call are the live instances of its type. -/
theorem liveReceivers (h : Host β σ) {pool : σ → InstancePool}
    (hlookup : h.lookup = .ofPool pool) (as : List Change) {w : World β σ}
    (hw : HeldBy pool w (run as {})) (type : TypeKey) : LiveReceivers h as w type := by
  have hsound := sound_run (u := ({} : Receivers β)) InstancePool.sound_empty as
  have hfound : ∀ other, (run as ({} : Receivers β)).pool.findAll other =
      (survivors as ({} : Receivers β)).filter fun i => i.type = other :=
    findAll_run InstancePool.sound_empty as
  have htargets := targets_of_held hlookup hw type
  have htyped : ∀ mode, ∀ i ∈ h.targets type mode w, i.type = type := fun mode i hi =>
    type_of_mem_select as (htargets mode ▸ hi)
  refine
    { found := hfound type
      once := hsound.once type
      despawns := fun i => ?_
      remain := fun i => InstancePool.findAll_despawn hsound i type
      singleton := singleton?_run as type
      targets := htargets
      typed := htyped
      runs := fun c body hinvoker args => ?_ }
  · rw [InstancePool.despawn_iff, hfound, List.mem_filter]
    simp
  · rw [Host.runCommand, hinvoker]
    simp only [h.runOnEach_of_type (htyped _)]

/-! ## Two types of one name -/

def leftRack : TypeKey := ⟨0, "Rack".toList⟩

def rightRack : TypeKey := ⟨1, "Rack".toList⟩

/-- Three racks are spawned, one of which is a right one, and the first is despawned. -/
def rackChanges : List Change :=
  [ .spawn leftRack, .spawn rightRack, .spawn leftRack, .despawn ⟨leftRack, 0⟩,
    .registerSingleton ⟨rightRack, 1⟩ ]

/-- A host whose state is a pool, and whose bodies answer the serial number of the receiver. -/
def rackHost : Host Unit InstancePool where
  run := fun _ receiver _ w => (.value (.int (Int64.ofNat (receiver.elim 0 Instance.serial))), w)
  lookup := .ofPool id

/-- The world of that host after the changes. -/
def rackWorld : World Unit InstancePool where
  registry := (run rackChanges {}).registry
  transcript := .empty 1000
  log := {}
  host := (run rackChanges ({} : Receivers Unit)).pool

theorem liveReceivers_racks :
    LiveReceivers rackHost rackChanges rackWorld leftRack ∧
      LiveReceivers rackHost rackChanges rackWorld rightRack ∧
      rackHost.targets leftRack .all rackWorld = [⟨leftRack, 2⟩] ∧
      rackHost.targets rightRack .registry rackWorld = [⟨rightRack, 1⟩] :=
  ⟨liveReceivers rackHost rfl rackChanges ⟨rfl, rfl⟩ leftRack,
    liveReceivers rackHost rfl rackChanges ⟨rfl, rfl⟩ rightRack, by decide, by decide⟩

end Receivers

end CommandConsole

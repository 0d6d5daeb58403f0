import CommandConsole.Registry
import Mathlib.Data.List.Induction
import Mathlib.Data.List.Nodup

set_option autoImplicit false

/-!
# Live instances and singletons

A pool and a registry keep their instances in tables under a key for each type, and what a table
holds does not show the type any more.  That a pool holds instances under their own types only is an
invariant of the changes there are (`InstancePool.Sound`).  With it, the instances found for a type
are those that were spawned and not despawned since (`findAll_run`).  The singleton of a type is the
last one registered for it, unless it was unregistered since (`singleton?_run`).
-/

namespace CommandConsole

/-! ## Tables -/

/-- What a table holds under other keys stays when one key is dropped. -/
theorem lookup_drop {α : Type} (type other : TypeKey) (table : List (TypeKey × α)) :
    (table.filter fun e => e.1 ≠ type).lookup other =
      if other = type then none else table.lookup other := by
  induction table with
  | nil => simp
  | cons e rest ih =>
      obtain ⟨key, a⟩ := e
      by_cases hdropped : key = type
      · subst hdropped
        rw [List.filter_cons_of_neg (by simp), ih]
        split
        · rfl
        · rename_i hother
          rw [List.lookup_cons, beq_false_of_ne hother]
      · rw [List.filter_cons_of_pos (by simpa using hdropped), List.lookup_cons, List.lookup_cons,
          ih]
        by_cases hkey : other = key
        · subst hkey
          simp [hdropped]
        · rw [beq_false_of_ne hkey]

theorem lookup_replace {α : Type} (type other : TypeKey) (a : α) (table : List (TypeKey × α)) :
    ((type, a) :: table.filter fun e => e.1 ≠ type).lookup other =
      if other = type then some a else table.lookup other := by
  rw [List.lookup_cons, lookup_drop]
  by_cases h : other = type
  · simp [h]
  · simp [h, beq_false_of_ne h]

/-! ## The pool -/

namespace InstancePool

variable {p : InstancePool}

theorem findAll_setTable (type other : TypeKey) (instances : List Instance) (p : InstancePool) :
    (p.setTable type instances).findAll other =
      if other = type then instances else p.findAll other := by
  rw [findAll, setTable, lookup_replace]
  split <;> rfl

theorem type_spawn (type : TypeKey) (p : InstancePool) : (p.spawn type).1.type = type := rfl

/-- A spawned instance comes last in the table of its type. -/
theorem findAll_spawn (type other : TypeKey) (p : InstancePool) :
    (p.spawn type).2.findAll other =
      p.findAll other ++ if other = type then [(p.spawn type).1] else [] := by
  have hset : (p.spawn type).2.findAll other =
      (p.setTable type (p.findAll type ++ [(p.spawn type).1])).findAll other := rfl
  rw [hset, findAll_setTable]
  split
  · rename_i hsame
    rw [hsame]
  · rw [List.append_nil]

/-- What holds of every pool: each table holds instances of its own type, each once, and no
instance has the next serial number yet. -/
structure Sound (p : InstancePool) : Prop where
  typed : ∀ type, ∀ i ∈ p.findAll type, i.type = type
  old : ∀ type, ∀ i ∈ p.findAll type, i.serial < p.next
  once : ∀ type, (p.findAll type).Nodup

theorem sound_empty : Sound {} := ⟨nofun, nofun, fun _ => List.nodup_nil⟩

/-- Despawning takes out the one instance, and no other of any type. -/
theorem findAll_despawn (hp : p.Sound) (i : Instance) (type : TypeKey) :
    (p.despawn i).2.findAll type = (p.findAll type).filter fun j => j ≠ i := by
  -- in the tables of other types there is nothing to take out
  have hother : type ≠ i.type → (p.findAll type).filter (fun j => j ≠ i) = p.findAll type := by
    intro htype
    refine List.filter_eq_self.2 fun j hj => ?_
    have hne : j ≠ i := fun hsame => htype (hsame ▸ hp.typed type j hj).symm
    simpa using hne
  unfold despawn
  cases hlookup : p.tables.lookup i.type with
  | none =>
      by_cases htype : type = i.type
      · have hnil : p.findAll type = [] := by rw [findAll, htype, hlookup, Option.getD_none]
        rw [hnil, List.filter_nil]
      · exact (hother htype).symm
  | some instances =>
      dsimp only
      rw [findAll_setTable]
      split
      · rename_i htype
        rw [findAll, htype, hlookup, Option.getD_some]
      · rename_i htype
        exact (hother htype).symm

/-- Despawning answers whether the instance was live. -/
theorem despawn_iff (i : Instance) (p : InstancePool) :
    (p.despawn i).1 = true ↔ i ∈ p.findAll i.type := by
  unfold despawn findAll
  cases p.tables.lookup i.type with
  | none => simp
  | some instances =>
      rw [Option.getD_some, bne_iff_ne, ne_comm, ne_eq, List.length_filter_eq_length_iff]
      simp

theorem next_despawn (i : Instance) (p : InstancePool) : (p.despawn i).2.next = p.next := by
  unfold despawn
  split <;> rfl

theorem Sound.spawn (hp : p.Sound) (type : TypeKey) : (p.spawn type).2.Sound := by
  -- what is found afterwards was found before or is the new instance
  have hmem : ∀ other, ∀ i ∈ (p.spawn type).2.findAll other,
      i ∈ p.findAll other ∨ other = type ∧ i = (p.spawn type).1 := by
    intro other i hi
    rw [findAll_spawn] at hi
    rcases List.mem_append.1 hi with hi | hi
    · exact Or.inl hi
    · split at hi
      · exact Or.inr ⟨‹_›, List.mem_singleton.1 hi⟩
      · exact absurd hi List.not_mem_nil
  have hnext : (p.spawn type).2.next = p.next + 1 := rfl
  have hserial : (p.spawn type).1.serial = p.next := rfl
  refine ⟨fun other i hi => ?_, fun other i hi => ?_, fun other => ?_⟩
  · rcases hmem other i hi with hold | ⟨hother, rfl⟩
    · exact hp.typed other i hold
    · exact (p.type_spawn type).trans hother.symm
  · rw [hnext]
    rcases hmem other i hi with hold | ⟨-, rfl⟩
    · exact Nat.lt_succ_of_lt (hp.old other i hold)
    · exact hserial ▸ Nat.lt_succ_self p.next
  · rw [findAll_spawn]
    split
    · refine (hp.once other).append (List.nodup_singleton _) ?_
      intro i hi hnew
      have hlt := hp.old other i hi
      rw [List.mem_singleton.1 hnew, hserial] at hlt
      exact Nat.lt_irrefl _ hlt
    · rw [List.append_nil]
      exact hp.once other

theorem Sound.despawn (hp : p.Sound) (i : Instance) : (p.despawn i).2.Sound := by
  have hsub : ∀ type, ((p.despawn i).2.findAll type).Sublist (p.findAll type) := fun type =>
    findAll_despawn hp i type ▸ List.filter_sublist
  refine ⟨fun type j hj => hp.typed type j ((hsub type).subset hj), fun type j hj => ?_,
    fun type => (hsub type).nodup (hp.once type)⟩
  rw [next_despawn]
  exact hp.old type j ((hsub type).subset hj)

end InstancePool

/-! ## The singletons -/

namespace Registry

variable {β : Type} {r : Registry β}

theorem singleton?_unregisterSingleton (type other : TypeKey) (r : Registry β) :
    (r.unregisterSingleton type).2.singleton? other =
      if other = type then none else r.singleton? other :=
  lookup_drop type other r.singletons

theorem singleton?_registerSingleton (i : Instance) (type : TypeKey) (r : Registry β) :
    (r.registerSingleton i).2.singleton? type =
      if type = i.type then some i else r.singleton? type :=
  lookup_replace i.type type i r.singletons

end Registry

/-! ## Changes -/

/-- The pool and the registry from which calls take their receivers. -/
structure Receivers (β : Type) where
  pool : InstancePool := {}
  registry : Registry β := {}

namespace Receivers

variable {β : Type}

/-- What can be done to the receivers. -/
inductive Change where
  | spawn (type : TypeKey)
  | despawn (i : Instance)
  | registerSingleton (i : Instance)
  | unregisterSingleton (type : TypeKey)
  deriving DecidableEq, Repr

/-- The receivers after a change. -/
def apply (a : Change) (u : Receivers β) : Receivers β :=
  match a with
  | .spawn type => { u with pool := (u.pool.spawn type).2 }
  | .despawn i => { u with pool := (u.pool.despawn i).2 }
  | .registerSingleton i => { u with registry := (u.registry.registerSingleton i).2 }
  | .unregisterSingleton type => { u with registry := (u.registry.unregisterSingleton type).2 }

/-- The receivers after changes. -/
def run (as : List Change) (u : Receivers β) : Receivers β := as.foldl (fun u a => u.apply a) u

/-- The instance that a change spawns. -/
def Change.spawned (u : Receivers β) : Change → List Instance
  | .spawn type => [(u.pool.spawn type).1]
  | .despawn _ | .registerSingleton _ | .unregisterSingleton _ => []

/-- The instances that changes spawn and do not despawn later, in spawn order. -/
def survivors : List Change → Receivers β → List Instance
  | [], _ => []
  | a :: later, u =>
    ((a.spawned u).filter fun i => Change.despawn i ∉ later) ++ survivors later (u.apply a)

/-- Whether a change gives a type another singleton or none. -/
def Change.SetsSingleton (type : TypeKey) : Change → Prop
  | .registerSingleton i => i.type = type
  | .unregisterSingleton other => other = type
  | _ => False

/-- The instance is the one of its type that was registered last, and nothing has been unregistered
since. -/
def LastRegistered (as : List Change) (type : TypeKey) (i : Instance) : Prop :=
  ∃ earlier later, as = earlier ++ .registerSingleton i :: later ∧ i.type = type ∧
    ∀ a ∈ later, ¬ a.SetsSingleton type

/-! ### One change -/

theorem sound_apply {u : Receivers β} (hu : u.pool.Sound) (a : Change) :
    (u.apply a).pool.Sound := by
  cases a with
  | spawn type => exact hu.spawn type
  | despawn i => exact hu.despawn i
  | registerSingleton i => exact hu
  | unregisterSingleton type => exact hu

/-- What a change does to the instances found for a type: it despawns one of them or spawns one. -/
theorem findAll_apply {u : Receivers β} (hu : u.pool.Sound) (a : Change) (type : TypeKey) :
    (u.apply a).pool.findAll type =
      ((u.pool.findAll type).filter fun i => a ≠ .despawn i) ++
        (a.spawned u).filter fun i => i.type = type := by
  have hkeep : (∀ i, a ≠ .despawn i) →
      (u.pool.findAll type).filter (fun i => a ≠ .despawn i) = u.pool.findAll type :=
    fun hne => List.filter_eq_self.2 fun i _ => by simpa using hne i
  cases a with
  | spawn other =>
      rw [hkeep nofun, Change.spawned, List.filter_singleton]
      refine (u.pool.findAll_spawn other type).trans (congrArg _ ?_)
      simp [InstancePool.type_spawn, eq_comm]
  | despawn j =>
      rw [Change.spawned, List.filter_nil, List.append_nil]
      refine (InstancePool.findAll_despawn hu j type).trans (List.filter_congr fun i _ => ?_)
      simp [eq_comm]
  | registerSingleton i =>
      rw [hkeep nofun, Change.spawned, List.filter_nil, List.append_nil]
      rfl
  | unregisterSingleton other =>
      rw [hkeep nofun, Change.spawned, List.filter_nil, List.append_nil]
      rfl

theorem singleton?_apply (a : Change) (type : TypeKey) (i : Instance) (u : Receivers β) :
    (u.apply a).registry.singleton? type = some i ↔
      a = .registerSingleton i ∧ i.type = type ∨
        ¬ a.SetsSingleton type ∧ u.registry.singleton? type = some i := by
  cases a with
  | spawn other => simp [apply, Change.SetsSingleton]
  | despawn j => simp [apply, Change.SetsSingleton]
  | registerSingleton j =>
      rw [apply, Registry.singleton?_registerSingleton]
      by_cases htype : type = j.type
      · simp only [htype, if_true, Option.some.injEq, Change.registerSingleton.injEq,
          Change.SetsSingleton, not_true, false_and, or_false]
        exact ⟨fun hsame => ⟨hsame, hsame ▸ rfl⟩, fun h => h.1⟩
      · have hother : ¬ (j = i ∧ i.type = type) := fun h => htype (h.1 ▸ h.2.symm)
        simp [htype, hother, Change.SetsSingleton, Ne.symm htype]
  | unregisterSingleton other =>
      rw [apply, Registry.singleton?_unregisterSingleton]
      by_cases htype : type = other
      · simp [htype, Change.SetsSingleton]
      · simp [htype, Change.SetsSingleton, Ne.symm htype]

/-! ### Runs -/

theorem sound_run {u : Receivers β} (hu : u.pool.Sound) (as : List Change) :
    (run as u).pool.Sound := by
  induction as generalizing u with
  | nil => exact hu
  | cons a later ih => exact ih (sound_apply hu a)

/-- After changes, the instances of a type that were there before and have not been despawned are
found, and then those that the changes have spawned and not despawned. -/
theorem findAll_run {u : Receivers β} (hu : u.pool.Sound) (as : List Change) (type : TypeKey) :
    (run as u).pool.findAll type =
      ((u.pool.findAll type).filter fun i => .despawn i ∉ as) ++
        (survivors as u).filter fun i => i.type = type := by
  induction as generalizing u with
  | nil => simp [run, survivors]
  | cons a later ih =>
      have hrun : run (a :: later) u = run later (u.apply a) := rfl
      have hold : ((u.pool.findAll type).filter fun i => a ≠ .despawn i).filter
            (fun i => .despawn i ∉ later) =
          (u.pool.findAll type).filter fun i => .despawn i ∉ a :: later := by
        rw [List.filter_filter]
        refine List.filter_congr fun i _ => ?_
        simp [eq_comm, Bool.and_comm]
      have hnew : ((a.spawned u).filter fun i => i.type = type).filter
            (fun i => .despawn i ∉ later) =
          ((a.spawned u).filter fun i => .despawn i ∉ later).filter fun i => i.type = type := by
        rw [List.filter_filter, List.filter_filter]
        exact List.filter_congr fun i _ => Bool.and_comm _ _
      rw [hrun, ih (sound_apply hu a), findAll_apply hu, survivors, List.filter_append,
        List.filter_append, hold, hnew, List.append_assoc]

theorem lastRegistered_concat {as : List Change} {a : Change} {type : TypeKey} {i : Instance} :
    LastRegistered (as ++ [a]) type i ↔
      a = .registerSingleton i ∧ i.type = type ∨
        ¬ a.SetsSingleton type ∧ LastRegistered as type i := by
  constructor
  · rintro ⟨earlier, later, hsplit, htype, hlater⟩
    -- the registration is the last change, or the last change comes later
    rcases List.eq_nil_or_concat later with rfl | ⟨later, b, rfl⟩
    · obtain ⟨-, hlast⟩ := List.append_inj' hsplit rfl
      exact Or.inl ⟨List.singleton_inj.1 hlast, htype⟩
    · have hconcat : as ++ [a] = (earlier ++ .registerSingleton i :: later) ++ [b] := by
        simpa using hsplit
      obtain ⟨hfront, hlast⟩ := List.append_inj' hconcat rfl
      obtain rfl := List.singleton_inj.1 hlast
      refine Or.inr ⟨hlater a (by simp), earlier, later, hfront, htype, fun b hb => ?_⟩
      exact hlater b (by simp [hb])
  · rintro (⟨rfl, htype⟩ | ⟨hkeeps, earlier, later, rfl, htype, hlater⟩)
    · exact ⟨as, [], rfl, htype, nofun⟩
    · refine ⟨earlier, later ++ [a], by simp, htype, fun b hb => ?_⟩
      rcases List.mem_append.1 hb with hb | hb
      · exact hlater b hb
      · exact List.mem_singleton.1 hb ▸ hkeeps

/-- The singleton of a type after changes. -/
theorem singleton?_run (as : List Change) (type : TypeKey) (i : Instance) :
    (run as ({} : Receivers β)).registry.singleton? type = some i ↔ LastRegistered as type i := by
  induction as using List.reverseRecOn with
  | nil =>
      refine iff_of_false nofun ?_
      rintro ⟨earlier, later, hsplit, -⟩
      simp at hsplit
  | append_singleton as a ih =>
      have hrun : run (as ++ [a]) ({} : Receivers β) = (run as {}).apply a := List.foldl_append
      rw [hrun, singleton?_apply, ih, lastRegistered_concat]

end Receivers

end CommandConsole

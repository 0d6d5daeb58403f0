import CommandConsole.Proofs.Arena.Enemies
import CommandConsole.Proofs.Literal.Asking

set_option autoImplicit false

/-!
# Health

Damage leaves an enemy with no less than zero, whatever it had before, and with no more than fits in
64 bits.  What it never looks at is the sign of the amount and that of the health: damage of a
negative amount heals, and an enemy that was spawned with negative health has more of it after any
damage (`health_lt_damage_iff`).  So the health of an enemy is at least zero from the first damage
on, and before that if it was spawned so (`healthFollows`).
-/

namespace CommandConsole.Arena

/-! ## Damage -/

theorem toInt_clamp (n : Int) :
    (clamp n).toInt = max (-0x8000000000000000) (min n 0x7FFFFFFFFFFFFFFF) := by
  refine Number.toInt_ofInt_of_fits (Number.fitsInt64_iff.2 ?_)
  omega

theorem toInt_max (a b : Int64) : (max a b).toInt = max a.toInt b.toInt := by
  change (if a ≤ b then b else a).toInt = _
  split
  · rename_i h
    exact (Int.max_eq_right (Int64.le_iff_toInt_le.1 h)).symm
  · rename_i h
    rw [Int64.le_iff_toInt_le] at h
    exact (Int.max_eq_left (Int.le_of_lt (Int.not_le.1 h))).symm

/-- Health after damage is cut off at zero and at the greatest integer. -/
theorem toInt_health_damage (n : Int64) (e : Enemy) :
    (e.damage n).health.toInt = max 0 (min (e.health.toInt - n.toInt) 0x7FFFFFFFFFFFFFFF) := by
  rw [Enemy.damage, toInt_max, toInt_clamp, Int64.toInt_zero]
  omega

theorem nonneg_damage (n : Int64) (e : Enemy) : 0 ≤ (e.damage n).health := by
  rw [Int64.le_iff_toInt_le, toInt_health_damage, Int64.toInt_zero]
  omega

/-- Damage raises negative health, and if it is negative itself any health but the greatest. -/
theorem health_lt_damage_iff (n : Int64) (e : Enemy) :
    e.health < (e.damage n).health ↔
      e.health < 0 ∨ n < 0 ∧ e.health < Int64.maxValue := by
  have hmax : Int64.maxValue.toInt = 0x7FFFFFFFFFFFFFFF := rfl
  have hfits := e.health.toInt_lt
  simp only [Int64.lt_iff_toInt_lt, toInt_health_damage, Int64.toInt_zero, hmax]
  omega

/-- The enemy after damage again and again. -/
def Enemy.suffer (amounts : List Int64) (e : Enemy) : Enemy :=
  amounts.foldl (fun e n => e.damage n) e

theorem nonneg_suffer_iff (ns : List Int64) (e : Enemy) :
    0 ≤ (e.suffer ns).health ↔ 0 ≤ e.health ∨ ns ≠ [] := by
  induction ns generalizing e with
  | nil => exact (or_iff_left fun h => h rfl).symm
  | cons n rest ih =>
      -- from the first damage on
      exact iff_of_true ((ih (e.damage n)).2 (Or.inl (nonneg_damage n e))) (Or.inr nofun)

/-! ## Lives -/

/-- The amounts of damage among deeds. -/
def amounts (ds : List Deed) : List Int64 :=
  ds.filterMap fun
    | .damageAll n => some n
    | .spawn _ => none

/-- The enemies that deeds spawn, each after all damage that comes later. -/
def lives : List Deed → List Enemy
  | [] => []
  | .spawn e :: later => e.suffer (amounts later) :: lives later
  | .damageAll _ :: later => lives later

/-- The enemies of before suffer all damage, and the new ones what comes after them. -/
theorem runDeeds_eq (ds : List Deed) (es : List Enemy) :
    runDeeds ds es = es.map (Enemy.suffer (amounts ds)) ++ lives ds := by
  induction ds generalizing es with
  | nil => exact ((List.append_nil _).trans (List.map_id es)).symm
  | cons d later ih =>
      refine (ih (d.apply es)).trans ?_
      cases d with
      | spawn e =>
          change (es ++ [e]).map (Enemy.suffer (amounts later)) ++ lives later =
            es.map (Enemy.suffer (amounts later)) ++ e.suffer (amounts later) :: lives later
          rw [List.map_append, List.append_assoc]
          rfl
      | damageAll n =>
          change (es.map (Enemy.damage n)).map (Enemy.suffer (amounts later)) ++ lives later =
            es.map (Enemy.suffer (n :: amounts later)) ++ lives later
          rw [List.map_map]
          rfl

/-- The enemy is spawned by one of the deeds, and the others come later. -/
def Spawns (ds : List Deed) (e : Enemy) (later : List Deed) : Prop :=
  ∃ earlier, ds = earlier ++ .spawn e :: later

theorem spawns_cons {d : Deed} {rest later : List Deed} {e : Enemy} :
    Spawns (d :: rest) e later ↔ d = .spawn e ∧ rest = later ∨ Spawns rest e later := by
  constructor
  · rintro ⟨earlier, hsplit⟩
    cases earlier with
    | nil => exact Or.inl (List.cons.inj hsplit)
    | cons _ earlier => exact Or.inr ⟨earlier, (List.cons.inj hsplit).2⟩
  · rintro (⟨rfl, rfl⟩ | ⟨earlier, rfl⟩)
    · exact ⟨[], rfl⟩
    · exact ⟨d :: earlier, rfl⟩

theorem mem_lives {e : Enemy} {ds : List Deed} :
    e ∈ lives ds ↔
      ∃ spawned later, Spawns ds spawned later ∧ e = spawned.suffer (amounts later) := by
  induction ds with
  | nil => simp [lives, Spawns]
  | cons d rest ih =>
      cases d with
      | spawn spawned =>
          rw [lives, List.mem_cons, ih]
          simp [spawns_cons, or_and_right, exists_or]
      | damageAll n =>
          rw [lives, ih]
          simp [spawns_cons]

/-- A life with negative health began so, and has seen no damage. -/
theorem exists_negative_iff (ds : List Deed) :
    (∃ e ∈ lives ds, e.health < 0) ↔
      ∃ e later, Spawns ds e later ∧ e.health < 0 ∧ amounts later = [] := by
  have hnegative : ∀ (spawned : Enemy) (later : List Deed),
      (spawned.suffer (amounts later)).health < 0 ↔
        spawned.health < 0 ∧ amounts later = [] := by
    intro spawned later
    have hnonneg := not_congr (nonneg_suffer_iff (amounts later) spawned)
    rwa [not_or, not_not, Int64.not_le, Int64.not_le] at hnonneg
  constructor
  · rintro ⟨e, he, hhealth⟩
    obtain ⟨spawned, later, hspawns, rfl⟩ := mem_lives.1 he
    exact ⟨spawned, later, hspawns, (hnegative spawned later).1 hhealth⟩
  · rintro ⟨spawned, later, hspawns, hhealth⟩
    exact ⟨_, mem_lives.2 ⟨spawned, later, hspawns, rfl⟩, (hnegative spawned later).2 hhealth⟩

/-! ## Health in the console -/

/-- What is true of the health of the enemies after calls. -/
structure HealthFollows (calls : List Call) (w : World Body Arena) : Prop where
  /-- Every enemy has the health of its spawn, less the damage since. -/
  each : w.host.roster = lives (deeds calls)
  /-- An enemy has negative health only if it was spawned with it and not damaged since. -/
  negative : (∃ e ∈ w.host.roster, e.health < 0) ↔
    ∃ e later, Spawns (deeds calls) e later ∧ e.health < 0 ∧ amounts later = []
  /-- Spawned with no negative health, none has negative health ever. -/
  nonneg : (∀ e later, Spawns (deeds calls) e later → 0 ≤ e.health) →
    ∀ e ∈ w.host.roster, 0 ≤ e.health
  /-- The next call changes the enemies by its deed, and not without one. -/
  call : ∀ ev : Evaluator Body Arena, ev.host = host → ∀ name rawArgs args,
    (ev.call name rawArgs args w).2.host.roster =
      runDeeds (Call.deed? ⟨name, args⟩).toList w.host.roster
  /-- Damage to all raises the health of an enemy exactly if this or the amount is negative. -/
  raises : ∀ ev : Evaluator Body Arena, ev.host = host → ∀ (rawArgs : Text) (args : List Value)
    (k : Nat) (before after : Enemy), w.host.roster[k]? = some before →
      (ev.call "damage_all".toList rawArgs args w).2.host.roster[k]? = some after →
        (before.health < after.health ↔ ∃ n, args = [.int n] ∧
          (before.health < 0 ∨ n < 0 ∧ before.health < Int64.maxValue))

/-- Damage to all enemies with an integer damages every one, and without an integer none. -/
theorem runDeeds_damage_all (args : List Value) (es : List Enemy) :
    (∃ n, args = [.int n] ∧
      runDeeds (Call.deed? ⟨"damage_all".toList, args⟩).toList es = es.map (Enemy.damage n)) ∨
    (∀ n, args ≠ [.int n]) ∧
      runDeeds (Call.deed? ⟨"damage_all".toList, args⟩).toList es = es := by
  rw [deed?_damage_all]
  split
  · rename_i n
    exact Or.inl ⟨n, rfl, rfl⟩
  · rename_i hne
    exact Or.inr ⟨hne, rfl⟩

/-- In every state of the console the health of an enemy follows from its spawn and the damage
since. -/
theorem healthFollows {calls : List Call} {w : World Body Arena} (hw : Played calls w) :
    HealthFollows calls w := by
  have heach : w.host.roster = lives (deeds calls) := by
    rw [roster_of_played hw, runDeeds_eq]
    rfl
  have hcall : ∀ ev : Evaluator Body Arena, ev.host = host → ∀ name rawArgs args,
      (ev.call name rawArgs args w).2.host.roster =
        runDeeds (Call.deed? ⟨name, args⟩).toList w.host.roster := fun ev hev name rawArgs args =>
    (obeys_call hev (registry_of_played hw) (sound_of_played hw) name rawArgs args).roster
  have hnegative := heach ▸ exists_negative_iff (deeds calls)
  refine ⟨heach, hnegative, fun hspawns e he => ?_, hcall, ?_⟩
  · by_contra hhealth
    obtain ⟨spawned, later, hspawn, hlow, -⟩ := hnegative.1 ⟨e, he, Int64.not_le.1 hhealth⟩
    exact Int64.not_le.2 hlow (hspawns spawned later hspawn)
  · intro ev hev rawArgs args k before after hbefore hafter
    rw [hcall ev hev] at hafter
    rcases runDeeds_damage_all args w.host.roster with ⟨n, rfl, hrun⟩ | ⟨hne, hrun⟩
    · rw [hrun, List.getElem?_map, hbefore] at hafter
      cases hafter
      rw [health_lt_damage_iff]
      constructor
      · exact fun h => ⟨n, rfl, h⟩
      · rintro ⟨m, hsame, h⟩
        cases hsame
        exact h
    · rw [hrun, hbefore] at hafter
      cases hafter
      exact iff_of_false Int64.lt_irrefl fun ⟨n, hargs, _⟩ => hne n hargs

/-! ## Negative numbers -/

/-- Two fields are read as a text and an integer. -/
theorem arguments_text_int {name amount : Text} {n : Int64}
    (hname : Literal.number? (Text.trim name) = none)
    (hflat : Literal.vectorBody? (Text.trim name) = none)
    (hamount : Literal.number? (Text.trim amount) = some (.int n)) :
    Pending.arguments [name, amount] [] = ([.text (Text.trim name), .int n], []) := by
  have htext : Pending.argument name [] = (.text (Text.trim name), []) :=
    Literal.convertWith_of_text hname hflat []
  have hint : Pending.argument amount [] = (.int n, []) :=
    Literal.convertWith_of_number hamount []
  rw [Pending.arguments, htext]
  dsimp only
  rw [Pending.arguments, hint]
  rfl

/-- A line that calls `spawn_enemy` with a name and an integer leaves one enemy. -/
theorem roster_play_spawn (line rawArgs name amount : Text) (health : Int64) (options : Options)
    (hparen : Completion.hasParenthesis (Text.trim line) = true)
    (hsite : CallSite.innermost? (Text.trim line) =
      some ⟨[], "spawn_enemy".toList, rawArgs, []⟩)
    (hfields : Field.split rawArgs = [name, amount])
    (hname : Literal.number? (Text.trim name) = none)
    (hflat : Literal.vectorBody? (Text.trim name) = none)
    (hamount : Literal.number? (Text.trim amount) = some (.int health)) :
    (play [line] (start options)).world.host.roster = [⟨Text.trim name, health⟩] := by
  have hstep : (Reduction.start (Text.trim line)).step? = some
      ⟨⟨[], "spawn_enemy".toList, rawArgs, []⟩, [.text (Text.trim name), .int health], []⟩ := by
    rw [Reduction.step?, Reduction.start_text, hsite, Option.map_some]
    dsimp only [Reduction.start]
    rw [hfields, arguments_text_int hname hflat hamount]
  have hcall := obeys_call (e := (start options).evaluator host) rfl (registry_start options)
    (sound_of_played (.start options)) "spawn_enemy".toList rawArgs
    [.text (Text.trim name), .int health]
  change (((start options).evaluator host).evaluate line (start options).world).2.host.roster = _
  rw [Evaluator.world_evaluate_single hparen hstep rfl rfl, hcall.roster, host_start,
    deed?_spawn_enemy]
  rfl

theorem roster_play_ghost (options : Options) :
    (play ["spawn_enemy(ghost, -5)".toList] (start options)).world.host.roster =
      [⟨"ghost".toList, -5⟩] :=
  roster_play_spawn _ "ghost, -5".toList "ghost".toList "-5".toList (-5) options (by decide)
    (by decide) (by decide) rfl rfl rfl

theorem roster_play_grunt (options : Options) :
    (play ["spawn_enemy(grunt, 5)".toList] (start options)).world.host.roster =
      [⟨"grunt".toList, 5⟩] :=
  roster_play_spawn _ "grunt, 5".toList "grunt".toList "5".toList 5 options (by decide)
    (by decide) (by decide) rfl rfl rfl

theorem healthFollows_grunt :
    HealthFollows (playedCalls ["spawn_enemy(grunt, 5)".toList] (start {}))
        (play ["spawn_enemy(grunt, 5)".toList] (start {})).world ∧
      (play ["spawn_enemy(grunt, 5)".toList] (start {})).world.host.roster =
        [⟨"grunt".toList, 5⟩] :=
  ⟨healthFollows (played_lines {} _), roster_play_grunt {}⟩

/-- An enemy can have negative health, and damage to all can raise the health of one. -/
theorem not_health_sane :
    (¬ ∀ (options : Options) (lines : List Text),
      ∀ e ∈ (play lines (start options)).world.host.roster, 0 ≤ e.health) ∧
    ¬ ∀ (options : Options) (lines : List Text) (ev : Evaluator Body Arena), ev.host = host →
      ∀ (rawArgs : Text) (args : List Value) (k : Nat) (before after : Enemy),
        (play lines (start options)).world.host.roster[k]? = some before →
        (ev.call "damage_all".toList rawArgs args
          (play lines (start options)).world).2.host.roster[k]? = some after →
        after.health ≤ before.health := by
  constructor
  · intro hsane
    have hghost := hsane {} ["spawn_enemy(ghost, -5)".toList] ⟨"ghost".toList, -5⟩
      (roster_play_ghost {} ▸ List.mem_cons_self)
    exact absurd hghost (by decide)
  · intro hsane
    have hw := played_lines {} ["spawn_enemy(grunt, 5)".toList]
    have hcall := (obeys_call (e := { host := host }) rfl (registry_of_played hw)
      (sound_of_played hw) "damage_all".toList "-10".toList [.int (-10)]).roster
    rw [roster_play_grunt, deed?_damage_all] at hcall
    have hraised := hsane {} ["spawn_enemy(grunt, 5)".toList] { host := host } rfl "-10".toList
      [.int (-10)] 0 ⟨"grunt".toList, 5⟩ ⟨"grunt".toList, 15⟩ (by rw [roster_play_grunt]; rfl)
      (by rw [hcall]; rfl)
    exact absurd hraised (by decide)

end CommandConsole.Arena

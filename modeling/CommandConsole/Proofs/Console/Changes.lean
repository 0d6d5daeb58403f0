import CommandConsole.Console
import CommandConsole.Proofs.Evaluation.Log
import CommandConsole.Proofs.Transcript.Retention
import Mathlib.Logic.Relation

set_option autoImplicit false

/-!
# What changes a world

A console and its evaluator reach into the world in four ways only: by an act on the transcript that
does not read it, by a request for a scroll, by a body of the host, and by a hook (`World.Change`).
What holds of these four, and of several in a row, holds of the evaluation of a line
(`changes_evaluate`) and of every action of a console (`follows_handle`).
-/

namespace CommandConsole

variable {β σ : Type} {h : Host β σ}

section

variable {hooks : List (World β σ → World β σ)}

namespace World

/-- One change of the world. -/
inductive Change (h : Host β σ) (hooks : List (World β σ → World β σ)) :
    World β σ → World β σ → Prop where
  | act (act : Transcript.Act) (hact : act ≠ .takeUnread) (w : World β σ) :
      Change h hooks w (w.mapTranscript fun t => act.perform t)
  | scroll (w : World β σ) : Change h hooks w (w.mapTranscript (·.scheduleScroll.2))
  | body (b : β) (receiver : Option Instance) (args : List Value) (w : World β σ) :
      Change h hooks w (h.run b receiver args w).2
  | hook {hook : World β σ → World β σ} (hhook : hook ∈ hooks) (w : World β σ) :
      Change h hooks w (hook w)

/-- Changes of the world in a row. -/
abbrev Changes (h : Host β σ) (hooks : List (World β σ → World β σ)) :
    World β σ → World β σ → Prop :=
  Relation.ReflTransGen (Change h hooks)

theorem changes_write (lines : List Line) (w : World β σ) : Changes h hooks w (w.write lines) :=
  .single (.act (.extend lines) nofun w)

theorem changes_info (text : Text) (w : World β σ) : Changes h hooks w (w.info text) :=
  .single (.act (.push (.info text)) nofun w)

theorem changes_report (e : ConsoleError) (w : World β σ) : Changes h hooks w (w.report e) :=
  changes_write e.reportLines w

theorem changes_foldl_hooks {run : List (World β σ → World β σ)} (hrun : run ⊆ hooks)
    (w : World β σ) : Changes h hooks w (run.foldl (fun w hook => hook w) w) := by
  induction run generalizing w with
  | nil => exact .refl
  | cons hook run ih =>
      obtain ⟨hhook, hrest⟩ := List.cons_subset.1 hrun
      exact .head (.hook hhook w) (ih hrest (hook w))

end World

open World (Changes changes_write changes_info changes_report)

/-! ## Evaluation -/

theorem Builtin.changes_printTimes (text : Text) (n : Nat) (w : World β σ) :
    Changes h hooks w (printTimes text n w) := by
  induction n generalizing w with
  | zero => exact .refl
  | succ n ih => exact (changes_info text w).trans (ih (w.info text))

theorem Builtin.changes_run (b : Builtin) (args : List Value) (w : World β σ) :
    Changes h hooks w (b.run args w).2 := by
  cases b with
  | help => exact changes_write _ w
  | clear => exact .single (.act .clear nofun w)
  | print =>
      unfold run
      dsimp only
      split
      · exact .refl
      · exact .refl
      · exact changes_printTimes _ _ w

namespace Host

theorem changes_perform (body : Body β) (receiver : Option Instance) (args : List Value)
    (w : World β σ) : Changes h hooks w (h.perform body receiver args w).2 := by
  cases body with
  | builtin b => exact b.changes_run args w
  | custom b => exact .single (.body b receiver args w)

theorem changes_runHandler (x : Handler β) (w : World β σ) :
    Changes h hooks w (h.runHandler x w).2 := by
  rcases h.world_runHandler x w with hsame | ⟨receiver, args, hrun⟩
  · rw [hsame]
  · rw [hrun]
    exact changes_perform x.body receiver args w

theorem changes_performs {w w' : World β σ} {acts : List (Act β)} (hacts : Performs h w acts w') :
    Changes h hooks w w' := by
  induction hacts with
  | nil w => exact .refl
  | describe _ ih => exact (changes_write _ _).trans ih
  | @run w w₁ w' x result acts hrun _ ih =>
      have hhandler : Changes h hooks w (h.runHandler x w).2 := changes_runHandler x w
      rw [hrun] at hhandler
      exact hhandler.trans ih
  | report _ ih => exact (changes_report _ _).trans ih

end Host

theorem Evaluator.changes_evaluate (e : Evaluator β σ) (line : Text) (w : World β σ) :
    Changes e.host hooks w (e.evaluate line w).2 :=
  Host.changes_performs (e.performs_log line w)

end

/-! ## Operations of a console -/

namespace Console

open World (Changes changes_info)

variable {c c' c'' : Console β σ}

/-- What a console does whenever it opens or closes. -/
def hooks (c : Console β σ) : List (World β σ → World β σ) := c.openHooks ++ c.closeHooks

/-- The world changes, and the hooks stay. -/
structure Follows (h : Host β σ) (c c' : Console β σ) : Prop where
  world : Changes h c.hooks c.world c'.world
  hooks : c'.hooks = c.hooks

theorem Follows.refl (c : Console β σ) : Follows h c c := ⟨.refl, rfl⟩

theorem Follows.trans (h₁ : Follows h c c') (h₂ : Follows h c' c'') : Follows h c c'' where
  world := by
    have hsecond := h₂.world
    rw [h₁.hooks] at hsecond
    exact h₁.world.trans hsecond
  hooks := h₂.hooks.trans h₁.hooks

/-- What changes neither the world nor the hooks. -/
theorem follows_of_same (hworld : c'.world = c.world) (hhooks : c'.hooks = c.hooks) :
    Follows h c c' :=
  ⟨hworld ▸ .refl, hhooks⟩

theorem follows_setText (text : Text) (c : Console β σ) : Follows h c (c.setText text) :=
  follows_of_same rfl rfl

theorem follows_navigate (direction : Direction) (c : Console β σ) :
    Follows h c (c.navigate direction) := by
  unfold navigate
  split
  · exact follows_of_same rfl rfl
  · exact follows_of_same rfl rfl

theorem follows_runHooks {hooks : List (World β σ → World β σ)} (hhooks : hooks ⊆ c.hooks) :
    Follows h c (c.runHooks hooks) :=
  ⟨World.changes_foldl_hooks hhooks c.world, rfl⟩

theorem follows_setOpen (isOpen : Bool) (c : Console β σ) : Follows h c (c.setOpen isOpen) := by
  unfold setOpen
  split
  · exact .refl c
  · split
    · have hopened : Follows h c ({ c with
            isOpen := true
            history := c.history.resetCursor
            suggestions := c.suggestions.resetCursor }.mapTranscript (·.scheduleScroll.2)) :=
        ⟨.single (.scroll c.world), rfl⟩
      exact hopened.trans (follows_runHooks (List.subset_append_left _ _))
    · have hclosed : Follows h c ({ c with isOpen := false }.setText []) :=
        follows_of_same rfl rfl
      exact hclosed.trans (follows_runHooks (List.subset_append_right _ _))

theorem follows_execute (line : Text) (c : Console β σ) : Follows h c (c.execute h line).2 :=
  ⟨(c.evaluator h).changes_evaluate line c.world, rfl⟩

theorem follows_echo (line : Text) (c : Console β σ) : Follows h c (c.echo line) :=
  ⟨changes_info ("> ".toList ++ line) c.world, rfl⟩

theorem follows_submit (c : Console β σ) : Follows h c (c.submit h).2 := by
  unfold submit
  dsimp only
  split
  · exact ⟨changes_info ">".toList c.world, rfl⟩
  · split
    · exact follows_setText _ c
    · exact (follows_echo _ c).trans (follows_execute _ _)

/-- What holds of a console, and of what an action makes of it, holds when a closed console ignores
the action. -/
theorem holds_if_open {P : Console β σ → Prop} (hstay : P c) (hact : P c') :
    P (if !c.isOpen then (false, c) else (true, c')).2 := by
  split
  · exact hstay
  · exact hact

theorem follows_handle (action : Action) (c : Console β σ) : Follows h c (c.handle h action).2 := by
  cases action with
  | toggle => exact follows_setOpen _ c
  | toggleSuggestions => exact holds_if_open (.refl c) (follows_of_same rfl rfl)
  | up => exact holds_if_open (.refl c) (follows_navigate .up c)
  | down => exact holds_if_open (.refl c) (follows_navigate .down c)
  | submit => exact holds_if_open (.refl c) (follows_submit c)

end Console

end CommandConsole

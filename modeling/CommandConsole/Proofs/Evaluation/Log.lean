import CommandConsole.Proofs.Evaluation.Run
import CommandConsole.Proofs.Invocation.Handlers

set_option autoImplicit false

/-!
# The log of a line

What the evaluation of a line does itself is little: it makes calls, one after the other; each is
described, runs handlers, and may be reported; and in the end the line itself may be.  The log
keeps these acts in order, and nothing of what the bodies do meanwhile.

The log is complete: its acts, done one after the other, lead from the world before the line to
the world after it (`performs_log`).
-/

namespace CommandConsole

/-- What an evaluation does itself. -/
inductive Act (β : Type) where
  /-- Writes the description of a call. -/
  | describe (name rawArgs : Text) (args : List Value)
  | run (r : HandlerRun β)
  | report (e : ConsoleError)

/-- One call of a line. -/
structure CallLog (β : Type) where
  name : Text
  rawArgs : Text
  args : List Value
  described : Bool
  /-- The handlers that ran. -/
  runs : List (HandlerRun β)
  /-- How the invocation ended. -/
  result : Except ConsoleError Value
  /-- The value that the line goes on with. -/
  value : Option Value

/-- The calls of a line, and the error of what is left when they do not reduce it to a value. -/
structure LineLog (β : Type) where
  calls : List (CallLog β) := []
  unresolved : Option ConsoleError := none

section

variable {β : Type}

/-- The acts of a call. -/
def CallLog.acts (c : CallLog β) : List (Act β) :=
  (if c.described then [.describe c.name c.rawArgs c.args] else []) ++ c.runs.map .run ++
    match c.result with
    | .ok _ => []
    | .error e => [.report e]

/-- The acts of a line. -/
def LineLog.acts (l : LineLog β) : List (Act β) :=
  l.calls.flatMap CallLog.acts ++ l.unresolved.toList.map .report

/-- The log with one call before the others. -/
def LineLog.cons (c : CallLog β) (l : LineLog β) : LineLog β := { l with calls := c :: l.calls }

theorem LineLog.acts_cons (c : CallLog β) (l : LineLog β) :
    (l.cons c).acts = c.acts ++ l.acts := by
  simp [LineLog.acts, LineLog.cons]

end

/-! ## Acts change the world -/

section

variable {β σ : Type} {h : Host β σ}

/-- The acts, done one after the other, lead from one world to another. -/
inductive Performs (h : Host β σ) : World β σ → List (Act β) → World β σ → Prop where
  | nil (w : World β σ) : Performs h w [] w
  | describe {w w' : World β σ} {name rawArgs : Text} {args : List Value} {acts : List (Act β)}
      (hrest : Performs h (w.write (Evaluator.description name rawArgs args)) acts w') :
      Performs h w (.describe name rawArgs args :: acts) w'
  | run {w w₁ w' : World β σ} {x : Handler β} {result : Except Fault Value}
      {acts : List (Act β)} (hrun : h.runHandler x w = (result, w₁))
      (hrest : Performs h w₁ acts w') :
      Performs h w (.run ⟨x, result⟩ :: acts) w'
  | report {w w' : World β σ} {e : ConsoleError} {acts : List (Act β)}
      (hrest : Performs h (w.report e) acts w') :
      Performs h w (.report e :: acts) w'

namespace Performs

variable {w w₁ w₂ : World β σ} {acts acts' : List (Act β)}

theorem append (h₁ : Performs h w acts w₁) (h₂ : Performs h w₁ acts' w₂) :
    Performs h w (acts ++ acts') w₂ := by
  induction h₁ with
  | nil => exact h₂
  | describe _ ih => exact .describe (ih h₂)
  | run hrun _ ih => exact .run hrun (ih h₂)
  | report _ ih => exact .report (ih h₂)

theorem runHandlers (xs : List (Handler β)) (w : World β σ) :
    Performs h w ((h.runHandlers xs w).1.map .run) (h.runHandlers xs w).2 := by
  induction xs generalizing w with
  | nil => exact .nil w
  | cons x rest ih => exact .run rfl (ih _)

end Performs

end

/-! ## The log of an evaluation -/

namespace Host

variable {β σ : Type} (h : Host β σ)

/-- The handlers that a call runs. -/
def runsOf (name : Text) (args : List Value) (w : World β σ) : List (HandlerRun β) :=
  match w.registry.resolve name args.length with
  | .found c => (h.runHandlers (h.handlers c args w) w).1
  | _ => []

/-- The world changes by the handlers of a call alone. -/
theorem performs_invoke (name : Text) (args : List Value) (w : World β σ) :
    Performs h w ((h.runsOf name args w).map .run) (h.invoke name args w).2 := by
  unfold invoke runsOf
  cases w.registry.resolve name args.length with
  | notFound => exact .nil w
  | arityMismatch candidates => exact .nil w
  | found c =>
      simp only [runCommand_eq]
      have hruns := Performs.runHandlers (h := h) (h.handlers c args w) w
      rcases hresult : combine ((h.runHandlers (h.handlers c args w) w).1.map HandlerRun.result)
        with f | v <;> exact hruns

end Host

namespace Evaluator

variable {β σ : Type} (e : Evaluator β σ)

/-- The log of a call. -/
def callLog (name rawArgs : Text) (args : List Value) (w : World β σ) : CallLog β where
  name := name
  rawArgs := rawArgs
  args := args
  described := e.functionInfo
  runs := e.host.runsOf name args (e.trace name rawArgs args w)
  result := (e.host.invoke name args (e.trace name rawArgs args w)).1
  value := (e.call name rawArgs args w).1

/-- The log of a reduction. -/
def reduceLog (line : Text) (r : Reduction) (w : World β σ) : LineLog β :=
  match h : r.step? with
  | some s =>
    let c := e.callLog s.site.name s.site.args s.args w
    match e.call s.site.name s.site.args s.args w with
    | (none, _) => { calls := [c] }
    | (some v, w) =>
      have := Reduction.openings_resume_lt h v
      (reduceLog line (s.resume v) w).cons c
  | none =>
    match r.value? with
    | some _ => {}
    | none => { unresolved := some (.unresolved line) }
termination_by Reduction.openings r.text

/-- The log of the evaluation of a submitted line. -/
def log (line : Text) (w : World β σ) : LineLog β :=
  let line := Text.trim line
  if line.isEmpty then {}
  else if Completion.hasParenthesis line then e.reduceLog line (Reduction.start line) w
  else if e.quickCommands then { calls := [e.callLog line [] [] w] }
  else { unresolved := some (.unresolved line) }

variable {e} {line : Text} {r : Reduction} {w : World β σ}

theorem reduceLog_of_step {s : Reduction.Step} (h : r.step? = some s) :
    e.reduceLog line r w =
      match e.call s.site.name s.site.args s.args w with
      | (none, _) => { calls := [e.callLog s.site.name s.site.args s.args w] }
      | (some v, w') =>
        (e.reduceLog line (s.resume v) w').cons (e.callLog s.site.name s.site.args s.args w) := by
  rw [reduceLog]
  split
  · rename_i t ht
    rw [h] at ht
    cases ht
    rfl
  · rename_i ht
    rw [h] at ht
    cases ht

/-- The log of what goes on after a call. -/
def goOnLog (e : Evaluator β σ) (line : Text) (s : Reduction.Step) :
    Option Value → World β σ → LineLog β
  | none, _ => {}
  | some v, w => e.reduceLog line (s.resume v) w

theorem reduceLog_eq_goOnLog {s : Reduction.Step} (hs : r.step? = some s) (w : World β σ) :
    e.reduceLog line r w =
      (e.goOnLog line s (e.call s.site.name s.site.args s.args w).1
        (e.call s.site.name s.site.args s.args w).2).cons
          (e.callLog s.site.name s.site.args s.args w) := by
  rw [reduceLog_of_step hs]
  rcases e.call s.site.name s.site.args s.args w with ⟨_ | v, w'⟩ <;> rfl

theorem reduceLog_of_no_step (h : r.step? = none) :
    e.reduceLog line r w =
      match r.value? with
      | some _ => {}
      | none => { unresolved := some (.unresolved line) } := by
  rw [reduceLog]
  split
  · rename_i t ht
    rw [h] at ht
    cases ht
  · rfl

/-- The log of a line with a parenthesis is that of its reduction. -/
theorem log_of_hasParenthesis (h : Completion.hasParenthesis (Text.trim line) = true) :
    e.log line w = e.reduceLog (Text.trim line) (Reduction.start (Text.trim line)) w := by
  simp [log, isEmpty_of_hasParenthesis h, h]

theorem log_of_blank (h : Text.trim line = []) : e.log line w = {} := by
  simp [log, h]

/-- The log of a line without parentheses is that of one call. -/
theorem log_quick (hquick : e.quickCommands = true) (hne : Text.trim line ≠ [])
    (hflat : Completion.hasParenthesis (Text.trim line) = false) :
    e.log line w = { calls := [e.callLog (Text.trim line) [] [] w] } := by
  have hink : (Text.trim line).isEmpty = false := by simpa using hne
  simp [log, hink, hflat, hquick]

theorem log_not_quick (hquick : e.quickCommands = false) (hne : Text.trim line ≠ [])
    (hflat : Completion.hasParenthesis (Text.trim line) = false) :
    e.log line w = { unresolved := some (.unresolved (Text.trim line)) } := by
  have hink : (Text.trim line).isEmpty = false := by simpa using hne
  simp [log, hink, hflat, hquick]

/-- The log of `g(f())` has the call of `f`, and then that of `g` with the value. -/
theorem log_nested {w₁ w' : World β σ} {v u : Value} (hline : Text.trim line = "g(f())".toList)
    (hinner : e.call "f".toList [] [] w = (some v, w₁))
    (houter : e.call "g".toList "f2".toList [v] w₁ = (some u, w')) :
    e.log line w =
      { calls := [e.callLog "f".toList [] [] w, e.callLog "g".toList "f2".toList [v] w₁] } := by
  have hparen : Completion.hasParenthesis (Text.trim line) = true := hline ▸ rfl
  have hdone : e.reduceLog (Text.trim line) ((outerStep v).resume u) w' = {} := by
    rw [reduceLog_of_no_step (Reduction.step?_resume_of_alone (step?_outer v) rfl rfl u),
      Reduction.value?_resume_of_alone (step?_outer v) rfl rfl u]
  have houterLog : e.reduceLog (Text.trim line) (innerStep.resume v) w₁ =
      { calls := [e.callLog "g".toList "f2".toList [v] w₁] } := by
    rw [reduceLog_eq_goOnLog (step?_outer v), outerStep, houter]
    exact congrArg (LineLog.cons _) hdone
  rw [log_of_hasParenthesis hparen, reduceLog_eq_goOnLog (hline ▸ step?_inner), innerStep, hinner]
  exact congrArg (LineLog.cons _) houterLog

/-- A property of the states of a reduction holds of all of them, if it holds of the states in
which the reduction ends, and of any other state when it holds of the next one. -/
theorem reduction_induct (e : Evaluator β σ) {P : Reduction → World β σ → Prop}
    (done : ∀ r w, r.step? = none → P r w)
    (halted : ∀ r w s w', r.step? = some s →
      e.call s.site.name s.site.args s.args w = (none, w') → P r w)
    (next : ∀ r w s v w', r.step? = some s →
      e.call s.site.name s.site.args s.args w = (some v, w') → P (s.resume v) w' → P r w)
    (r : Reduction) (w : World β σ) : P r w := by
  induction hn : Reduction.openings r.text using Nat.strongRecOn generalizing r w with
  | ind n ih =>
      subst hn
      cases hs : r.step? with
      | none => exact done r w hs
      | some s =>
          rcases hcall : e.call s.site.name s.site.args s.args w with ⟨_ | v, w'⟩
          · exact halted r w s w' hs hcall
          · exact next r w s v w' hs hcall
              (ih _ (Reduction.openings_resume_lt hs v) (s.resume v) w' rfl)

/-! ## The log is complete -/

/-- The world changes by the acts of a call alone. -/
theorem performs_callLog (e : Evaluator β σ) (name rawArgs : Text) (args : List Value)
    (w : World β σ) :
    Performs e.host w (e.callLog name rawArgs args w).acts (e.call name rawArgs args w).2 := by
  have hdescribed : Performs e.host w
      (if e.functionInfo then [.describe name rawArgs args] else [])
      (e.trace name rawArgs args w) := by
    unfold trace
    split
    · exact .describe (.nil _)
    · exact .nil w
  have hruns := hdescribed.append
    (e.host.performs_invoke name args (e.trace name rawArgs args w))
  unfold CallLog.acts callLog call
  rcases hinvoke : e.host.invoke name args (e.trace name rawArgs args w) with ⟨err | v, w'⟩
  · rw [hinvoke] at hruns
    have hreport := hruns.append (.report (e := err) (.nil _))
    cases err <;> exact hreport
  · rw [hinvoke] at hruns
    simpa using hruns

theorem performs_reduceLog (e : Evaluator β σ) (line : Text) (r : Reduction) (w : World β σ) :
    Performs e.host w (e.reduceLog line r w).acts (e.reduce line r w).2 := by
  induction r, w using e.reduction_induct with
  | done r w hs =>
      rw [reduceLog_of_no_step hs, reduce_of_no_step hs]
      cases r.value? with
      | some v => exact .nil w
      | none => exact .report (.nil _)
  | halted r w s w' hs hcall =>
      have hacts := performs_callLog e s.site.name s.site.args s.args w
      rw [reduceLog_of_step hs, reduce_of_step hs]
      rw [hcall] at hacts ⊢
      simpa [LineLog.acts] using hacts
  | next r w s v w' hs hcall ih =>
      have hacts := performs_callLog e s.site.name s.site.args s.args w
      rw [reduceLog_of_step hs, reduce_of_step hs]
      rw [hcall] at hacts ⊢
      rw [LineLog.acts_cons]
      exact hacts.append ih

/-- The world changes by the acts of a line alone. -/
theorem performs_log (e : Evaluator β σ) (line : Text) (w : World β σ) :
    Performs e.host w (e.log line w).acts (e.evaluate line w).2 := by
  unfold log evaluate
  dsimp only
  split
  · exact .nil w
  · split
    · exact performs_reduceLog e _ _ w
    · split
      · simpa [LineLog.acts] using performs_callLog e (Text.trim line) [] [] w
      · exact .report (.nil _)

end Evaluator

end CommandConsole

import CommandConsole.Proofs.Invocation.Handlers
import CommandConsole.Proofs.Transcript.Keeping

set_option autoImplicit false

/-!
# Bodies that do not read the transcript

A body that does not read the transcript may still write to it and clear it.  What it does to the
transcript, and all else that it does, is then the same with every transcript that its world may
have (`Yields`).  The console's own bodies are of this kind.  If the bodies of the host are as well
(`Host.Blind`), so are the handlers of a call, one by one and one after the other, and the call
itself: which handlers a call has, and on which receivers, is not asked of the transcript either.
-/

namespace CommandConsole

namespace World

variable {β σ α γ : Type}

/-- The world with another transcript. -/
def withTranscript (t : Transcript) (w : World β σ) : World β σ := { w with transcript := t }

@[simp]
theorem withTranscript_transcript (w : World β σ) : w.withTranscript w.transcript = w := rfl

@[simp]
theorem registry_withTranscript (t : Transcript) (w : World β σ) :
    (w.withTranscript t).registry = w.registry := rfl

/-- With every transcript, a run from the world has the result and leaves the other world, and what
it does to the transcript are the acts. -/
def Yields (run : World β σ → α × World β σ) (w : World β σ) (acts : List Transcript.Act) (a : α)
    (w' : World β σ) : Prop :=
  ∀ t, ∃ t', run (w.withTranscript t) = (a, w'.withTranscript t') ∧ Transcript.Does acts t t'

/-- The run from a world does not read its transcript. -/
def Blind (run : World β σ → α × World β σ) (w : World β σ) : Prop :=
  ∃ acts a w', Yields run w acts a w'

variable {run run' : World β σ → α × World β σ} {w w' w'' : World β σ} {a : α} {c : γ}
  {acts acts' : List Transcript.Act}

namespace Yields

theorem pure (a : α) (w : World β σ) : Yields (fun w => (a, w)) w [] a w :=
  fun t => ⟨t, rfl, t.scroll, rfl⟩

theorem write (a : α) (lines : List Line) (w : World β σ) :
    Yields (fun w => (a, w.write lines)) w [.extend lines] a w :=
  fun t => ⟨t.extend lines, rfl, (t.extend lines).scroll, rfl⟩

theorem congr (h : Yields run w acts a w')
    (heq : ∀ t, run' (w.withTranscript t) = run (w.withTranscript t)) : Yields run' w acts a w' :=
  fun t => by rw [heq]; exact h t

theorem bind (h : Yields run w acts a w') (next : α → World β σ → γ × World β σ)
    (hnext : Yields (next a) w' acts' c w'') :
    Yields (fun w => next (run w).1 (run w).2) w (acts ++ acts') c w'' := by
  intro t
  obtain ⟨t₁, hrun, hacts⟩ := h t
  obtain ⟨t₂, hrun', hacts'⟩ := hnext t₁
  refine ⟨t₂, ?_, hacts.append hacts'⟩
  dsimp only
  rw [hrun, hrun']

theorem map (h : Yields run w acts a w') (f : α → γ) :
    Yields (fun w => (f (run w).1, (run w).2)) w acts (f a) w' := by
  intro t
  obtain ⟨t', hrun, hacts⟩ := h t
  refine ⟨t', ?_, hacts⟩
  dsimp only
  rw [hrun]

/-- The result is the same with every transcript. -/
theorem fst_eq (h : Yields run w acts a w') (t : Transcript) :
    (run (w.withTranscript t)).1 = a := by
  obtain ⟨t', hrun, -⟩ := h t
  rw [hrun]

/-- The world that a run leaves is the one that the actual run leaves, but for the transcript. -/
theorem of_eq (h : Yields run w acts a w') {b : α} (heq : run w = (b, w'')) :
    Yields run w acts b w'' := by
  obtain ⟨t', hrun, -⟩ := h w.transcript
  rw [withTranscript_transcript, heq, Prod.mk.injEq] at hrun
  obtain ⟨rfl, rfl⟩ := hrun
  exact h

/-- The acts are what the actual run does to the transcript. -/
theorem does (h : Yields run w acts a w') :
    Transcript.Does acts w.transcript (run w).2.transcript := by
  obtain ⟨t', hrun, hacts⟩ := h w.transcript
  rw [withTranscript_transcript] at hrun
  rw [hrun]
  exact hacts

end Yields

namespace Blind

theorem bind (h : Blind run w) (next : α → World β σ → γ × World β σ)
    (hnext : ∀ a w, Blind (next a) w) : Blind (fun w => next (run w).1 (run w).2) w := by
  obtain ⟨acts, a, w', hrun⟩ := h
  obtain ⟨acts', c, w'', hrun'⟩ := hnext a w'
  exact ⟨_, c, w'', hrun.bind next hrun'⟩

theorem map (h : Blind run w) (f : α → γ) : Blind (fun w => (f (run w).1, (run w).2)) w := by
  obtain ⟨acts, a, w', hrun⟩ := h
  exact ⟨acts, f a, w', hrun.map f⟩

theorem congr (h : Blind run w)
    (heq : ∀ t, run' (w.withTranscript t) = run (w.withTranscript t)) : Blind run' w := by
  obtain ⟨acts, a, w', hrun⟩ := h
  exact ⟨acts, a, w', hrun.congr heq⟩

theorem fst_eq (h : Blind run w) (t : Transcript) : (run (w.withTranscript t)).1 = (run w).1 := by
  obtain ⟨acts, a, w', hrun⟩ := h
  exact (hrun.fst_eq t).trans (hrun.fst_eq w.transcript).symm

theorem exists_yields (h : Blind run w) (heq : run w = (a, w')) :
    ∃ acts, Yields run w acts a w' := by
  obtain ⟨acts, _, _, hrun⟩ := h
  exact ⟨acts, hrun.of_eq heq⟩

end Blind

end World

open World (Yields)

/-! ## The console's own bodies -/

namespace Builtin

variable {β σ : Type}

theorem yields_printTimes (text : Text) (n : Nat) (a : Outcome) (w : World β σ) :
    Yields (fun w => (a, printTimes text n w)) w (List.replicate n (.push (.info text))) a w := by
  induction n with
  | zero => exact .pure a w
  | succ n ih =>
      have hline : Yields (fun w => ((), w.info text)) w [.push (.info text)] () w :=
        fun t => ⟨t.push (.info text), rfl, (t.push (.info text)).scroll, rfl⟩
      exact hline.bind (fun _ w => (a, printTimes text n w)) ih

theorem blind_run (b : Builtin) (args : List Value) (w : World β σ) :
    World.Blind (b.run args) w := by
  cases b with
  | help =>
      exact ⟨_, .value .nil, w,
        (Yields.write _ ((Help.lines w.registry.descriptors).map Line.info) w).congr fun _ => rfl⟩
  | clear => exact ⟨[.clear], .value .nil, w, fun t => ⟨t.clear, rfl, t.scroll, rfl⟩⟩
  | print =>
      cases htext : Args.text args 0 with
      | error f => exact ⟨[], .fault f, w, (Yields.pure _ w).congr fun t => by simp [run, htext]⟩
      | ok text =>
          cases htimes : Args.int args 1 with
          | error f =>
              exact ⟨[], .fault f, w,
                (Yields.pure _ w).congr fun t => by simp [run, htext, htimes]⟩
          | ok times =>
              exact ⟨_, .value .nil, w, (yields_printTimes text times.toInt.toNat _ w).congr
                fun t => by simp [run, htext, htimes]⟩

end Builtin

/-! ## The bodies of a host -/

/-- The result of an action, which counts only if it is a panic. -/
def Outcome.actionResult : Outcome → Except Fault Value
  | .value _ => .ok .nil
  | .fault _ => .ok .nil
  | .panic message => (Outcome.panic message).toExcept

namespace Host

variable {β σ : Type} {h : Host β σ}

/-- No body of the host reads the transcript. -/
def Blind (h : Host β σ) : Prop :=
  ∀ body receiver args w, World.Blind (h.run body receiver args) w

theorem Blind.perform (hblind : h.Blind) (body : Body β) (receiver : Option Instance)
    (args : List Value) (w : World β σ) : World.Blind (h.perform body receiver args) w := by
  cases body with
  | builtin b => exact Builtin.blind_run b args w
  | custom b => exact hblind b receiver args w

theorem Blind.runHandler (hblind : h.Blind) (x : Handler β) (w : World β σ) :
    World.Blind (h.runHandler x) w := by
  cases x with
  | action body =>
      refine ((hblind.perform body none [] w).map Outcome.actionResult).congr fun t => ?_
      rcases hrun : h.perform body none [] (w.withTranscript t) with ⟨outcome, w'⟩
      cases outcome <;> simp only [Host.runHandler, hrun, Outcome.actionResult]
  | bound body args =>
      exact ((hblind.perform body none args w).map Outcome.toExcept).congr fun _ => rfl
  | method type body receiver args =>
      by_cases htype : receiver.type = type
      · refine ((hblind.perform body (some receiver) args w).map Outcome.toExcept).congr fun t => ?_
        exact if_pos htype
      · exact ⟨[], _, w, (Yields.pure _ w).congr fun t => if_neg htype⟩

theorem Blind.runHandlers (hblind : h.Blind) (xs : List (Handler β)) (w : World β σ) :
    World.Blind (h.runHandlers xs) w := by
  induction xs generalizing w with
  | nil => exact ⟨[], [], w, .pure _ w⟩
  | cons x rest ih =>
      exact (hblind.runHandler x w).bind (fun result w =>
        (⟨x, result⟩ :: (h.runHandlers rest w).1, (h.runHandlers rest w).2)) fun result w =>
          (ih w).map (⟨x, result⟩ :: ·)

@[simp]
theorem handlers_withTranscript (c : Command β) (args : List Value) (t : Transcript)
    (w : World β σ) : h.handlers c args (w.withTranscript t) = h.handlers c args w := rfl

theorem Blind.runCommand (hblind : h.Blind) (c : Command β) (args : List Value) (w : World β σ) :
    World.Blind (h.runCommand c args) w := by
  refine ((hblind.runHandlers (h.handlers c args w) w).map
    fun runs => combine (runs.map HandlerRun.result)).congr fun t => ?_
  rw [runCommand_eq, handlers_withTranscript]

theorem Blind.invoke (hblind : h.Blind) (name : Text) (args : List Value) (w : World β σ) :
    World.Blind (h.invoke name args) w := by
  cases hresolve : w.registry.resolve name args.length with
  | notFound =>
      refine ⟨[], _, w, (Yields.pure (.error (.notFound name)) w).congr fun t => ?_⟩
      exact h.invoke_of_notFound hresolve
  | arityMismatch candidates =>
      refine ⟨[], _, w, (Yields.pure (.error (.arityMismatch name
        (candidates.map Descriptor.signature) (args.map Value.kindName))) w).congr fun t => ?_⟩
      rw [Host.invoke, World.registry_withTranscript, hresolve]
  | found c =>
      refine ((hblind.runCommand c args w).map (Except.mapError (.invocationFault name))).congr
        fun t => ?_
      rw [Host.invoke, World.registry_withTranscript, hresolve]
      dsimp only
      rcases h.runCommand c args (w.withTranscript t) with ⟨_ | v, w'⟩ <;> rfl

end Host

end CommandConsole

import CommandConsole.Proofs.Invocation.Handlers

set_option autoImplicit false

/-!
# Dispatch of a method to its receivers

The receivers of a method are settled when its call begins, and what the handlers change later does
not matter to them.  The method runs on each of them, one after the other and whatever becomes of
the ones before (`RunsInTurn`); only when the last one has run are the results made into an answer
(`Answers`).  Every call of a method is of this form, and in one way only (`dispatchesOnce`).
-/

namespace CommandConsole

namespace Host

variable {β σ : Type}

/-! ## One receiver after the other -/

/-- How a method ends on one receiver: with which result, and in which world. -/
inductive Handles (h : Host β σ) (type : TypeKey) (body : Body β) (args : List Value)
    (receiver : Instance) (w : World β σ) : Except Fault Value → World β σ → Prop where
  | returns {v : Value} {w' : World β σ} (htype : receiver.type = type)
      (hrun : h.perform body (some receiver) args w = (.value v, w')) :
      Handles h type body args receiver w (.ok v) w'
  | faults {f : Fault} {w' : World β σ} (htype : receiver.type = type)
      (hrun : h.perform body (some receiver) args w = (.fault f, w')) :
      Handles h type body args receiver w (.error f) w'
  | panics {message : Option Text} {w' : World β σ} (htype : receiver.type = type)
      (hrun : h.perform body (some receiver) args w = (.panic message, w')) :
      Handles h type body args receiver w
        (.error ⟨message.getD "command panicked".toList⟩) w'
  /-- The body does not run on a receiver that is not of the method's type. -/
  | mistyped (htype : receiver.type ≠ type) :
      Handles h type body args receiver w (.error ⟨"receiver is not a ".toList ++ type.name⟩) w

/-- A method runs on receivers, each time in the world that the receiver before has left. -/
inductive RunsInTurn (h : Host β σ) (type : TypeKey) (body : Body β) (args : List Value) :
    List Instance → World β σ → List (Except Fault Value) → World β σ → Prop where
  | done (w : World β σ) : RunsInTurn h type body args [] w [] w
  | next {receiver : Instance} {rest : List Instance} {result : Except Fault Value}
      {results : List (Except Fault Value)} {w w₁ w' : World β σ}
      (hfirst : Handles h type body args receiver w result w₁)
      (hrest : RunsInTurn h type body args rest w₁ results w') :
      RunsInTurn h type body args (receiver :: rest) w (result :: results) w'

section

variable {h : Host β σ} {type : TypeKey} {body : Body β} {args : List Value}

theorem handles_iff {receiver : Instance} {w w' : World β σ} {result : Except Fault Value} :
    Handles h type body args receiver w result w' ↔
      h.runOn type body args receiver w = (result, w') := by
  unfold runOn
  constructor
  · rintro (⟨htype, hrun⟩ | ⟨htype, hrun⟩ | ⟨htype, hrun⟩ | htype)
    · rw [if_pos htype, hrun]
      rfl
    · rw [if_pos htype, hrun]
      rfl
    · rw [if_pos htype, hrun]
      rfl
    · rw [if_neg htype]
  · intro hends
    split at hends
    · rename_i htype
      rcases hrun : h.perform body (some receiver) args w with ⟨v | f | message, w₁⟩ <;>
        rw [hrun] at hends <;> cases hends
      · exact .returns htype hrun
      · exact .faults htype hrun
      · exact .panics htype hrun
    · rename_i htype
      cases hends
      exact .mistyped htype

/-- The runs on receivers are what `runOnEach` does. -/
theorem runsInTurn_iff {receivers : List Instance} {w w' : World β σ}
    {results : List (Except Fault Value)} :
    RunsInTurn h type body args receivers w results w' ↔
      h.runOnEach type body args receivers w = (results, w') := by
  induction receivers generalizing w w' results with
  | nil =>
      constructor
      · intro hruns
        cases hruns
        rfl
      · intro hends
        cases hends
        exact .done w
  | cons receiver rest ih =>
      constructor
      · intro hruns
        cases hruns with
        | next hfirst hrest =>
            rw [runOnEach, handles_iff.1 hfirst]
            simp only [ih.1 hrest]
      · intro hends
        rw [runOnEach] at hends
        cases hends
        exact .next (handles_iff.2 rfl) (ih.2 rfl)

/-- There is one result for each receiver. -/
theorem RunsInTurn.length_eq {receivers : List Instance} {w w' : World β σ}
    {results : List (Except Fault Value)}
    (hruns : RunsInTurn h type body args receivers w results w') :
    results.length = receivers.length := by
  induction hruns with
  | done w => rfl
  | next _ _ ih => rw [List.length_cons, List.length_cons, ih]

end

/-! ## The answer -/

/-- The answer of a call to the results of its receivers. -/
inductive Answers (name : Text) :
    List (Except Fault Value) → Except ConsoleError Value → Prop where
  | nothing : Answers name [] (.ok .nil)
  | value (v : Value) : Answers name [.ok v] (.ok v)
  | fault (f : Fault) : Answers name [.error f] (.error (.invocationFault name f))
  /-- The values of several receivers are dropped. -/
  | dropped {results : List (Except Fault Value)} (hseveral : 2 ≤ results.length)
      (hvalues : ∀ result ∈ results, ∃ v, result = .ok v) : Answers name results (.ok .nil)
  /-- Of several faults the first one counts. -/
  | first {before after : List (Except Fault Value)} {f : Fault}
      (hseveral : 2 ≤ (before ++ .error f :: after).length)
      (hvalues : ∀ result ∈ before, ∃ v, result = .ok v) :
      Answers name (before ++ .error f :: after) (.error (.invocationFault name f))

/-- Either all results are values, or one fault comes before all others. -/
theorem values_or_first (results : List (Except Fault Value)) :
    ((∀ result ∈ results, ∃ v, result = .ok v) ∧ firstFault? results = none) ∨
      ∃ before f after, results = before ++ .error f :: after ∧
        (∀ result ∈ before, ∃ v, result = .ok v) ∧ firstFault? results = some f := by
  induction results with
  | nil => exact Or.inl ⟨nofun, rfl⟩
  | cons result rest ih =>
      cases result with
      | error f => exact Or.inr ⟨[], f, rest, rfl, nofun, rfl⟩
      | ok v =>
          rcases ih with ⟨hvalues, hnone⟩ | ⟨before, f, after, rfl, hvalues, hsome⟩
          · exact Or.inl ⟨List.forall_mem_cons.2 ⟨⟨v, rfl⟩, hvalues⟩, hnone⟩
          · exact Or.inr ⟨.ok v :: before, f, after, rfl,
              List.forall_mem_cons.2 ⟨⟨v, rfl⟩, hvalues⟩, hsome⟩

theorem combine_of_several {results : List (Except Fault Value)} (hseveral : 2 ≤ results.length) :
    combine results =
      match firstFault? results with
      | some f => .error f
      | none => .ok .nil := by
  match results, hseveral with
  | _ :: _ :: _, _ => rfl

/-- A call answers to the results of its receivers by what `combine` makes of them. -/
theorem answers_combine (name : Text) (results : List (Except Fault Value)) :
    Answers name results ((combine results).mapError (.invocationFault name)) := by
  match results with
  | [] => exact .nothing
  | [.ok v] => exact .value v
  | [.error f] => exact .fault f
  | r₁ :: r₂ :: rest =>
      have hseveral : 2 ≤ (r₁ :: r₂ :: rest).length := by simp
      rw [combine_of_several hseveral]
      generalize r₁ :: r₂ :: rest = results at hseveral
      rcases values_or_first results with ⟨hvalues, hnone⟩ | ⟨before, f, after, rfl, hvalues, hsome⟩
      · rw [hnone]
        exact .dropped hseveral hvalues
      · rw [hsome]
        exact .first hseveral hvalues

/-! ## Calls -/

/-- A method runs once on each of the receivers, in order, and the call answers to the results;
and that is the only way in which it can run on them. -/
structure DispatchesOnce (h : Host β σ) (type : TypeKey) (body : Body β) (args : List Value)
    (receivers : List Instance) (name : Text) (w : World β σ)
    (answer : Except ConsoleError Value × World β σ) : Prop where
  runs : ∃ results, RunsInTurn h type body args receivers w results answer.2 ∧
    results.length = receivers.length ∧ Answers name results answer.1
  only : ∀ results w', RunsInTurn h type body args receivers w results w' →
    Answers name results answer.1 ∧ answer.2 = w'

/-- A call that resolves to a method runs the method once on each receiver that its target mode
yields before. -/
theorem dispatchesOnce (h : Host β σ) {name : Text} {args : List Value} {w : World β σ}
    {c : Command β} {type : TypeKey} {body : Body β}
    (hfound : w.registry.resolve name args.length = .found c)
    (hmethod : c.invoker = .method type body) :
    DispatchesOnce h type body args (h.targets type c.descriptor.targetMode w) name w
      (h.invoke name args w) := by
  rcases hruns : h.runOnEach type body args (h.targets type c.descriptor.targetMode w) w
    with ⟨results, w'⟩
  have hinvoke : h.invoke name args w =
      ((combine results).mapError (.invocationFault name), w') := by
    rw [invoke, hfound]
    simp only [runCommand, hmethod, hruns]
    cases combine results <;> rfl
  have hturns := runsInTurn_iff.2 hruns
  rw [hinvoke]
  refine ⟨⟨results, hturns, hturns.length_eq, answers_combine name results⟩, ?_⟩
  intro results₂ w₂ hturns₂
  have hsame := hruns.symm.trans (runsInTurn_iff.1 hturns₂)
  cases hsame
  exact ⟨answers_combine name results, rfl⟩

/-! ## Handlers that change the receivers -/

def lampType : TypeKey := ⟨0, "Lamp".toList⟩

/-- A host whose state is a pool and the receivers that have run.  Its body takes the receiver out
of the pool and adds another one; the first receiver has a value, the second panics, and every other
one faults. -/
def lampHost : Host Unit (InstancePool × List Nat) where
  run := fun _ receiver _ w =>
    match receiver with
    | none => (.value .nil, w)
    | some i =>
      let pool := ((w.host.1.despawn i).2.spawn i.type).2
      let outcome : Outcome :=
        match i.serial with
        | 0 => .value .nil
        | 1 => .panic none
        | _ => .fault ⟨"broken".toList⟩
      (outcome, { w with host := (pool, w.host.2 ++ [i.serial]) })
  lookup := .ofPool Prod.fst

/-- The command that runs the body on all lamps. -/
def flick : Command Unit := .method lampType "flick".toList [] .all (.custom ())

/-- A world with three lamps. -/
def lampWorld : World Unit (InstancePool × List Nat) where
  registry := { commands := [flick] }
  transcript := .empty 1000
  log := {}
  host := ((((({} : InstancePool).spawn lampType).2.spawn lampType).2.spawn lampType).2, [])

/-- All three lamps run, and none of those that were added; the panic is the first fault. -/
theorem dispatchesOnce_lamps :
    DispatchesOnce lampHost lampType (.custom ()) [] (lampHost.targets lampType .all lampWorld)
        "flick".toList lampWorld (lampHost.invoke "flick".toList [] lampWorld) ∧
      lampHost.targets lampType .all lampWorld =
        [⟨lampType, 0⟩, ⟨lampType, 1⟩, ⟨lampType, 2⟩] ∧
      (lampHost.invoke "flick".toList [] lampWorld).2.host.2 = [0, 1, 2] ∧
      (lampHost.invoke "flick".toList [] lampWorld).1 =
        .error (.invocationFault "flick".toList ⟨"command panicked".toList⟩) :=
  ⟨dispatchesOnce lampHost (c := flick) rfl rfl, rfl, rfl, rfl⟩

end Host

end CommandConsole

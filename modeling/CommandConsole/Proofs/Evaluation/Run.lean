import CommandConsole.Evaluation
import CommandConsole.Proofs.Reduction.Pending
import CommandConsole.Proofs.Reduction.Placeholder

set_option autoImplicit false

/-!
# The run of a line

`reduce` as a run: `Reaches` says which states a reduction passes, from a state and a world, call
after call.  A run can be entered at any state that it passes (`reduce_of_reaches`), and every run
comes to a state from which no call leads on, either because none is left or because the next one
has no value (`exists_stops`).
-/

namespace CommandConsole

/-! ## What a step is -/

namespace Reduction

@[simp] theorem start_text (line : Text) : (start line).text = line := rfl

/-- A step cuts the line around its call. -/
theorem line_of_step? {r : Reduction} {s : Step} (h : r.step? = some s) :
    s.site.line = r.text := by
  obtain ⟨site, hsite, rfl⟩ := Option.map_eq_some_iff.1 h
  exact CallSite.line_of_innermost? hsite

theorem isCall_of_step? {r : Reduction} {s : Step} (h : r.step? = some s) : s.site.IsCall := by
  obtain ⟨site, hsite, rfl⟩ := Option.map_eq_some_iff.1 h
  exact CallSite.isCall_of_innermost? hsite

/-- A step takes its arguments from the values that wait. -/
theorem arguments_of_step? {r : Reduction} {s : Step} (h : r.step? = some s) :
    Pending.arguments (Field.split s.site.args) r.pending = (s.args, s.pending) := by
  obtain ⟨site, hsite, rfl⟩ := Option.map_eq_some_iff.1 h
  rfl

/-- The placeholder of a step is a word. -/
theorem word_of_choose {r : Reduction} {s : Step} (h : r.step? = some s) :
    ∀ c ∈ Placeholder.choose s.site s.pending, Text.isWordChar c = true :=
  fun _ hc => Placeholder.isWordChar_of_mem_choose (isCall_of_step? h).word hc

/-- A word holds no call. -/
theorem step?_of_word {t : Text} (h : ∀ c ∈ t, Text.isWordChar c = true) (p : Pending)
    (last : Option Text) : step? ⟨t, p, last⟩ = none := by
  rw [step?, CallSite.innermost?_eq_none, Option.map_none]
  exact Text.not_mem_of_word h (by decide)

/-- The value of a line that is a placeholder waits under it. -/
theorem value?_of_word {key : Text} {p : Pending} {v : Value}
    (hword : ∀ c ∈ key, Text.isWordChar c = true) (hkey : Pending.find? key p = some v) :
    value? ⟨key, p, some key⟩ = some v := by
  rw [value?]
  exact (if_pos (Text.trimmed_of_word hword).trim_eq.symm).trans hkey

section

variable {r : Reduction} {s : Step} (hs : r.step? = some s) (hbefore : s.site.before = [])
  (hafter : s.site.after = [])
include hs hbefore hafter

/-- After a call that is the whole line, no call is left. -/
theorem step?_resume_of_alone (v : Value) : (s.resume v).step? = none := by
  rw [Step.resume, CallSite.replace, hbefore, hafter, List.append_nil, List.nil_append]
  exact step?_of_word (word_of_choose hs) _ _

/-- The value of a call that is the whole line is that of the line. -/
theorem value?_resume_of_alone (v : Value) : (s.resume v).value? = some v := by
  rw [Step.resume, CallSite.replace, hbefore, hafter, List.append_nil, List.nil_append]
  refine value?_of_word (word_of_choose hs) ?_
  rw [Pending.find?_cons, if_pos rfl]

end

end Reduction

/-! ## Runs -/

namespace Evaluator

variable {β σ : Type} {e : Evaluator β σ} {line : Text} {r r₀ r₁ : Reduction}
  {w w₀ w₁ : World β σ}

theorem reduce_of_step {s : Reduction.Step} (h : r.step? = some s) :
    e.reduce line r w =
      match e.call s.site.name s.site.args s.args w with
      | (none, w) => (none, w)
      | (some v, w) => e.reduce line (s.resume v) w := by
  rw [reduce]
  split
  · rename_i t ht
    rw [h] at ht
    cases ht
    rfl
  · rename_i ht
    rw [h] at ht
    cases ht

/-- Goes on with a line after a call. -/
def goOn (e : Evaluator β σ) (line : Text) (s : Reduction.Step) :
    Option Value → World β σ → Option Value × World β σ
  | none, w => (none, w)
  | some v, w => e.reduce line (s.resume v) w

theorem reduce_eq_goOn {s : Reduction.Step} (hs : r.step? = some s) (w : World β σ) :
    e.reduce line r w =
      e.goOn line s (e.call s.site.name s.site.args s.args w).1
        (e.call s.site.name s.site.args s.args w).2 := by
  rw [reduce_of_step hs]
  rcases e.call s.site.name s.site.args s.args w with ⟨_ | v, w'⟩ <;> rfl

theorem reduce_of_no_step (h : r.step? = none) :
    e.reduce line r w =
      match r.value? with
      | some v => (some v, w)
      | none => (none, w.report (.unresolved line)) := by
  rw [reduce]
  split
  · rename_i t ht
    rw [h] at ht
    cases ht
  · rfl

/-- A reduction that starts in one state and world passes another. -/
inductive Reaches (e : Evaluator β σ) (r₀ : Reduction) (w₀ : World β σ) :
    Reduction → World β σ → Prop where
  | start : Reaches e r₀ w₀ r₀ w₀
  | next {r : Reduction} {s : Reduction.Step} {v : Value} {w w' : World β σ} :
      Reaches e r₀ w₀ r w → r.step? = some s →
      e.call s.site.name s.site.args s.args w = (some v, w') →
      Reaches e r₀ w₀ (s.resume v) w'

theorem Reaches.trans (h : e.Reaches r₀ w₀ r₁ w₁) (h' : e.Reaches r₁ w₁ r w) :
    e.Reaches r₀ w₀ r w := by
  induction h' with
  | start => exact h
  | next _ hs hcall ih => exact .next ih hs hcall

/-- A reduction goes on from every state that it passes. -/
theorem reduce_of_reaches (h : e.Reaches r₀ w₀ r w) :
    e.reduce line r₀ w₀ = e.reduce line r w := by
  induction h with
  | start => rfl
  | next _ hs hcall ih => rw [ih, reduce_of_step hs, hcall]

/-- No call leads on from a state: there is none, or it has no value. -/
inductive Stops (e : Evaluator β σ) (r : Reduction) (w : World β σ) : Prop where
  | done (h : r.step? = none)
  | halted {s : Reduction.Step} {w' : World β σ} (hs : r.step? = some s)
      (hcall : e.call s.site.name s.site.args s.args w = (none, w'))

/-- Every reduction comes to a stop. -/
theorem exists_stops (e : Evaluator β σ) (r₀ : Reduction) (w₀ : World β σ) :
    ∃ r w, e.Reaches r₀ w₀ r w ∧ e.Stops r w := by
  induction hn : Reduction.openings r₀.text using Nat.strongRecOn generalizing r₀ w₀ with
  | ind n ih =>
      subst hn
      cases hs : r₀.step? with
      | none => exact ⟨r₀, w₀, .start, .done hs⟩
      | some s =>
          rcases hcall : e.call s.site.name s.site.args s.args w₀ with ⟨_ | v, w₁⟩
          · exact ⟨r₀, w₀, .start, .halted hs hcall⟩
          · obtain ⟨r, w, hreach, hstop⟩ :=
              ih _ (Reduction.openings_resume_lt hs v) (s.resume v) w₁ rfl
            exact ⟨r, w, (Reaches.start.next hs hcall).trans hreach, hstop⟩

/-- A reduction with a value has reduced every call. -/
theorem exists_done_of_reduce {v : Value} (h : e.reduce line r₀ w₀ = (some v, w₁)) :
    ∃ r, e.Reaches r₀ w₀ r w₁ ∧ r.step? = none ∧ r.value? = some v := by
  obtain ⟨r, w, hreach, hstop⟩ := exists_stops e r₀ w₀
  rw [reduce_of_reaches hreach] at h
  cases hstop with
  | done hs =>
      rw [reduce_of_no_step hs] at h
      cases hv : r.value? with
      | none =>
          rw [hv] at h
          cases h
      | some u =>
          rw [hv] at h
          cases h
          exact ⟨r, hreach, hs, hv⟩
  | halted hs hcall =>
      rw [reduce_of_step hs, hcall] at h
      cases h

/-- After a call that is the whole line, the line has the value of the call. -/
theorem reduce_resume_of_alone {s : Reduction.Step} (hs : r.step? = some s)
    (hbefore : s.site.before = []) (hafter : s.site.after = []) (v : Value) :
    e.reduce line (s.resume v) w = (some v, w) := by
  rw [reduce_of_no_step (Reduction.step?_resume_of_alone hs hbefore hafter v),
    Reduction.value?_resume_of_alone hs hbefore hafter v]

/-- A line that is a placeholder has the value that waits under it. -/
theorem reduce_placeholder {key : Text} {p : Pending} {v : Value}
    (hword : ∀ c ∈ key, Text.isWordChar c = true) (hkey : Pending.find? key p = some v) :
    e.reduce line ⟨key, p, some key⟩ w = (some v, w) := by
  rw [reduce_of_no_step (Reduction.step?_of_word hword p (some key)),
    Reduction.value?_of_word hword hkey]

/-! ## Submitted lines -/

theorem hasParenthesis_iff (t : Text) :
    Completion.hasParenthesis t = true ↔ '(' ∈ t ∨ ')' ∈ t := by
  simp only [Completion.hasParenthesis, List.any_eq_true, Bool.or_eq_true, beq_iff_eq]
  constructor
  · rintro ⟨c, hc, rfl | rfl⟩
    · exact Or.inl hc
    · exact Or.inr hc
  · rintro (h | h)
    · exact ⟨_, h, Or.inl rfl⟩
    · exact ⟨_, h, Or.inr rfl⟩

/-- Trimming takes no parenthesis off a text. -/
theorem hasParenthesis_trim_iff (t : Text) :
    Completion.hasParenthesis (Text.trim t) = true ↔ '(' ∈ t ∨ ')' ∈ t := by
  rw [hasParenthesis_iff]
  constructor
  · exact Or.imp (fun h => (Text.trim_isInfix t).subset h) fun h => (Text.trim_isInfix t).subset h
  · exact Or.imp (Text.mem_trim_of_not_blank (by decide)) (Text.mem_trim_of_not_blank (by decide))

theorem hasParenthesis_trim_eq_false {t : Text} (hopen : '(' ∉ t) (hclose : ')' ∉ t) :
    Completion.hasParenthesis (Text.trim t) = false := by
  rw [Bool.eq_false_iff, ne_eq, hasParenthesis_trim_iff]
  exact not_or.2 ⟨hopen, hclose⟩

theorem isEmpty_of_hasParenthesis {t : Text} (h : Completion.hasParenthesis t = true) :
    t.isEmpty = false := by
  cases t with
  | nil => cases h
  | cons c rest => rfl

/-- A line with a parenthesis is reduced. -/
theorem evaluate_of_hasParenthesis (h : Completion.hasParenthesis (Text.trim line) = true) :
    e.evaluate line w = e.reduce (Text.trim line) (Reduction.start (Text.trim line)) w := by
  simp [evaluate, isEmpty_of_hasParenthesis h, h]

/-- A line that is nothing but one call changes the world by that call. -/
theorem world_evaluate_single {s : Reduction.Step}
    (hparen : Completion.hasParenthesis (Text.trim line) = true)
    (hs : (Reduction.start (Text.trim line)).step? = some s) (hbefore : s.site.before = [])
    (hafter : s.site.after = []) (w : World β σ) :
    (e.evaluate line w).2 = (e.call s.site.name s.site.args s.args w).2 := by
  rw [evaluate_of_hasParenthesis hparen, reduce_eq_goOn hs]
  rcases e.call s.site.name s.site.args s.args w with ⟨_ | v, w'⟩
  · rfl
  · rw [goOn, reduce_resume_of_alone hs hbefore hafter]

/-- A blank line does nothing. -/
theorem evaluate_of_blank (h : Text.trim line = []) : e.evaluate line w = (none, w) := by
  simp [evaluate, h]

/-- A line without parentheses calls the command that it names. -/
theorem evaluate_quick (hquick : e.quickCommands = true) (hne : Text.trim line ≠ [])
    (hflat : Completion.hasParenthesis (Text.trim line) = false) :
    e.evaluate line w = e.call (Text.trim line) [] [] w := by
  have hink : (Text.trim line).isEmpty = false := by simpa using hne
  simp [evaluate, hink, hflat, hquick]

/-- Unless it may call, such a line is reported. -/
theorem evaluate_not_quick (hquick : e.quickCommands = false) (hne : Text.trim line ≠ [])
    (hflat : Completion.hasParenthesis (Text.trim line) = false) :
    e.evaluate line w = (none, w.report (.unresolved (Text.trim line))) := by
  have hink : (Text.trim line).isEmpty = false := by simpa using hne
  simp [evaluate, hink, hflat, hquick]

/-! ## A call in a call -/

/-- The call of `f` in `g(f())`. -/
def innerStep : Reduction.Step := ⟨⟨"g(".toList, "f".toList, [], ")".toList⟩, [], []⟩

/-- The call of `g` in `g(f())`, once that of `f` has the value. -/
def outerStep (v : Value) : Reduction.Step := ⟨⟨[], "g".toList, "f2".toList, []⟩, [v], []⟩

theorem step?_inner : (Reduction.start "g(f())".toList).step? = some innerStep := rfl

theorem step?_outer (v : Value) : (innerStep.resume v).step? = some (outerStep v) := by
  have hkey : Placeholder.choose innerStep.site innerStep.pending = "f2".toList := by
    have htwo : Number.decimal 2 = ['2'] := by
      rw [Number.decimal]
      rfl
    have hbase : Placeholder.base innerStep.site = "f2".toList :=
      congrArg ("f".toList ++ ·) htwo
    rw [Placeholder.choose, hbase]
    rfl
  rw [Reduction.Step.resume, hkey]
  rfl

/-- The line `g(f())` calls `f`, and then `g` with the value. -/
theorem evaluate_nested {w' : World β σ} {v u : Value} (hline : Text.trim line = "g(f())".toList)
    (hinner : e.call "f".toList [] [] w = (some v, w₁))
    (houter : e.call "g".toList "f2".toList [v] w₁ = (some u, w')) :
    e.evaluate line w = (some u, w') := by
  have hparen : Completion.hasParenthesis (Text.trim line) = true := hline ▸ rfl
  rw [evaluate_of_hasParenthesis hparen]
  calc e.reduce (Text.trim line) (Reduction.start (Text.trim line)) w
      = e.reduce (Text.trim line) (Reduction.start "g(f())".toList) w := by rw [hline]
    _ = e.reduce (Text.trim line) (innerStep.resume v) w₁ := by
        rw [reduce_eq_goOn step?_inner, innerStep, hinner]
        rfl
    _ = e.reduce (Text.trim line) ((outerStep v).resume u) w' := by
        rw [reduce_eq_goOn (step?_outer v), outerStep, houter]
        rfl
    _ = (some u, w') := reduce_resume_of_alone (step?_outer v) rfl rfl u

/-! ## A small host -/

/-- An evaluator whose host answers every call with its first argument, or with one. -/
def echo : Evaluator Unit Unit where
  host := { run := fun _ _ args w => (.value (args.headD (.int 1)), w), lookup := .none }

/-- A world in which each of the names is a command with so many parameters. -/
def echoWorld (commands : List (String × Nat)) : World Unit Unit where
  registry :=
    { commands := commands.map fun c =>
        .bound c.1.toList (List.replicate c.2 .any) (.custom ()) }
  transcript := .empty 1000
  log := {}
  host := ()

end Evaluator

end CommandConsole

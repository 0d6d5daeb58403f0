import CommandConsole.Proofs.Evaluation.Log
import CommandConsole.Proofs.Registry.Registration

set_option autoImplicit false

/-!
# Quick commands

A line without parentheses calls the command that it names.  If the line is a word, this is the same
as to call it by that word with empty parentheses, although the latter takes the way over a
placeholder: both evaluations have one log and leave one world.  Any other line names no command,
because only words are registered, and all that happens is the report of that (`quickAgrees`).
-/

namespace CommandConsole

open Registry (Registration)

/-- The call of a name without arguments. -/
def CallSite.ofName (name : Text) : CallSite := ⟨[], name, [], []⟩

namespace CallSite

variable {name : Text}

theorem isCall_ofName (hne : name ≠ []) (hword : ∀ c ∈ name, Text.isWordChar c = true) :
    (ofName name).IsCall where
  word := hword
  named := hne
  flat := by simp [ofName]
  whole := by simp [ofName]

theorem trim_line_ofName (hword : ∀ c ∈ name, Text.isWordChar c = true) :
    Text.trim (ofName name).line = (ofName name).line := by
  have hstart : Text.trimStart name = name :=
    Text.trimStart_of_first (Text.trimmed_of_word hword).first
  change Text.trim (name ++ ['(', ')']) = name ++ ['(', ')']
  rw [Text.trim_append_of_trimmed (by decide) (by decide), hstart]

end CallSite

/-- The step of a line that is a call without arguments. -/
def Reduction.Step.ofName (name : Text) : Reduction.Step := ⟨CallSite.ofName name, [], []⟩

theorem Reduction.step?_ofName {name : Text} (hne : name ≠ [])
    (hword : ∀ c ∈ name, Text.isWordChar c = true) :
    (start (CallSite.ofName name).line).step? = some (.ofName name) := by
  rw [step?, start_text, CallSite.innermost?_line (CallSite.isCall_ofName hne hword) (by
    simp [CallSite.ofName])]
  rfl

/-- Once the call has been made, its placeholder is left of the line. -/
theorem Reduction.resume_ofName {name : Text} (hne : name ≠ [])
    (hword : ∀ c ∈ name, Text.isWordChar c = true) (v : Value) :
    ((Step.ofName name).resume v).step? = none ∧ ((Step.ofName name).resume v).value? = some v := by
  have hkey := word_of_choose (step?_ofName hne hword)
  have hresume : (Step.ofName name).resume v =
      ⟨Placeholder.choose (CallSite.ofName name) [],
        [(Placeholder.choose (CallSite.ofName name) [], v)],
        some (Placeholder.choose (CallSite.ofName name) [])⟩ := by
    simp [Step.resume, Step.ofName, CallSite.replace, CallSite.ofName]
  rw [hresume]
  refine ⟨step?_of_word hkey _ _, value?_of_word hkey ?_⟩
  rw [Pending.find?_cons, if_pos rfl]

namespace Evaluator

variable {β σ : Type} {e : Evaluator β σ} {line name : Text} {w : World β σ}

/-! ## Lines that are calls -/

theorem hasParenthesis_ofName (hword : ∀ c ∈ name, Text.isWordChar c = true) :
    Completion.hasParenthesis (Text.trim (CallSite.ofName name).line) = true := by
  rw [CallSite.trim_line_ofName hword, hasParenthesis_iff]
  exact Or.inl (by simp [CallSite.ofName, CallSite.line])

/-- A line that is a call without arguments is evaluated by that call. -/
theorem evaluate_ofName (hne : name ≠ []) (hword : ∀ c ∈ name, Text.isWordChar c = true) :
    e.evaluate (CallSite.ofName name).line w = e.call name [] [] w := by
  rw [evaluate_of_hasParenthesis (hasParenthesis_ofName hword), CallSite.trim_line_ofName hword,
    reduce_eq_goOn (Reduction.step?_ofName hne hword)]
  change e.goOn _ (.ofName name) (e.call name [] [] w).1 (e.call name [] [] w).2 = _
  rcases e.call name [] [] w with ⟨_ | v, w'⟩
  · rfl
  · obtain ⟨hdone, hvalue⟩ := Reduction.resume_ofName hne hword v
    rw [goOn, reduce_of_no_step hdone, hvalue]

/-- Such a line makes that call and does nothing else. -/
theorem log_ofName (hne : name ≠ []) (hword : ∀ c ∈ name, Text.isWordChar c = true) :
    e.log (CallSite.ofName name).line w = { calls := [e.callLog name [] [] w] } := by
  rw [log_of_hasParenthesis (hasParenthesis_ofName hword), CallSite.trim_line_ofName hword,
    reduceLog_eq_goOnLog (Reduction.step?_ofName hne hword)]
  change (e.goOnLog _ (.ofName name) (e.call name [] [] w).1 (e.call name [] [] w).2).cons
    (e.callLog name [] [] w) = _
  rcases e.call name [] [] w with ⟨_ | v, w'⟩
  · rfl
  · obtain ⟨hdone, hvalue⟩ := Reduction.resume_ofName hne hword v
    rw [goOnLog, reduceLog_of_no_step hdone, hvalue]
    rfl

/-! ## Lines without parentheses -/

/-- A name that is no word is not registered. -/
theorem resolve_of_not_word {r : Registry β} (hvalid : r.Valid)
    (hname : ¬ ∀ c ∈ name, Text.isWordChar c = true) (argCount : Nat) :
    r.resolve name argCount = .notFound := by
  rw [Registry.resolve_eq_notFound_iff, Registry.named_eq_nil_iff]
  rintro c hc rfl
  exact hname (Registry.word_of_accepted (hvalid c hc)).2

@[simp]
theorem registry_trace (rawArgs : Text) (args : List Value) :
    (e.trace name rawArgs args w).registry = w.registry := by
  unfold trace
  split <;> rfl

/-- How the evaluation of a line without parentheses agrees with that of calls. -/
structure QuickAgrees (e : Evaluator β σ) (line : Text) (w : World β σ) : Prop where
  /-- A word is evaluated like the word with empty parentheses: the same calls are made in the
  same way, and the same world is left with the same value. -/
  word : (∀ c ∈ Text.trim line, Text.isWordChar c = true) →
    e.log line w = e.log (Text.trim line ++ ['(', ')']) w ∧
      e.evaluate line w = e.evaluate (Text.trim line ++ ['(', ')']) w
  /-- Any other line runs nothing and is reported once, as a name that no command has. -/
  other : ¬ (∀ c ∈ Text.trim line, Text.isWordChar c = true) →
    (e.log line w).acts =
        (if e.functionInfo then [.describe (Text.trim line) [] []] else []) ++
          [.report (.notFound (Text.trim line))] ∧
      e.evaluate line w =
        (none, (e.trace (Text.trim line) [] [] w).report (.notFound (Text.trim line)))

/-- Whatever has been registered, quick commands agree with calls. -/
theorem quickAgrees (e : Evaluator β σ) (hquick : e.quickCommands = true)
    (as : List (Registration β)) {w : World β σ} (hw : w.registry = Registration.run as {})
    {line : Text} (hne : Text.trim line ≠ []) (hopen : '(' ∉ line) (hclose : ')' ∉ line) :
    e.QuickAgrees line w := by
  have hflat := hasParenthesis_trim_eq_false hopen hclose
  constructor
  · intro hword
    rw [log_quick hquick hne hflat, evaluate_quick hquick hne hflat]
    exact ⟨(log_ofName hne hword).symm, (evaluate_ofName hne hword).symm⟩
  · intro hword
    have hvalid : w.registry.Valid := hw ▸ Registration.valid_run Registry.valid_empty as
    have hresolve : (e.trace (Text.trim line) [] [] w).registry.resolve (Text.trim line) 0 =
        .notFound := by
      rw [registry_trace]
      exact resolve_of_not_word hvalid hword 0
    have hinvoke : e.host.invoke (Text.trim line) [] (e.trace (Text.trim line) [] [] w) =
        (.error (.notFound (Text.trim line)), e.trace (Text.trim line) [] [] w) :=
      e.host.invoke_of_notFound hresolve
    rw [log_quick hquick hne hflat, evaluate_quick hquick hne hflat]
    refine ⟨?_, by rw [call, hinvoke]⟩
    have hruns : e.host.runsOf (Text.trim line) [] (e.trace (Text.trim line) [] [] w) = [] := by
      rw [Host.runsOf, List.length_nil, hresolve]
    simp [LineLog.acts, CallLog.acts, callLog, hruns, hinvoke]

/-- A command named with blanks around it is called, and two names are not one. -/
theorem quickAgrees_named :
    echo.evaluate " f ".toList (echoWorld [("f", 0)]) =
        echo.evaluate "f()".toList (echoWorld [("f", 0)]) ∧
      (echo.log "f f".toList (echoWorld [("f", 0)])).acts = [.report (.notFound "f f".toList)] := by
  have hagrees : ∀ line : Text, Text.trim line ≠ [] → '(' ∉ line → ')' ∉ line →
      echo.QuickAgrees line (echoWorld [("f", 0)]) := fun line =>
    quickAgrees echo rfl [.request (.register (.bound "f".toList [] (.custom ())))] rfl
  have hword : ∀ c ∈ Text.trim " f ".toList, Text.isWordChar c = true :=
    List.all_eq_true.1 (by decide)
  have hother : ¬ ∀ c ∈ Text.trim "f f".toList, Text.isWordChar c = true := fun h =>
    absurd (h ' ' (by decide)) (by decide)
  exact ⟨((hagrees " f ".toList (by decide) (by decide) (by decide)).word hword).2,
    ((hagrees "f f".toList (by decide) (by decide) (by decide)).other hother).1⟩

end Evaluator

end CommandConsole

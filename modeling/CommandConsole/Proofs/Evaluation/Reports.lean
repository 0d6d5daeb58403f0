import CommandConsole.Proofs.Evaluation.Log
import CommandConsole.Proofs.Transcript.Retention

set_option autoImplicit false

/-!
# What a line reports

Three errors end a line: a name that nothing has, a wrong number of arguments, and a rest that is
no call.  The fault of a body ends nothing, and the line goes on without the value.

A call accounts for itself: either a handler of it faults, and then the first fault is reported
and the value is nil, or none does, and then it has a value and no report, or it runs nothing and
its one report ends the line (`accounted_callLog`).  A line is its calls and how it ends
(`LineLog.Ends`), and from both follows what it reports (`reportsOnce`).
-/

namespace CommandConsole

/-- The error ends the line that it is reported for. -/
def ConsoleError.halts : ConsoleError → Bool
  | .notFound _ | .arityMismatch .. | .unresolved _ => true
  | .invocationFault .. | .invalidRegistration .. => false

namespace ConsoleError

/-- A report has at least one line. -/
theorem reportLines_ne_nil (e : ConsoleError) : e.reportLines ≠ [] := by
  cases e <;> exact List.cons_ne_nil _ _

/-- All lines of a report are lines of a failure. -/
theorem severity_of_mem_reportLines {e : ConsoleError} {x : Line} (hx : x ∈ e.reportLines) :
    x.severity = .error := by
  cases e with
  | arityMismatch name expected received =>
      simp only [reportLines, List.cons_append, List.mem_cons, List.mem_append, List.mem_map,
        List.not_mem_nil, or_false] at hx
      rcases hx with rfl | ⟨signature, -, rfl⟩ | rfl | rfl <;> rfl
  | notFound | unresolved | invocationFault | invalidRegistration =>
      rw [List.mem_singleton.1 hx]
      rfl

end ConsoleError

/-- After a report the newest line of the transcript is that of a failure, whatever the budget. -/
theorem World.exists_newest_report {β σ : Type} (w : World β σ) (e : ConsoleError) :
    ∃ x, (w.report e).transcript.lines.getLast? = some x ∧ x.severity = .error := by
  obtain ⟨x, hx⟩ := Option.isSome_iff_exists.1 (List.getLast?_isSome.2 e.reportLines_ne_nil)
  have hnewest := (Transcript.getLast?_extend e.reportLines_ne_nil w.transcript).trans hx
  exact ⟨x, hnewest, ConsoleError.severity_of_mem_reportLines (List.mem_of_getLast? hx)⟩

section

variable {β : Type}

/-- The fault of a body that an act reports, with the name of the command. -/
def Act.fault? : Act β → Option (Text × Fault)
  | .report (.invocationFault name f) => some (name, f)
  | _ => none

/-- The first fault of the handlers of a call, with the name of the command. -/
def CallLog.fault? (c : CallLog β) : Option (Text × Fault) :=
  (Host.firstFault? (c.runs.map HandlerRun.result)).map (c.name, ·)

/-! ## One call -/

/-- A call accounts for what it ran. -/
inductive CallLog.Accounted (c : CallLog β) : Prop where
  | value {v : Value} (hfault : c.fault? = none) (hresult : c.result = .ok v)
      (hvalue : c.value = some v)
  | fault {f : Fault} (hfault : c.fault? = some (c.name, f))
      (hresult : c.result = .error (.invocationFault c.name f)) (hvalue : c.value = some .nil)
  | halt {e : ConsoleError} (hruns : c.runs = []) (hhalts : e.halts = true)
      (hresult : c.result = .error e) (hvalue : c.value = none)

namespace CallLog.Accounted

variable {c : CallLog β} (h : c.Accounted)
include h

/-- The acts of a call report its fault, and no other. -/
theorem filterMap_fault? : c.acts.filterMap Act.fault? = c.fault?.toList := by
  have hsilent : ((if c.described then [Act.describe c.name c.rawArgs c.args] else []) ++
      c.runs.map Act.run).filterMap Act.fault? = [] := by
    rw [List.filterMap_append, List.append_eq_nil_iff, List.filterMap_map,
      List.filterMap_eq_nil_iff, List.filterMap_eq_nil_iff]
    constructor
    · intro a ha
      split at ha
      · rw [List.mem_singleton] at ha
        rw [ha]
        rfl
      · cases ha
    · intro r _
      rfl
  rw [CallLog.acts, List.filterMap_append, hsilent, List.nil_append]
  cases h with
  | value hfault hresult _ => simp [hresult, hfault]
  | fault hfault hresult _ => simp [hresult, hfault, Act.fault?]
  | @halt e hruns hhalts hresult _ =>
      have hnone : c.fault? = none := by simp [CallLog.fault?, hruns, Host.firstFault?]
      rw [hresult, hnone]
      cases e <;> first | rfl | cases hhalts

/-- A call that has a value reports nothing that ends the line. -/
theorem not_halts (hvalue : c.value ≠ none) {e : ConsoleError}
    (he : Act.report e ∈ c.acts) : e.halts = false := by
  have hresult : c.result = .error e := by
    simp only [CallLog.acts, List.mem_append, List.mem_map] at he
    rcases he with (he | ⟨r, -, he⟩) | he
    · split at he <;> simp at he
    · cases he
    · split at he
      · cases he
      · rename_i hresult
        rw [List.mem_singleton] at he
        cases he
        exact hresult
  cases h with
  | value _ hok _ =>
      rw [hok] at hresult
      cases hresult
  | fault _ herror _ =>
      rw [herror] at hresult
      cases hresult
      rfl
  | halt _ _ _ hnone => exact absurd hnone hvalue

/-- A call without value ends with its report, which ends the line. -/
theorem ends_of_no_value (hvalue : c.value = none) :
    ∃ front e, c.acts = front ++ [.report e] ∧ e.halts = true ∧
      ∀ e', Act.report e' ∉ front := by
  cases h with
  | value _ _ hsome =>
      rw [hsome] at hvalue
      cases hvalue
  | fault _ _ hsome =>
      rw [hsome] at hvalue
      cases hvalue
  | @halt e hruns hhalts hresult _ =>
      refine ⟨if c.described then [.describe c.name c.rawArgs c.args] else [], e, ?_, hhalts, ?_⟩
      · simp [CallLog.acts, hruns, hresult]
      · intro e' he'
        split at he' <;> simp at he'

/-- A call with a handler that faults goes on without value. -/
theorem nil_of_fault {r : HandlerRun β} (hr : r ∈ c.runs) {f : Fault}
    (hf : r.result = .error f) : c.value = some .nil ∧ ∃ g, c.fault? = some (c.name, g) := by
  have hmem : Except.error f ∈ c.runs.map HandlerRun.result := hf ▸ List.mem_map_of_mem hr
  have hfirst : Host.firstFault? (c.runs.map HandlerRun.result) ≠ none := by
    intro hnone
    exact Host.firstFault?_eq_none_iff.1 hnone f hmem
  cases h with
  | value hfault _ _ => exact absurd (Option.map_eq_none_iff.1 hfault) hfirst
  | fault hfault _ hvalue => exact ⟨hvalue, _, hfault⟩
  | halt hruns _ _ _ =>
      rw [hruns] at hr
      cases hr

end CallLog.Accounted

end

namespace Evaluator

variable {β σ : Type}

/-- Every call accounts for itself. -/
theorem accounted_callLog (e : Evaluator β σ) (name rawArgs : Text) (args : List Value)
    (w : World β σ) : (e.callLog name rawArgs args w).Accounted := by
  generalize hw : e.trace name rawArgs args w = w₀
  cases hresolve : w₀.registry.resolve name args.length with
  | notFound =>
      have hinvoke := e.host.invoke_of_notFound hresolve
      refine .halt (e := .notFound name) ?_ rfl ?_ ?_
      · simp [callLog, Host.runsOf, hw, hresolve]
      · simp [callLog, hw, hinvoke]
      · simp [callLog, call, hw, hinvoke]
  | arityMismatch candidates =>
      have hinvoke : e.host.invoke name args w₀ =
          (.error (.arityMismatch name (candidates.map Descriptor.signature)
            (args.map Value.kindName)), w₀) := by
        simp [Host.invoke, hresolve]
      refine .halt (e := .arityMismatch name (candidates.map Descriptor.signature)
        (args.map Value.kindName)) ?_ rfl ?_ ?_
      · simp [callLog, Host.runsOf, hw, hresolve]
      · simp [callLog, hw, hinvoke]
      · simp [callLog, call, hw, hinvoke]
  | found c =>
      have hruns : (e.callLog name rawArgs args w).runs =
          (e.host.runHandlers (e.host.handlers c args w₀) w₀).1 := by
        simp [callLog, Host.runsOf, hw, hresolve]
      cases hfirst : Host.firstFault?
          ((e.host.runHandlers (e.host.handlers c args w₀) w₀).1.map HandlerRun.result) with
      | some f =>
          have hinvoke : e.host.invoke name args w₀ =
              (.error (.invocationFault name f),
                (e.host.runHandlers (e.host.handlers c args w₀) w₀).2) := by
            simp [Host.invoke, hresolve, Host.runCommand_eq, Host.combine_of_fault hfirst]
          refine .fault (f := f) ?_ ?_ ?_
          · rw [CallLog.fault?, hruns, hfirst]
            rfl
          · simp [callLog, hw, hinvoke]
          · simp [callLog, call, hw, hinvoke]
      | none =>
          obtain ⟨v, hv⟩ := Host.combine_of_no_fault hfirst
          have hinvoke : e.host.invoke name args w₀ =
              (.ok v, (e.host.runHandlers (e.host.handlers c args w₀) w₀).2) := by
            simp [Host.invoke, hresolve, Host.runCommand_eq, hv]
          refine .value (v := v) ?_ ?_ ?_
          · rw [CallLog.fault?, hruns, hfirst]
            rfl
          · simp [callLog, hw, hinvoke]
          · simp [callLog, call, hw, hinvoke]

end Evaluator

/-! ## The end of a line -/

section

variable {β : Type}

/-- How a line ends: with a value, with a call that has none, or with a rest that is no call.  All
calls before that have values. -/
inductive LineLog.Ends : LineLog β → Option Value → Prop where
  | value {calls : List (CallLog β)} (v : Value) (hvalues : ∀ c ∈ calls, c.value ≠ none) :
      Ends ⟨calls, none⟩ (some v)
  | halted (calls : List (CallLog β)) {c : CallLog β} (hvalues : ∀ d ∈ calls, d.value ≠ none)
      (hc : c.value = none) : Ends ⟨calls ++ [c], none⟩ none
  | unresolved {calls : List (CallLog β)} (line : Text)
      (hvalues : ∀ c ∈ calls, c.value ≠ none) : Ends ⟨calls, some (.unresolved line)⟩ none

theorem LineLog.Ends.cons {l : LineLog β} {v : Option Value} (h : l.Ends v) {c : CallLog β}
    (hc : c.value ≠ none) : (l.cons c).Ends v := by
  cases h with
  | value v hvalues => exact .value v (List.forall_mem_cons.2 ⟨hc, hvalues⟩)
  | halted calls hvalues hd =>
      exact .halted (c :: calls) (List.forall_mem_cons.2 ⟨hc, hvalues⟩) hd
  | unresolved line hvalues => exact .unresolved line (List.forall_mem_cons.2 ⟨hc, hvalues⟩)

end

namespace Evaluator

variable {β σ : Type}

theorem ends_reduceLog (e : Evaluator β σ) (line : Text) (r : Reduction) (w : World β σ) :
    (e.reduceLog line r w).Ends (e.reduce line r w).1 := by
  induction r, w using e.reduction_induct with
  | done r w hs =>
      rw [reduceLog_of_no_step hs, reduce_of_no_step hs]
      cases r.value? with
      | some v => exact .value v (by simp)
      | none => exact .unresolved line (by simp)
  | halted r w s w' hs hcall =>
      rw [reduceLog_of_step hs, reduce_of_step hs, hcall]
      exact .halted [] (by simp) (congrArg Prod.fst hcall)
  | next r w s v w' hs hcall ih =>
      rw [reduceLog_of_step hs, reduce_of_step hs, hcall]
      apply ih.cons
      simp [callLog, hcall]

theorem accounted_reduceLog (e : Evaluator β σ) (line : Text) (r : Reduction) (w : World β σ) :
    ∀ c ∈ (e.reduceLog line r w).calls, c.Accounted := by
  induction r, w using e.reduction_induct with
  | done r w hs =>
      rw [reduceLog_of_no_step hs]
      cases r.value? <;> simp
  | halted r w s w' hs hcall =>
      rw [reduceLog_of_step hs, hcall]
      simpa using e.accounted_callLog s.site.name s.site.args s.args w
  | next r w s v w' hs hcall ih =>
      rw [reduceLog_of_step hs, hcall]
      exact List.forall_mem_cons.2 ⟨e.accounted_callLog _ _ _ w, ih⟩

/-- A line that is not blank ends in one of the three ways. -/
theorem ends_log (e : Evaluator β σ) {line : Text} (hline : Text.trim line ≠ [])
    (w : World β σ) : (e.log line w).Ends (e.evaluate line w).1 := by
  have hink : (Text.trim line).isEmpty = false := by simpa using hline
  unfold log evaluate
  simp only [hink, Bool.false_eq_true, if_false]
  split
  · exact e.ends_reduceLog _ _ w
  · split
    · rcases hcall : e.call (Text.trim line) [] [] w with ⟨_ | v, w'⟩
      · exact .halted [] (by simp) (congrArg Prod.fst hcall)
      · exact .value v (by simp [callLog, hcall])
    · exact .unresolved _ (by simp)

theorem accounted_log (e : Evaluator β σ) (line : Text) (w : World β σ) :
    ∀ c ∈ (e.log line w).calls, c.Accounted := by
  unfold log
  dsimp only
  split
  · simp
  · split
    · exact e.accounted_reduceLog _ _ w
    · split
      · simpa using e.accounted_callLog (Text.trim line) [] [] w
      · simp

end Evaluator

/-! ## Reports -/

/-- What a line reports, when it has the value and the log. -/
structure ReportsOnce {β : Type} (line : Text) (v : Option Value) (l : LineLog β) : Prop where
  /-- A blank line has no value and does nothing. -/
  blank : Text.trim line = [] → v = none ∧ l.acts = []
  /-- A line with a value reports nothing that ends a line. -/
  value : v ≠ none → ∀ e, Act.report e ∈ l.acts → e.halts = false
  /-- A line without value reports one such error, and does so last. -/
  halted : Text.trim line ≠ [] → v = none → ∃ front e, l.acts = front ++ [.report e] ∧
    e.halts = true ∧ ∀ e', Act.report e' ∈ front → e'.halts = false
  /-- The faults are reported call by call, one for each call with a handler that faults. -/
  faults : l.acts.filterMap Act.fault? = l.calls.filterMap CallLog.fault?
  /-- Such a call goes on without value. -/
  nil : ∀ c ∈ l.calls, ∀ r ∈ c.runs, ∀ f, r.result = .error f →
    c.value = some .nil ∧ ∃ g, c.fault? = some (c.name, g)
  /-- A report shows: it has lines, and all of them are lines of a failure. -/
  shown : ∀ e, Act.report e ∈ l.acts →
    e.reportLines ≠ [] ∧ ∀ x ∈ e.reportLines, x.severity = .error

section

variable {β : Type} {l : LineLog β} {calls : List (CallLog β)}

/-- Calls with values report nothing that ends a line. -/
theorem not_halts_of_values (hacc : ∀ c ∈ calls, c.Accounted)
    (hvalues : ∀ c ∈ calls, c.value ≠ none) {e : ConsoleError}
    (he : Act.report e ∈ calls.flatMap CallLog.acts) : e.halts = false := by
  obtain ⟨c, hc, he⟩ := List.mem_flatMap.1 he
  exact (hacc c hc).not_halts (hvalues c hc) he

/-- The faults that calls report are those of their handlers. -/
theorem filterMap_fault?_calls (hacc : ∀ c ∈ calls, c.Accounted) :
    (calls.flatMap CallLog.acts).filterMap Act.fault? = calls.filterMap CallLog.fault? := by
  induction calls with
  | nil => rfl
  | cons c calls ih =>
      have hrest := ih fun d hd => hacc d (List.mem_cons_of_mem c hd)
      rw [List.flatMap_cons, List.filterMap_append, (hacc c List.mem_cons_self).filterMap_fault?,
        hrest, List.filterMap_cons]
      cases c.fault? <;> rfl

namespace LineLog.Ends

theorem not_halts {v : Value} (h : l.Ends (some v)) (hacc : ∀ c ∈ l.calls, c.Accounted)
    {e : ConsoleError} (he : Act.report e ∈ l.acts) : e.halts = false := by
  cases h with
  | value v hvalues => exact not_halts_of_values hacc hvalues (by simpa [LineLog.acts] using he)

theorem exists_last_report (h : l.Ends none) (hacc : ∀ c ∈ l.calls, c.Accounted) :
    ∃ front e, l.acts = front ++ [.report e] ∧ e.halts = true ∧
      ∀ e', Act.report e' ∈ front → e'.halts = false := by
  cases h with
  | @halted calls c hvalues hc =>
      obtain ⟨front, e, hacts, hhalts, hfront⟩ := (hacc c (by simp)).ends_of_no_value hc
      refine ⟨calls.flatMap CallLog.acts ++ front, e, by simp [LineLog.acts, hacts], hhalts, ?_⟩
      intro e' he'
      rcases List.mem_append.1 he' with he' | he'
      · exact not_halts_of_values (fun d hd => hacc d (by simp [hd])) hvalues he'
      · exact absurd he' (hfront e')
  | @unresolved calls line hvalues =>
      refine ⟨calls.flatMap CallLog.acts, .unresolved line, rfl, rfl, ?_⟩
      intro e' he'
      exact not_halts_of_values hacc hvalues he'

theorem filterMap_fault? {v : Option Value} (h : l.Ends v)
    (hacc : ∀ c ∈ l.calls, c.Accounted) :
    l.acts.filterMap Act.fault? = l.calls.filterMap CallLog.fault? := by
  have hsilent : (l.unresolved.toList.map Act.report).filterMap (Act.fault? (β := β)) = [] := by
    cases h <;> rfl
  rw [LineLog.acts, List.filterMap_append, hsilent, List.append_nil, filterMap_fault?_calls hacc]

end LineLog.Ends

end

namespace Evaluator

variable {β σ : Type}

/-- The evaluation of a line does what its log says and nothing else, and it reports every failure
once. -/
theorem reportsOnce (e : Evaluator β σ) (line : Text) (w : World β σ) :
    Performs e.host w (e.log line w).acts (e.evaluate line w).2 ∧
      ReportsOnce line (e.evaluate line w).1 (e.log line w) := by
  have hacc := e.accounted_log line w
  have hblank : Text.trim line = [] → (e.evaluate line w).1 = none ∧ e.log line w = {} := by
    intro hline
    simp [evaluate, log, hline]
  refine ⟨e.performs_log line w, ?_, ?_, ?_, ?_, ?_, ?_⟩
  · intro hline
    obtain ⟨hnone, hlog⟩ := hblank hline
    exact ⟨hnone, by rw [hlog]; rfl⟩
  · intro hvalue
    by_cases hline : Text.trim line = []
    · exact absurd (hblank hline).1 hvalue
    · have hends := e.ends_log hline w
      obtain ⟨v, hv⟩ := Option.ne_none_iff_exists'.1 hvalue
      rw [hv] at hends
      exact fun _ herr => hends.not_halts hacc herr
  · intro hline hnone
    have hends := e.ends_log hline w
    rw [hnone] at hends
    exact hends.exists_last_report hacc
  · by_cases hline : Text.trim line = []
    · rw [(hblank hline).2]
      rfl
    · exact (e.ends_log hline w).filterMap_fault? hacc
  · intro c hc r hr f hf
    exact (hacc c hc).nil_of_fault hr hf
  · intro err _
    exact ⟨err.reportLines_ne_nil, fun _ hx => ConsoleError.severity_of_mem_reportLines hx⟩

end Evaluator

end CommandConsole

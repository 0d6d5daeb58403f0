import CommandConsole.Proofs.Evaluation.Log
import CommandConsole.Proofs.Invocation.Blind
import CommandConsole.Proofs.Transcript.Fitting

set_option autoImplicit false

/-!
# Tracing

An evaluation with function info describes every call by four lines before it makes the call.  When
no body reads the transcript, this changes nothing else: the evaluation with and the one without
function info make the same calls, with the same arguments and results, and run the same handlers
for them, in step through every rewriting of the line, fault and failure (`InStep`).

The transcripts differ by the descriptions, each of which stands right before all that its call
writes.  A body that clears the transcript does not read it, but it takes with it the descriptions
that are there, among them that of its own call.  So, if nothing is evicted, the descriptions of
the calls after the last one that clears are in the transcript (`tracing_inserts`).
-/

namespace CommandConsole

open World (Yields)

/-! ## Records of calls -/

/-- A call of a line, and what it does to the transcript beyond being described. -/
structure CallRecord (β : Type) where
  call : CallLog β
  acts : List Transcript.Act

namespace CallRecord

variable {β : Type}

/-- The lines that describe the call. -/
def block (r : CallRecord β) : List Line :=
  Evaluator.description r.call.name r.call.rawArgs r.call.args

/-- What the call does to the transcript when it is described. -/
def tracedActs (r : CallRecord β) : List Transcript.Act := .extend r.block :: r.acts

/-- The lines that the call itself writes. -/
def lines (r : CallRecord β) : List Line := Transcript.pushed r.acts

/-- The call clears the transcript. -/
def Clears (r : CallRecord β) : Prop := .clear ∈ r.acts

/-- What the call writes once it has cleared the transcript for the last time. -/
def linesSinceClear (r : CallRecord β) : List Line :=
  Transcript.pushed (Transcript.since .clear r.acts)

end CallRecord

section

variable {β : Type} {records : List (CallRecord β)} {start report untraced traced : List Line}

/-- Both runs leave the lines `start`, what the calls write, and the `report`, and the traced run
has the block of every call right before what that call writes. -/
structure Inserted (records : List (CallRecord β)) (start report untraced traced : List Line) :
    Prop where
  untraced : untraced = start ++ records.flatMap CallRecord.lines ++ report
  traced : traced = start ++ records.flatMap (fun r => r.block ++ r.lines) ++ report

/-- The blocks of all calls are inserted if none of them clears the transcript.  Otherwise the
blocks of those after the last that does are, and nothing is left from before it clears. -/
inductive InsertedSinceClear (records : List (CallRecord β))
    (start report untraced traced : List Line) : Prop where
  | all (hkeep : ∀ r ∈ records, ¬ r.Clears)
      (hinserted : Inserted records start report untraced traced)
  | after {front rest : List (CallRecord β)} {r : CallRecord β}
      (hrecords : records = front ++ r :: rest) (hclears : r.Clears)
      (hkeep : ∀ r ∈ rest, ¬ r.Clears)
      (hinserted : Inserted rest r.linesSinceClear report untraced traced)

/-- The calls of a line, all of them described. -/
def LineLog.describeAll (l : LineLog β) : LineLog β :=
  { l with calls := l.calls.map fun c => { c with described := true } }

/-- The lines that report what is left of a line. -/
def LineLog.reportLines (l : LineLog β) : List Line :=
  l.unresolved.toList.flatMap ConsoleError.reportLines

/-! ## The lines of records -/

open Transcript (pushed)

theorem pushed_flatMap (acts : CallRecord β → List Transcript.Act)
    (records : List (CallRecord β)) :
    pushed (records.flatMap acts) = records.flatMap fun r => pushed (acts r) :=
  List.flatMap_assoc

theorem exists_last_clears (records : List (CallRecord β)) :
    (∀ r ∈ records, ¬ r.Clears) ∨
      ∃ front r rest, records = front ++ r :: rest ∧ r.Clears ∧ ∀ r ∈ rest, ¬ r.Clears := by
  induction records with
  | nil => exact Or.inl (by simp)
  | cons r records ih =>
      rcases ih with hkeep | ⟨front, c, rest, rfl, hclears, hkeep⟩
      · by_cases hr : r.Clears
        · exact Or.inr ⟨[], r, records, rfl, hr, hkeep⟩
        · exact Or.inl (List.forall_mem_cons.2 ⟨hr, hkeep⟩)
      · exact Or.inr ⟨r :: front, c, rest, rfl, hclears, hkeep⟩

/-- Calls that do not clear add what they write, and their blocks when they are described. -/
theorem inserted_of_keep (hkeep : ∀ r ∈ records, ¬ r.Clears) (start report : List Line) :
    Inserted records start report
      ((records.flatMap CallRecord.acts).foldl Transcript.Act.after start ++ report)
      ((records.flatMap CallRecord.tracedActs).foldl Transcript.Act.after start ++ report) := by
  constructor
  · rw [Transcript.foldl_after_of_not_mem (by simpa [CallRecord.Clears] using hkeep),
      pushed_flatMap]
    rfl
  · rw [Transcript.foldl_after_of_not_mem
      (by simpa [CallRecord.Clears, CallRecord.tracedActs] using hkeep), pushed_flatMap]
    rfl

/-- The lines that all calls leave, with their blocks and without. -/
theorem insertedSinceClear (records : List (CallRecord β)) (start report : List Line) :
    InsertedSinceClear records start report
      ((records.flatMap CallRecord.acts).foldl Transcript.Act.after start ++ report)
      ((records.flatMap CallRecord.tracedActs).foldl Transcript.Act.after start ++ report) := by
  rcases exists_last_clears records with hkeep | ⟨front, r, rest, rfl, hclears, hkeep⟩
  · exact .all hkeep (inserted_of_keep hkeep start report)
  · refine .after rfl hclears hkeep ?_
    -- what stands before the last clearing is gone, blocks and all
    have hinserted := inserted_of_keep hkeep r.linesSinceClear report
    have hacts (lines : List Line) :
        r.acts.foldl Transcript.Act.after lines = r.linesSinceClear :=
      Transcript.foldl_after_of_mem hclears lines
    simpa only [List.flatMap_append, List.flatMap_cons, List.foldl_append, CallRecord.tracedActs,
      List.foldl_cons, List.cons_append, hacts] using hinserted

/-- What fits when the calls are described fits when they are not. -/
theorem ahead_of_fits {t t' : Transcript} (h : t'.Ahead t)
    (hfits : Transcript.Fits (records.flatMap CallRecord.tracedActs) t') :
    Transcript.Fits (records.flatMap CallRecord.acts) t ∧
      ((records.flatMap CallRecord.tracedActs).foldl Transcript.Act.perform t').Ahead
        ((records.flatMap CallRecord.acts).foldl Transcript.Act.perform t) := by
  induction records generalizing t t' with
  | nil => exact ⟨trivial, h⟩
  | cons r records ih =>
      rw [List.flatMap_cons, Transcript.fits_append] at hfits
      obtain ⟨⟨hblock, hacts⟩, hrest⟩ := hfits
      obtain ⟨hacts', hahead⟩ := (h.extend_left hblock).foldl hacts
      obtain ⟨hrest', hend⟩ := ih hahead hrest
      rw [List.flatMap_cons, List.flatMap_cons, Transcript.fits_append, List.foldl_append,
        List.foldl_append]
      exact ⟨⟨hacts', hrest'⟩, hend⟩

end

namespace Host

variable {β σ : Type} {h : Host β σ}

/-- The handlers of a call run in the same way with every transcript. -/
theorem Blind.runsOf_withTranscript (hblind : h.Blind) (name : Text) (args : List Value)
    (t : Transcript) (w : World β σ) :
    h.runsOf name args (w.withTranscript t) = h.runsOf name args w := by
  unfold runsOf
  rw [World.registry_withTranscript]
  cases w.registry.resolve name args.length with
  | notFound | arityMismatch candidates => rfl
  | found c =>
      dsimp only
      rw [handlers_withTranscript, (hblind.runHandlers _ w).fst_eq]

end Host

namespace Evaluator

variable {β σ : Type} {e : Evaluator β σ} {w w' w₁ : World β σ} {v : Option Value}
  {line name rawArgs : Text} {args : List Value} {r : Reduction}

/-! ## One call, traced and not -/

/-- The evaluator with function info or without. -/
def tracing (on : Bool) (e : Evaluator β σ) : Evaluator β σ := { e with functionInfo := on }

/-- What a call makes of the result of its invocation. -/
def settle : Except ConsoleError Value → World β σ → Option Value × World β σ
  | .ok v, w => (some v, w)
  | .error (.invocationFault name f), w => (some .nil, w.report (.invocationFault name f))
  | .error err, w => (none, w.report err)

theorem call_eq_settle (e : Evaluator β σ) (name rawArgs : Text) (args : List Value)
    (w : World β σ) :
    e.call name rawArgs args w =
      settle (e.host.invoke name args (e.trace name rawArgs args w)).1
        (e.host.invoke name args (e.trace name rawArgs args w)).2 := by
  unfold call
  rcases e.host.invoke name args (e.trace name rawArgs args w) with ⟨err | v, w'⟩
  · cases err <;> rfl
  · rfl

theorem blind_settle (result : Except ConsoleError Value) (w : World β σ) :
    World.Blind (settle result) w := by
  cases result with
  | ok v => exact ⟨[], some v, w, .pure _ w⟩
  | error err => cases err <;> exact ⟨_, _, w, .write _ _ w⟩

theorem blind_call (hblind : e.host.Blind) (name rawArgs : Text) (args : List Value)
    (w : World β σ) : World.Blind ((e.tracing false).call name rawArgs args) w :=
  ((hblind.invoke name args w).bind settle blind_settle).congr fun t =>
    call_eq_settle (e.tracing false) name rawArgs args (w.withTranscript t)

theorem blind_echo : echo.host.Blind := fun _ _ _ w => ⟨[], _, w, .pure _ w⟩

/-- The lines that describe a call without arguments. -/
theorem description_nil (name : Text) :
    description name [] [] =
      [.info ("Function: ".toList ++ name), .info "Arg count: 0".toList, .info "Raw args: ".toList,
        .info "Args: ".toList] := by
  have hzero : Number.decimal 0 = ['0'] := by
    rw [Number.decimal]
    rfl
  rw [description, List.length_nil, hzero]
  rfl

/-- The lines that describe a call with one argument. -/
theorem description_singleton (name rawArgs : Text) (v : Value) :
    description name rawArgs [v] =
      [.info ("Function: ".toList ++ name), .info "Arg count: 1".toList,
        .info ("Raw args: ".toList ++ rawArgs), .info ("Args: ".toList ++ v.display)] := by
  have hone : Number.decimal 1 = ['1'] := by
    rw [Number.decimal]
    rfl
  rw [description, List.length_singleton, hone]
  rfl

/-- A traced call is the call in the world to which its description has been written. -/
theorem yields_call_traced {acts : List Transcript.Act}
    (h : Yields ((e.tracing false).call name rawArgs args) w acts v w') :
    Yields ((e.tracing true).call name rawArgs args) w
      (.extend (description name rawArgs args) :: acts) v w' :=
  (Yields.write () (description name rawArgs args) w).bind
    (fun _ => (e.tracing false).call name rawArgs args) h

/-- The log of a traced call tells the same as that of the call, but for the description. -/
theorem callLog_traced (hblind : e.host.Blind) (t : Transcript) (w : World β σ) :
    (e.tracing true).callLog name rawArgs args (w.withTranscript t) =
      { (e.tracing false).callLog name rawArgs args w with described := true } := by
  have hruns := hblind.runsOf_withTranscript name args (t.extend (description name rawArgs args)) w
  have hresult := (hblind.invoke name args w).fst_eq (t.extend (description name rawArgs args))
  have hvalue := (blind_call hblind name rawArgs args w).fst_eq
    (t.extend (description name rawArgs args))
  simp only [callLog, CallLog.mk.injEq, true_and]
  exact ⟨rfl, hruns, hresult, hvalue⟩

/-! ## Runs in step -/

/-- The records are those of calls made one after the other, which lead from one world to the
other. -/
inductive Makes (e : Evaluator β σ) : World β σ → List (CallRecord β) → World β σ → Prop where
  | nil (w : World β σ) : Makes e w [] w
  | cons {w w₁ w' : World β σ} {v : Option Value} {r : CallRecord β}
      {records : List (CallRecord β)}
      (hlog : r.call = e.callLog r.call.name r.call.rawArgs r.call.args w)
      (hcall : e.call r.call.name r.call.rawArgs r.call.args w = (v, w₁))
      (hacts : Yields (e.call r.call.name r.call.rawArgs r.call.args) w r.acts v w₁)
      (hrest : Makes e w₁ records w') : Makes e w (r :: records) w'

/-- What the calls do to the transcript is what their records say. -/
theorem Makes.does {records : List (CallRecord β)} (h : Makes e w records w') :
    Transcript.Does (records.flatMap CallRecord.acts) w.transcript w'.transcript := by
  induction h with
  | nil w => exact ⟨w.transcript.scroll, rfl⟩
  | cons _ hcall hacts _ ih =>
      have hdoes := hacts.does
      rw [hcall] at hdoes
      exact hdoes.append ih

/-- The records are those of the calls that the run without function info makes. -/
structure Recorded (e : Evaluator β σ) (run : Bool → World β σ → Option Value × World β σ)
    (log : Bool → World β σ → LineLog β) (w : World β σ) (records : List (CallRecord β)) :
    Prop where
  calls : records.map CallRecord.call = (log false w).calls
  makes : ∃ w', Makes (e.tracing false) w records w' ∧
    (run false w).2 = w'.write (log false w).reportLines

/-- A run with function info and one without are in step: they make the same calls, have the same
value and leave the same world but for the transcript, to which the first does what the second does
and describes every call right before it. -/
structure InStep (e : Evaluator β σ) (run : Bool → World β σ → Option Value × World β σ)
    (log : Bool → World β σ → LineLog β) (w : World β σ) : Prop where
  recorded : ∃ records, Recorded e run log w records
  traced : ∀ records, Recorded e run log w records →
    Yields (run true) w (records.flatMap CallRecord.tracedActs ++
      [.extend (log false w).reportLines]) (run false w).1 (run false w).2
  log : ∀ t, log true (w.withTranscript t) = (log false w).describeAll

variable {run : Bool → World β σ → Option Value × World β σ} {log : Bool → World β σ → LineLog β}

/-- Runs without calls, which at most report the line, are in step. -/
theorem inStep_of_no_call {l : LineLog β} (hcalls : l.calls = [])
    (hrun : ∀ on w, run on w = (v, w.write l.reportLines)) (hlog : ∀ on w, log on w = l)
    (w : World β σ) : InStep e run log w where
  recorded := ⟨[], by rw [hlog, hcalls, List.map_nil], w, .nil w, by rw [hrun, hlog]⟩
  traced records hrecorded := by
    have hnil : records = [] := by
      have hmap := hrecorded.calls
      rwa [hlog, hcalls, List.map_eq_nil_iff] at hmap
    have hwrite := (Yields.write v l.reportLines w).congr fun t => hrun true (w.withTranscript t)
    rw [hnil, hrun, hlog]
    exact hwrite.of_eq (hrun true w)
  log t := by
    rw [hlog, hlog, LineLog.describeAll, hcalls, List.map_nil, ← hcalls]

theorem inStep_of_unresolved (line : Text)
    (hrun : ∀ on w, run on w = (none, w.report (.unresolved line)))
    (hlog : ∀ on w, log on w = { unresolved := some (.unresolved line) }) (w : World β σ) :
    InStep e run log w := by
  refine inStep_of_no_call (v := none) rfl (fun on w => ?_) hlog w
  rw [hrun, LineLog.reportLines, Option.toList_some, List.flatMap_singleton]
  rfl

/-- Runs that make a call and then go on in step are in step. -/
theorem inStep_call (hblind : e.host.Blind)
    (next : Bool → Option Value → World β σ → Option Value × World β σ)
    (nextLog : Bool → Option Value → World β σ → LineLog β)
    (hrun : ∀ on w, run on w = next on ((e.tracing on).call name rawArgs args w).1
      ((e.tracing on).call name rawArgs args w).2)
    (hlog : ∀ on w, log on w = (nextLog on ((e.tracing on).call name rawArgs args w).1
      ((e.tracing on).call name rawArgs args w).2).cons
        ((e.tracing on).callLog name rawArgs args w))
    (hcall : (e.tracing false).call name rawArgs args w = (v, w₁))
    (hrest : InStep e (fun on => next on v) (fun on => nextLog on v) w₁) : InStep e run log w := by
  have hrun' : run false w = next false v w₁ := by rw [hrun, hcall]
  have hlog' : log false w = (nextLog false v w₁).cons
      ((e.tracing false).callLog name rawArgs args w) := by rw [hlog, hcall]
  obtain ⟨acts, hacts⟩ := (blind_call hblind name rawArgs args w).exists_yields hcall
  refine ⟨?_, ?_, ?_⟩
  · obtain ⟨records, hcalls, w', hmakes, hlast⟩ := hrest.recorded
    refine ⟨⟨(e.tracing false).callLog name rawArgs args w, acts⟩ :: records, ?_, w',
      .cons rfl hcall hacts hmakes, ?_⟩
    · rw [hlog', List.map_cons, hcalls]
      rfl
    · rw [hrun', hlog']
      exact hlast
  · rintro records ⟨hcalls, w', hmakes, hlast⟩
    rw [hlog'] at hcalls
    rw [hrun', hlog'] at hlast
    -- the first record is that of this call, whose acts may be told in more than one way
    cases hmakes with
    | nil => cases hcalls
    | @cons _ w₂ _ u r records hcalled hcall' hacts' hmakes =>
        obtain ⟨hr, hcalls⟩ := List.cons.inj hcalls
        rw [hr] at hcall' hacts'
        have hsame : (v, w₁) = (u, w₂) := hcall.symm.trans hcall'
        cases hsame
        have htraced := hrest.traced records ⟨hcalls, w', hmakes, hlast⟩
        rw [hrun', hlog', List.flatMap_cons, List.append_assoc, CallRecord.tracedActs,
          CallRecord.block, hr]
        exact ((yields_call_traced hacts').bind (next true) htraced).congr
          fun t => hrun true (w.withTranscript t)
  · intro t
    obtain ⟨t', htcall, -⟩ := yields_call_traced hacts t
    have hnext := hrest.log t'
    rw [hlog, htcall, hnext, callLog_traced hblind, hlog']
    rfl

/-- The reductions of a line are in step. -/
theorem inStep_reduce (hblind : e.host.Blind) (line : Text) (r : Reduction) (w : World β σ) :
    InStep e (fun on => (e.tracing on).reduce line r)
      (fun on => (e.tracing on).reduceLog line r) w := by
  induction r, w using (e.tracing false).reduction_induct with
  | done r w hs =>
      cases hv : r.value? with
      | some v =>
          refine inStep_of_no_call (v := some v) (l := {}) rfl ?_ ?_ w
          · intro on w
            rw [reduce_of_no_step hs, hv]
            rfl
          · intro on w
            rw [reduceLog_of_no_step hs, hv]
      | none =>
          refine inStep_of_unresolved line ?_ ?_ w
          · intro on w
            rw [reduce_of_no_step hs, hv]
          · intro on w
            rw [reduceLog_of_no_step hs, hv]
  | halted r w s w' hs hcall =>
      exact inStep_call hblind (fun on => (e.tracing on).goOn line s)
        (fun on => (e.tracing on).goOnLog line s) (fun _ => reduce_eq_goOn hs)
        (fun _ => reduceLog_eq_goOnLog hs) hcall
        (inStep_of_no_call (v := none) (l := {}) rfl (fun _ _ => rfl) (fun _ _ => rfl) w')
  | next r w s v w' hs hcall ih =>
      exact inStep_call hblind (fun on => (e.tracing on).goOn line s)
        (fun on => (e.tracing on).goOnLog line s) (fun _ => reduce_eq_goOn hs)
        (fun _ => reduceLog_eq_goOnLog hs) hcall ih

/-- The evaluations of a line are in step. -/
theorem inStep_evaluate (hblind : e.host.Blind) (line : Text) (w : World β σ) :
    InStep e (fun on => (e.tracing on).evaluate line) (fun on => (e.tracing on).log line) w := by
  by_cases hblank : Text.trim line = []
  · exact inStep_of_no_call (v := none) (l := {}) rfl (fun _ _ => evaluate_of_blank hblank)
      (fun _ _ => log_of_blank hblank) w
  · cases hparen : Completion.hasParenthesis (Text.trim line) with
    | true =>
        have hrun : (fun on => (e.tracing on).evaluate line) = fun on =>
            (e.tracing on).reduce (Text.trim line) (Reduction.start (Text.trim line)) := by
          funext on w
          exact evaluate_of_hasParenthesis hparen
        have hlog : (fun on => (e.tracing on).log line) = fun on =>
            (e.tracing on).reduceLog (Text.trim line) (Reduction.start (Text.trim line)) := by
          funext on w
          exact log_of_hasParenthesis hparen
        rw [hrun, hlog]
        exact inStep_reduce hblind _ _ w
    | false =>
        cases hquick : e.quickCommands with
        | true =>
            rcases hcall : (e.tracing false).call (Text.trim line) [] [] w with ⟨v, w'⟩
            have hrest : InStep e (fun _ w => (v, w)) (fun _ _ => {}) w' :=
              inStep_of_no_call (l := {}) rfl (fun _ _ => rfl) (fun _ _ => rfl) w'
            exact inStep_call hblind (fun _ v w => (v, w)) (fun _ _ _ => {})
              (fun on w => evaluate_quick (e := e.tracing on) hquick hblank hparen)
              (fun on w => log_quick (e := e.tracing on) hquick hblank hparen) hcall hrest
        | false =>
            exact inStep_of_unresolved _ (fun on w => evaluate_not_quick (e := e.tracing on) hquick
              hblank hparen) (fun on w => log_not_quick (e := e.tracing on) hquick hblank hparen) w

/-! ## What tracing changes -/

/-- The records are those of the calls of a line. -/
def Records (e : Evaluator β σ) (line : Text) (w : World β σ) (records : List (CallRecord β)) :
    Prop :=
  Recorded e (fun on => (e.tracing on).evaluate line) (fun on => (e.tracing on).log line) w records

/-- What a traced line does to the transcript, when the records are those of its calls. -/
def tracedActs (e : Evaluator β σ) (line : Text) (w : World β σ)
    (records : List (CallRecord β)) : List Transcript.Act :=
  records.flatMap CallRecord.tracedActs ++ [.extend ((e.tracing false).log line w).reportLines]

/-- What function info changes about the evaluation of a line. -/
structure TracingInserts (e : Evaluator β σ) (line : Text) (w : World β σ) : Prop where
  /-- The value is the same. -/
  value : ((e.tracing true).evaluate line w).1 = ((e.tracing false).evaluate line w).1
  /-- All that is left is the same, but for the transcript. -/
  world : ((e.tracing true).evaluate line w).2 =
    ((e.tracing false).evaluate line w).2.withTranscript
      ((e.tracing true).evaluate line w).2.transcript
  /-- The same calls are made, in the same order and with the same arguments; they run the same
  handlers, with the same results, and go on with the same values. -/
  log : (e.tracing true).log line w = ((e.tracing false).log line w).describeAll
  /-- Every call does the same to any transcript that it meets. -/
  recorded : ∃ records, e.Records line w records
  /-- The traced run does to the transcript what the calls do, and describes each right before. -/
  acts : ∀ records, e.Records line w records →
    Transcript.Does (e.tracedActs line w records) w.transcript
      ((e.tracing true).evaluate line w).2.transcript
  /-- If this evicts nothing, the lines are the same but for the descriptions. -/
  lines : ∀ records, e.Records line w records →
    Transcript.Fits (e.tracedActs line w records) w.transcript →
    InsertedSinceClear records w.transcript.lines ((e.tracing false).log line w).reportLines
      ((e.tracing false).evaluate line w).2.transcript.lines
      ((e.tracing true).evaluate line w).2.transcript.lines

/-- When no body reads the transcript, function info only inserts descriptions. -/
theorem tracing_inserts (e : Evaluator β σ) (hblind : e.host.Blind) (line : Text)
    (w : World β σ) : e.TracingInserts line w := by
  have hstep := inStep_evaluate hblind line w
  have hacts (records) (hrecords : e.Records line w records) :
      Transcript.Does (e.tracedActs line w records) w.transcript
        ((e.tracing true).evaluate line w).2.transcript :=
    (hstep.traced records hrecords).does
  obtain ⟨records, hrecords⟩ := hstep.recorded
  obtain ⟨t, htraced, -⟩ := hstep.traced records hrecords w.transcript
  rw [World.withTranscript_transcript] at htraced
  refine ⟨by rw [htraced], by rw [htraced]; rfl, hstep.log w.transcript, ⟨records, hrecords⟩,
    hacts, ?_⟩
  intro records hrecords hfits
  obtain ⟨-, w', hmakes, hlast⟩ := id hrecords
  have huntraced : Transcript.Does (records.flatMap CallRecord.acts ++
      [.extend ((e.tracing false).log line w).reportLines]) w.transcript
      ((e.tracing false).evaluate line w).2.transcript := by
    rw [hlast]
    exact hmakes.does.append ⟨_, rfl⟩
  rw [(hacts records hrecords).lines_of_fits hfits]
  rw [tracedActs, Transcript.fits_append] at hfits
  obtain ⟨hcalls, hahead⟩ := ahead_of_fits (.refl _) hfits.1
  have hreport := (hahead.foldl hfits.2).1
  rw [huntraced.lines_of_fits (Transcript.fits_append.2 ⟨hcalls, hreport⟩), tracedActs,
    List.foldl_concat, List.foldl_concat]
  exact insertedSinceClear records _ _

/-- An evaluator whose bodies are texts: a body writes its text and answers with it. -/
def reciter : Evaluator Text Unit where
  host := { run := fun text _ _ w => (.value (.text text), w.write [.info text]), lookup := .none }

/-- A world with a command `f` without parameters and a command `g` with one. -/
def reciterWorld : World Text Unit where
  registry := { commands :=
    [.bound "f".toList [] (.custom "first".toList),
      .bound "g".toList [.any] (.custom "second".toList)] }
  transcript := .empty 1000
  log := {}
  host := ()

theorem blind_reciter : reciter.host.Blind :=
  fun text _ _ w => ⟨_, _, w, .write _ [.info text] w⟩

/-- The calls of `g(f())`, each with the line of its body. -/
def reciterRecords : List (CallRecord Text) :=
  [⟨(reciter.tracing false).callLog "f".toList [] [] reciterWorld,
      [.extend [.info "first".toList]]⟩,
    ⟨(reciter.tracing false).callLog "g".toList "f2".toList [.text "first".toList]
        (reciterWorld.write [.info "first".toList]),
      [.extend [.info "second".toList]]⟩]

theorem records_reciter : reciter.Records "g(f())".toList reciterWorld reciterRecords := by
  have hinner : Yields ((reciter.tracing false).call "f".toList [] []) reciterWorld
      [.extend [.info "first".toList]] (some (.text "first".toList)) reciterWorld :=
    .write _ [.info "first".toList] _
  have houter : Yields ((reciter.tracing false).call "g".toList "f2".toList [.text "first".toList])
      (reciterWorld.write [.info "first".toList]) [.extend [.info "second".toList]]
      (some (.text "second".toList)) (reciterWorld.write [.info "first".toList]) :=
    .write _ [.info "second".toList] _
  have hmakes := Makes.cons (e := reciter.tracing false) (r := reciterRecords[0]) rfl rfl
    (hinner.of_eq rfl) (.cons (r := reciterRecords[1]) rfl rfl (houter.of_eq rfl) (.nil _))
  refine ⟨?_, _, hmakes, ?_⟩
  · rw [log_nested rfl rfl rfl]
    rfl
  · rw [log_nested rfl rfl rfl, evaluate_nested rfl rfl rfl]
    rfl

/-- In `g(f())` either call is described right before the line of its body. -/
theorem tracing_inserts_nested :
    ((reciter.tracing true).evaluate "g(f())".toList reciterWorld).2.transcript.lines =
      description "f".toList [] [] ++ [.info "first".toList] ++
        (description "g".toList "f2".toList [.text "first".toList] ++ [.info "second".toList]) := by
  have hinserts := tracing_inserts reciter blind_reciter "g(f())".toList reciterWorld
  have hreport : ((reciter.tracing false).log "g(f())".toList reciterWorld).reportLines = [] := by
    rw [log_nested rfl rfl rfl]
    rfl
  have hfits : Transcript.Fits
      (reciter.tracedActs "g(f())".toList reciterWorld reciterRecords) (.empty 1000) := by
    have hacts : reciter.tracedActs "g(f())".toList reciterWorld reciterRecords =
        [.extend (description "f".toList [] []), .extend [.info "first".toList],
          .extend (description "g".toList "f2".toList [.text "first".toList]),
          .extend [.info "second".toList], .extend []] := by
      rw [tracedActs, hreport]
      rfl
    rw [hacts, description_nil, description_singleton]
    decide
  cases hinserts.lines reciterRecords records_reciter hfits with
  | all _ hinserted =>
      rw [hinserted.traced, hreport]
      rfl
  | after hrecords hclears =>
      have hkeep : ∀ r ∈ reciterRecords, ¬ r.Clears := by simp [reciterRecords, CallRecord.Clears]
      exact absurd hclears (hkeep _ (hrecords ▸ by simp))

/-! ## Calls that clear -/

/-- A world with the console's own commands. -/
def builtinWorld : World Unit Unit where
  registry := { commands := Builtin.commands }
  transcript := .empty 1000
  log := {}
  host := ()

/-- The description of a call that clears is not inserted, although nothing is evicted, whatever
stands before it and after it. -/
theorem not_inserted_clear :
    ¬ ∀ (e : Evaluator Unit Unit) (line : Text) (w : World Unit Unit)
      (records : List (CallRecord Unit)), e.host.Blind → e.Records line w records →
      Transcript.Fits (e.tracedActs line w records) w.transcript →
      ∃ start report, Inserted records start report
        ((e.tracing false).evaluate line w).2.transcript.lines
        ((e.tracing true).evaluate line w).2.transcript.lines := by
  intro h
  have hclear : Yields ((echo.tracing false).call "clear".toList [] []) builtinWorld [.clear]
      (some .nil) builtinWorld :=
    fun t => ⟨t.clear, rfl, t.scroll, rfl⟩
  have hrecords : echo.Records "clear".toList builtinWorld
      [⟨(echo.tracing false).callLog "clear".toList [] [] builtinWorld, [.clear]⟩] :=
    ⟨rfl, _, .cons rfl rfl (hclear.of_eq rfl) (.nil _), rfl⟩
  have hfits : Transcript.Fits
      [.extend (description "clear".toList [] []), .clear, .extend []] (.empty 1000) := by
    rw [description_nil]
    decide
  have hempty : ((echo.tracing true).evaluate "clear".toList builtinWorld).2.transcript.lines =
      [] := rfl
  obtain ⟨start, report, hinserted⟩ := h echo _ _ _ blind_echo hrecords hfits
  have htraced := hinserted.traced
  rw [hempty] at htraced
  simp [CallRecord.block, description] at htraced

end Evaluator

end CommandConsole

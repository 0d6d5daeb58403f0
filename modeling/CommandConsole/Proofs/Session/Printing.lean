import CommandConsole.Proofs.Session.Turns

set_option autoImplicit false

/-!
# What a session prints

The lines of the transcript that a session prints are spread over its frames.  A frame prints what
nobody has read before, with the waiting host lines at the end, and leaves nothing to read or to
forward; so the law of one turn (`Turn.taken_append_printed`) adds up over all turns.  As long as no
line is cleared away or evicted, every line that was to be read at the start, and every line that is
pushed later, is printed once and in this order, unless a body has read it itself (`printsOnce`).
-/

namespace CommandConsole

namespace Session

open Transcript (Keeps Does readBy)

variable {β σ : Type} {h : Host β σ} {c : Console β σ}

/-! ## Frames -/

/-- A frame leaves no host line waiting and no line to read. -/
theorem drained_frame (c : Console β σ) :
    (frame c).console.world.waiting = [] ∧ (frame c).console.world.transcript.toRead = [] := by
  rw [console_frame]
  exact ⟨rfl, List.drop_length⟩

/-! ## One turn -/

namespace Turn

/-- The host lines that the frame of a turn adds to the transcript. -/
def forwarded (t : Turn β σ) : List Line := t.applied.world.waiting

/-- The lines that a turn pushes. -/
def pushed (t : Turn β σ) : List Line := Transcript.pushed t.acts ++ t.forwarded

/-- The lines that bodies read from the transcript in a turn. -/
def taken (t : Turn β σ) : List Line := readBy t.acts t.start.world.transcript

/-- The lines that the frame of a turn prints. -/
def printed (t : Turn β σ) : List Line := Session.printed t.applied

/-- What a turn writes. -/
def output (t : Turn β σ) : List Text :=
  t.answer ++ (t.printed.map lineText ++ panel t.applied)

/-- Neither the line nor the frame clears the transcript or exceeds its budget. -/
structure Kept (t : Turn β σ) : Prop where
  line : Keeps t.acts t.start.world.transcript
  frame : Keeps [.extend t.forwarded] t.applied.world.transcript

variable {t : Turn β σ}

/-- A frame prints what is unread when it begins, and then the host lines that wait. -/
theorem printed_eq (hkept : t.Kept) :
    t.printed = t.applied.world.transcript.toRead ++ t.forwarded :=
  Transcript.toRead_extend hkept.frame.1.2

/-- What a turn reads and prints is what was unread and what it pushes. -/
theorem taken_append_printed (hkept : t.Kept)
    (hdoes : Does t.acts t.start.world.transcript t.applied.world.transcript) :
    t.taken ++ t.printed = t.start.world.transcript.toRead ++ t.pushed := by
  have hline := Transcript.readBy_append_toRead hkept.line
  calc t.taken ++ t.printed
      = t.taken ++ (t.acts.foldl Transcript.Act.perform t.start.world.transcript).toRead ++
          t.forwarded := by
        rw [printed_eq hkept, hdoes.toRead, List.append_assoc]
    _ = t.start.world.transcript.toRead ++ t.pushed := by
        rw [taken, hline, List.append_assoc]
        rfl

/-- A turn in which no body reads the transcript takes no line from the frames. -/
theorem taken_eq_nil (hacts : .takeUnread ∉ t.acts) : t.taken = [] :=
  Transcript.readBy_of_not_mem hacts _

end Turn

/-! ## Turns in a row -/

namespace Turns

variable {lines : List (Option Text)} {turns : List (Turn β σ)}

theorem output (hturns : Turns h c lines turns) :
    (readLines h lines c).output = turns.flatMap Turn.output := by
  induction hturns with
  | ended c => rfl
  | invalid c rest => rfl
  | quit rest hquit =>
      unfold readLines step
      rw [hquit]
      rfl
  | @line c line rest shown acts turns happly hacts hrest ih =>
      have hframe := output_frame shown.console
      unfold readLines step
      rw [happly, List.flatMap_cons, ← ih]
      dsimp only [Option.map_some]
      rw [hframe]
      rfl

/-- After a frame every turn begins with nothing to read, because the turn before ends with one. -/
theorem toRead_start (hturns : Turns h c lines turns) (hread : c.world.transcript.toRead = []) :
    ∀ t ∈ turns, t.start.world.transcript.toRead = [] := by
  induction hturns with
  | ended | invalid | quit => exact List.forall_mem_nil _
  | @line c line rest shown acts turns happly hacts hrest ih =>
      exact List.forall_mem_cons.2 ⟨hread, ih (drained_frame shown.console).2⟩

end Turns

/-! ## Whole sessions -/

/-- What is true of the turns of a session. -/
structure PrintsOnce (h : Host β σ) (lines : List (Option Text)) (c : Console β σ)
    (turns : List (Turn β σ)) : Prop where
  /-- The output is what the turns write, one after the other. -/
  output : (run h lines c).output = turns.flatMap Turn.output
  /-- All lines that frames print are those that were unread at the start, followed by all that are
  pushed, if no body reads the transcript itself. -/
  all : (∀ t ∈ turns, .takeUnread ∉ t.acts) →
    turns.flatMap Turn.printed = c.world.transcript.toRead ++ turns.flatMap Turn.pushed
  /-- In any case what bodies read and what frames print is together the same. -/
  shared : turns.flatMap (fun t => t.taken ++ t.printed) =
    c.world.transcript.toRead ++ turns.flatMap Turn.pushed
  /-- In one turn it is what was unread before and what the turn pushes. -/
  turn : ∀ t ∈ turns, t.taken ++ t.printed = t.start.world.transcript.toRead ++ t.pushed
  /-- A frame prints the host lines that wait, after all lines that are unread when it begins. -/
  frames : ∀ t ∈ turns, t.printed = t.applied.world.transcript.toRead ++ t.forwarded
  /-- Nothing is left for the next frame. -/
  drained : ∀ t ∈ turns, (frame t.applied).console.world.waiting = [] ∧
    (frame t.applied).console.world.transcript.toRead = []

theorem printsOnce_of_runs {lines : List (Option Text)} {turns : List (Turn β σ)}
    (hruns : Runs h lines c turns) (hkept : ∀ t ∈ turns, t.Kept) : PrintsOnce h lines c turns := by
  obtain @⟨later, hlater⟩ := hruns
  have hdoes : ∀ t ∈ Turn.first c :: later,
      Does t.acts t.start.world.transcript t.applied.world.transcript :=
    List.forall_mem_cons.2 ⟨⟨c.world.transcript.scroll, rfl⟩, hlater.does⟩
  have hturn : ∀ t ∈ Turn.first c :: later,
      t.taken ++ t.printed = t.start.world.transcript.toRead ++ t.pushed :=
    fun t ht => t.taken_append_printed (hkept t ht) (hdoes t ht)
  have hshared : (Turn.first c :: later).flatMap (fun t => t.taken ++ t.printed) =
      c.world.transcript.toRead ++ (Turn.first c :: later).flatMap Turn.pushed := by
    have hstart := hlater.toRead_start (drained_frame c).2
    obtain ⟨hfirst, hrest⟩ := List.forall_mem_cons.1 hturn
    have hsum : later.flatMap (fun t => t.taken ++ t.printed) = later.flatMap Turn.pushed :=
      List.flatMap_congr fun t ht => by rw [hrest t ht, hstart t ht, List.nil_append]
    rw [List.flatMap_cons, List.flatMap_cons, hsum, hfirst, List.append_assoc]
    rfl
  refine ⟨?_, fun hacts => ?_, hshared, hturn, fun t ht => t.printed_eq (hkept t ht),
    fun t _ => drained_frame t.applied⟩
  · have hframe := output_frame c
    rw [run, hlater.output, hframe]
    rfl
  · rw [← hshared]
    refine List.flatMap_congr fun t ht => ?_
    rw [t.taken_eq_nil (hacts t ht), List.nil_append]

/-- Every session of a host that works on the transcript by its acts is a row of turns, in which
nothing but the host and the frames reads the transcript.  If no turn clears the transcript or
exceeds its budget, the session prints every line once and in order. -/
theorem printsOnce {mayRead : Prop} (huses : c.UsesTranscript mayRead h)
    (lines : List (Option Text)) :
    (∃ turns, Runs h lines c turns ∧ ∀ t ∈ turns, .takeUnread ∈ t.acts → mayRead) ∧
      ∀ turns, Runs h lines c turns → (∀ t ∈ turns, t.Kept) → PrintsOnce h lines c turns :=
  ⟨exists_runs huses lines, fun _ hruns hkept => printsOnce_of_runs hruns hkept⟩

/-! ## A session with a line -/

/-- A host whose body writes a line and reports a warning. -/
def worker : Host Unit Unit where
  run _ _ _ w :=
    (.value .nil,
      { w.info "working".toList with
        log := w.log.emit ⟨"game".toList, .warn, some "low".toList⟩ })
  lookup := .none

/-- An open console that calls the body `job`, in front of an error that waits. -/
def workerConsole : Console Unit Unit :=
  ((Console.new { startOpened := true } ⟨[.error "late".toList]⟩ ()).register
    (.action "job".toList (.custom ()))).2

/-- What the line `job` does. -/
def workerShown : Shown Unit Unit :=
  submit worker ((frame workerConsole).console.setText "job".toList)

/-- The turns of a session of one line. -/
def workerTurns : List (Turn Unit Unit) :=
  [ .first workerConsole,
    { start := (frame workerConsole).console
      acts := [.push (.info "> job".toList), .push (.info "working".toList)]
      answer := workerShown.output
      applied := workerShown.console } ]

theorem usesTranscript_worker : workerConsole.UsesTranscript False worker where
  bodies _ _ _ w := .perform (.push (.info "working".toList)) nofun w.transcript
  hooks := List.forall_mem_nil _

theorem runs_worker :
    Runs worker [some "job".toList, some ":quit".toList] workerConsole workerTurns :=
  .run (.line rfl ⟨true, by decide⟩ (.quit [] rfl))

theorem kept_worker : ∀ t ∈ workerTurns, t.Kept :=
  List.forall_mem_cons.2 ⟨⟨by decide, by decide⟩,
    List.forall_mem_cons.2 ⟨⟨by decide, by decide⟩, List.forall_mem_nil _⟩⟩

theorem printsOnce_worker : workerConsole.UsesTranscript False worker ∧
    PrintsOnce worker [some "job".toList, some ":quit".toList] workerConsole workerTurns ∧
    workerTurns.map Turn.printed =
      [ [.info Console.greeting, .error "HOST [Error]: late".toList],
        [.info "> job".toList, .info "working".toList, .warn "HOST [Warn]: low".toList] ] :=
  ⟨usesTranscript_worker,
    (printsOnce usesTranscript_worker _).2 workerTurns runs_worker kept_worker, by decide⟩

end Session

end CommandConsole

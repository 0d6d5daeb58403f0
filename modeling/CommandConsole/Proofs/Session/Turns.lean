import CommandConsole.Proofs.Console.Changes
import CommandConsole.Proofs.Session.Frame
import CommandConsole.Proofs.Transcript.Keeping

set_option autoImplicit false

/-!
# The turns of a session

A session is a row of turns.  Each of them ends with a frame; nothing comes before the frame in the
first turn, and in every other one a line is applied.  What the line does to the transcript is told
by a list of acts (`Turns`).  There are such acts whenever the host's bodies and hooks work on the
transcript by acts alone, and if these do not read the transcript, nothing but the frames does
(`exists_runs`).
-/

namespace CommandConsole

variable {β σ : Type} {h : Host β σ} {c c' : Console β σ} {mayRead : Prop}

/-! ## Who works on the transcript -/

namespace Console

/-- The bodies of a host and the hooks of a console work on the transcript by its acts, and read it
only if that is allowed. -/
structure UsesTranscript (mayRead : Prop) (h : Host β σ) (c : Console β σ) : Prop where
  bodies : ∀ b receiver args (w : World β σ),
    w.transcript.Reaches mayRead (h.run b receiver args w).2.transcript
  hooks : ∀ hook ∈ c.hooks, ∀ w : World β σ, w.transcript.Reaches mayRead (hook w).transcript

namespace UsesTranscript

theorem reaches (huses : c.UsesTranscript mayRead h) {w w' : World β σ}
    (hchanges : World.Changes h c.hooks w w') :
    w.transcript.Reaches mayRead w'.transcript := by
  induction hchanges with
  | refl => exact .refl w.transcript
  | tail _ hchange ih =>
      refine ih.trans ?_
      cases hchange with
      | act act hact => exact .perform act hact _
      | scroll => exact .scheduleScroll _
      | body b receiver args => exact huses.bodies b receiver args _
      | hook hhook => exact huses.hooks _ hhook _

theorem follows (huses : c.UsesTranscript mayRead h) (hfollows : c.Follows h c') :
    c'.UsesTranscript mayRead h where
  bodies := huses.bodies
  hooks hook hhook := huses.hooks hook (hfollows.hooks ▸ hhook)

theorem frame (huses : c.UsesTranscript mayRead h) :
    (Session.frame c).console.UsesTranscript mayRead h := by
  rw [Session.console_frame]
  exact ⟨huses.bodies, huses.hooks⟩

end UsesTranscript

end Console

/-! ## Turns -/

namespace Session

open Console (Follows)

theorem follows_submit (c : Console β σ) : c.Follows h (submit h c).console := by
  have hsubmit : c.Follows h (c.submit h).2 := Console.follows_submit c
  unfold submit
  split
  · exact .refl c
  · split <;>
    · rename_i hresult
      rw [hresult] at hsubmit
      exact hsubmit

theorem follows_apply {input : Input} {shown : Shown β σ} (happly : apply h input c = some shown) :
    c.Follows h shown.console := by
  cases input with
  | quit => cases happly
  | type text =>
      cases happly
      exact Console.follows_setText text c
  | unknownKey name =>
      cases happly
      exact .refl c
  | submit text =>
      unfold apply at happly
      dsimp only at happly
      split at happly
      · cases happly
        exact .refl c
      · cases happly
        exact (Console.follows_setText text c).trans (follows_submit _)
  | key action =>
      by_cases haction : action = .submit
      · subst haction
        cases happly
        exact follows_submit c
      · rw [apply_key haction] at happly
        cases happly
        exact Console.follows_handle action c

/-- One turn of a session. -/
structure Turn (β σ : Type) where
  start : Console β σ
  /-- What the line does to the transcript. -/
  acts : List Transcript.Act
  /-- What the session answers to the line by itself. -/
  answer : List Text
  /-- The console after the line and before the frame. -/
  applied : Console β σ

/-- The turn without a line. -/
def Turn.first (c : Console β σ) : Turn β σ := ⟨c, [], [], c⟩

/-- The turns of the lines of a script, from a console on. -/
inductive Turns (h : Host β σ) :
    Console β σ → List (Option Text) → List (Turn β σ) → Prop where
  | ended (c : Console β σ) : Turns h c [] []
  | invalid (c : Console β σ) (rest : List (Option Text)) : Turns h c (none :: rest) []
  | quit {c : Console β σ} {line : Text} (rest : List (Option Text))
      (hquit : apply h (Input.parse line) c = none) : Turns h c (some line :: rest) []
  | line {c : Console β σ} {line : Text} {rest : List (Option Text)} {shown : Shown β σ}
      {acts : List Transcript.Act} {turns : List (Turn β σ)}
      (happly : apply h (Input.parse line) c = some shown)
      (hacts : Transcript.Does acts c.world.transcript shown.console.world.transcript)
      (hrest : Turns h (frame shown.console).console rest turns) :
      Turns h c (some line :: rest) (⟨c, acts, shown.output, shown.console⟩ :: turns)

/-- The turns of a whole session. -/
inductive Runs (h : Host β σ) (lines : List (Option Text)) (c : Console β σ) :
    List (Turn β σ) → Prop where
  | run {turns : List (Turn β σ)} (hturns : Turns h (frame c).console lines turns) :
      Runs h lines c (.first c :: turns)

theorem exists_turns (huses : c.UsesTranscript mayRead h) (lines : List (Option Text)) :
    ∃ turns, Turns h c lines turns ∧ ∀ t ∈ turns, .takeUnread ∈ t.acts → mayRead := by
  induction lines generalizing c with
  | nil => exact ⟨[], .ended c, List.forall_mem_nil _⟩
  | cons line? rest ih =>
      cases line? with
      | none => exact ⟨[], .invalid c rest, List.forall_mem_nil _⟩
      | some line =>
          rcases happly : apply h (Input.parse line) c with _ | shown
          · exact ⟨[], .quit rest happly, List.forall_mem_nil _⟩
          · have hfollows := follows_apply happly
            obtain ⟨acts, hread, hacts⟩ := huses.reaches hfollows.world
            obtain ⟨turns, hrest, hreads⟩ := ih (huses.follows hfollows).frame
            exact ⟨_, .line happly hacts hrest, List.forall_mem_cons.2 ⟨hread, hreads⟩⟩

/-- Every session has turns, and they read the transcript only as the host does. -/
theorem exists_runs (huses : c.UsesTranscript mayRead h) (lines : List (Option Text)) :
    ∃ turns, Runs h lines c turns ∧ ∀ t ∈ turns, .takeUnread ∈ t.acts → mayRead := by
  obtain ⟨turns, hturns, hreads⟩ := exists_turns huses.frame lines
  have hfirst : .takeUnread ∈ (Turn.first c).acts → mayRead := fun hread =>
    absurd hread List.not_mem_nil
  exact ⟨_, .run hturns, List.forall_mem_cons.2 ⟨hfirst, hreads⟩⟩

/-- The acts of a turn lead through its line. -/
theorem Turns.does {lines : List (Option Text)} {turns : List (Turn β σ)}
    (hturns : Turns h c lines turns) : ∀ t ∈ turns,
    Transcript.Does t.acts t.start.world.transcript t.applied.world.transcript := by
  induction hturns with
  | ended | invalid | quit => exact List.forall_mem_nil _
  | line _ hacts _ ih => exact List.forall_mem_cons.2 ⟨hacts, ih⟩

end Session

end CommandConsole

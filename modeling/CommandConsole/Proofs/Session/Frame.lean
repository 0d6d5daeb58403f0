import CommandConsole.Session.Basic

set_option autoImplicit false

/-!
# Frames

A frame writes three things: the lines of the transcript that nobody has read, to which the waiting
host lines are added before; the suggestions; and the input.  Of the console it changes only the
host log and the transcript (`console_frame`).  A second frame right after it would find nothing
more to forward or to read (`frame_frame`).  Before a frame comes a line; if that is a key, it acts
on the console alone (`apply_key`).
-/

namespace CommandConsole

variable {β σ : Type}

/-- The lines that wait in the host log, as the transcript shows them. -/
def World.waiting (w : World β σ) : List Line := w.log.pending.map HostLog.tagged

/-- The world whose waiting host lines are in the transcript. -/
def World.forwarded (w : World β σ) : World β σ :=
  { w with log := {}, transcript := w.transcript.extend w.waiting }

/-- The world after a frame. -/
def World.framed (w : World β σ) : World β σ :=
  { w.forwarded with transcript := { w.forwarded.transcript with unread := 0, scroll := false } }

namespace Session

/-- The lines of the transcript that a frame writes. -/
def printed (c : Console β σ) : List Line := c.world.forwarded.transcript.takeUnread.1

/-- What a frame writes after them. -/
def panel (c : Console β σ) : List Text :=
  (if c.suggestions.isVisible then [suggestionsLine c.suggestions] else []) ++
    if c.text.isEmpty then [] else ["  input: ".toList ++ c.text]

theorem appendHostLines_eq (lines : List Line) (c : Console β σ) :
    lines.foldl (fun c line => c.appendHostLine line) c =
      c.mapTranscript (·.extend (lines.map HostLog.tagged)) := by
  induction lines generalizing c with
  | nil => rfl
  | cons line lines ih => exact ih (c.appendHostLine line)

theorem forwardLog_eq (c : Console β σ) : c.forwardLog.2 = c.mapWorld World.forwarded :=
  appendHostLines_eq c.world.log.pending _

theorem console_frame (c : Console β σ) : (frame c).console = c.mapWorld World.framed := by
  have hframe : (frame c).console = c.forwardLog.2.takeUnread.2.endFrame.2 := rfl
  rw [hframe, forwardLog_eq]
  rfl

theorem output_frame (c : Console β σ) :
    (frame c).output = (printed c).map lineText ++ panel c := by
  have hframe : (frame c).output =
      (c.forwardLog.2.takeUnread.1.map lineText ++
        (if c.forwardLog.2.takeUnread.2.suggestions.isVisible then
          [suggestionsLine c.forwardLog.2.takeUnread.2.suggestions] else [])) ++
        if c.forwardLog.2.takeUnread.2.text.isEmpty then []
        else ["  input: ".toList ++ c.forwardLog.2.takeUnread.2.text] := rfl
  rw [hframe, forwardLog_eq, List.append_assoc]
  rfl

/-- Nothing is left to forward or to read after a frame. -/
theorem frame_frame (c : Console β σ) : (frame (frame c).console).console = (frame c).console := by
  rw [console_frame, console_frame]
  rfl

/-- Typing a text and a frame do not depend on each other. -/
theorem console_frame_setText (text : Text) (c : Console β σ) :
    (frame (c.setText text)).console = (frame c).console.setText text := by
  rw [console_frame, console_frame]
  rfl

/-! ## Keys -/

/-- A key other than that for submitting shows no more than whether it had an effect. -/
theorem apply_key {h : Host β σ} {c : Console β σ} {action : Action} (haction : action ≠ .submit) :
    apply h (.key action) c = some
      ⟨if (c.handle h action).1 then [] else [closedNotice], (c.handle h action).2⟩ := by
  rw [apply]
  · rcases c.handle h action with ⟨_ | _, c'⟩ <;> rfl
  · exact haction

end Session

end CommandConsole

import CommandConsole.Proofs.Session.Frame
import Mathlib.Data.List.Forall2
import Mathlib.Data.List.Infix

set_option autoImplicit false

/-!
# Forwarding the host log

Events are raised and the lines that wait for them are forwarded in any order.  A line that is kept
for an event waits until the next forwarding, and is then in the transcript; so what has been
forwarded, followed by what still waits, is always a line for each event that is kept, in the order
of the events (`forwarded_append_pending`).

Which events are kept depends on the level, the message and the target.  The engine's own events are
left out, and these have the engine's name for a target or a path below it.  But the target is
compared with the name letter by letter, so that every event is left out whose target has a longer
name that begins in this way, although it belongs to something else (`kept_iff`).  Such namesakes
are all that can be missing (`forwardsInOrder`).
-/

namespace CommandConsole

/-! ## Which events are kept -/

namespace Event

/-- The event is a warning or an error, and says something. -/
def Notable (e : Event) : Prop := (e.level = .warn ∨ e.level = .error) ∧ e.message.getD [] ≠ []

/-- The engine raises the event: the target is the engine, or a part of it. -/
def OfEngine (e : Event) : Prop :=
  e.target = HostLog.engineTarget ∨ HostLog.engineTarget ++ "::".toList <+: e.target

/-- Something else raises the event whose name begins like that of the engine. -/
def OfNamesake (e : Event) : Prop := HostLog.engineTarget <+: e.target ∧ ¬ e.OfEngine

/-- The event is to be shown. -/
def Meant (e : Event) : Prop := e.Notable ∧ ¬ e.OfEngine

/-- A line is kept for the event. -/
def Kept (e : Event) : Prop := e.Meant ∧ ¬ e.OfNamesake

instance (e : Event) : Decidable e.Notable := inferInstanceAs (Decidable (_ ∧ _))

instance (e : Event) : Decidable e.OfEngine := inferInstanceAs (Decidable (_ ∨ _))

instance (e : Event) : Decidable e.OfNamesake := inferInstanceAs (Decidable (_ ∧ _))

instance (e : Event) : Decidable e.Meant := inferInstanceAs (Decidable (_ ∧ _))

instance (e : Event) : Decidable e.Kept := inferInstanceAs (Decidable (_ ∧ _))

/-- The line shows the event: its message, with the severity of its level. -/
inductive ShownBy : Event → Line → Prop where
  | warn (target : Text) {text : Text} (htext : text ≠ []) :
      ShownBy ⟨target, .warn, some text⟩ (.warn text)
  | error (target : Text) {text : Text} (htext : text ≠ []) :
      ShownBy ⟨target, .error, some text⟩ (.error text)

variable {e : Event}

theorem OfEngine.isPrefix (h : e.OfEngine) : HostLog.engineTarget <+: e.target := by
  rcases h with heq | hpath
  · exact heq ▸ List.prefix_rfl
  · exact (List.prefix_append _ _).trans hpath

/-- The target is compared letter by letter. -/
theorem kept_iff : e.Kept ↔ e.Notable ∧ ¬ HostLog.engineTarget <+: e.target := by
  constructor
  · rintro ⟨⟨hnotable, hengine⟩, hnamesake⟩
    exact ⟨hnotable, fun hbegins => hnamesake ⟨hbegins, hengine⟩⟩
  · rintro ⟨hnotable, hbegins⟩
    have hengine : ¬ e.OfEngine := fun h => hbegins h.isPrefix
    exact ⟨⟨hnotable, hengine⟩, fun hnamesake => hbegins hnamesake.1⟩

/-- The log has a line for an event that is kept, and none for any other. -/
theorem line?_spec (e : Event) :
    (∃ line, HostLog.line? e = some line ∧ e.Kept ∧ e.ShownBy line) ∨
      HostLog.line? e = none ∧ ¬ e.Kept := by
  obtain ⟨target, level, message⟩ := e
  rw [kept_iff]
  unfold HostLog.line?
  by_cases hbegins : HostLog.engineTarget <+: target
  · exact Or.inr ⟨if_pos (List.isPrefixOf_iff_prefix.2 hbegins), fun h => h.2 hbegins⟩
  · rw [if_neg (mt List.isPrefixOf_iff_prefix.1 hbegins)]
    cases message with
    | none => exact Or.inr ⟨by cases level <;> rfl, fun h => h.1.2 rfl⟩
    | some text =>
        cases text with
        | nil => exact Or.inr ⟨by cases level <;> rfl, fun h => h.1.2 rfl⟩
        | cons a rest =>
            have htext : a :: rest ≠ [] := List.cons_ne_nil a rest
            cases level with
            | trace | debug | info => exact Or.inr ⟨rfl, fun h => h.1.1.elim nofun nofun⟩
            | warn => exact Or.inl ⟨_, rfl, ⟨⟨Or.inl rfl, htext⟩, hbegins⟩, .warn target htext⟩
            | error => exact Or.inl ⟨_, rfl, ⟨⟨Or.inr rfl, htext⟩, hbegins⟩, .error target htext⟩

/-- The lines of events are one for each that is kept, in the same order. -/
theorem forall₂_shownBy (es : List Event) :
    List.Forall₂ ShownBy (es.filter fun e => e.Kept) (es.filterMap HostLog.line?) := by
  induction es with
  | nil => exact .nil
  | cons e rest ih =>
      rcases e.line?_spec with ⟨line, hline, hkept, hshown⟩ | ⟨hline, hkept⟩
      · rw [List.filter_cons_of_pos (by simpa using hkept), List.filterMap_cons_some hline]
        exact .cons hshown ih
      · rw [List.filter_cons_of_neg (by simpa using hkept), List.filterMap_cons_none hline]
        exact ih

end Event

theorem HostLog.pending_emit (e : Event) (log : HostLog) :
    (log.emit e).pending = log.pending ++ (HostLog.line? e).toList := by
  unfold emit
  cases HostLog.line? e with
  | none => exact (List.append_nil _).symm
  | some line => rfl

/-! ## Raising and forwarding -/

namespace Console

variable {β σ : Type}

/-- What happens around the host log. -/
inductive LogAct where
  | raise (e : Event)
  | forward
  deriving DecidableEq, Repr

namespace LogAct

/-- The event that is raised. -/
def event? : LogAct → Option Event
  | raise e => some e
  | forward => none

/-- The console after the act. -/
def perform (a : LogAct) (c : Console β σ) : Console β σ :=
  match a with
  | raise e => c.mapWorld fun w => { w with log := w.log.emit e }
  | forward => c.forwardLog.2

/-- The lines that the act takes out of the log. -/
def taken (a : LogAct) (c : Console β σ) : List Line :=
  match a with
  | raise _ => []
  | forward => c.world.log.pending

/-- What an act takes, and what waits then, is what waited and the line of the event. -/
theorem taken_append_pending (a : LogAct) (c : Console β σ) :
    a.taken c ++ (a.perform c).world.log.pending =
      c.world.log.pending ++ (a.event?.toList).filterMap HostLog.line? := by
  cases a with
  | raise e =>
      refine (HostLog.pending_emit e c.world.log).trans (congrArg _ ?_)
      cases hline : HostLog.line? e <;> simp [event?, hline]
  | forward =>
      rw [perform, Session.forwardLog_eq]
      rfl

/-- What an act takes is in the transcript, as lines of the host. -/
theorem transcript_perform (a : LogAct) (c : Console β σ) :
    (a.perform c).world.transcript =
      c.world.transcript.extend ((a.taken c).map HostLog.tagged) := by
  cases a with
  | raise e => rfl
  | forward =>
      rw [perform, Session.forwardLog_eq]
      rfl

end LogAct

/-- The console after acts. -/
def performAll (as : List LogAct) (c : Console β σ) : Console β σ :=
  as.foldl (fun c a => a.perform c) c

/-- The events that acts raise. -/
def raised (as : List LogAct) : List Event := as.filterMap LogAct.event?

/-- The lines that acts forward. -/
def forwarded : List LogAct → Console β σ → List Line
  | [], _ => []
  | a :: rest, c => a.taken c ++ forwarded rest (a.perform c)

theorem transcript_performAll (as : List LogAct) (c : Console β σ) :
    (performAll as c).world.transcript =
      c.world.transcript.extend ((forwarded as c).map HostLog.tagged) := by
  induction as generalizing c with
  | nil => rfl
  | cons a rest ih =>
      refine (ih (a.perform c)).trans ?_
      rw [a.transcript_perform, forwarded, List.map_append]
      exact List.foldl_append.symm

/-- What acts forward, and what waits after them, is what waited before and the lines of the
events that they raise. -/
theorem forwarded_append_pending (as : List LogAct) (c : Console β σ) :
    forwarded as c ++ (performAll as c).world.log.pending =
      c.world.log.pending ++ (raised as).filterMap HostLog.line? := by
  induction as generalizing c with
  | nil => exact (List.append_nil _).symm
  | cons a rest ih =>
      have hevents : raised (a :: rest) = a.event?.toList ++ raised rest := by
        unfold raised
        cases ha : a.event? <;> simp [ha]
      calc forwarded (a :: rest) c ++ (performAll (a :: rest) c).world.log.pending
          = a.taken c ++ (forwarded rest (a.perform c) ++
              (performAll rest (a.perform c)).world.log.pending) := List.append_assoc _ _ _
        _ = a.taken c ++ (a.perform c).world.log.pending ++
              (raised rest).filterMap HostLog.line? := by
            rw [ih, List.append_assoc]
        _ = c.world.log.pending ++ (raised (a :: rest)).filterMap HostLog.line? := by
            rw [a.taken_append_pending, hevents, List.filterMap_append, List.append_assoc]

/-! ## What is forwarded -/

/-- The lines that acts forward, followed by those that wait after them, are those that waited
before and one more for each of the events, in their order. -/
def Forwards (as : List LogAct) (c : Console β σ) (es : List Event) : Prop :=
  ∃ lines, List.Forall₂ Event.ShownBy es lines ∧
    forwarded as c ++ (performAll as c).world.log.pending = c.world.log.pending ++ lines

theorem forwards_kept (as : List LogAct) (c : Console β σ) :
    Forwards as c ((raised as).filter fun e => e.Kept) :=
  ⟨_, Event.forall₂_shownBy _, forwarded_append_pending as c⟩

/-- The number of events is determined. -/
theorem Forwards.length_eq {as : List LogAct} {c : Console β σ} {es es' : List Event}
    (h : Forwards as c es) (h' : Forwards as c es') : es.length = es'.length := by
  obtain ⟨lines, hshown, hlines⟩ := h
  obtain ⟨lines', hshown', hlines'⟩ := h'
  obtain rfl := List.append_cancel_left (hlines.symm.trans hlines')
  rw [hshown.length_eq, hshown'.length_eq]

/-- All events that are to be shown have their lines exactly if none of them comes from a
namesake. -/
theorem forwards_meant_iff (as : List LogAct) (c : Console β σ) :
    Forwards as c ((raised as).filter fun e => e.Meant) ↔
      ∀ e ∈ raised as, e.Meant → ¬ e.OfNamesake := by
  have hkept : (raised as).filter (fun e => e.Kept) =
      ((raised as).filter fun e => e.Meant).filter fun e => ¬ e.OfNamesake := by
    rw [List.filter_filter]
    refine List.filter_congr fun e _ => ?_
    rw [← Bool.decide_and, decide_eq_decide, and_comm]
    rfl
  constructor
  · intro hmeant e he hshow
    have hlength := (forwards_kept as c).length_eq hmeant
    rw [hkept, List.length_filter_eq_length_iff] at hlength
    exact of_decide_eq_true (hlength e (List.mem_filter.2 ⟨he, decide_eq_true hshow⟩))
  · intro hnone
    have hall : (raised as).filter (fun e => e.Kept) = (raised as).filter fun e => e.Meant := by
      rw [hkept, List.filter_eq_self]
      intro e he
      obtain ⟨he, hshow⟩ := List.mem_filter.1 he
      exact decide_eq_true (hnone e he (of_decide_eq_true hshow))
    exact hall ▸ forwards_kept as c

/-- What is true of raising events and forwarding in any order. -/
structure ForwardsInOrder (as : List LogAct) (c : Console β σ) : Prop where
  /-- What is forwarded comes to the transcript, in this order and with the mark of the host. -/
  received : (performAll as c).world.transcript =
    c.world.transcript.extend ((forwarded as c).map HostLog.tagged)
  /-- Each event that is kept has its line, among those forwarded or those that wait. -/
  kept : Forwards as c ((raised as).filter fun e => e.Kept)
  /-- The same is true of all events that are to be shown, exactly if none of them comes from a
  namesake of the engine. -/
  meant : Forwards as c ((raised as).filter fun e => e.Meant) ↔
    ∀ e ∈ raised as, e.Meant → ¬ e.OfNamesake
  /-- Nothing waits after a forwarding. -/
  drained : ∀ earlier, as = earlier ++ [.forward] → (performAll as c).world.log.pending = []

theorem forwardsInOrder (as : List LogAct) (c : Console β σ) : ForwardsInOrder as c where
  received := transcript_performAll as c
  kept := forwards_kept as c
  meant := forwards_meant_iff as c
  drained earlier h := by
    rw [h, performAll, List.foldl_append, List.foldl_cons, List.foldl_nil, LogAct.perform,
      Session.forwardLog_eq]
    rfl

/-! ## An event of a namesake -/

/-- A warning from something whose name is longer than that of the engine. -/
def namesakeWarning : Event := ⟨"dev_console_extra".toList, .warn, some "low memory".toList⟩

/-- The warning is to be shown, but it is not forwarded. -/
theorem not_forwards_meant : ¬ ∀ (as : List LogAct) (c : Console Unit Unit),
    (∀ e ∈ raised as, e.message.getD [] ≠ []) →
      Forwards as c ((raised as).filter fun e => e.Meant) := by
  intro hforwards
  have hmeant := hforwards [.raise namesakeWarning, .forward] (Console.new {} {} ()) (by decide)
  exact (forwards_meant_iff _ _).1 hmeant namesakeWarning (by decide) (by decide) (by decide)

end Console

end CommandConsole

import CommandConsole.History
import Mathlib.Data.List.Destutter
import Mathlib.Data.Nat.PSub

set_option autoImplicit false

/-!
# The history as a log with an integer cursor

Seen from outside, a history is a log of lines with a cursor that is an integer: `-1` at the draft,
and else the place of an entry.  `recorded`, `position` and `lastDraft` say what they are after any
acts, by looking back over the acts, with nothing of the state that the history keeps.  The history
agrees with them at every moment and for every capacity, 0 included (`refinesLog`).

`navigate?` is a move whose subtractions fail below zero and whose look-ups fail beyond the entries.
It never fails.
-/

namespace CommandConsole

namespace History

/-! ## Acts -/

/-- What can be done to a history. -/
inductive Act where
  | push (line : Text)
  | navigate (direction : Direction) (draft : Text)
  | resetCursor

namespace Act

/-- The history after an act. -/
def perform (h : History) : Act → History
  | push line => h.push line
  | navigate direction draft => (h.navigate direction draft).2
  | resetCursor => h.resetCursor

/-- The line that an act pushes. -/
def line? : Act → Option Text
  | push line => some line
  | navigate _ _ => none
  | resetCursor => none

end Act

/-- The history after acts on an empty one.  The last act comes first. -/
def run (capacity : Nat) : List Act → History
  | [] => empty capacity
  | act :: acts => act.perform (run capacity acts)

/-! ## The log of acts -/

/-- The lines that are kept after acts: the newest of all that were pushed, once repeats of a line
directly after it are left out. -/
def recorded (capacity : Nat) (acts : List Act) : List Text :=
  ((acts.filterMap Act.line?).destutter (· ≠ ·)).take capacity

/-- The place of the cursor after acts. -/
def position (capacity : Nat) : List Act → Int
  | [] => -1
  | .push _ :: _ => -1
  | .navigate .up _ :: acts =>
    min (position capacity acts + 1) ((recorded capacity acts).length - 1)
  | .navigate .down _ :: acts => max (position capacity acts - 1) (-1)
  | .resetCursor :: _ => -1

/-- The draft that was given to the last move that began at `-1`. -/
def lastDraft (capacity : Nat) : List Act → Option Text
  | [] => none
  | .push _ :: acts => lastDraft capacity acts
  | .navigate _ draft :: acts =>
    if position capacity acts = -1 then some draft else lastDraft capacity acts
  | .resetCursor :: acts => lastDraft capacity acts

/-- The text at the cursor after acts. -/
def textAt (capacity : Nat) (acts : List Act) : Option Text :=
  if position capacity acts = -1 then lastDraft capacity acts
  else (recorded capacity acts)[(position capacity acts).toNat]?

/-! ## Subtractions and look-ups that may fail -/

/-- `moved` by subtractions that fail below zero. -/
def moved? (direction : Direction) (h : History) : Option (Option Nat) :=
  match direction, h.cursor with
  | .up, none => some (if h.entries.isEmpty then none else some 0)
  | .up, some i =>
    if h.entries.isEmpty then some none
    else (h.entries.length.psub 1).map fun last => some (min (i + 1) last)
  | .down, none => some none
  | .down, some i => if i = 0 then some none else (i.psub 1).map some

/-- `shown` by a look-up that fails beyond the entries. -/
def shown? (h : History) : Option Text :=
  match h.cursor with
  | none => some h.draft
  | some i => h.entries[i]?

/-- `navigate` by subtractions that fail below zero and look-ups that fail beyond the entries. -/
def navigate? (direction : Direction) (draft : Text) (h : History) : Option (Text × History) :=
  let h := if h.cursor.isNone then { h with draft } else h
  (h.moved? direction).bind fun cursor =>
    { h with cursor }.shown?.map fun text => (text, { h with cursor })

/-! ## Entries -/

theorem destutter_cons (line : Text) (lines : List Text) :
    (line :: lines).destutter (· ≠ ·) =
      if lines.head? = some line then lines.destutter (· ≠ ·)
      else line :: lines.destutter (· ≠ ·) := by
  cases lines with
  | nil => rfl
  | cons next rest =>
      rw [List.destutter_cons_cons, List.head?_cons]
      by_cases hsame : next = line
      · subst hsame
        rw [if_neg (by simp), if_pos rfl]
        rfl
      · rw [if_pos (Ne.symm hsame), if_neg (by simpa using hsame)]
        rfl

theorem head?_destutter (lines : List Text) :
    (lines.destutter (· ≠ ·)).head? = lines.head? := by
  induction lines with
  | nil => rfl
  | cons line rest ih =>
      rw [destutter_cons]
      split
      · rename_i hsame
        rw [ih, hsame]
        rfl
      · rfl

/-- A push on what is kept gives what is kept of the pushed lines. -/
theorem entries_push {h : History} {lines : List Text}
    (hentries : h.entries = (lines.destutter (· ≠ ·)).take h.capacity) (line : Text) :
    (h.push line).entries = ((line :: lines).destutter (· ≠ ·)).take h.capacity := by
  unfold push
  dsimp only [resetCursor]
  rw [destutter_cons, apply_ite entries]
  dsimp only
  cases hcapacity : h.capacity with
  | zero =>
      -- nothing is kept, so no line repeats a newest one
      rw [hcapacity, List.take_zero] at hentries
      rw [hentries, if_neg (by simp)]
      rfl
  | succ n =>
      have hhead : h.entries.head? = lines.head? := by
        rw [hentries, hcapacity, List.head?_take, if_neg (by omega), head?_destutter]
      rw [hhead, hentries, hcapacity]
      split
      · rfl
      · rw [List.take_succ_cons, List.take_succ_cons, List.take_take,
          Nat.min_eq_left (Nat.le_succ n)]

/-! ## The cursor -/

/-- The place of a cursor as an integer. -/
def place : Option Nat → Int
  | none => -1
  | some i => i

theorem place_eq_neg_one_iff {cursor : Option Nat} : place cursor = -1 ↔ cursor = none := by
  cases cursor with
  | none => exact ⟨fun _ => rfl, fun _ => rfl⟩
  | some i =>
      refine ⟨fun h => ?_, fun h => nomatch h⟩
      rw [place] at h
      omega

/-- The cursor stands at the draft or at an entry. -/
def InRange (h : History) : Prop := ∀ i, h.cursor = some i → i < h.entries.length

/-- A step moves the integer by one, within its range. -/
theorem place_moved {h : History} (hrange : h.InRange) (direction : Direction) :
    place (h.moved direction) =
      match direction with
      | .up => min (place h.cursor + 1) (h.entries.length - 1)
      | .down => max (place h.cursor - 1) (-1) := by
  cases direction with
  | up =>
      unfold moved
      cases hentries : h.entries with
      | nil =>
          cases hcursor : h.cursor with
          | none => rfl
          | some i => exact absurd (hrange i hcursor) (by rw [hentries]; exact Nat.not_lt_zero i)
      | cons line rest =>
          cases hcursor : h.cursor <;>
          · simp only [place, List.isEmpty_cons, Bool.false_eq_true, if_false, List.length_cons]
            omega
  | down =>
      unfold moved
      cases hcursor : h.cursor with
      | none => rfl
      | some i =>
          cases i with
          | zero => rfl
          | succ i =>
              simp only [place]
              omega

/-- A step stays in range. -/
theorem inRange_moved {h : History} (hrange : h.InRange) (direction : Direction) :
    ({ h with cursor := h.moved direction } : History).InRange := by
  intro i hi
  have hplace := place_moved hrange direction
  dsimp only at hi ⊢
  rw [hi] at hplace
  cases direction <;> cases hcursor : h.cursor with
  | none =>
      simp only [hcursor, place] at hplace
      omega
  | some j =>
      have hj := hrange j hcursor
      simp only [hcursor, place] at hplace
      omega

/-- A step needs no subtraction below zero. -/
theorem moved?_eq_some (h : History) (direction : Direction) :
    h.moved? direction = some (h.moved direction) := by
  unfold moved? moved
  cases direction with
  | up =>
      cases hcursor : h.cursor with
      | none => rfl
      | some i =>
          cases hentries : h.entries with
          | nil => rfl
          | cons line rest => rfl
  | down =>
      cases hcursor : h.cursor with
      | none => rfl
      | some i => cases i <;> rfl

/-- In range, no look-up goes beyond the entries. -/
theorem shown?_eq_some {h : History} (hrange : h.InRange) : h.shown? = some h.shown := by
  unfold shown? shown
  cases hcursor : h.cursor with
  | none => rfl
  | some i =>
      dsimp only
      rw [List.getD_eq_getElem?_getD, List.getElem?_eq_getElem (hrange i hcursor),
        Option.getD_some]

/-- The history as a move finds it, with the draft to return to. -/
def drafting (draft : Text) (h : History) : History :=
  if h.cursor.isNone then { h with draft } else h

theorem cursor_drafting (draft : Text) (h : History) : (h.drafting draft).cursor = h.cursor := by
  unfold drafting
  split <;> rfl

theorem entries_drafting (draft : Text) (h : History) : (h.drafting draft).entries = h.entries := by
  unfold drafting
  split <;> rfl

theorem capacity_drafting (draft : Text) (h : History) :
    (h.drafting draft).capacity = h.capacity := by
  unfold drafting
  split <;> rfl

theorem draft_drafting (draft : Text) (h : History) :
    (h.drafting draft).draft = if h.cursor = none then draft else h.draft := by
  unfold drafting
  cases h.cursor <;> rfl

theorem inRange_drafting {h : History} (hrange : h.InRange) (draft : Text) :
    (h.drafting draft).InRange := by
  intro i hi
  rw [cursor_drafting] at hi
  rw [entries_drafting]
  exact hrange i hi

theorem moved_drafting (direction : Direction) (draft : Text) (h : History) :
    (h.drafting draft).moved direction = h.moved direction := by
  unfold moved
  rw [cursor_drafting, entries_drafting]

/-- What a move does: it keeps the draft if it begins there, and then it steps. -/
theorem navigate_eq (direction : Direction) (draft : Text) (h : History) :
    h.navigate direction draft =
      (({ h.drafting draft with cursor := h.moved direction } : History).shown,
        { h.drafting draft with cursor := h.moved direction }) := by
  rw [← moved_drafting direction draft h]
  rfl

/-- A move in range needs no subtraction below zero and no look-up beyond the entries. -/
theorem navigate?_eq_some {h : History} (hrange : h.InRange) (direction : Direction)
    (draft : Text) : h.navigate? direction draft = some (h.navigate direction draft) := by
  have hmoved := moved?_eq_some (h.drafting draft) direction
  have hshown := shown?_eq_some (inRange_moved (inRange_drafting hrange draft) direction)
  unfold navigate?
  dsimp only
  rw [← drafting, hmoved, Option.bind_some, hshown]
  rfl

/-! ## Agreement -/

/-- A history agrees with what the acts say. -/
structure Agrees (capacity : Nat) (acts : List Act) (h : History) : Prop where
  capacity_eq : h.capacity = capacity
  entries : h.entries = recorded capacity acts
  cursor : place h.cursor = position capacity acts
  inRange : h.InRange
  draft : lastDraft capacity acts = some h.draft ∨
    lastDraft capacity acts = none ∧ h.cursor = none

namespace Agrees

variable {capacity : Nat} {acts : List Act} {h : History}

theorem resetCursor (ha : Agrees capacity acts h) :
    Agrees capacity (.resetCursor :: acts) h.resetCursor where
  capacity_eq := ha.capacity_eq
  entries := ha.entries
  cursor := rfl
  inRange _ hi := nomatch hi
  draft := ha.draft.imp_right fun hnone => ⟨hnone.1, rfl⟩

theorem push (ha : Agrees capacity acts h) (line : Text) :
    Agrees capacity (.push line :: acts) (h.push line) := by
  have hkept : h.entries = ((acts.filterMap Act.line?).destutter (· ≠ ·)).take h.capacity := by
    rw [ha.capacity_eq, ha.entries, recorded]
  have hentries := entries_push hkept line
  have hpushed : ∃ entries, h.push line = { h.resetCursor with entries } := by
    unfold History.push
    dsimp only
    split
    · exact ⟨h.entries, rfl⟩
    · exact ⟨_, rfl⟩
  obtain ⟨entries, hpushed⟩ := hpushed
  refine ⟨?_, ?_, ?_, ?_, ?_⟩
  · rw [hpushed]
    exact ha.capacity_eq
  · rw [hentries, ha.capacity_eq]
    rfl
  · rw [hpushed]
    rfl
  · rw [hpushed]
    exact fun _ hi => nomatch hi
  · rw [hpushed]
    exact ha.draft.imp_right fun hnone => ⟨hnone.1, rfl⟩

/-- After a move the draft is that of the last move that began there. -/
theorem lastDraft_navigate (ha : Agrees capacity acts h) (direction : Direction) (draft : Text) :
    lastDraft capacity (.navigate direction draft :: acts) = some (h.drafting draft).draft := by
  rw [lastDraft, ← ha.cursor, draft_drafting]
  by_cases hcursor : h.cursor = none
  · rw [if_pos (place_eq_neg_one_iff.2 hcursor), if_pos hcursor]
  · rw [if_neg (fun hplace => hcursor (place_eq_neg_one_iff.1 hplace)), if_neg hcursor]
    exact ha.draft.resolve_right fun hnone => hcursor hnone.2

theorem navigate (ha : Agrees capacity acts h) (direction : Direction) (draft : Text) :
    Agrees capacity (.navigate direction draft :: acts) (h.navigate direction draft).2 := by
  rw [navigate_eq]
  refine ⟨?_, ?_, ?_, ?_, ?_⟩
  · exact (capacity_drafting draft h).trans ha.capacity_eq
  · exact (entries_drafting draft h).trans ha.entries
  · refine (place_moved ha.inRange direction).trans ?_
    cases direction <;>
    · rw [position, ha.cursor, ha.entries]
  · have hrange := inRange_moved (inRange_drafting ha.inRange draft) direction
    rwa [moved_drafting] at hrange
  · exact Or.inl (ha.lastDraft_navigate direction draft)

/-- The text at the cursor is what the acts say, as soon as a move has been made. -/
theorem shown (ha : Agrees capacity acts h) (hdraft : lastDraft capacity acts = some h.draft) :
    some h.shown = textAt capacity acts := by
  rw [← shown?_eq_some ha.inRange, shown?, textAt, ← ha.cursor, ← ha.entries]
  cases h.cursor with
  | none => exact hdraft.symm
  | some i => rfl

end Agrees

theorem agrees_run (capacity : Nat) (acts : List Act) :
    Agrees capacity acts (run capacity acts) := by
  induction acts with
  | nil =>
      refine ⟨rfl, ?_, rfl, (fun _ hi => nomatch hi), Or.inr ⟨rfl, rfl⟩⟩
      rw [recorded, List.filterMap_nil, List.destutter_nil, List.take_nil]
      rfl
  | cons act acts ih =>
      cases act with
      | push line => exact ih.push line
      | navigate direction draft => exact ih.navigate direction draft
      | resetCursor => exact ih.resetCursor

/-! ## Refinement -/

/-- What is true of a history after acts on an empty one. -/
structure RefinesLog (capacity : Nat) (acts : List Act) : Prop where
  entries : (run capacity acts).entries = recorded capacity acts
  cursor : place (run capacity acts).cursor = position capacity acts
  /-- The integer is `-1` or the place of an entry. -/
  inRange : -1 ≤ position capacity acts ∧
    position capacity acts ≤ (recorded capacity acts).length - 1
  /-- The next move, whichever it is, answers the text at the cursor after it. -/
  answers : ∀ direction draft, some ((run capacity acts).navigate direction draft).1 =
    textAt capacity (.navigate direction draft :: acts)
  /-- It needs no subtraction below zero and no look-up beyond the entries. -/
  exact : ∀ direction draft, (run capacity acts).navigate? direction draft =
    some ((run capacity acts).navigate direction draft)

/-- After any acts, and for any capacity, the history is the log with an integer cursor. -/
theorem refinesLog (capacity : Nat) (acts : List Act) : RefinesLog capacity acts where
  entries := (agrees_run capacity acts).entries
  cursor := (agrees_run capacity acts).cursor
  inRange := by
    have ha := agrees_run capacity acts
    rw [← ha.cursor, ← ha.entries]
    cases hcursor : (run capacity acts).cursor with
    | none =>
        rw [place]
        omega
    | some i =>
        have hlt := ha.inRange i hcursor
        rw [place]
        omega
  answers direction draft := by
    have ha := (agrees_run capacity acts).navigate direction draft
    rw [navigate_eq] at ha ⊢
    exact ha.shown ((agrees_run capacity acts).lastDraft_navigate direction draft)
  exact direction draft := navigate?_eq_some (agrees_run capacity acts).inRange direction draft

end History

end CommandConsole

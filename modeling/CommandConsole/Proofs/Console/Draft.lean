import CommandConsole.Proofs.Console.Input
import CommandConsole.Proofs.Console.SubmitTwice
import CommandConsole.Proofs.History.IntegerCursor

set_option autoImplicit false

/-!
# Returning to the draft

The console keeps the text that was typed last, and the history keeps the text from which a walk
through it began.  The two are the same text unless something is typed over an entry during the
walk: then the walk ends at the text from which it began, and the next arrow shows the other one
(`returnsToDraft`).  Unless that happens, the text that is shown at the draft is always the one that
was typed last, and the arrows bring it back.
-/

namespace CommandConsole

variable {β σ : Type} {h : Host β σ}

/-! ## The history -/

namespace History

/-- A move that ends at the draft answers the draft. -/
theorem navigate_of_draft {direction : Direction} {draft : Text} {h : History}
    (hcursor : (h.navigate direction draft).2.cursor = none) :
    (h.navigate direction draft).1 = (h.navigate direction draft).2.draft := by
  rw [navigate_eq] at hcursor ⊢
  dsimp only at hcursor ⊢
  rw [shown, hcursor]

/-- A move that begins at the draft keeps the text that it is given. -/
theorem draft_navigate (direction : Direction) (draft : Text) (h : History) :
    (h.navigate direction draft).2.draft = if h.cursor = none then draft else h.draft := by
  rw [navigate_eq]
  exact draft_drafting draft h

theorem cursor_navigate (direction : Direction) (draft : Text) (h : History) :
    (h.navigate direction draft).2.cursor = h.moved direction := by
  rw [navigate_eq]

theorem cursor_push (line : Text) (h : History) : (h.push line).cursor = none := by
  unfold push
  dsimp only
  split <;> rfl

/-- From the draft, down answers the text that it is given. -/
theorem navigate_down {h : History} (hcursor : h.cursor = none) (draft : Text) :
    (h.navigate .down draft).1 = draft := by
  have hmoved : h.moved .down = none := by
    simp only [moved, hcursor]
  rw [navigate_of_draft ((cursor_navigate _ _ _).trans hmoved), draft_navigate, if_pos hcursor]

/-- From the draft, up and then down answers the text that up is given. -/
theorem navigate_up_down {h : History} (hcursor : h.cursor = none) (hentries : h.entries ≠ [])
    (draft draft' : Text) : ((h.navigate .up draft).2.navigate .down draft').1 = draft := by
  have hup : (h.navigate .up draft).2.cursor = some 0 := by
    rw [cursor_navigate, moved, hcursor]
    exact if_neg (by simpa using hentries)
  have hdown : (h.navigate .up draft).2.moved .down = none := by
    simp only [moved, hup]
  rw [navigate_of_draft ((cursor_navigate _ _ _).trans hdown), draft_navigate,
    if_neg (by simp [hup]), draft_navigate, if_pos hcursor]

end History

/-! ## The focus -/

namespace Suggestions

/-- The suggestions have the focus only while there are any. -/
def FocusShown (s : Suggestions) : Prop := s.focused = true → s.isVisible = true

theorem focusShown_refresh (text : Text) (names : List Text) (s : Suggestions) :
    (s.refresh text names).FocusShown := by
  intro hfocus
  unfold refresh at hfocus ⊢
  dsimp only at hfocus ⊢
  split at hfocus
  · exact nomatch hfocus
  · rename_i hfound
    rw [if_neg hfound, isVisible, eq_false_of_ne_true hfound]
    rfl

theorem focusShown_toggleFocus (s : Suggestions) : s.toggleFocus.FocusShown :=
  fun hfocus => ((Bool.and_eq_true _ _).mp hfocus).2

theorem focusShown_cycle {s : Suggestions} (hs : s.FocusShown) (direction : Direction) :
    (s.cycle direction).FocusShown := by
  unfold cycle
  dsimp only
  split <;> exact hs

theorem focused_of_focusShown {s : Suggestions} (hs : s.FocusShown)
    (hfocus : s.isFocused = false) : s.focused = false := by
  by_contra hfocused
  have hshown := hs (eq_true_of_ne_false hfocused)
  rw [isFocused, hshown, Bool.and_true] at hfocus
  exact hfocused hfocus

/-- Another text gives nothing the focus. -/
theorem isFocused_refresh {s : Suggestions} (hs : s.focused = false) (text : Text)
    (names : List Text) : (s.refresh text names).isFocused = false := by
  have hfocused : (s.refresh text names).focused = false := by
    unfold refresh
    dsimp only
    split
    · rfl
    · exact hs
  rw [isFocused, hfocused, Bool.false_and]

end Suggestions

/-! ## Texts and drafts -/

namespace Input

variable {names : List Text} {i i' : Input}

/-- What holds of the input of every console. -/
structure Drafted (i : Input) : Prop where
  closed : i.isOpen = false → i.text = i.draft
  /-- At the draft the text is what was typed last, or what the last walk began with. -/
  atDraft : i.history.cursor = none → i.text = i.draft ∨ i.text = i.history.draft
  focus : i.suggestions.FocusShown

theorem drafted_typed (names : List Text) (text : Text) (i : Input) :
    (i.typed names text).Drafted where
  closed _ := rfl
  atDraft _ := Or.inl rfl
  focus := Suggestions.focusShown_refresh _ _ _

theorem Drafted.step (hi : i.Drafted) (hstep : Step names i i') : i'.Drafted := by
  cases hstep with
  | stays => exact hi
  | types text => exact drafted_typed names text i
  | enters line => exact drafted_typed names [] _
  | walks direction hopen hfocus =>
      refine ⟨fun hclosed => ?_, fun hcursor => Or.inr ?_, Suggestions.focusShown_refresh _ _ _⟩
      · exact absurd (hopen.symm.trans hclosed) (by decide)
      · exact History.navigate_of_draft hcursor
  | cycles direction hopen hfocus =>
      exact ⟨hi.closed, hi.atDraft, Suggestions.focusShown_cycle hi.focus direction⟩
  | focuses hopen => exact ⟨hi.closed, hi.atDraft, Suggestions.focusShown_toggleFocus _⟩
  | opens hclosed => exact ⟨nofun, fun _ => Or.inl (hi.closed hclosed), nofun⟩
  | closes hopen => exact drafted_typed names [] _

/-- A change that types over an entry: it leaves another draft, and before and after it the open
console shows an entry. -/
def TypedOver (i i' : Input) : Prop :=
  (i.isOpen = true ∧ i.history.cursor ≠ none) ∧
    (i'.isOpen = true ∧ i'.history.cursor ≠ none) ∧ i'.draft ≠ i.draft

/-- The draft of the history and the text at the draft are what was typed last. -/
structure Steady (i : Input) : Prop where
  walking : i.isOpen = true → i.history.cursor ≠ none → i.history.draft = i.draft
  resting : i.isOpen = false ∨ i.history.cursor = none → i.text = i.draft

theorem Steady.step (hi : i.Steady) (hstep : Step names i i') (hover : ¬ TypedOver i i') :
    i'.Steady := by
  cases hstep with
  | stays => exact hi
  | types text =>
      refine ⟨fun hopen hcursor => ?_, fun _ => rfl⟩
      -- the entry that is shown is not typed over
      have hsame : (i.typed names text).draft = i.draft := by
        by_contra hother
        exact hover ⟨⟨hopen, hcursor⟩, ⟨hopen, hcursor⟩, hother⟩
      exact (hi.walking hopen hcursor).trans hsame.symm
  | enters line =>
      refine ⟨fun _ hcursor => absurd ?_ hcursor, fun _ => rfl⟩
      exact History.cursor_push line i.history
  | walks direction hopen hfocus =>
      have hdraft : (i.history.navigate direction i.draft).2.draft = i.draft := by
        rw [History.draft_navigate]
        split
        · rfl
        · rename_i hcursor
          exact hi.walking hopen hcursor
      refine ⟨fun _ _ => hdraft, fun hrest => ?_⟩
      rcases hrest with hclosed | hcursor
      · exact absurd (hopen.symm.trans hclosed) (by decide)
      · exact (History.navigate_of_draft hcursor).trans hdraft
  | cycles direction hopen hfocus => exact ⟨hi.walking, hi.resting⟩
  | focuses hopen => exact ⟨hi.walking, hi.resting⟩
  | opens hclosed =>
      exact ⟨fun _ hcursor => absurd rfl hcursor, fun _ => hi.resting (Or.inl hclosed)⟩
  | closes hopen => exact ⟨nofun, fun _ => rfl⟩

end Input

theorem drafted_of_reachable {c : Console β σ} (hc : Reachable h c) : c.input.Drafted := by
  refine hc.input_induct (fun _ _ _ => ?_) fun hstep hi => hi.step hstep
  exact ⟨fun _ => rfl, fun _ => Or.inl rfl, nofun⟩

/-- The consoles that operations lead to from an empty input at the draft, which a new console has
and a submitted line leaves, without typing over an entry. -/
inductive SteadilyReachable (h : Host β σ) : Console β σ → Prop where
  | empty {c : Console β σ} (hc : Reachable h c) (hcursor : c.history.cursor = none)
      (htext : c.text = []) (hdraft : c.draft = []) : SteadilyReachable h c
  | step {c : Console β σ} (op : Operation β σ)
      (hover : ¬ Input.TypedOver c.input (op.apply h c).input) :
      SteadilyReachable h c → SteadilyReachable h (op.apply h c)

theorem steady_of_steadilyReachable {c : Console β σ} (hc : SteadilyReachable h c) :
    c.input.Steady := by
  induction hc with
  | empty _ hcursor htext hdraft =>
      exact ⟨fun _ hwalks => absurd hcursor hwalks, fun _ => htext.trans hdraft.symm⟩
  | step op hover _ ih => exact ih.step (op.input_step h _) hover

/-! ## The arrows -/

namespace Console

variable {c : Console β σ}

/-- The console after an action. -/
def press (h : Host β σ) (action : Action) (c : Console β σ) : Console β σ :=
  (c.handle h action).2

theorem press_up (hopen : c.isOpen = true) : c.press h .up = c.navigate .up := by
  have hhandle : c.handle h .up = if !c.isOpen then (false, c) else (true, c.navigate .up) := rfl
  rw [press, hhandle, hopen]
  rfl

theorem press_down (hopen : c.isOpen = true) : c.press h .down = c.navigate .down := by
  have hhandle : c.handle h .down = if !c.isOpen then (false, c) else (true, c.navigate .down) :=
    rfl
  rw [press, hhandle, hopen]
  rfl

theorem navigate_of_not_focused (hfocus : c.suggestions.isFocused = false)
    (direction : Direction) : (c.navigate direction).input = c.input.walked c.names direction := by
  unfold navigate
  rw [if_neg (by simp [hfocus])]
  rfl

/-- Down alone shows what was typed last. -/
theorem text_press_down (hopen : c.isOpen = true) (hcursor : c.history.cursor = none)
    (hfocus : c.suggestions.isFocused = false) : (c.press h .down).text = c.draft := by
  rw [press_down hopen]
  exact (congrArg Input.text (navigate_of_not_focused hfocus .down)).trans
    (History.navigate_down hcursor _)

/-- Up and then down show what was typed last. -/
theorem text_press_up_down (hshown : c.suggestions.FocusShown) (hopen : c.isOpen = true)
    (hcursor : c.history.cursor = none) (hfocus : c.suggestions.isFocused = false)
    (hentries : c.history.entries ≠ []) : ((c.press h .up).press h .down).text = c.draft := by
  have hup : (c.navigate .up).input = c.input.walked c.names .up :=
    navigate_of_not_focused hfocus .up
  have hhistory : (c.navigate .up).history = (c.history.navigate .up c.draft).2 :=
    congrArg Input.history hup
  have hopenUp : (c.navigate .up).isOpen = true := (congrArg Input.isOpen hup).trans hopen
  -- the suggestions for the entry do not have the focus either, so that down moves the history
  have hfocusUp : (c.navigate .up).suggestions.isFocused = false :=
    (congrArg (fun i => i.suggestions.isFocused) hup).trans
      (Suggestions.isFocused_refresh (Suggestions.focused_of_focusShown hshown hfocus) _ _)
  rw [press_up hopen, press_down hopenUp]
  calc ((c.navigate .up).navigate .down).text
      = ((c.navigate .up).history.navigate .down (c.navigate .up).draft).1 :=
        congrArg Input.text (navigate_of_not_focused hfocusUp .down)
    _ = c.draft := by
        rw [hhistory]
        exact History.navigate_up_down hcursor hentries _ _

/-- What the arrows do to an open console at the draft. -/
structure ReturnsToDraft (h : Host β σ) (c : Console β σ) : Prop where
  /-- Up and then down show the text that was typed last, and so does down alone. -/
  upDown : ((c.press h .up).press h .down).text = c.draft
  down : (c.press h .down).text = c.draft
  /-- Before, it is shown already, or else the text with which the last walk began. -/
  shown : c.text = c.draft ∨ c.text = c.history.draft
  /-- Unless an entry was typed over, the arrows bring back the text that is shown. -/
  restores : SteadilyReachable h c →
    ((c.press h .up).press h .down).text = c.text ∧ (c.press h .down).text = c.text

/-- In every open console that can be reached, and that is at the draft, the arrows return to the
text that was typed last; that is the text that is shown, unless an entry was typed over. -/
theorem returnsToDraft (hc : Reachable h c) (hopen : c.isOpen = true)
    (hcursor : c.history.cursor = none) (hfocus : c.suggestions.isFocused = false)
    (hentries : c.history.entries ≠ []) : ReturnsToDraft h c := by
  have hdrafted := drafted_of_reachable hc
  have hupDown : ((c.press h .up).press h .down).text = c.draft :=
    text_press_up_down hdrafted.focus hopen hcursor hfocus hentries
  have hdown : (c.press h .down).text = c.draft := text_press_down hopen hcursor hfocus
  refine ⟨hupDown, hdown, hdrafted.atDraft hcursor, fun hsteady => ?_⟩
  have htext : c.text = c.draft :=
    (steady_of_steadilyReachable hsteady).resting (Or.inr hcursor)
  exact ⟨hupDown.trans htext.symm, hdown.trans htext.symm⟩

/-! ## An entry that is typed over -/

/-- An open console after operations. -/
def openAfter (ops : List (Operation Unit Unit)) : Console Unit Unit :=
  ops.foldl (fun c op => op.apply Evaluator.echo.host c) (Console.new { startOpened := true } {} ())

theorem reachable_openAfter {ops : List (Operation Unit Unit)} (hops : ∀ op ∈ ops, op.Lawful) :
    Reachable Evaluator.echo.host (openAfter ops) :=
  (Reachable.new _ _ _).run hops

/-- The operations that submit a line and type `x`. -/
def typingX : List (Operation Unit Unit) :=
  [.setText "q".toList, .submit, .setText "x".toList]

/-- An arrow shows the line, and an arrow returns to `x`. -/
def walkedBack : Console Unit Unit := openAfter (typingX ++ [.handle .up, .handle .down])

/-- An arrow shows the line, `y` is typed over it, and an arrow returns to `x`. -/
def typedOver : Console Unit Unit :=
  openAfter (typingX ++ [.handle .up, .setText "y".toList, .handle .down])

theorem reachable_walkedBack : Reachable Evaluator.echo.host walkedBack := by
  apply reachable_openAfter
  simp [typingX, Operation.Lawful]

theorem reachable_typedOver : Reachable Evaluator.echo.host typedOver := by
  apply reachable_openAfter
  simp [typingX, Operation.Lawful]

theorem steadilyReachable_walkedBack : SteadilyReachable Evaluator.echo.host walkedBack := by
  have hsubmitted : Reachable Evaluator.echo.host (openAfter [.setText "q".toList, .submit]) := by
    apply reachable_openAfter
    simp [Operation.Lawful]
  have hempty := SteadilyReachable.empty hsubmitted (by decide) (by decide) (by decide)
  -- before the first two no entry is shown, and after the third none is
  have htyped := hempty.step (.setText "x".toList) fun hover => hover.1.2 (by decide)
  have hup := htyped.step (.handle .up) fun hover => hover.1.2 (by decide)
  exact hup.step (.handle .down) fun hover => hover.2.1.2 (by decide)

/-- What is shown is the draft of the history, and not the text that was typed last. -/
theorem atDraft_typedOver : typedOver.isOpen = true ∧ typedOver.history.cursor = none ∧
    typedOver.suggestions.isFocused = false ∧ typedOver.history.entries ≠ [] ∧
    typedOver.text ≠ typedOver.draft := by decide

theorem returnsToDraft_walked : ReturnsToDraft Evaluator.echo.host typedOver ∧
    ((walkedBack.press Evaluator.echo.host .up).press Evaluator.echo.host .down).text =
      walkedBack.text ∧
    (walkedBack.press Evaluator.echo.host .down).text = walkedBack.text :=
  ⟨returnsToDraft reachable_typedOver (by decide) (by decide) (by decide) (by decide),
    (returnsToDraft reachable_walkedBack (by decide) (by decide) (by decide) (by decide)).restores
      steadilyReachable_walkedBack⟩

/-- So the arrows do not always bring back the text that is shown. -/
theorem not_arrows_restore : ¬ ∀ c : Console Unit Unit, Reachable Evaluator.echo.host c →
    c.isOpen = true → c.history.cursor = none → c.suggestions.isFocused = false →
    c.history.entries ≠ [] →
    ((c.press Evaluator.echo.host .up).press Evaluator.echo.host .down).text = c.text ∧
      (c.press Evaluator.echo.host .down).text = c.text := by
  intro hrestores
  obtain ⟨hopen, hcursor, hfocus, hentries, hother⟩ := atDraft_typedOver
  obtain ⟨-, hdown⟩ := hrestores typedOver reachable_typedOver hopen hcursor hfocus hentries
  exact hother (hdown.symm.trans (text_press_down hopen hcursor hfocus))

end Console

end CommandConsole

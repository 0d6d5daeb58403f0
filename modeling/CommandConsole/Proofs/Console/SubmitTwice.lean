import CommandConsole.Proofs.Console.Reachable
import CommandConsole.Proofs.Evaluation.Run

set_option autoImplicit false

/-!
# Submitting twice

A submission that completes the input puts the selected name in the place of the partial token.
The suggestions are then those names that begin like the completed one, and the cursor stays at its
place in the list, or at the last place if the list has become shorter (`selected?_accepting`).
What stands at that place decides what the next submission does: it evaluates the line if that is
the completed name still, and else it completes the input again, with the other name
(`submitsTwice`).
-/

namespace CommandConsole

variable {β σ : Type} {h : Host β σ}

/-- A run of operations leads from consoles that can be reached to such consoles. -/
theorem Reachable.run {c : Console β σ} (hc : Reachable h c) {ops : List (Operation β σ)}
    (hops : ∀ op ∈ ops, op.Lawful) : Reachable h (ops.foldl (fun c op => op.apply h c) c) := by
  induction ops generalizing c with
  | nil => exact hc
  | cons op ops ih =>
      have hnext := hc.step op (hops op List.mem_cons_self)
      exact ih hnext fun op' hop' => hops op' (List.mem_cons_of_mem op hop')

namespace Console

variable {c : Console β σ} {name : Text}

/-! ## One submission -/

theorem submit_of_completion {completed : Text} (hline : Text.trim c.text ≠ [])
    (hcompletion : c.completion? = some completed) :
    c.submit h = (none, c.setText completed) := by
  unfold submit
  dsimp only
  rw [if_neg (by simpa using hline), hcompletion]

theorem submit_of_no_completion (hline : Text.trim c.text ≠ [])
    (hcompletion : c.completion? = none) :
    c.submit h = (c.echo (Text.trim c.text)).execute h (Text.trim c.text) := by
  unfold submit
  dsimp only
  rw [if_neg (by simpa using hline), hcompletion]

theorem completion?_of_chosen (hchosen : c.chosenSuggestion? = some name) :
    c.completion? =
      if Completion.accept c.text name = c.text then none
      else some (Completion.accept c.text name) := by
  simp only [completion?, hchosen]

theorem completion?_of_selected (hselected : c.suggestions.selected? = some name) :
    c.completion? =
      if Completion.accept c.text name = c.text then none
      else some (Completion.accept c.text name) :=
  completion?_of_chosen (by simp only [chosenSuggestion?, hselected])

/-! ## The input after a completion -/

/-- The console with a name in the place of the partial token. -/
def accepting (name : Text) (c : Console β σ) : Console β σ :=
  c.setText (Completion.accept c.text name)

/-- The registered names that begin like a name. -/
def extensions (name : Text) (c : Console β σ) : List Text :=
  Suggestions.matching name c.world.registry.names

/-- The name at the place of a cursor, or the last one. -/
def nameAt (names : List Text) (i : Nat) : Option Text := names[min i (names.length - 1)]?

theorem exists_nameAt {names : List Text} (hne : names ≠ []) (i : Nat) :
    ∃ shown ∈ names, nameAt names i = some shown := by
  have hpos := List.length_pos_iff.2 hne
  have hlt : min i (names.length - 1) < names.length := by omega
  exact ⟨_, List.getElem_mem hlt, List.getElem?_eq_getElem hlt⟩

/-- Once a name is accepted, the registered names that begin like it are suggested. -/
theorem names_accepting (hword : ∀ d ∈ name, Text.isWordChar d = true) :
    (c.accepting name).suggestions.names = c.extensions name := by
  refine (Suggestions.names_refresh _ _ _).trans ?_
  rw [Completion.token_accept c.text hword]
  rfl

/-- Once a registered name is accepted, the cursor keeps its place as far as the list goes. -/
theorem cursor_accepting (hword : ∀ d ∈ name, Text.isWordChar d = true)
    (hlisted : c.extensions name ≠ []) :
    (c.accepting name).suggestions.cursor =
      c.suggestions.cursor.map fun i => min i ((c.extensions name).length - 1) := by
  have htoken := Completion.token_accept c.text hword
  refine (Suggestions.cursor_refresh _ (by rw [htoken]; exact hlisted)).trans ?_
  rw [htoken]
  rfl

/-- Once a registered name is accepted, the names that begin like it are suggested, and the cursor
keeps its place. -/
theorem selected?_accepting (hword : ∀ d ∈ name, Text.isWordChar d = true)
    (hlisted : c.extensions name ≠ []) {i : Nat} (hcursor : c.suggestions.cursor = some i) :
    (c.accepting name).suggestions.names = c.extensions name ∧
      (c.accepting name).suggestions.selected? = nameAt (c.extensions name) i := by
  have hnames := names_accepting hword (c := c)
  refine ⟨hnames, ?_⟩
  rw [Suggestions.selected?, cursor_accepting hword hlisted, hcursor, hnames]
  rfl

/-! ## Two submissions -/

/-- What two submissions do, when the first completes the input with a name from the place `i` of
the suggestions. -/
structure SubmitsTwice (h : Host β σ) (c : Console β σ) (i : Nat) (name : Text) : Prop where
  /-- The first changes nothing but the input. -/
  first : c.submit h = (none, c.accepting name)
  text : (c.accepting name).text = Completion.head c.text ++ name
  world : (c.accepting name).world = c.world
  history : (c.accepting name).history = c.history
  /-- Then the names that begin like the completed one are suggested, itself among them. -/
  suggested : (c.accepting name).suggestions.names = c.extensions name
  listed : name ∈ c.extensions name
  selected : ∃ shown ∈ c.extensions name, nameAt (c.extensions name) i = some shown ∧
    (c.accepting name).suggestions.selected? = some shown
  /-- The second evaluates the line if the name has the place of the cursor. -/
  runs : nameAt (c.extensions name) i = some name →
    (c.accepting name).submit h =
      ((c.accepting name).echo (Text.trim (Completion.head c.text ++ name))).execute h
        (Text.trim (Completion.head c.text ++ name))
  /-- If another name has it, the second completes the input with that one. -/
  rewrites : ∀ shown, nameAt (c.extensions name) i = some shown → shown ≠ name →
    (c.accepting name).submit h =
      (none, (c.accepting name).setText (Completion.head c.text ++ shown))

theorem twice_of_registered (hc : c.Registered) (hline : Text.trim c.text ≠ [])
    (hselected : c.suggestions.selected? = some name)
    (hnew : Completion.accept c.text name ≠ c.text) :
    ∃ i, c.suggestions.cursor = some i ∧ SubmitsTwice h c i name := by
  obtain ⟨i, hcursor, hi⟩ := Option.bind_eq_some_iff.1 hselected
  -- the name is registered, and so it is a word
  have hname := hc.suggested (List.mem_of_getElem? hi)
  obtain ⟨hne, hword⟩ := hc.valid.word hname
  have hlisted : name ∈ c.extensions name := Suggestions.mem_matching_self hne hname
  have hfull := List.ne_nil_of_mem hlisted
  obtain ⟨hnames, hplace⟩ := selected?_accepting hword hfull hcursor
  have hnext : Text.trim (c.accepting name).text ≠ [] :=
    Completion.trim_accept_ne_nil c.text hne hword
  have hcompletion : ∀ shown, nameAt (c.extensions name) i = some shown →
      (c.accepting name).completion? =
        if shown = name then none else some (Completion.head c.text ++ shown) := by
    intro shown hshown
    rw [completion?_of_selected (hplace.trans hshown),
      show (c.accepting name).text = Completion.accept c.text name from rfl,
      Completion.accept_accept c.text shown hword]
    simp only [Completion.accept_inj]
    rfl
  refine ⟨i, hcursor, ?_, rfl, rfl, rfl, hnames, hlisted, ?_, ?_, ?_⟩
  · exact submit_of_completion hline ((completion?_of_selected hselected).trans (if_neg hnew))
  · obtain ⟨shown, hmem, hshown⟩ := exists_nameAt hfull i
    exact ⟨shown, hmem, hshown, hplace.trans hshown⟩
  · intro hsame
    exact submit_of_no_completion hnext ((hcompletion name hsame).trans (if_pos rfl))
  · intro shown hshown hother
    exact submit_of_completion hnext ((hcompletion shown hshown).trans (if_neg hother))

/-- If no other registered name begins like it, the second submission evaluates the line. -/
theorem SubmitsTwice.runs_of_only {i : Nat} (htwice : SubmitsTwice h c i name)
    (honly : c.extensions name = [name]) :
    (c.accepting name).submit h =
      ((c.accepting name).echo (Text.trim (Completion.head c.text ++ name))).execute h
        (Text.trim (Completion.head c.text ++ name)) := by
  apply htwice.runs
  rw [honly, nameAt]
  simp

/-- What two submissions do to a console that can be reached, when a name is selected and differs
from what is typed. -/
theorem submitsTwice (hh : h.Lawful) (hc : Reachable h c) (hline : Text.trim c.text ≠ [])
    (hselected : c.suggestions.selected? = some name)
    (hnew : Completion.accept c.text name ≠ c.text) :
    ∃ i, c.suggestions.cursor = some i ∧ SubmitsTwice h c i name :=
  twice_of_registered (registered_of_reachable hh hc) hline hselected hnew

/-! ## A selection that moves -/

theorem lawful_echo : Evaluator.echo.host.Lawful := ⟨fun _ _ _ w => .refl w.registry⟩

/-- What is done to a new console so that it has the commands `count` and `counter`, and `count` is
selected for the input `c`. -/
def selectingCount : List (Operation Unit Unit) :=
  [ .register (.bound "count".toList [] (.custom ())),
    .register (.bound "counter".toList [] (.custom ())),
    .setText "c".toList,
    .handle .toggleSuggestions,
    .handle .up ]

/-- The open console after that. -/
def countSelected : Console Unit Unit :=
  selectingCount.foldl (fun c op => op.apply Evaluator.echo.host c)
    (Console.new { startOpened := true } {} ())

theorem reachable_countSelected : Reachable Evaluator.echo.host countSelected := by
  apply (Reachable.new _ _ _).run
  intro op hop
  simp only [selectingCount, List.mem_cons, List.not_mem_nil, or_false] at hop
  rcases hop with rfl | rfl | rfl | rfl | rfl <;> trivial

theorem selected?_countSelected :
    countSelected.suggestions.selected? = some "count".toList := by decide

theorem cursor_countSelected : countSelected.suggestions.cursor = some 1 := by decide

/-- Once `count` is accepted, `counter` has the place of the cursor. -/
theorem nameAt_countSelected :
    nameAt (countSelected.extensions "count".toList) 1 = some "counter".toList := by decide

theorem submitsTwice_countSelected :
    SubmitsTwice Evaluator.echo.host countSelected 1 "count".toList := by
  obtain ⟨i, hcursor, htwice⟩ := submitsTwice lawful_echo reachable_countSelected (by decide)
    selected?_countSelected (by decide)
  obtain rfl := Option.some.inj (cursor_countSelected.symm.trans hcursor)
  exact htwice

/-- So a second submission does not always evaluate the completed line. -/
theorem not_submit_evaluates : ¬ ∀ (c : Console Unit Unit) (name : Text),
    Reachable Evaluator.echo.host c → c.isOpen = true →
    c.suggestions.selected? = some name →
    c.submit Evaluator.echo.host = (none, c.accepting name) →
    (c.accepting name).submit Evaluator.echo.host =
      ((c.accepting name).echo (Text.trim (c.accepting name).text)).execute Evaluator.echo.host
        (Text.trim (c.accepting name).text) := by
  intro h
  have hregistered := registered_of_reachable lawful_echo reachable_countSelected
  obtain ⟨i, hcursor, htwice⟩ := twice_of_registered (h := Evaluator.echo.host) hregistered
    (by decide) selected?_countSelected (by decide)
  obtain rfl := Option.some.inj (cursor_countSelected.symm.trans hcursor)
  have hrun := h countSelected "count".toList reachable_countSelected (by decide)
    selected?_countSelected htwice.first
  rw [htwice.rewrites "counter".toList nameAt_countSelected (by decide)] at hrun
  -- one of them clears the input, the other does not
  have htext : (Completion.head countSelected.text ++ "counter".toList : Text) = [] :=
    congrArg (fun x => x.2.text) hrun
  exact absurd (List.append_eq_nil_iff.1 htext).2 (by decide)

end Console

end CommandConsole

import CommandConsole.Proofs.Console.Input
import CommandConsole.Proofs.Suggestions.Filtering

set_option autoImplicit false

/-!
# The panel of the suggestions

Operations set the text of the input or leave it, and with the text the suggestions
(`Operation.input_effect`).  Those that set it list the names that are registered at that time, so
the list is always the one for the text that is shown and the commands that were registered when it
was set (`listed_after`).  The cursor has a place in the list, and it is there exactly while the
suggestions have the focus (`Suggestions.Coherent`); both are kept by all changes of the input.  So
the panel fits the input after any operations (`panelFits`).
-/

namespace CommandConsole

variable {β σ : Type}

/-! ## One list of suggestions -/

namespace Suggestions

/-- The cursor has a place in the list, and there is one exactly while there is the focus. -/
structure Coherent (s : Suggestions) : Prop where
  cursor : ∀ i, s.cursor = some i → i < s.names.length
  focus : s.focused = s.cursor.isSome

theorem coherent_resetCursor (s : Suggestions) : s.resetCursor.Coherent := ⟨nofun, rfl⟩

theorem Coherent.refresh {s : Suggestions} (hs : s.Coherent) (text : Text) (names : List Text) :
    (s.refresh text names).Coherent := by
  unfold Suggestions.refresh
  dsimp only
  split
  · exact coherent_resetCursor _
  · rename_i hfound
    have hpos : 0 < (matching (Completion.token text) names).length :=
      List.length_pos_iff.2 (by simpa using hfound)
    refine ⟨fun i hi => ?_, hs.focus.trans (Option.isSome_map).symm⟩
    obtain ⟨j, -, rfl⟩ := Option.map_eq_some_iff.1 hi
    exact Nat.lt_of_le_of_lt (Nat.min_le_right _ _) (Nat.sub_one_lt_of_lt hpos)

theorem coherent_toggleFocus (s : Suggestions) : s.toggleFocus.Coherent := by
  unfold toggleFocus
  dsimp only
  cases hfocused : !s.focused && s.isVisible with
  | false => exact ⟨nofun, rfl⟩
  | true =>
      refine ⟨fun i hi => ?_, rfl⟩
      obtain rfl := Option.some.inj hi
      have hvisible : s.isVisible = true := ((Bool.and_eq_true _ _).mp hfocused).2
      exact List.length_pos_iff.2 (by simpa [isVisible] using hvisible)

/-- The cursor is moved only while the suggestions have the focus. -/
theorem coherent_cycle {s : Suggestions} (hfocus : s.isFocused = true) (direction : Direction) :
    (s.cycle direction).Coherent := by
  obtain ⟨hfocused, hvisible⟩ := (Bool.and_eq_true _ _).mp hfocus
  have hpos : 0 < s.names.length := List.length_pos_iff.2 (by simpa [isVisible] using hvisible)
  unfold cycle
  dsimp only
  rw [if_neg (Nat.ne_of_gt hpos)]
  refine ⟨fun i hi => ?_, hfocused⟩
  obtain rfl := Option.some.inj hi
  split
  · exact hpos
  · exact Nat.mod_lt _ hpos
  · exact Nat.sub_one_lt_of_lt hpos
  · exact Nat.mod_lt _ hpos

/-- Whether there is the focus shows in whether there is a cursor. -/
theorem Coherent.isFocused {s : Suggestions} (hs : s.Coherent) :
    s.isFocused = s.cursor.isSome := by
  rw [Suggestions.isFocused, hs.focus]
  cases hcursor : s.cursor with
  | none => rfl
  | some i =>
      have hlt := hs.cursor i hcursor
      have hvisible : s.isVisible = true := by
        rw [isVisible]
        simpa using List.ne_nil_of_length_pos (Nat.zero_lt_of_lt hlt)
      rw [hvisible]
      rfl

/-- Without a selection there is no cursor. -/
theorem Coherent.cursor_eq_none {s : Suggestions} (hs : s.Coherent)
    (hselected : s.selected? = none) : s.cursor = none := by
  cases hcursor : s.cursor with
  | none => rfl
  | some i =>
      rw [Suggestions.selected?, hcursor, Option.bind_some, List.getElem?_eq_none_iff] at hselected
      exact absurd (hs.cursor i hcursor) (Nat.not_lt.2 hselected)

/-- An entry is selected only while there is the focus, and then exactly one is. -/
theorem Coherent.countP_selected {s : Suggestions} (hs : s.Coherent) :
    s.entries.countP Suggestion.selected = if s.isFocused then 1 else 0 := by
  have hplaces : s.entries.countP Suggestion.selected =
      (List.range s.names.length).countP fun i => s.cursor == some i := by
    rw [List.range_eq_range', ← List.zipIdx_map_snd 0 s.names, List.countP_map, entries,
      List.countP_map]
    rfl
  rw [hplaces, hs.isFocused]
  cases hcursor : s.cursor with
  | none => simp
  | some j =>
      have hmem : j ∈ List.range s.names.length := List.mem_range.2 (hs.cursor j hcursor)
      have hplace : (fun i => some j == some i) = fun i => i == j := by
        funext i
        rw [Option.some_beq_some, Bool.beq_comm]
      rw [hplace]
      exact List.count_eq_one_of_mem List.nodup_range hmem

end Suggestions

/-! ## Coherence -/

/-- The changes of the input keep its suggestions coherent. -/
theorem Input.coherent_step {names : List Text} {i i' : Input} (hstep : Input.Step names i i')
    (hi : i.suggestions.Coherent) : i'.suggestions.Coherent := by
  cases hstep with
  | stays => exact hi
  | types text => exact hi.refresh text names
  | enters line => exact (Suggestions.coherent_resetCursor i.suggestions).refresh [] names
  | walks direction hopen hfocus => exact hi.refresh _ names
  | cycles direction hopen hfocus => exact Suggestions.coherent_cycle hfocus direction
  | focuses hopen => exact Suggestions.coherent_toggleFocus _
  | opens hclosed => exact Suggestions.coherent_resetCursor _
  | closes hopen => exact hi.refresh [] names

/-! ## Setting the text -/

/-- Whether an operation sets the text of the input, to whatever text. -/
def Operation.setsText (c : Console β σ) : Operation β σ → Bool
  | .setText _ => true
  | .submit => !(Text.trim c.text).isEmpty
  | .handle .toggle => c.isOpen
  | .handle .toggleSuggestions => false
  | .handle .up => c.isOpen && !c.suggestions.isFocused
  | .handle .down => c.isOpen && !c.suggestions.isFocused
  | .handle .submit => c.isOpen && !(Text.trim c.text).isEmpty
  | .setOpen isOpen => c.isOpen && !isOpen
  | _ => false

namespace Input

/-- The suggestions are those for the text. -/
def Lists (names : List Text) (i : Input) : Prop :=
  i.suggestions.names = Suggestions.matching (Completion.token i.text) names

/-- What an operation does to the text and the names that are suggested. -/
inductive Effect (names : List Text) (i : Input) : Bool → Input → Prop where
  | sets {i' : Input} (s : Suggestions) (hs : i'.suggestions = s.refresh i'.text names) :
      Effect names i true i'
  | keeps {i' : Input} (htext : i'.text = i.text)
      (hnames : i'.suggestions.names = i.suggestions.names) : Effect names i false i'

theorem Effect.lists {names : List Text} {i i' : Input} (h : Effect names i true i') :
    i'.Lists names := by
  cases h with
  | sets s hs => exact (congrArg Suggestions.names hs).trans (Suggestions.names_refresh _ _ s)

theorem Effect.text_eq {names : List Text} {i i' : Input} (h : Effect names i false i') :
    i'.text = i.text := by
  cases h with
  | keeps htext hnames => exact htext

theorem Effect.lists_of_lists {names before : List Text} {i i' : Input}
    (h : Effect names i false i') (hi : i.Lists before) : i'.Lists before := by
  cases h with
  | keeps htext hnames =>
      rw [Lists, htext, hnames]
      exact hi

end Input

open Input (Effect)

namespace Console

variable {c : Console β σ}

theorem effect_of_same {c' : Console β σ} (hsame : c'.input = c.input) :
    Effect c.names c.input false c'.input :=
  hsame ▸ .keeps rfl rfl

theorem effect_navigate (direction : Direction) (c : Console β σ) :
    Effect c.names c.input (!c.suggestions.isFocused) (c.navigate direction).input := by
  unfold navigate
  cases c.suggestions.isFocused with
  | true =>
      refine .keeps rfl ?_
      change (c.suggestions.cycle direction).names = c.suggestions.names
      unfold Suggestions.cycle
      dsimp only
      split <;> rfl
  | false => exact .sets c.suggestions rfl

theorem effect_submit (h : Host β σ) (c : Console β σ) :
    Effect c.names c.input (!(Text.trim c.text).isEmpty) (c.submit h).2.input := by
  unfold submit
  dsimp only
  cases (Text.trim c.text).isEmpty with
  | true => exact .keeps rfl rfl
  | false =>
      rw [if_neg Bool.false_ne_true]
      split
      · exact .sets c.suggestions rfl
      · exact .sets c.suggestions.resetCursor rfl

theorem effect_setOpen (isOpen : Bool) (c : Console β σ) :
    Effect c.names c.input (c.isOpen && !isOpen) (c.setOpen isOpen).input := by
  unfold setOpen
  cases hopen : c.isOpen <;> cases isOpen
  · exact .keeps rfl rfl
  · exact .keeps rfl rfl
  · exact .sets c.suggestions rfl
  · exact .keeps rfl rfl

/-- A closed console stays as it is. -/
theorem effect_if_open {c' : Console β σ} {sets : Bool}
    (heffect : Effect c.names c.input sets c'.input) :
    Effect c.names c.input (c.isOpen && sets)
      (if !c.isOpen then (false, c) else (true, c')).2.input := by
  cases c.isOpen with
  | false => exact .keeps rfl rfl
  | true => exact heffect

theorem effect_handle (h : Host β σ) (action : Action) (c : Console β σ) :
    Effect c.names c.input (Operation.setsText c (.handle action)) (c.handle h action).2.input := by
  cases action with
  | toggle =>
      have htoggle := c.effect_setOpen !c.isOpen
      rwa [Bool.not_not, Bool.and_self] at htoggle
  | toggleSuggestions =>
      have hfocus : Effect c.names c.input false
          { c with suggestions := c.suggestions.toggleFocus }.input := .keeps rfl rfl
      have hopen := effect_if_open hfocus
      rwa [Bool.and_false] at hopen
  | up => exact effect_if_open (effect_navigate .up c)
  | down => exact effect_if_open (effect_navigate .down c)
  | submit => exact effect_if_open (effect_submit h c)

end Console

/-- An operation sets the text, and then lists the names that are registered before it, or else
leaves the text and the list. -/
theorem Operation.input_effect (h : Host β σ) (op : Operation β σ) (c : Console β σ) :
    Effect c.names c.input (op.setsText c) (op.apply h c).input := by
  cases op with
  | setText text => exact .sets c.suggestions rfl
  | submit => exact c.effect_submit h
  | handle action => exact c.effect_handle h action
  | setOpen isOpen => exact c.effect_setOpen isOpen
  | register command => exact Console.effect_of_same (c.input_register command)
  | registerBound => exact Console.effect_of_same (Console.input_reported _ _)
  | registerSingleton i => exact Console.effect_of_same (c.input_registerSingleton i)
  | forwardLog => exact Console.effect_of_same (Console.input_appendHostLines _ _)
  | _ => exact .keeps rfl rfl

/-! ## Runs -/

namespace Console

/-- A console after operations. -/
def after (h : Host β σ) (ops : List (Operation β σ)) (c : Console β σ) : Console β σ :=
  ops.foldl (fun c op => op.apply h c) c

/-- The commands that are registered when operations set the text last; if none does, those that
were registered when it was set before. -/
def commandsAtText (h : Host β σ) :
    List (Operation β σ) → Console β σ → List (Command β) → List (Command β)
  | [], _, before => before
  | op :: rest, c, before =>
    commandsAtText h rest (op.apply h c)
      (if op.setsText c then c.world.registry.commands else before)

/-- The names of commands, each once and in the order of first registration. -/
def namesOf (commands : List (Command β)) : List Text :=
  Registry.distinct (commands.map Command.name)

theorem listed_after (h : Host β σ) (ops : List (Operation β σ)) {c : Console β σ}
    {before : List (Command β)} (hc : c.input.Lists (namesOf before)) :
    (after h ops c).input.Lists (namesOf (commandsAtText h ops c before)) := by
  induction ops generalizing c before with
  | nil => exact hc
  | cons op rest ih =>
      refine ih ?_
      have heffect := op.input_effect h c
      cases hsets : op.setsText c with
      | true => exact (hsets ▸ heffect).lists
      | false => exact (hsets ▸ heffect).lists_of_lists hc

theorem coherent_after (h : Host β σ) (ops : List (Operation β σ)) {c : Console β σ}
    (hc : c.suggestions.Coherent) : (after h ops c).suggestions.Coherent := by
  induction ops generalizing c with
  | nil => exact hc
  | cons op rest ih => exact ih (Input.coherent_step (op.input_step h c) hc)

/-- The panel of a console fits its input, for the commands that were registered when the text was
set. -/
structure PanelFits (commands : List (Command β)) (c : Console β σ) : Prop where
  /-- The suggestions are the registered names that begin like the partial token, if there is one:
  the lower-case mappings of the first characters are those of the token's. -/
  listed : ∀ name, name ∈ c.suggestions.names ↔
    Completion.token c.text ≠ [] ∧ (∃ d ∈ commands, d.name = name) ∧
      (name.take (Completion.token c.text).length).map Text.lower =
        (Completion.token c.text).map Text.lower
  /-- They stand in the order of first registration, each once. -/
  ordered : c.suggestions.names.Pairwise fun s t =>
    (commands.map Command.name).idxOf s < (commands.map Command.name).idxOf t
  shown : c.suggestions.entries.map Suggestion.name = c.suggestions.names
  cursor : ∀ i, c.suggestions.cursor = some i → i < c.suggestions.names.length
  /-- One entry is selected while the suggestions have the focus, and none while they have not. -/
  selected : c.suggestions.entries.countP Suggestion.selected =
    if c.suggestions.isFocused then 1 else 0
  /-- There is the focus only while something is suggested. -/
  focus : c.suggestions.focused = true → c.suggestions.isVisible = true
  /-- An operation that does not set the text leaves it. -/
  unset : ∀ (h : Host β σ) (op : Operation β σ), op.setsText c = false →
    (op.apply h c).text = c.text

/-- Coherent suggestions fit the input if they are listed for its text. -/
theorem panelFits_of_lists {commands : List (Command β)} {c : Console β σ}
    (hlisted : c.input.Lists (namesOf commands)) (hcoherent : c.suggestions.Coherent) :
    PanelFits commands c := by
  have hnames : c.suggestions.names =
      Suggestions.matching (Completion.token c.text) (namesOf commands) := hlisted
  refine
    { listed := fun name => ?_
      ordered := ?_
      shown := ?_
      cursor := hcoherent.cursor
      selected := hcoherent.countP_selected
      focus := fun hfocused => ?_
      unset := fun h op hsets => ?_ }
  · rw [hnames, Suggestions.mem_matching, namesOf, Registry.mem_distinct, List.mem_map]
  · rw [hnames]
    exact (Registry.pairwise_distinct _).sublist (Suggestions.matching_sublist _ _)
  · exact Suggestions.map_name_entries c.suggestions
  · have hfocus := hcoherent.isFocused
    rw [← hcoherent.focus, hfocused] at hfocus
    exact ((Bool.and_eq_true _ _).mp hfocus).2
  · have heffect := op.input_effect h c
    exact (hsets ▸ heffect).text_eq

/-- After any operations on a new console, its panel fits its input. -/
theorem panelFits (h : Host β σ) (options : Options) (log : HostLog) (host : σ)
    (ops : List (Operation β σ)) :
    PanelFits
      (commandsAtText h ops (.new options log host)
        (Console.new options log host).world.registry.commands)
      (after h ops (.new options log host)) := by
  have hcoherent : (Console.new options log host : Console β σ).suggestions.Coherent :=
    ⟨nofun, rfl⟩
  exact panelFits_of_lists (listed_after h ops rfl) (coherent_after h ops hcoherent)

end Console

end CommandConsole

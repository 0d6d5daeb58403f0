import CommandConsole.Proofs.Console.Panel
import CommandConsole.Proofs.Console.SubmitTwice

set_option autoImplicit false

/-!
# Submitting until a line is evaluated

A submission that completes the input replaces the suggestions by those of them that begin like the
completed name (`Ready.names_accepting`): to begin alike is transitive, so all names that begin like
a suggested one were suggested before.  So the list becomes shorter, or it stays as it is, and then
so do the cursor and the choice, and the next submission has nothing to complete (`Ready.submit`).
The number of suggestions therefore bounds the completions (`Ready.submissions`).

Without a selection the first suggestion is chosen.  It begins like itself, and what remains stands
in the old order, so it is the first again: one completion is enough (`Ready.submissions_first`).
-/

namespace CommandConsole

variable {β σ : Type} {h : Host β σ}

/-! ## Names that begin alike -/

namespace Suggestions

theorem startsAlike_trans {other name token : Text} (hother : startsAlike other name = true)
    (hname : startsAlike name token = true) : startsAlike other token = true := by
  rw [startsAlike_iff] at hother hname ⊢
  have hlength : token.length ≤ name.length := by
    have htaken := congrArg List.length hname
    rw [List.length_map, List.length_map, List.length_take] at htaken
    omega
  calc (other.take token.length).map Text.lower
      = ((other.take name.length).map Text.lower).take token.length := by
        rw [← List.map_take, List.take_take, Nat.min_eq_left hlength]
    _ = (name.take token.length).map Text.lower := by rw [hother, List.map_take]
    _ = token.map Text.lower := hname

/-- The names that begin like a suggested one are suggested themselves. -/
theorem matching_of_mem {name token : Text} {names : List Text} (hne : name ≠ [])
    (hname : name ∈ matching token names) :
    matching name names = (matching token names).filter fun other => startsAlike other name := by
  obtain ⟨htoken, -, halike⟩ := mem_matching.1 hname
  unfold matching
  rw [if_neg (by simpa using hne), if_neg (by simpa using htoken), List.filter_filter]
  refine List.filter_congr fun other _ => ?_
  cases hother : startsAlike other name with
  | false => rfl
  | true => rw [startsAlike_trans hother (startsAlike_iff.2 halike), Bool.and_self]

end Suggestions

namespace Console

variable {c : Console β σ} {name : Text}

/-! ## Runs of submissions -/

/-- So many submissions are made of a console: those before the last complete the input with a
suggestion, and the last echoes and evaluates the line. -/
inductive Submissions (h : Host β σ) : Console β σ → Nat → Text → Prop where
  | evaluates {c : Console β σ} (hline : Text.trim c.text ≠ [])
      (hsubmit : c.submit h = (c.echo (Text.trim c.text)).execute h (Text.trim c.text)) :
      Submissions h c 1 (Text.trim c.text)
  | completes {c : Console β σ} {name line : Text} {n : Nat} (hname : name ∈ c.suggestions.names)
      (hnew : Completion.accept c.text name ≠ c.text)
      (hsubmit : c.submit h = (none, c.accepting name))
      (hrest : Submissions h (c.submit h).2 n line) : Submissions h c (n + 1) line

/-- The suggestions are those for the text and for the names that are registered at present, and
there is a line. -/
structure Ready (c : Console β σ) : Prop where
  valid : c.world.registry.Valid
  listed : c.input.Lists c.names
  coherent : c.suggestions.Coherent
  line : Text.trim c.text ≠ []

/-! ## One submission -/

theorem mem_of_chosenSuggestion? (hchosen : c.chosenSuggestion? = some name) :
    name ∈ c.suggestions.names := by
  unfold chosenSuggestion? at hchosen
  split at hchosen
  · rename_i other hselected
    obtain rfl := Option.some.inj hchosen
    obtain ⟨i, -, hplace⟩ := Option.bind_eq_some_iff.1 hselected
    exact List.mem_of_getElem? hplace
  · split at hchosen
    · exact List.mem_of_head? hchosen
    · cases hchosen

/-- The choice is made by the cursor, the list and an option. -/
theorem chosenSuggestion?_congr {c' : Console β σ}
    (hcursor : c'.suggestions.cursor = c.suggestions.cursor)
    (hnames : c'.suggestions.names = c.suggestions.names) (hoptions : c'.options = c.options) :
    c'.chosenSuggestion? = c.chosenSuggestion? := by
  unfold chosenSuggestion? Suggestions.selected? Suggestions.first?
  rw [hcursor, hnames, hoptions]

theorem chosenSuggestion?_of_unselected (hoption : c.options.alwaysAutocomplete = true)
    (hcursor : c.suggestions.cursor = none) : c.chosenSuggestion? = c.suggestions.first? := by
  simp only [chosenSuggestion?, Suggestions.selected?, hcursor, Option.bind_none, hoption, if_true]

/-- Nothing is completed where the choice is in its place already. -/
theorem submissions_of_chosen (hline : Text.trim c.text ≠ [])
    (hchosen : c.chosenSuggestion? = some name) (hsame : Completion.accept c.text name = c.text) :
    Submissions h c 1 (Text.trim c.text) := by
  have hcompletion : c.completion? = none := (completion?_of_chosen hchosen).trans (if_pos hsame)
  exact .evaluates hline (submit_of_no_completion hline hcompletion)

theorem submit_of_chosen (hline : Text.trim c.text ≠ [])
    (hchosen : c.chosenSuggestion? = some name) (hnew : Completion.accept c.text name ≠ c.text) :
    c.submit h = (none, c.accepting name) :=
  submit_of_completion hline ((completion?_of_chosen hchosen).trans (if_neg hnew))

namespace Ready

/-- A suggested name is registered, and so it is a word. -/
theorem word (hc : c.Ready) (hname : name ∈ c.suggestions.names) :
    name ≠ [] ∧ ∀ d ∈ name, Text.isWordChar d = true := by
  have hnames : c.suggestions.names = Suggestions.matching (Completion.token c.text) c.names :=
    hc.listed
  exact hc.valid.word ((Suggestions.matching_sublist _ _).subset (hnames ▸ hname))

/-- Once a suggested name is accepted, the suggestions are those of before that begin like it. -/
theorem names_accepting (hc : c.Ready) (hname : name ∈ c.suggestions.names) :
    (c.accepting name).suggestions.names =
      c.suggestions.names.filter fun other => Suggestions.startsAlike other name := by
  obtain ⟨hne, hword⟩ := hc.word hname
  have hnames : c.suggestions.names = Suggestions.matching (Completion.token c.text) c.names :=
    hc.listed
  rw [Console.names_accepting hword, hnames]
  exact Suggestions.matching_of_mem hne (hnames ▸ hname)

theorem accepting (hc : c.Ready) (hname : name ∈ c.suggestions.names) :
    (c.accepting name).Ready := by
  obtain ⟨hne, hword⟩ := hc.word hname
  exact
    { valid := hc.valid
      listed := Suggestions.names_refresh _ _ _
      coherent := hc.coherent.refresh _ _
      line := Completion.trim_accept_ne_nil c.text hne hword }

theorem mem_names_accepting (hc : c.Ready) (hname : name ∈ c.suggestions.names) :
    name ∈ (c.accepting name).suggestions.names := by
  rw [hc.names_accepting hname]
  exact List.mem_filter.2 ⟨hname, Suggestions.startsAlike_refl name⟩

theorem cursor_accepting (hc : c.Ready) (hname : name ∈ c.suggestions.names) :
    (c.accepting name).suggestions.cursor = c.suggestions.cursor.map fun i =>
      min i ((c.accepting name).suggestions.names.length - 1) := by
  have hword := (hc.word hname).2
  have hlisted := hc.mem_names_accepting hname
  rw [Console.names_accepting hword] at hlisted ⊢
  exact Console.cursor_accepting hword (List.ne_nil_of_mem hlisted)

/-- The name that was accepted is in its place; if it is chosen again, the line is evaluated. -/
theorem submissions_accepting (hc : c.Ready) (hname : name ∈ c.suggestions.names)
    (hagain : (c.accepting name).chosenSuggestion? = some name) :
    Submissions h (c.accepting name) 1 (Text.trim (Completion.accept c.text name)) :=
  submissions_of_chosen (hc.accepting hname).line hagain
    (Completion.accept_accept c.text name (hc.word hname).2)

/-- If the list does not become shorter, the same name is chosen again. -/
theorem chosenSuggestion?_accepting (hc : c.Ready) (hchosen : c.chosenSuggestion? = some name)
    (hlength : c.suggestions.names.length ≤ (c.accepting name).suggestions.names.length) :
    (c.accepting name).chosenSuggestion? = some name := by
  have hname := mem_of_chosenSuggestion? hchosen
  have hnames := hc.names_accepting hname
  have hsame : (c.accepting name).suggestions.names = c.suggestions.names :=
    hnames.trans (List.filter_sublist.eq_of_length_le (hnames ▸ hlength))
  refine (chosenSuggestion?_congr ?_ hsame rfl).trans hchosen
  rw [hc.cursor_accepting hname, hsame]
  -- a cursor with a place in the list keeps it
  cases hcursor : c.suggestions.cursor with
  | none => rfl
  | some i =>
      have hlt := hc.coherent.cursor i hcursor
      exact congrArg some (Nat.min_eq_left (by omega))

/-- A submission evaluates the line, or it completes the input; then the list becomes shorter, or
the next submission evaluates the line. -/
theorem submit (hc : c.Ready) :
    Submissions h c 1 (Text.trim c.text) ∨
      ∃ name ∈ c.suggestions.names, Completion.accept c.text name ≠ c.text ∧
        c.submit h = (none, c.accepting name) ∧
        ((c.accepting name).suggestions.names.length < c.suggestions.names.length ∨
          Submissions h (c.accepting name) 1 (Text.trim (Completion.accept c.text name))) := by
  cases hchosen : c.chosenSuggestion? with
  | none =>
      have hcompletion : c.completion? = none := by rw [completion?, hchosen]
      exact Or.inl (.evaluates hc.line (submit_of_no_completion hc.line hcompletion))
  | some name =>
      by_cases hnew : Completion.accept c.text name = c.text
      · exact Or.inl (submissions_of_chosen hc.line hchosen hnew)
      · have hname := mem_of_chosenSuggestion? hchosen
        refine Or.inr ⟨name, hname, hnew, submit_of_chosen hc.line hchosen hnew, ?_⟩
        by_cases hlength :
            (c.accepting name).suggestions.names.length < c.suggestions.names.length
        · exact Or.inl hlength
        · exact Or.inr (hc.submissions_accepting hname
            (hc.chosenSuggestion?_accepting hchosen (Nat.le_of_not_lt hlength)))

/-! ## All submissions -/

/-- One submission more than there are suggestions is enough. -/
theorem submissions (hc : c.Ready) :
    ∃ n ≤ c.suggestions.names.length + 1, ∃ line, Submissions h c n line := by
  induction hm : c.suggestions.names.length using Nat.strong_induction_on generalizing c with
  | _ m ih =>
      rcases hc.submit (h := h) with hruns | ⟨name, hname, hnew, hsubmit, hnext⟩
      · exact ⟨1, by omega, _, hruns⟩
      · have hcompletes : ∀ {n line}, Submissions h (c.accepting name) n line →
            Submissions h c (n + 1) line := fun hrest =>
          .completes hname hnew hsubmit (hsubmit ▸ hrest)
        rcases hnext with hshorter | hruns
        · obtain ⟨n, hn, line, hrest⟩ := ih _ (hm ▸ hshorter) (hc.accepting hname) rfl
          exact ⟨n + 1, by omega, line, hcompletes hrest⟩
        · have hpos := List.length_pos_of_mem hname
          exact ⟨2, by omega, _, hcompletes hruns⟩

/-- Without a selection, and if submissions complete the first suggestion then, two are enough, and
the line ends with that suggestion. -/
theorem submissions_first (hc : c.Ready) (hoption : c.options.alwaysAutocomplete = true)
    (hcursor : c.suggestions.cursor = none) (hfirst : c.suggestions.first? = some name) :
    ∃ n ≤ 2, Submissions h c n (Text.trimStart (Completion.head c.text) ++ name) := by
  have hname : name ∈ c.suggestions.names := List.mem_of_head? hfirst
  obtain ⟨hne, hword⟩ := hc.word hname
  have hline : Text.trim (Completion.accept c.text name) =
      Text.trimStart (Completion.head c.text) ++ name :=
    Text.trim_append_of_trimmed (Text.trimmed_of_word hword) hne _
  have hchosen := (chosenSuggestion?_of_unselected hoption hcursor).trans hfirst
  by_cases hnew : Completion.accept c.text name = c.text
  · have hruns := submissions_of_chosen (h := h) hc.line hchosen hnew
    rw [← hline, hnew]
    exact ⟨1, by omega, hruns⟩
  · have hcursor' : (c.accepting name).suggestions.cursor = none := by
      rw [hc.cursor_accepting hname, hcursor, Option.map_none]
    -- the first suggestion begins like itself, so it is the first of those that remain
    have hfirst' : (c.accepting name).suggestions.first? = some name := by
      obtain ⟨rest, hnames⟩ := List.head?_eq_some_iff.1 hfirst
      rw [Suggestions.first?, hc.names_accepting hname, hnames, List.filter_cons,
        if_pos (Suggestions.startsAlike_refl name), List.head?_cons]
    have hagain := (chosenSuggestion?_of_unselected (c := c.accepting name) hoption
      hcursor').trans hfirst'
    have hsubmit := submit_of_chosen (h := h) hc.line hchosen hnew
    rw [← hline]
    exact ⟨2, by omega, .completes hname hnew hsubmit
      (hsubmit ▸ hc.submissions_accepting hname hagain)⟩

end Ready

/-- How submitting a line again and again ends. -/
structure RunsSoon (h : Host β σ) (c : Console β σ) : Prop where
  /-- One submission more than there are suggestions is enough. -/
  within : ∃ n ≤ c.suggestions.names.length + 1, ∃ line, Submissions h c n line
  /-- If none is selected and the first one is completed then, two are enough, and the line ends
  with the first. -/
  first : c.suggestions.selected? = none → c.options.alwaysAutocomplete = true →
    ∀ name, c.suggestions.first? = some name →
      ∃ n ≤ 2, Submissions h c n (Text.trimStart (Completion.head c.text) ++ name)

/-- Submitting a line again and again ends with its evaluation, if the suggestions are those for
the names that are registered at present. -/
theorem runsSoon (hh : h.Lawful) (hc : Reachable h c)
    (hpresent : c.suggestions.names =
      Suggestions.matching (Completion.token c.text) c.world.registry.names)
    (hline : Text.trim c.text ≠ []) : RunsSoon h c := by
  have hcoherent : c.suggestions.Coherent :=
    hc.input_induct (P := fun i => i.suggestions.Coherent) (fun _ _ _ => ⟨nofun, rfl⟩)
      Input.coherent_step
  have hready : c.Ready := ⟨(registered_of_reachable hh hc).valid, hpresent, hcoherent, hline⟩
  refine ⟨hready.submissions, fun hselected hoption name hfirst => ?_⟩
  have hcursor : c.suggestions.cursor = none := hcoherent.cursor_eq_none hselected
  exact hready.submissions_first hoption hcursor hfirst

/-- What is done to a new console so that it has the commands `count` and `counter`, and an argument
is typed that begins like both. -/
def typingCount : List (Operation Unit Unit) :=
  [ .register (.bound "count".toList [] (.custom ())),
    .register (.bound "counter".toList [] (.custom ())),
    .setText "help(CO".toList ]

/-- The console after that, which completes without a selection. -/
def countTyped : Console Unit Unit :=
  after Evaluator.echo.host typingCount (Console.new { alwaysAutocomplete := true } {} ())

theorem reachable_countTyped : Reachable Evaluator.echo.host countTyped := by
  apply (Reachable.new _ _ _).run
  intro op hop
  simp only [typingCount, List.mem_cons, List.not_mem_nil, or_false] at hop
  rcases hop with rfl | rfl | rfl <;> trivial

theorem runsSoon_counts :
    (∃ n ≤ 3 + 1, ∃ line, Submissions Evaluator.echo.host countSelected n line) ∧
      ∃ n ≤ 2, Submissions Evaluator.echo.host countTyped n "help(count".toList := by
  have hlength : countSelected.suggestions.names.length = 3 := by decide
  constructor
  · have hruns := runsSoon lawful_echo reachable_countSelected (by decide) (by decide)
    exact hlength ▸ hruns.within
  · have hruns := runsSoon lawful_echo reachable_countTyped (by decide) (by decide)
    exact hruns.first (by decide) (by decide) "count".toList (by decide)

end Console

end CommandConsole

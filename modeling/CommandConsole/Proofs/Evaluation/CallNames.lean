import CommandConsole.Proofs.Reduction.Trail

set_option autoImplicit false

/-!
# Where the names of calls come from

The name of a call is read off a line in which earlier calls are placeholders already.  Up to its
parenthesis the call stands for a part of the submitted line (`Cut.opening`), and the run of word
characters at the end of that part is its name, unless a reduced call ends directly before the
run: then the placeholder and the run are one word, and that word is looked up (`NameRule`).
-/

namespace CommandConsole

/-! ## The last word of a text -/

namespace Text

/-- The longest run of word characters at the end of a text. -/
def lastWord (t : Text) : Text := (t.reverse.takeWhile isWordChar).reverse

theorem lastWord_append {u run : Text}
    (hu : ∀ c, u.getLast? = some c → isWordChar c = false)
    (hrun : ∀ c ∈ run, isWordChar c = true) : lastWord (u ++ run) = run := by
  have hstop : u.reverse.takeWhile isWordChar = [] := by
    cases hrev : u.reverse with
    | nil => rfl
    | cons c rest =>
        have hc : isWordChar c = false := hu c (by rw [← List.head?_reverse, hrev]; rfl)
        simp [hc]
  have hword : ∀ c ∈ run.reverse, isWordChar c = true := by
    intro c hc
    exact hrun c (List.mem_reverse.1 hc)
  rw [lastWord, List.reverse_append, List.takeWhile_append_of_pos hword, hstop, List.append_nil,
    List.reverse_reverse]

theorem lastWord_isSuffix (t : Text) : lastWord t <:+ t := by
  have := List.takeWhile_prefix isWordChar (l := t.reverse)
  rw [← List.reverse_suffix, List.reverse_reverse] at this
  exact this

end Text

/-- The line calls the name: the name is all of a word directly before an opening parenthesis. -/
def IsCallName (line name : Text) : Prop :=
  name ≠ [] ∧ ∃ u v, line = u ++ '(' :: v ∧ name = Text.lastWord u

/-- A name that a line calls stands in the line. -/
theorem IsCallName.isInfix {line name : Text} (h : IsCallName line name) : name <:+: line := by
  obtain ⟨-, u, v, rfl, rfl⟩ := h
  exact (Text.lastWord_isSuffix u).isInfix.trans (List.prefix_append u _).isInfix

/-! ## Names with placeholders in them -/

namespace Weave

/-- Pieces are verbatim, or there is a last placeholder in them. -/
theorem verbatim_or_reduced (ps : List Piece) :
    ps = quote (shown ps) ∨ ∃ l key src run, ps = l ++ .reduced key src :: quote run := by
  induction ps with
  | nil => exact Or.inl rfl
  | cons x ps ih =>
      rcases ih with hquote | ⟨l, key, src, run, hl⟩
      · cases x with
        | verbatim c =>
            left
            conv => lhs; rw [hquote]
            rfl
        | reduced key src => exact Or.inr ⟨[], key, src, shown ps, by rw [← hquote]; rfl⟩
      · exact Or.inr ⟨x :: l, key, src, run, by rw [hl]; rfl⟩

/-- If no word ends the text that pieces show, then none ends the text that they stand for. -/
theorem source_apart {ps : List Piece} (hps : Keyed ps)
    (h : ∀ c, (shown ps).getLast? = some c → Text.isWordChar c = false) :
    ∀ c, (source ps).getLast? = some c → Text.isWordChar c = false := by
  rcases List.eq_nil_or_concat ps with rfl | ⟨front, x, hx⟩
  · simp
  · rw [List.concat_eq_append] at hx
    subst hx
    intro c hc
    cases x with
    | verbatim d =>
        have hd : Text.isWordChar d = false := h d (by simp [Piece.shown])
        have hcd : d = c := by simpa [Piece.source] using hc
        exact hcd ▸ hd
    | reduced key src =>
        obtain ⟨hne, hword, -⟩ := hps key src (by simp)
        have hlast := List.getLast?_eq_some_getLast hne
        have := h (key.getLast hne) (by simp [Piece.shown, hlast])
        rw [hword _ (List.getLast_mem hne)] at this
        cases this

variable {ps : List Piece} {s : CallSite} (cut : Cut ps s)

/-- The submitted line up to the parenthesis of a call. -/
def Cut.opening : Text := source (cut.before ++ cut.name)

/-- The name of a call contains a placeholder: a reduced call ends where the run of word
characters before the parenthesis begins. -/
def Cut.Glued : Prop :=
  ∃ l key src run, cut.name = l ++ .reduced key src :: quote run

theorem Cut.not_glued {t : Text} (h : cut.name = quote t) : ¬ cut.Glued := by
  rintro ⟨l, key, src, run, hname⟩
  have hm : Piece.reduced key src ∈ quote t := by
    rw [← h, hname]
    simp
  exact reduced_not_mem_quote hm

/-- The submitted line goes on with the parenthesis. -/
theorem Cut.source_eq : ∃ v, source ps = cut.opening ++ '(' :: v := by
  have := congrArg source cut.pieces
  refine ⟨source cut.args ++ ')' :: source cut.after, this.symm.trans ?_⟩
  simp [Cut.opening, Piece.source]

/-- A name without placeholder is the last word of the line up to its parenthesis. -/
theorem Cut.name_of_verbatim (hps : Keyed ps) (hs : s.IsCall)
    (h : cut.name = quote (shown cut.name)) : Text.lastWord cut.opening = s.name := by
  have hbefore : Keyed cut.before := by
    intro key src hm
    apply hps key src
    rw [← cut.pieces]
    simp [hm]
  have happart := source_apart hbefore fun c hc => hs.whole c (cut.shown_before ▸ hc)
  rw [Cut.opening, source_append, h, source_quote, cut.shown_name]
  exact Text.lastWord_append happart hs.word

/-- A name with a placeholder is longer than the last word of the line up to its parenthesis. -/
theorem Cut.name_of_glued (hps : Keyed ps) (hs : s.IsCall) {l : List Piece} {key src run : Text}
    (h : cut.name = l ++ .reduced key src :: quote run) :
    Text.lastWord cut.opening = run ∧ cut.opening = source (cut.before ++ l) ++ (src ++ run) ∧
      s.name = shown l ++ (key ++ run) ∧ Piece.reduced key src ∈ ps := by
  have hmem : Piece.reduced key src ∈ ps := by
    rw [← cut.pieces, h]
    simp
  obtain ⟨-, -, hclosed⟩ := hps key src hmem
  have hname : s.name = shown l ++ (key ++ run) := by
    rw [← cut.shown_name, h, shown_append, shown_cons, shown_quote]
    rfl
  have hopening : cut.opening = source (cut.before ++ l) ++ (src ++ run) := by
    rw [Cut.opening, h]
    simp [source_quote, Piece.source]
  refine ⟨?_, hopening, hname, hmem⟩
  rw [hopening, ← List.append_assoc]
  apply Text.lastWord_append
  · intro c hc
    rw [List.getLast?_append, hclosed] at hc
    cases hc
    decide
  · intro c hc
    apply hs.word
    rw [hname]
    simp [hc]

end Weave

/-! ## The names that are looked up -/

open Weave (Cut)

/-- What the name of a call is, in the words of the submitted line. -/
structure NameRule (line : Text) {ps : List Piece} {s : CallSite} (cut : Cut ps s) : Prop where
  /-- The parenthesis of the call is one of the submitted line. -/
  stands : ∃ v, line = cut.opening ++ '(' :: v
  /-- The name is the word before that parenthesis, exactly if it has no placeholder in it. -/
  isRun_iff : s.name = Text.lastWord cut.opening ↔ ¬ cut.Glued
  isCallName : ¬ cut.Glued → IsCallName line s.name
  /-- Otherwise the word follows a reduced call, whose placeholder is a part of the name. -/
  glued : cut.Glued → ∃ front lead key src, key ≠ [] ∧ src.getLast? = some ')' ∧
    Piece.reduced key src ∈ ps ∧
    cut.opening = front ++ (src ++ Text.lastWord cut.opening) ∧
    s.name = lead ++ (key ++ Text.lastWord cut.opening)

theorem nameRule {line : Text} {t : Trail} {r : Reduction} {s : Reduction.Step}
    (h : Woven line t r) (hs : r.step? = some s) (cut : Cut t.pieces s.site) :
    NameRule line cut := by
  have hcall := Reduction.isCall_of_step? hs
  obtain ⟨v, hv⟩ := cut.source_eq
  rw [h.source] at hv
  rcases Weave.verbatim_or_reduced cut.name with hquote | ⟨l, key, src, run, hname⟩
  · have hrun := cut.name_of_verbatim h.keyed hcall hquote
    have hnot := cut.not_glued hquote
    refine ⟨⟨v, hv⟩, ⟨fun _ => hnot, fun _ => hrun.symm⟩, ?_, fun hg => absurd hg hnot⟩
    intro _
    exact ⟨hcall.named, cut.opening, v, hv, hrun.symm⟩
  · obtain ⟨hrun, hopening, hsite, hmem⟩ := cut.name_of_glued h.keyed hcall hname
    obtain ⟨hne, -, hclosed⟩ := h.keyed key src hmem
    have hglued : cut.Glued := ⟨l, key, src, run, hname⟩
    refine ⟨⟨v, hv⟩, ⟨?_, fun hnot => absurd hglued hnot⟩, fun hnot => absurd hglued hnot, ?_⟩
    · intro heq
      rw [hrun, hsite] at heq
      have hlen := congrArg List.length heq
      have hpos := List.length_pos_iff.2 hne
      simp only [List.length_append] at hlen
      omega
    · intro _
      rw [hrun]
      exact ⟨_, _, key, src, hne, hclosed, hmem, hopening, hsite⟩

/-- A name has a placeholder in it only if the submitted line has a closing parenthesis directly
before a word character or an opening parenthesis. -/
theorem NameRule.not_glued {line : Text} {ps : List Piece} {s : CallSite} {cut : Cut ps s}
    (h : NameRule line cut) (hs : s.IsCall)
    (hline : ∀ u c v, line = u ++ ')' :: c :: v → c ≠ '(' ∧ Text.isWordChar c = false) :
    ¬ cut.Glued := by
  intro hglued
  obtain ⟨front, lead, key, src, -, hclosed, -, hopening, hname⟩ := h.glued hglued
  obtain ⟨v, hv⟩ := h.stands
  obtain ⟨src, rfl⟩ := List.getLast?_eq_some_iff.1 hclosed
  cases hrun : Text.lastWord cut.opening with
  | nil =>
      rw [hopening, hrun] at hv
      exact (hline (front ++ src) '(' v (by rw [hv]; simp)).1 rfl
  | cons c run =>
      rw [hopening, hrun] at hv
      have hc := (hline (front ++ src) c (run ++ '(' :: v) (by rw [hv]; simp)).2
      have hword := hs.word c (by rw [hname, hrun]; simp)
      rw [hword] at hc
      cases hc

namespace Evaluator

variable {β σ : Type}

/-- A name that the evaluation of a line looks up. -/
inductive LooksUp (e : Evaluator β σ) (line : Text) (w : World β σ) : Text → Prop where
  /-- A line without parentheses is a name. -/
  | quick (hquick : e.quickCommands = true)
      (hflat : Completion.hasParenthesis (Text.trim line) = false) :
      LooksUp e line w (Text.trim line)
  | call {r : Reduction} {s : Reduction.Step} {w' : World β σ}
      (hreach : e.Reaches (Reduction.start (Text.trim line)) w r w') (hs : r.step? = some s) :
      LooksUp e line w s.site.name

/-- In a line in which no closing parenthesis stands directly before a word character or an opening
parenthesis, every name that is looked up is the whole line or is called by the line. -/
theorem isCallName_of_looksUp {e : Evaluator β σ} {line name : Text} {w : World β σ}
    (hline : ∀ u c v, Text.trim line = u ++ ')' :: c :: v → c ≠ '(' ∧ Text.isWordChar c = false)
    (h : e.LooksUp line w name) : name = Text.trim line ∨ IsCallName (Text.trim line) name := by
  cases h with
  | quick => exact Or.inl rfl
  | call hreach hs =>
      obtain ⟨t, ht⟩ := exists_trail hreach
      have hwoven := woven_of_trails ht
      obtain ⟨cut⟩ := hwoven.exists_cut hs
      have hrule := nameRule hwoven hs cut
      exact Or.inr (hrule.isCallName (hrule.not_glued (Reduction.isCall_of_step? hs) hline))

/-- A name that is looked up is the whole line, or it obeys the rule for names of calls. -/
theorem nameRule_of_looksUp {e : Evaluator β σ} {line name : Text} {w : World β σ}
    (h : e.LooksUp line w name) :
    name = Text.trim line ∨
      ∃ r s t, r.step? = some s ∧ s.site.name = name ∧ Trails (Text.trim line) t r ∧
        Nonempty (Cut t.pieces s.site) ∧
        ∀ cut : Cut t.pieces s.site, NameRule (Text.trim line) cut := by
  cases h with
  | quick => exact Or.inl rfl
  | @call r s w' hreach hs =>
      obtain ⟨t, ht⟩ := exists_trail hreach
      have hwoven := woven_of_trails ht
      exact Or.inr ⟨r, s, t, hs, rfl, ht, hwoven.exists_cut hs, nameRule hwoven hs⟩

/-- In `f()()` the placeholder `f0` of `f()` is looked up. -/
theorem looksUp_placeholder :
    echo.LooksUp "f()()".toList (echoWorld [("f", 0), ("f0", 0)]) "f0".toList := by
  have hfirst : (Reduction.start (Text.trim "f()()".toList)).step? =
      some ⟨⟨[], "f".toList, [], "()".toList⟩, [], []⟩ :=
    rfl
  have hcall : echo.call "f".toList [] [] (echoWorld [("f", 0), ("f0", 0)]) =
      (some (.int 1), echoWorld [("f", 0), ("f0", 0)]) :=
    rfl
  have hbase : Placeholder.base ⟨[], "f".toList, [], "()".toList⟩ = "f0".toList := by
    have hzero : Number.decimal 0 = ['0'] := by
      rw [Number.decimal]
      rfl
    exact congrArg ("f".toList ++ ·) hzero
  have hkey : Placeholder.choose ⟨[], "f".toList, [], "()".toList⟩ [] = "f0".toList := by
    rw [Placeholder.choose, hbase]
    rfl
  have hsecond :
      (Reduction.Step.resume ⟨⟨[], "f".toList, [], "()".toList⟩, [], []⟩ (.int 1)).step? =
        some ⟨⟨[], "f0".toList, [], []⟩, [], [("f0".toList, .int 1)]⟩ := by
    rw [Reduction.Step.resume, hkey]
    rfl
  exact .call (.next .start hfirst hcall) hsecond

theorem not_isCallName_placeholder :
    ¬ ("f0".toList = Text.trim "f()()".toList ∨
      IsCallName (Text.trim "f()()".toList) "f0".toList) := by
  rintro (h | h)
  · exact absurd h (by decide)
  · exact absurd h.isInfix (by decide)

/-- The rule for that name: there is a placeholder in it. -/
theorem glued_placeholder : ∃ r s t, r.step? = some s ∧ s.site.name = "f0".toList ∧
    Trails (Text.trim "f()()".toList) t r ∧ ∃ cut : Cut t.pieces s.site, cut.Glued := by
  rcases nameRule_of_looksUp looksUp_placeholder with h | ⟨r, s, t, hs, hname, ht, ⟨cut⟩, hrule⟩
  · exact absurd (Or.inl h) not_isCallName_placeholder
  · refine ⟨r, s, t, hs, hname, ht, cut, ?_⟩
    apply Classical.byContradiction
    intro hnot
    exact not_isCallName_placeholder (Or.inr (hname ▸ (hrule cut).isCallName hnot))

/-- So not every name that is looked up is the whole line or called by the line. -/
theorem looksUp_not_isCallName :
    ¬ ∀ (line name : Text) (w : World Unit Unit), echo.LooksUp line w name →
      name = Text.trim line ∨ IsCallName (Text.trim line) name :=
  fun h => not_isCallName_placeholder (h _ _ _ looksUp_placeholder)

end Evaluator

end CommandConsole

import CommandConsole.Proofs.Evaluation.Run
import CommandConsole.Proofs.Field.Splitting
import CommandConsole.Proofs.Text.Parentheses

set_option autoImplicit false

/-!
# Lines that have a value

A reduced line shows nothing of how its parentheses stood, so what a line with a value looked like
is read backwards off its run.  The last text of the run is a bare placeholder.  Putting a call
back in the place of its placeholder keeps the parentheses balanced, keeps every opening one after
a word or after a closing one, and leaves a closing one at the end (`Sound.back`).  So a submitted
line with a value is `WellFormed`.
-/

namespace CommandConsole

/-- The line looks like a call: its parentheses are balanced, every opening one stands after a
word or a closing one, and a closing one ends it. -/
structure WellFormed (t : Text) : Prop where
  /-- Nothing closes that is not open. -/
  closes : ∀ u, u <+: t → u.count ')' ≤ u.count '('
  total : t.count '(' = t.count ')'
  follows : ∀ u v, t = u ++ '(' :: v →
    ∃ c, u.getLast? = some c ∧ (Text.isWordChar c = true ∨ c = ')')
  ends : t.getLast? = some ')'

namespace Reduction

/-- A state from which a value can still come. -/
structure Sound (r : Reduction) : Prop where
  balanced : Text.openAfter? 0 r.text = some 0
  opens : Text.OpensAfter none r.text
  ends : r.last = some (Text.trim r.text) ∨ (Text.trim r.text).getLast? = some ')'

/-- A call opens and closes as much as its placeholder. -/
theorem balanced_back {s : CallSite} {key : Text} (hs : s.IsCall)
    (hkey : ∀ c ∈ key, Text.isWordChar c = true)
    (h : Text.openAfter? 0 (s.replace key) = some 0) : Text.openAfter? 0 s.line = some 0 := by
  have hflat : ∀ t : Text, (∀ c ∈ t, Text.isWordChar c = true) →
      ∀ n, Text.openAfter? n t = some n := by
    intro t ht
    exact Text.openAfter?_of_flat (Field.flat_of_plain (Field.plain_of_word ht))
  have hclose : ∀ n, Text.openAfter? (n + 1) (')' :: s.after) = Text.openAfter? n s.after :=
    fun n => rfl
  have hopen : ∀ n t, Text.openAfter? n ('(' :: t) = Text.openAfter? (n + 1) t := fun n t => rfl
  rw [CallSite.replace, Text.openAfter?_append] at h
  rw [CallSite.line, Text.openAfter?_append]
  cases hb : Text.openAfter? 0 s.before with
  | none => simp [hb] at h
  | some n =>
      rw [hb, Option.bind_some, Text.openAfter?_append, hflat key hkey, Option.bind_some] at h
      rw [Option.bind_some, Text.openAfter?_append, hflat s.name hs.word, Option.bind_some, hopen,
        Text.openAfter?_append, Text.openAfter?_of_flat hs.flat, Option.bind_some, hclose, h]

/-- What may follow a placeholder may follow the call. -/
theorem opens_back {s : CallSite} {key : Text} (hs : s.IsCall)
    (h : Text.OpensAfter none (s.replace key)) : Text.OpensAfter none s.line := by
  rw [CallSite.replace, Text.opensAfter_append, Text.opensAfter_append] at h
  obtain ⟨hbefore, -, hafter⟩ := h
  have hname : '(' ∉ s.name := Text.not_mem_of_word hs.word (by decide)
  have hargs : '(' ∉ s.args := fun hm => (hs.flat _ hm).1 rfl
  obtain ⟨front, c, hc⟩ : ∃ front c, s.name = front ++ [c] := by
    rcases List.eq_nil_or_concat s.name with h | ⟨front, c, h⟩
    · exact absurd h hs.named
    · exact ⟨front, c, by simpa using h⟩
  have hword : Text.EndsCallee c := Or.inl (hs.word c (by simp [hc]))
  rw [CallSite.line, Text.opensAfter_append, Text.opensAfter_append]
  refine ⟨hbefore, Text.opensAfter_of_flat hname _, ⟨fun _ => ⟨c, by simp [hc], hword⟩, ?_⟩⟩
  rw [Text.opensAfter_append]
  refine ⟨Text.opensAfter_of_flat hargs _, fun hne => absurd hne (by decide), ?_⟩
  exact hafter.after (Or.inr rfl)

/-- If the placeholder of a call, or a closing parenthesis, ends the line, then a closing
parenthesis ended it while the call stood there. -/
theorem ends_back {s : CallSite} {key : Text}
    (h : some key = some (Text.trim (s.replace key)) ∨
      (Text.trim (s.replace key)).getLast? = some ')') :
    (Text.trim s.line).getLast? = some ')' := by
  have hparen : Text.ink [')'] = [')'] := by decide
  have hline : Text.ink s.line =
      Text.ink s.before ++ (Text.ink s.name ++ (Text.ink ('(' :: s.args) ++
        ([')'] ++ Text.ink s.after))) := by
    rw [← hparen, ← Text.ink_append, ← Text.ink_append, ← Text.ink_append, ← Text.ink_append]
    simp [CallSite.line]
  have hreplace : Text.ink (s.replace key) =
      Text.ink s.before ++ (Text.ink key ++ Text.ink s.after) := by
    simp [CallSite.replace]
  rw [Text.getLast?_trim, hline]
  rcases List.eq_nil_or_concat (Text.ink s.after) with hafter | ⟨front, c, hafter⟩
  · simp [hafter]
  · rcases h with h | h
    · -- the placeholder is all that the line shows, so nothing is shown after it
      have hlen := congrArg List.length (congrArg Text.ink (Option.some.inj h))
      rw [Text.ink_trim, hreplace, hafter] at hlen
      simp only [List.length_append, List.concat_eq_append, List.length_singleton] at hlen
      omega
    · rw [Text.getLast?_trim, hreplace, hafter] at h
      rw [hafter]
      simpa [List.getLast?_cons] using h

/-- From a sound state the step that led to it leads back to a sound state, which a closing
parenthesis ends. -/
theorem Sound.back {r : Reduction} {s : Step} {v : Value} (hs : r.step? = some s)
    (h : (s.resume v).Sound) : r.Sound ∧ (Text.trim r.text).getLast? = some ')' := by
  have hcall := isCall_of_step? hs
  have hends := ends_back h.ends
  rw [line_of_step? hs] at hends
  refine ⟨⟨?_, ?_, Or.inr hends⟩, hends⟩
  · rw [← line_of_step? hs]
    exact balanced_back hcall (word_of_choose hs) h.balanced
  · rw [← line_of_step? hs]
    exact opens_back hcall h.opens

/-- A state whose text is its last placeholder, but for margins, is sound. -/
theorem sound_of_value? {r : Reduction} {v : Value}
    (hword : ∀ key, r.last = some key → ∀ c ∈ key, Text.isWordChar c = true)
    (h : r.value? = some v) : r.Sound := by
  unfold value? at h
  split at h
  · rename_i key hlast
    split at h
    · rename_i hkey
      obtain ⟨b, b', ht, hb, hb'⟩ := Text.exists_margins r.text
      have hplain : Field.Plain r.text := by
        rw [ht, ← hkey]
        exact (Field.plain_of_blank hb).append
          ((Field.plain_of_word (hword key hlast)).append (Field.plain_of_blank hb'))
      have hflat := Field.flat_of_plain hplain
      refine ⟨Text.openAfter?_of_flat hflat 0, ?_, Or.inl (by rw [hlast, hkey])⟩
      exact Text.opensAfter_of_flat (fun hm => (hflat _ hm).1 rfl) none
    · cases h
  · cases h

end Reduction

namespace Evaluator

variable {β σ : Type} {e : Evaluator β σ} {r₀ r : Reduction} {w₀ w : World β σ}

/-- Soundness goes back to the start of a run, and the end of its line with it. -/
theorem sound_of_reaches (h : e.Reaches r₀ w₀ r w) (hr : r.Sound) :
    r₀.Sound ∧ (r = r₀ ∨ (Text.trim r₀.text).getLast? = some ')') := by
  induction h with
  | start => exact ⟨hr, Or.inl rfl⟩
  | next hreach hs _ ih =>
      obtain ⟨hsound, hends⟩ := Reduction.Sound.back hs hr
      obtain ⟨hstart, heq | hclosed⟩ := ih hsound
      · exact ⟨hstart, Or.inr (heq ▸ hends)⟩
      · exact ⟨hstart, Or.inr hclosed⟩

/-- A placeholder that is there was made by a step, so it is a word. -/
theorem word_of_last {line key : Text} (h : e.Reaches (Reduction.start line) w₀ r w)
    (hlast : r.last = some key) : ∀ c ∈ key, Text.isWordChar c = true := by
  cases h with
  | start => cases hlast
  | next _ hs _ =>
      cases hlast
      exact Reduction.word_of_choose hs

/-- A line with a parenthesis has a value only if it is well formed, whatever is registered. -/
theorem wellFormed_of_evaluate {line : Text} {v : Value} {w' : World β σ}
    (hline : '(' ∈ line ∨ ')' ∈ line) (h : e.evaluate line w = (some v, w')) :
    WellFormed (Text.trim line) := by
  rw [evaluate_of_hasParenthesis ((hasParenthesis_trim_iff line).2 hline)] at h
  obtain ⟨r, hreach, -, hvalue⟩ := exists_done_of_reduce h
  have hfinal := Reduction.sound_of_value? (fun key hlast => word_of_last hreach hlast) hvalue
  obtain ⟨hsound, hstart | hends⟩ := sound_of_reaches hreach hfinal
  · rw [hstart] at hvalue
    cases hvalue
  · obtain ⟨hcloses, htotal⟩ := Text.openAfter?_eq_some_iff.1 hsound.balanced
    refine ⟨?_, by simpa using htotal, ?_, ?_⟩
    · intro u hu
      simpa using hcloses u hu
    · intro u v huv
      simpa [Text.EndsCallee] using Text.opensAfter_iff.1 hsound.opens u v huv
    · simpa [Reduction.start, Text.trim_trim] using hends

/-- The line ` g(f())` has a value, and so it is well formed. -/
theorem wellFormed_nested : WellFormed (Text.trim " g(f())".toList) := by
  have hinner : echo.call "f".toList [] [] (echoWorld [("f", 0), ("g", 1)]) =
      (some (.int 1), echoWorld [("f", 0), ("g", 1)]) :=
    rfl
  have houter : echo.call "g".toList "f2".toList [.int 1] (echoWorld [("f", 0), ("g", 1)]) =
      (some (.int 1), echoWorld [("f", 0), ("g", 1)]) :=
    rfl
  exact wellFormed_of_evaluate (Or.inl (by decide)) (evaluate_nested rfl hinner houter)

end Evaluator

end CommandConsole

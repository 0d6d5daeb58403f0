import CommandConsole.Proofs.Evaluation.Log

set_option autoImplicit false

/-!
# How long the evaluation of a line takes

A placeholder may be longer than its call, so a line need not get shorter on its way.  But every
call takes one opening and one closing parenthesis with it, and a placeholder brings none, so there
are at most as many calls as the line has parentheses of either kind.  A line without parentheses
is at most one call.
-/

namespace CommandConsole

theorem Text.count_trim {c : Char} (hc : isBlank c = false) (t : Text) :
    (trim t).count c = t.count c := by
  obtain ⟨b, b', ht, hb, hb'⟩ := exists_margins t
  have hzero : b.count c = 0 := List.count_eq_zero.2 (hb.not_mem hc)
  have hzero' : b'.count c = 0 := List.count_eq_zero.2 (hb'.not_mem hc)
  conv => rhs; rw [ht]
  rw [List.count_append, List.count_append, hzero, hzero']
  omega

/-- A step takes one parenthesis of either kind out of the line. -/
theorem Reduction.count_resume {r : Reduction} {s : Step} (h : r.step? = some s) (v : Value)
    {c : Char} (hc : c = '(' ∨ c = ')') :
    (s.resume v).text.count c + 1 = r.text.count c := by
  have hcall := isCall_of_step? h
  have hword : Text.isWordChar c = false := by rcases hc with rfl | rfl <;> decide
  have hname : s.site.name.count c = 0 :=
    List.count_eq_zero.2 (Text.not_mem_of_word hcall.word hword)
  have hkey : (Placeholder.choose s.site s.pending).count c = 0 :=
    List.count_eq_zero.2 (Text.not_mem_of_word (word_of_choose h) hword)
  have hargs : s.site.args.count c = 0 := by
    refine List.count_eq_zero.2 fun hm => ?_
    obtain ⟨hopen, hclose⟩ := hcall.flat c hm
    exact hc.elim hopen hclose
  rw [← line_of_step? h, CallSite.line]
  simp only [Step.resume, CallSite.replace, List.count_append, List.count_cons, hname, hkey, hargs]
  rcases hc with rfl | rfl
  · simp
    omega
  · simp
    omega

namespace Evaluator

variable {β σ : Type}

/-- A reduction makes at most as many calls as its text has parentheses of either kind. -/
theorem length_calls_reduceLog_le (e : Evaluator β σ) (line : Text) (r : Reduction)
    (w : World β σ) {c : Char} (hc : c = '(' ∨ c = ')') :
    (e.reduceLog line r w).calls.length ≤ r.text.count c := by
  induction r, w using e.reduction_induct with
  | done r w hs =>
      rw [reduceLog_of_no_step hs]
      cases r.value? <;> exact Nat.zero_le _
  | halted r w s w' hs hcall =>
      have hcount := Reduction.count_resume hs .nil hc
      rw [reduceLog_of_step hs, hcall, ← hcount]
      exact Nat.le_add_left 1 _
  | next r w s v w' hs hcall ih =>
      have hcount := Reduction.count_resume hs v hc
      rw [reduceLog_of_step hs, hcall, ← hcount]
      exact Nat.succ_le_succ ih

/-- The reduction of a line makes at most as many calls as the line has parentheses of either
kind. -/
theorem length_calls_trim_le (e : Evaluator β σ) (line : Text) (w : World β σ) {c : Char}
    (hc : c = '(' ∨ c = ')') :
    (e.reduceLog (Text.trim line) (Reduction.start (Text.trim line)) w).calls.length ≤
      line.count c := by
  have hblank : Text.isBlank c = false := by rcases hc with rfl | rfl <;> decide
  rw [← Text.count_trim hblank line]
  exact e.length_calls_reduceLog_le _ _ w hc

/-- A line with a parenthesis makes at most as many calls as it has parentheses of either kind. -/
theorem length_calls_le (e : Evaluator β σ) {line : Text} (hline : '(' ∈ line ∨ ')' ∈ line)
    (w : World β σ) {c : Char} (hc : c = '(' ∨ c = ')') :
    (e.log line w).calls.length ≤ line.count c := by
  rw [log_of_hasParenthesis ((hasParenthesis_trim_iff line).2 hline)]
  exact e.length_calls_trim_le line w hc

/-- A line without parentheses makes at most one call. -/
theorem length_calls_le_one (e : Evaluator β σ) {line : Text} (hopen : '(' ∉ line)
    (hclose : ')' ∉ line) (w : World β σ) : (e.log line w).calls.length ≤ 1 := by
  have hflat := hasParenthesis_trim_eq_false hopen hclose
  by_cases hblank : Text.trim line = []
  · rw [log_of_blank hblank]
    exact Nat.zero_le _
  · cases hquick : e.quickCommands with
    | true =>
        rw [log_quick hquick hblank hflat]
        exact Nat.le_refl 1
    | false =>
        rw [log_not_quick hquick hblank hflat]
        exact Nat.zero_le _

/-- Evaluation ends.  Every search for a placeholder does; a reduction makes no more calls than its
line has parentheses of either kind, so no more are made for a line with a parenthesis; and for a
line without one there is at most one call. -/
theorem evaluation_ends (e : Evaluator β σ) (line : Text) (w : World β σ) :
    (∀ (text : Text) (s : CallSite) (p : Pending), CallSite.innermost? text = some s →
      ∃ attempts, Placeholder.Found s p attempts (Placeholder.choose s p)) ∧
    (∀ c, c = '(' ∨ c = ')' →
      (e.reduceLog (Text.trim line) (Reduction.start (Text.trim line)) w).calls.length ≤
          line.count c ∧
        ('(' ∈ line ∨ ')' ∈ line → (e.log line w).calls.length ≤ line.count c)) ∧
    ('(' ∉ line → ')' ∉ line → (e.log line w).calls.length ≤ 1) := by
  refine ⟨?_, ?_, ?_⟩
  · intro text s p hs
    exact Placeholder.exists_found (CallSite.isCall_of_innermost? hs) p
  · intro c hc
    exact ⟨e.length_calls_trim_le line w hc, fun hline => e.length_calls_le hline w hc⟩
  · intro hopen hclose
    exact e.length_calls_le_one hopen hclose w

/-- A line without parentheses may make a call all the same. -/
theorem not_length_calls_le_count : ¬ ∀ (line : Text) (w : World Unit Unit),
    (echo.log line w).calls.length ≤ line.count '(' := by
  intro h
  have hlog : (echo.log "f".toList (echoWorld [("f", 0)])).calls.length = 1 := rfl
  have hcount := h "f".toList (echoWorld [("f", 0)])
  rw [hlog] at hcount
  exact absurd hcount (by decide)

end Evaluator

end CommandConsole

import CommandConsole.Proofs.Evaluation.Run
import CommandConsole.Proofs.Literal.Asking
import CommandConsole.Proofs.Reduction.Pending
import CommandConsole.Proofs.Reduction.Weave

set_option autoImplicit false

/-!
# The trail of a reduction

A `Trail` keeps what a reduction forgets: where the text of the line comes from, which values were
ever stored under placeholders, and which were handed out to arguments.  Every reduction leaves
one (`exists_trail`), and every trail tells of its reduction what `Woven` says.  The main facts
are that nothing waits under verbatim text, and that what was handed out and what waits is
together what was stored.
-/

namespace CommandConsole

/-! ## Handing out -/

namespace Pending

/-- Takes a value and notes it. -/
def takeNoted (f : Text) (s : Pending × List (Text × Value)) :
    Option Value × Pending × List (Text × Value) :=
  match find? f s.1 with
  | some v => (some v, (s.1.take f).2, s.2 ++ [(f, v)])
  | none => (none, s)

theorem take_eq_takeNoted (f : Text) (p : Pending) (log : List (Text × Value)) :
    p.take f = ((takeNoted f (p, log)).1, (takeNoted f (p, log)).2.1) := by
  unfold takeNoted
  cases h : find? f p with
  | none => exact take_of_find?_none h
  | some v => exact take_of_find?_some h

/-- What is noted and what waits is what was noted and waited. -/
theorem takeNoted_perm (f : Text) (s : Pending × List (Text × Value)) :
    List.Perm ((takeNoted f s).2.2 ++ (takeNoted f s).2.1) (s.2 ++ s.1) := by
  unfold takeNoted
  cases h : find? f s.1 with
  | none => exact List.Perm.refl _
  | some v =>
      dsimp only
      rw [List.append_assoc, List.singleton_append]
      exact (take_perm h).symm.append_left s.2

end Pending

namespace Reduction

/-- The values that the next call is handed, each with its placeholder. -/
def handed (r : Reduction) (s : Step) : List (Text × Value) :=
  (Literal.readFields Pending.takeNoted (Field.split s.site.args) (r.pending, [])).2.2

variable {r : Reduction} {s : Step}

/-- The values of the next call's fields are read from those that wait. -/
theorem readFields_of_step? (h : r.step? = some s) :
    Literal.readFields Pending.take (Field.split s.site.args) r.pending = (s.args, s.pending) := by
  rw [← Pending.arguments_eq_readFields]
  exact arguments_of_step? h

/-- What a call is handed waited before it and does not wait any more. -/
theorem handed_perm (h : r.step? = some s) :
    List.Perm (r.handed s ++ s.pending) r.pending := by
  have hagree : ∀ f, Literal.Agree Pending.take Pending.takeNoted
      (fun p (t : Pending × List (Text × Value)) => t.1 = p) f := by
    rintro f p ⟨q, log⟩ rfl
    rw [Pending.take_eq_takeNoted f _ log]
    exact ⟨rfl, rfl⟩
  obtain ⟨-, hpending⟩ := Literal.readFields_matches (Field.split s.site.args)
    (fun f _ g _ => hagree g) (s := r.pending) (t := (r.pending, [])) rfl
  rw [readFields_of_step? h] at hpending
  have hperm := Literal.readFields_invariant
    (I := fun t => List.Perm (t.2 ++ t.1) r.pending)
    (Field.split s.site.args) (fun _ _ g _ t ht => (Pending.takeNoted_perm g t).trans ht)
    (s := (r.pending, [])) (List.Perm.refl _)
  unfold handed
  rwa [hpending] at hperm

/-- Reading arguments only takes away. -/
theorem pending_sublist (h : r.step? = some s) : List.Sublist s.pending r.pending := by
  have hsub : List.Sublist
      (Literal.readFields Pending.take (Field.split s.site.args) r.pending).2 r.pending :=
    Literal.readFields_invariant (I := fun q => List.Sublist q r.pending)
      (Field.split s.site.args) (fun _ _ g _ q hq => (Pending.take_sublist g q).trans hq)
      (List.Sublist.refl r.pending)
  rwa [readFields_of_step? h] at hsub

end Reduction

/-! ## Trails -/

open Weave (Cut Verbatim)

/-- What a reduction has done so far. -/
structure Trail where
  /-- Where the text of the line comes from. -/
  pieces : List Piece
  /-- The values of all calls, each with its placeholder. -/
  stored : List (Text × Value) := []
  /-- The values that were handed to arguments. -/
  handed : List (Text × Value) := []

/-- The reduction of a line leaves a trail, whatever the calls return. -/
inductive Trails (line : Text) : Trail → Reduction → Prop where
  | start : Trails line { pieces := Weave.quote line } (Reduction.start line)
  | next {t : Trail} {r : Reduction} {s : Reduction.Step} (v : Value) (cut : Cut t.pieces s.site) :
      Trails line t r → r.step? = some s →
      Trails line
        { pieces := cut.replace (Placeholder.choose s.site s.pending)
          stored := (Placeholder.choose s.site s.pending, v) :: t.stored
          handed := t.handed ++ r.handed s }
        (s.resume v)

/-- What a trail tells. -/
structure Woven (line : Text) (t : Trail) (r : Reduction) : Prop where
  shown : Weave.shown t.pieces = r.text
  source : Weave.source t.pieces = line
  keyed : Weave.Keyed t.pieces
  named : ∀ x ∈ r.pending, x.1 ≠ []
  /-- Nothing waits under verbatim text. -/
  fresh : ∀ f, Verbatim t.pieces f → Pending.find? f r.pending = none
  /-- What was handed out and what waits is what was stored. -/
  ledger : List.Perm (t.handed ++ r.pending) t.stored

theorem woven_start (line : Text) :
    Woven line { pieces := Weave.quote line } (Reduction.start line) where
  shown := Weave.shown_quote line
  source := Weave.source_quote line
  keyed _ _ hm := absurd hm Weave.reduced_not_mem_quote
  named _ hx := absurd hx List.not_mem_nil
  fresh f _ := Pending.find?_nil f
  ledger := List.Perm.refl []

/-- A step keeps what a trail tells. -/
theorem Woven.next {line : Text} {t : Trail} {r : Reduction} {s : Reduction.Step}
    (h : Woven line t r) (hs : r.step? = some s) (v : Value) (cut : Cut t.pieces s.site) :
    Woven line
      { pieces := cut.replace (Placeholder.choose s.site s.pending)
        stored := (Placeholder.choose s.site s.pending, v) :: t.stored
        handed := t.handed ++ r.handed s }
      (s.resume v) where
  shown := cut.shown_replace _
  source := (cut.source_replace _).trans h.source
  keyed key src hm := by
    rcases List.mem_append.1 hm with hm | hm
    · exact h.keyed key src (by rw [← cut.pieces_call]; simp [hm])
    · rcases List.mem_cons.1 hm with heq | hm
      · cases heq
        exact ⟨Placeholder.choose_ne_nil _ _, Reduction.word_of_choose hs, cut.source_call⟩
      · exact h.keyed key src (by rw [← cut.pieces_call]; simp [hm])
  named x hx := by
    rcases List.mem_cons.1 hx with rfl | hx
    · exact Placeholder.choose_ne_nil _ _
    · exact h.named x ((Reduction.pending_sublist hs).subset hx)
  fresh f hf := by
    have hside := cut.verbatim_replace hf
    have hne : Placeholder.choose s.site s.pending ≠ f := by
      obtain ⟨hbefore, hafter⟩ := Placeholder.not_isInfix_choose s.site s.pending
      rintro rfl
      rcases hside with hside | hside
      · exact hbefore (cut.shown_before ▸ hside.shown)
      · exact hafter (cut.shown_after ▸ hside.shown)
    have hold : Verbatim t.pieces f := hside.elim cut.verbatim_before cut.verbatim_after
    have hnone := Pending.find?_eq_none_of_sublist (Reduction.pending_sublist hs) (h.fresh f hold)
    exact (Pending.find?_cons f _ _).trans ((if_neg hne).trans hnone)
  ledger := by
    have hrest : List.Perm (t.handed ++ r.handed s ++ s.pending) t.stored := by
      rw [List.append_assoc]
      exact ((Reduction.handed_perm hs).append_left t.handed).trans h.ledger
    exact List.perm_middle.trans (hrest.cons _)

/-- A trail tells of its reduction. -/
theorem woven_of_trails {line : Text} {t : Trail} {r : Reduction} (h : Trails line t r) :
    Woven line t r := by
  induction h with
  | start => exact woven_start line
  | next v cut _ hs ih => exact ih.next hs v cut

/-- The pieces of a line can be cut around its next call. -/
theorem Woven.exists_cut {line : Text} {t : Trail} {r : Reduction} {s : Reduction.Step}
    (h : Woven line t r) (hs : r.step? = some s) : Nonempty (Cut t.pieces s.site) := by
  refine Weave.exists_cut h.keyed (Reduction.isCall_of_step? hs) ?_
  rw [h.shown, Reduction.line_of_step? hs]

/-- Every reduction leaves a trail. -/
theorem exists_trail {β σ : Type} {e : Evaluator β σ} {line : Text} {r : Reduction}
    {w w' : World β σ} (h : e.Reaches (Reduction.start line) w r w') : ∃ t, Trails line t r := by
  induction h with
  | start => exact ⟨_, .start⟩
  | next _ hs _ ih =>
      obtain ⟨t, ht⟩ := ih
      obtain ⟨cut⟩ := (woven_of_trails ht).exists_cut hs
      exact ⟨_, .next _ cut ht hs⟩

end CommandConsole

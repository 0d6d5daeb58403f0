import CommandConsole.Proofs.Reduction.Trail

set_option autoImplicit false

/-!
# Literal text is read as it stands

A placeholder is a word, and an operator may type the same word.  What saves the typed word is
that nothing waits under verbatim text (`Woven.fresh`): the arguments of every call are those of a
look-up that refuses verbatim text (`takeReduced`), and under such a look-up a verbatim field, or
a verbatim component of a vector at any depth, is its own literal.

The values themselves are accounted for by the trail: each that was stored is handed out once or
still waits.
-/

namespace CommandConsole

open Weave (Verbatim)

/-! ## Looking up placeholders only -/

namespace Pending

/-- Takes a value, but never under verbatim text. -/
def takeReduced (ps : List Piece) (f : Text) (p : Pending) : Option Value × Pending :=
  if Verbatim ps f then (none, p) else p.take f

/-- Verbatim text is read from itself alone. -/
theorem answered_of_verbatim {ps : List Piece} {f : Text} (h : Verbatim ps f) (p : Pending) :
    Literal.answered (takeReduced ps) f p = (Literal.convert f, p) := by
  have hrefuse : ∀ g, g <:+: f → ∀ q, takeReduced ps g q = (none, q) := by
    intro g hg q
    exact if_pos (h.part hg)
  rw [Literal.answered, hrefuse f (List.infix_refl f)]
  exact Literal.convertWith_eq_convert hrefuse p

end Pending

/-! ## What holds of every state -/

/-- Literal text captures no value, and no value is handed out twice. -/
structure LiteralSafe (line : Text) (t : Trail) (r : Reduction) : Prop where
  /-- The pieces are those of the line on its way. -/
  shown : Weave.shown t.pieces = r.text
  source : Weave.source t.pieces = line
  /-- The arguments of the next call are read without looking up verbatim text. -/
  arguments : ∀ s, r.step? = some s →
    Literal.readFields (Pending.takeReduced t.pieces) (Field.split s.site.args) r.pending =
      (s.args, s.pending)
  /-- A field or component that is verbatim is then read from its text alone. -/
  alone : ∀ f, Verbatim t.pieces f → ∀ p,
    Literal.answered (Pending.takeReduced t.pieces) f p = (Literal.convert f, p)
  /-- So the argument of a verbatim field is its literal. -/
  fields : ∀ (s : Reduction.Step) (i : Nat) (f : Text), r.step? = some s →
    (Field.split s.site.args)[i]? = some f → Verbatim t.pieces f →
    s.args[i]? = some (Literal.convert f)
  /-- Each stored value was handed out once, or it waits. -/
  once : List.Perm (t.handed ++ r.pending) t.stored
  /-- The value of the line is one that was stored and not yet handed out. -/
  result : ∀ v, r.value? = some v → ∃ key rest, r.last = some key ∧
    List.Perm (t.handed ++ (key, v) :: rest) t.stored

theorem Woven.arguments {line : Text} {t : Trail} {r : Reduction} {s : Reduction.Step}
    (h : Woven line t r) (hs : r.step? = some s) :
    Literal.readFields (Pending.takeReduced t.pieces) (Field.split s.site.args) r.pending =
      (s.args, s.pending) := by
  -- both look-ups go through states in which at most values are missing
  have hagree : ∀ f, Literal.Agree Pending.take (Pending.takeReduced t.pieces)
      (fun p q => p = q ∧ List.Sublist p r.pending) f := by
    rintro f p q ⟨rfl, hp⟩
    by_cases hf : Verbatim t.pieces f
    · have hnone := Pending.find?_eq_none_of_sublist hp (h.fresh f hf)
      rw [Pending.take_of_find?_none hnone, Pending.takeReduced, if_pos hf]
      exact ⟨rfl, rfl, hp⟩
    · rw [Pending.takeReduced, if_neg hf]
      exact ⟨rfl, rfl, (Pending.take_sublist f p).trans hp⟩
  obtain ⟨hargs, hpending, -⟩ := Literal.readFields_matches (Field.split s.site.args)
    (fun f _ g _ => hagree g) (s := r.pending) (t := r.pending) ⟨rfl, List.Sublist.refl _⟩
  rw [Reduction.readFields_of_step? hs] at hargs hpending
  exact Prod.ext hargs.symm hpending.symm

theorem Woven.literalSafe {line : Text} {t : Trail} {r : Reduction} (h : Woven line t r) :
    LiteralSafe line t r where
  shown := h.shown
  source := h.source
  arguments s hs := h.arguments hs
  alone f hf p := Pending.answered_of_verbatim hf p
  fields s i f hs hi hf := by
    obtain ⟨p, hp⟩ := Literal.exists_answered (Pending.takeReduced t.pieces) hi r.pending
    rw [h.arguments hs, Pending.answered_of_verbatim hf] at hp
    exact hp
  once := h.ledger
  result v hv := by
    unfold Reduction.value? at hv
    split at hv
    · rename_i key hlast
      split at hv
      · refine ⟨key, (r.pending.take key).2, hlast, List.Perm.trans ?_ h.ledger⟩
        exact (Pending.take_perm hv).symm.append_left t.handed
      · cases hv
    · cases hv

namespace Evaluator

/-- In every state that the evaluation of a line passes, whatever is registered and whatever the
calls return, literal text captures no value and no value is handed out twice. -/
theorem literalSafe_of_reaches {β σ : Type} {e : Evaluator β σ} {line : Text}
    {r : Reduction} {w w' : World β σ}
    (h : e.Reaches (Reduction.start (Text.trim line)) w r w') :
    (∃ t, Trails (Text.trim line) t r) ∧
      ∀ t, Trails (Text.trim line) t r → LiteralSafe (Text.trim line) t r :=
  ⟨exists_trail h, fun _ ht => (woven_of_trails ht).literalSafe⟩

/-- In `g(f(), f2)` the word `f2` would be the placeholder of `f()`, if it stood nowhere else. -/
theorem literalSafe_typed_key :
    ∃ r t, r.text ≠ "g(f(), f2)".toList ∧ LiteralSafe "g(f(), f2)".toList t r := by
  have hstep : (Reduction.start (Text.trim "g(f(), f2)".toList)).step? =
      some ⟨⟨"g(".toList, "f".toList, [], ", f2)".toList⟩, [], []⟩ :=
    rfl
  have hcall : echo.call "f".toList [] [] (echoWorld [("f", 0), ("g", 2)]) =
      (some (.int 1), echoWorld [("f", 0), ("g", 2)]) :=
    rfl
  obtain ⟨⟨t, ht⟩, hsafe⟩ := literalSafe_of_reaches (.next .start hstep hcall)
  refine ⟨_, t, ?_, hsafe t ht⟩
  intro htext
  have hless := Reduction.openings_resume_lt hstep (.int 1)
  rw [htext] at hless
  exact Nat.lt_irrefl _ hless

end Evaluator

end CommandConsole

import CommandConsole.Proofs.Reduction.Waiting

set_option autoImplicit false

/-!
# Where the texts in arguments come from

A field is read off a line in which earlier calls are placeholders already.  If no value waits
under all of its text, then the field is what it shows: a number, a vector, nothing, or its own
text.  A stretch of the line on its way spells that text (`ArgumentRule`), and it is the text that
was submitted there exactly if no placeholder is part of the stretch.  A placeholder alone is never
such a stretch; with other text beside it, the command gets the placeholder as text.
-/

namespace CommandConsole

open Weave (Cut Keyed Stands)

/-! ## Stretches of a line on its way -/

namespace Weave

/-- Pieces of which none is a placeholder show what was submitted. -/
theorem source_eq_shown {ps : List Piece} (h : ∀ key src, Piece.reduced key src ∉ ps) :
    source ps = shown ps := by
  induction ps with
  | nil => rfl
  | cons x ps ih =>
      have hrest := ih fun key src hm => h key src (List.mem_cons_of_mem x hm)
      cases x with
      | verbatim c => rw [source_cons, shown_cons, hrest]; rfl
      | reduced key src => exact absurd List.mem_cons_self (h key src)

/-- A placeholder stands for a text with a closing parenthesis. -/
theorem mem_source_of_reduced {ps : List Piece} (hps : Keyed ps) {key src : Text}
    (h : Piece.reduced key src ∈ ps) : ')' ∈ source ps := by
  obtain ⟨-, -, hclosed⟩ := hps key src h
  exact List.mem_flatMap.2 ⟨_, h, List.mem_of_getLast? hclosed⟩

/-- Text without parentheses is what was submitted in its place, exactly if no placeholder is a
part of it. -/
theorem eq_source_iff {ps : List Piece} (hps : Keyed ps) (hflat : ')' ∉ shown ps) :
    shown ps = source ps ↔ ∀ key src, Piece.reduced key src ∉ ps := by
  constructor
  · intro h key src hm
    apply hflat
    rw [h]
    exact mem_source_of_reduced hps hm
  · intro h
    exact (source_eq_shown h).symm

end Weave

/-! ## Arguments -/

/-- What an argument is, from its field. -/
inductive ArgumentRule (line : Text) (t : Trail) (f : Text) : Value → Prop where
  /-- The value of a call reduced before, which waited under the field. -/
  | handed {a : Value} (h : (f, a) ∈ t.stored) : ArgumentRule line t f a
  | noText {a : Value} (h : ∀ x, a ≠ .text x) : ArgumentRule line t f a
  /-- The text of the field, spelled by a stretch of the line on its way.  The stretch is no
  placeholder alone, and the text is the one that was submitted there exactly if the stretch has no
  placeholder in it. -/
  | spelled (stretch : List Piece) (part : stretch <:+: t.pieces)
      (shown : Weave.shown stretch = f) (trimmed : Text.trim f = f)
      (stands : Weave.source stretch <:+: line)
      (notAlone : ∀ key src, stretch ≠ [.reduced key src])
      (submitted : f = Weave.source stretch ↔ ∀ key src, .reduced key src ∉ stretch) :
      ArgumentRule line t f (.text f)

section

variable {line : Text} {t : Trail} {r : Reduction} {s : Reduction.Step} {f : Text}

/-- The text of a field is spelled by the stretch that shows the field. -/
theorem argumentRule_of_text (h : Woven line t r) (hs : r.step? = some s)
    (cut : Cut t.pieces s.site) (hf : f ∈ Field.split s.site.args) {qs : List Piece}
    (hqs : Stands qs cut.args) (hshown : Weave.shown qs = f)
    (hmixed : ∀ key src, qs ≠ [.reduced key src]) : ArgumentRule line t f (.text f) := by
  have hpart := (hqs.trans cut.stands_args).isInfix
  have hflat : ')' ∉ Weave.shown qs := by
    intro hm
    have hargs := (Field.apartIn_of_mem_split hf).isInfix.subset (hshown ▸ hm)
    exact ((Reduction.isCall_of_step? hs).flat ')' hargs).2 rfl
  have hiff := Weave.eq_source_iff (h.keyed.sub hpart.subset) hflat
  rw [hshown] at hiff
  refine .spelled qs hpart hshown (Field.trim_of_mem_split hf) ?_ hmixed hiff
  obtain ⟨u, v, huv⟩ := hpart
  refine ⟨Weave.source u, Weave.source v, ?_⟩
  rw [← h.source, ← huv, Weave.source_append, Weave.source_append]

/-- The arguments of the next call are the values that wait under its fields, or what the fields
show. -/
theorem argumentRule (ht : Trails line t r) (hs : r.step? = some s) {i : Nat} {a : Value}
    (hf : (Field.split s.site.args)[i]? = some f) (ha : s.args[i]? = some a) :
    ArgumentRule line t f a := by
  have hw := woven_of_trails ht
  have hmem := List.mem_of_getElem? hf
  obtain ⟨cut⟩ := hw.exists_cut hs
  obtain ⟨p, qs, hfewer, hvalue, hqs, hshown, halone⟩ := ht.exists_turn hs cut hf
  obtain rfl := Option.some.inj (ha.symm.trans hvalue)
  unfold Literal.answered
  cases hfind : Pending.find? f p with
  | some v =>
      -- what is taken waited, and what waited was stored
      rw [Pending.take_of_find?_some hfind]
      have hwaits : (f, v) ∈ r.pending :=
        hfewer.subset ((Pending.take_perm hfind).mem_iff.2 List.mem_cons_self)
      exact .handed (hw.ledger.mem_iff.1 (List.mem_append_right t.handed hwaits))
  | none =>
      rw [Pending.take_of_find?_none hfind]
      cases htext : (Literal.convertWith Pending.take f p).1 with
      | text x =>
          have hx := Literal.eq_trim_of_convertWith htext
          rw [Field.trim_of_mem_split hmem] at hx
          subst hx
          exact argumentRule_of_text hw hs cut hmem hqs hshown fun key src heq =>
            halone key src heq hfind
      | _ => exact .noText (by simp)

/-- A text that no call had as its value stands in the submitted line, unless a placeholder and
other text together spell it. -/
theorem ArgumentRule.isInfix_or_mixed {x : Text} (h : ArgumentRule line t f (.text x))
    (hnew : (f, .text x) ∉ t.stored) :
    x <:+: line ∨ ∃ stretch key src, Weave.shown stretch = x ∧
      Weave.source stretch <:+: line ∧ .reduced key src ∈ stretch ∧
      stretch ≠ [.reduced key src] := by
  cases h with
  | handed hstored => exact absurd hstored hnew
  | noText hno => exact absurd rfl (hno x)
  | spelled stretch part shown trimmed stands notAlone submitted =>
      by_cases hverbatim : ∀ key src, .reduced key src ∉ stretch
      · exact Or.inl (submitted.2 hverbatim ▸ stands)
      · obtain ⟨key, src, hm⟩ : ∃ key src, .reduced key src ∈ stretch := by
          simpa using hverbatim
        exact Or.inr ⟨stretch, key, src, shown, stands, hm, notAlone key src⟩

end

namespace Evaluator

variable {β σ : Type}

/-- In every state that the evaluation of a line passes, every argument of the next call obeys the
rule, whatever is registered and whatever the calls before returned. -/
theorem argumentRule_of_reaches {e : Evaluator β σ} {line : Text}
    {r : Reduction} {w w' : World β σ} {s : Reduction.Step} {i : Nat} {a : Value}
    (h : e.Reaches (Reduction.start (Text.trim line)) w r w') (hs : r.step? = some s)
    (ha : s.args[i]? = some a) :
    (∃ t, Trails (Text.trim line) t r) ∧
      ∃ f, (Field.split s.site.args)[i]? = some f ∧
        ∀ t, Trails (Text.trim line) t r → ArgumentRule (Text.trim line) t f a := by
  obtain ⟨f, hf⟩ : ∃ f, (Field.split s.site.args)[i]? = some f := by
    have hlen := Literal.length_readFields Pending.take (Field.split s.site.args) r.pending
    rw [Reduction.readFields_of_step? hs] at hlen
    obtain ⟨hi, -⟩ := List.getElem?_eq_some_iff.1 ha
    exact ⟨_, List.getElem?_eq_getElem (hlen ▸ hi)⟩
  exact ⟨exists_trail h, f, hf, fun _ ht => argumentRule ht hs hf ha⟩

/-- The evaluation of a line hands the text to a call, and no call that was reduced before had it
as its value. -/
def HandsText (e : Evaluator β σ) (line : Text) (w : World β σ) (x : Text) : Prop :=
  ∃ (r : Reduction) (s : Reduction.Step) (t : Trail) (w' : World β σ) (i : Nat),
    e.Reaches (Reduction.start (Text.trim line)) w r w' ∧ r.step? = some s ∧
      Trails (Text.trim line) t r ∧ s.args[i]? = some (.text x) ∧ ∀ key, (key, .text x) ∉ t.stored

/-- In `g(f()x)` the placeholder `f2` of `f()` and the `x` after it are handed to `g` as a text. -/
theorem handsText_placeholder :
    echo.HandsText "g(f()x)".toList (echoWorld [("f", 0), ("g", 1)]) "f2x".toList := by
  have hfirst : (Reduction.start (Text.trim "g(f()x)".toList)).step? =
      some ⟨⟨"g(".toList, "f".toList, [], "x)".toList⟩, [], []⟩ :=
    rfl
  have hcall : echo.call "f".toList [] [] (echoWorld [("f", 0), ("g", 1)]) =
      (some (.int 1), echoWorld [("f", 0), ("g", 1)]) :=
    rfl
  have hbase : Placeholder.base ⟨"g(".toList, "f".toList, [], "x)".toList⟩ = "f2".toList := by
    have htwo : Number.decimal 2 = ['2'] := by
      rw [Number.decimal]
      rfl
    exact congrArg ("f".toList ++ ·) htwo
  have hkey : Placeholder.choose ⟨"g(".toList, "f".toList, [], "x)".toList⟩ [] =
      "f2".toList := by
    rw [Placeholder.choose, hbase]
    rfl
  have hread : Literal.convertWith Pending.take "f2x".toList [("f2".toList, .int 1)] =
      (.text "f2x".toList, [("f2".toList, .int 1)]) :=
    Literal.convertWith_of_text rfl rfl _
  have hargs : Pending.arguments (Field.split "f2x".toList) [("f2".toList, .int 1)] =
      ([.text "f2x".toList], [("f2".toList, .int 1)]) := by
    rw [show Field.split "f2x".toList = ["f2x".toList] from rfl, Pending.arguments,
      show Pending.argument "f2x".toList [("f2".toList, .int 1)] =
        Literal.convertWith Pending.take "f2x".toList [("f2".toList, .int 1)] from rfl, hread]
    rfl
  have hsecond : (Reduction.Step.resume
      ⟨⟨"g(".toList, "f".toList, [], "x)".toList⟩, [], []⟩ (.int 1)).step? =
        some ⟨⟨[], "g".toList, "f2x".toList, []⟩, [.text "f2x".toList],
          [("f2".toList, .int 1)]⟩ := by
    rw [Reduction.Step.resume, hkey, Reduction.step?,
      show CallSite.innermost? _ = some ⟨[], "g".toList, "f2x".toList, []⟩ from rfl,
      Option.map_some, hargs]
  obtain ⟨cut⟩ := (woven_start (Text.trim "g(f()x)".toList)).exists_cut hfirst
  refine ⟨_, _, _, _, 0, .next .start hfirst hcall, hsecond, .next (.int 1) cut .start hfirst, rfl,
    ?_⟩
  intro key hm
  rw [List.mem_singleton] at hm
  cases hm

theorem not_isInfix_placeholder : ¬ "f2x".toList <:+: Text.trim "g(f()x)".toList := by decide

/-- The rule for that text: a placeholder and other text spell it. -/
theorem mixed_placeholder : ∃ stretch key src, Weave.shown stretch = "f2x".toList ∧
    Weave.source stretch <:+: Text.trim "g(f()x)".toList ∧ .reduced key src ∈ stretch ∧
    stretch ≠ [.reduced key src] := by
  obtain ⟨r, s, t, w', i, hreach, hs, ht, ha, hnew⟩ := handsText_placeholder
  obtain ⟨-, f, -, hrule⟩ := argumentRule_of_reaches hreach hs ha
  rcases (hrule t ht).isInfix_or_mixed (hnew f) with hstands | hmixed
  · exact absurd hstands not_isInfix_placeholder
  · exact hmixed

/-- So not every text that is handed to a call stands in the line. -/
theorem handsText_not_isInfix :
    ¬ ∀ (line : Text) (w : World Unit Unit) (x : Text), echo.HandsText line w x →
      x <:+: Text.trim line :=
  fun h => not_isInfix_placeholder (h _ _ _ handsText_placeholder)

end Evaluator

end CommandConsole

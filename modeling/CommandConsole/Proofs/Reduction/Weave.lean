import CommandConsole.Proofs.CallSite.Innermost
import CommandConsole.Proofs.Field.Parts

set_option autoImplicit false

/-!
# Where the text of a line comes from

A line on its way is woven of two kinds of pieces: characters of the submitted line, which stand
there verbatim, and placeholders, each in the place of the part of the submitted line that was
reduced to it.  Both texts can be read off the pieces: what the line shows now, and what was
submitted.

A call never begins or ends inside a placeholder, so the cut of a line around a call is a cut of
its pieces (`exists_cut`).
-/

namespace CommandConsole

/-- A piece of a line on its way. -/
inductive Piece where
  /-- A character of the submitted line. -/
  | verbatim (c : Char)
  /-- A placeholder, and the part of the submitted line that it stands for. -/
  | reduced (key source : Text)
  deriving DecidableEq, Repr

/-- The text that a piece shows. -/
def Piece.shown : Piece → Text
  | .verbatim c => [c]
  | .reduced key _ => key

/-- The part of the submitted line that a piece stands for. -/
def Piece.source : Piece → Text
  | .verbatim c => [c]
  | .reduced _ source => source

namespace Weave

/-- The text that pieces show. -/
def shown (ps : List Piece) : Text := ps.flatMap Piece.shown

/-- The part of the submitted line that pieces stand for. -/
def source (ps : List Piece) : Text := ps.flatMap Piece.source

/-- A text of which nothing is reduced. -/
def quote (t : Text) : List Piece := t.map .verbatim

@[simp] theorem shown_nil : shown [] = [] := rfl

@[simp] theorem shown_cons (x : Piece) (ps : List Piece) :
    shown (x :: ps) = x.shown ++ shown ps := rfl

@[simp] theorem shown_append (ps qs : List Piece) : shown (ps ++ qs) = shown ps ++ shown qs :=
  List.flatMap_append

@[simp] theorem source_nil : source [] = [] := rfl

@[simp] theorem source_cons (x : Piece) (ps : List Piece) :
    source (x :: ps) = x.source ++ source ps := rfl

@[simp] theorem source_append (ps qs : List Piece) :
    source (ps ++ qs) = source ps ++ source qs :=
  List.flatMap_append

@[simp] theorem quote_append (s t : Text) : quote (s ++ t) = quote s ++ quote t :=
  List.map_append

theorem shown_quote (t : Text) : shown (quote t) = t := by
  induction t with
  | nil => rfl
  | cons c t ih => exact congrArg (c :: ·) ih

theorem source_quote (t : Text) : source (quote t) = t := by
  induction t with
  | nil => rfl
  | cons c t ih => exact congrArg (c :: ·) ih

theorem reduced_not_mem_quote {key src t : Text} : Piece.reduced key src ∉ quote t := by
  intro hm
  obtain ⟨c, -, hc⟩ := List.mem_map.1 hm
  cases hc

/-- The text stands in the pieces, and nothing of it is reduced. -/
def Verbatim (ps : List Piece) (t : Text) : Prop := quote t <:+: ps

instance (ps : List Piece) (t : Text) : Decidable (Verbatim ps t) :=
  inferInstanceAs (Decidable (quote t <:+: ps))

/-- Verbatim text is shown. -/
theorem Verbatim.shown {ps : List Piece} {t : Text} (h : Verbatim ps t) :
    t <:+: Weave.shown ps := by
  obtain ⟨l, r, hps⟩ := h
  exact ⟨Weave.shown l, Weave.shown r, by
    rw [← hps, shown_append, shown_append, shown_quote]⟩

/-- Verbatim text was submitted. -/
theorem Verbatim.source {ps : List Piece} {t : Text} (h : Verbatim ps t) :
    t <:+: Weave.source ps := by
  obtain ⟨l, r, hps⟩ := h
  exact ⟨Weave.source l, Weave.source r, by
    rw [← hps, source_append, source_append, source_quote]⟩

/-- A part of a verbatim text is verbatim. -/
theorem Verbatim.part {ps : List Piece} {s t : Text} (h : Verbatim ps t) (hs : s <:+: t) :
    Verbatim ps s := by
  obtain ⟨l, r, ht⟩ := hs
  refine List.IsInfix.trans ⟨quote l, quote r, ?_⟩ h
  rw [← quote_append, ← quote_append, ht]

/-- A stretch holds a piece, or it lies on one side of it. -/
theorem exists_side {l qs r before after : List Piece} {x : Piece}
    (h : l ++ (qs ++ r) = before ++ x :: after) :
    (∃ a b, qs = a ++ x :: b) ∨ (∃ n, before = l ++ (qs ++ n) ∧ r = n ++ x :: after) ∨
      ∃ m, after = m ++ (qs ++ r) ∧ l = before ++ x :: m := by
  rcases List.append_eq_append_iff.1 h with ⟨m, hbefore, hrest⟩ | ⟨m, hl, hrest⟩
  · -- the stretch begins before the piece
    rcases List.append_eq_append_iff.1 hrest with ⟨n, hm, hr⟩ | ⟨n, hqs, hr⟩
    · exact Or.inr (Or.inl ⟨n, by rw [hbefore, hm], hr⟩)
    · cases n with
      | nil =>
          rw [List.append_nil] at hqs
          exact Or.inr (Or.inl ⟨[], by rw [hbefore, hqs, List.append_nil], hr.symm⟩)
      | cons y n =>
          cases hr
          exact Or.inl ⟨m, n, hqs⟩
  · cases m with
    | nil =>
        rw [List.append_nil] at hl
        cases qs with
        | nil => exact Or.inr (Or.inl ⟨[], by rw [hl]; simp, hrest.symm⟩)
        | cons y qs =>
            cases hrest
            exact Or.inl ⟨[], qs, rfl⟩
    | cons y m =>
        cases hrest
        exact Or.inr (Or.inr ⟨m, rfl, hl⟩)

/-- Verbatim text does not reach over a placeholder. -/
theorem verbatim_replaced {l r : List Piece} {key src t : Text}
    (h : Verbatim (l ++ .reduced key src :: r) t) : Verbatim l t ∨ Verbatim r t := by
  obtain ⟨u, v, huv⟩ := h
  rw [List.append_assoc] at huv
  rcases exists_side huv with ⟨a, b, hquote⟩ | ⟨n, hl, -⟩ | ⟨m, hr, -⟩
  · exact absurd (show Piece.reduced key src ∈ quote t by simp [hquote]) reduced_not_mem_quote
  · exact Or.inl ⟨u, n, by rw [hl, List.append_assoc]⟩
  · exact Or.inr ⟨m, v, by rw [hr, List.append_assoc]⟩

/-! ## Cuts -/

/-- Every placeholder is a word that is not empty, and stands for a call. -/
def Keyed (ps : List Piece) : Prop :=
  ∀ key src, Piece.reduced key src ∈ ps →
    key ≠ [] ∧ (∀ c ∈ key, Text.isWordChar c = true) ∧ src.getLast? = some ')'

/-- A character that stands in no word is verbatim. -/
theorem exists_cut_at {ps : List Piece} (hps : Keyed ps) {u v : Text} {c : Char}
    (hc : Text.isWordChar c = false) (h : shown ps = u ++ c :: v) :
    ∃ l r, ps = l ++ .verbatim c :: r ∧ shown l = u ∧ shown r = v := by
  induction ps generalizing u with
  | nil => simp at h
  | cons x ps ih =>
      have hrest : Keyed ps := fun key src hm => hps key src (List.mem_cons_of_mem x hm)
      rw [shown_cons] at h
      rcases List.append_eq_append_iff.1 h with ⟨m, hu, hm⟩ | ⟨m, hx, hm⟩
      · obtain ⟨l, r, hl, hshown, hr⟩ := ih hrest hm
        exact ⟨x :: l, r, by rw [hl, List.cons_append], by rw [shown_cons, hshown, hu], hr⟩
      · cases m with
        | nil =>
            rw [List.append_nil] at hx
            obtain ⟨l, r, hl, hshown, hr⟩ := ih hrest (u := []) hm.symm
            exact ⟨x :: l, r, by rw [hl, List.cons_append],
              by rw [shown_cons, hshown, hx]; simp, hr⟩
        | cons d m =>
            cases hm
            cases x with
            | verbatim d =>
                have hone : u = [] ∧ c = d ∧ m = [] := by
                  cases u with
                  | nil =>
                      cases hx
                      exact ⟨rfl, rfl, rfl⟩
                  | cons e u =>
                      have := congrArg List.length hx
                      simp [Piece.shown] at this
                obtain ⟨rfl, rfl, rfl⟩ := hone
                exact ⟨[], ps, rfl, rfl, rfl⟩
            | reduced key src =>
                have hword := (hps key src List.mem_cons_self).2.1 c (by
                  rw [show key = u ++ c :: m from hx]
                  simp)
                rw [hword] at hc
                cases hc

/-- Pieces can be cut where no word goes on. -/
theorem exists_split {ps : List Piece} (hps : Keyed ps) {u v : Text}
    (hu : ∀ c, u.getLast? = some c → Text.isWordChar c = false) (h : shown ps = u ++ v) :
    ∃ l r, ps = l ++ r ∧ shown l = u ∧ shown r = v := by
  rcases List.eq_nil_or_concat u with rfl | ⟨u, c, rfl⟩
  · exact ⟨[], ps, rfl, rfl, h⟩
  · rw [List.concat_eq_append] at h hu ⊢
    have hc : Text.isWordChar c = false := hu c (by simp)
    obtain ⟨l, r, hcut, hl, hr⟩ := exists_cut_at (u := u) (v := v) hps hc (by simpa using h)
    refine ⟨l ++ [.verbatim c], r, by rw [hcut]; simp, ?_, hr⟩
    rw [shown_append, hl]
    rfl

/-- A stretch of the pieces, over whose ends no word runs. -/
def Stands (qs ps : List Piece) : Prop :=
  ∃ l r, ps = l ++ (qs ++ r) ∧ (∀ c, (shown l).getLast? = some c → Text.isWordChar c = false) ∧
    ∀ c, (shown r).head? = some c → Text.isWordChar c = false

theorem Stands.isInfix {qs ps : List Piece} (h : Stands qs ps) : qs <:+: ps := by
  obtain ⟨l, r, rfl, -, -⟩ := h
  exact ⟨l, r, List.append_assoc l qs r⟩

theorem Stands.trans {qs rs ps : List Piece} (h : Stands qs rs) (h' : Stands rs ps) :
    Stands qs ps := by
  obtain ⟨l, r, rfl, hl, hr⟩ := h
  obtain ⟨l', r', rfl, hl', hr'⟩ := h'
  refine ⟨l' ++ l, r ++ r', by simp, ?_, ?_⟩
  · rw [shown_append]
    exact Text.last_apart hl' hl
  · rw [shown_append]
    exact Text.first_apart hr hr'

theorem Keyed.sub {ps qs : List Piece} (h : Keyed ps) (hqs : qs ⊆ ps) : Keyed qs :=
  fun key src hm => h key src (hqs hm)

/-- A text that stands apart is shown by a stretch of the pieces. -/
theorem exists_stretch {ps : List Piece} (hps : Keyed ps) {f : Text}
    (h : f.ApartIn (shown ps)) : ∃ qs, Stands qs ps ∧ shown qs = f := by
  obtain ⟨u, v, hshown, hu, hv⟩ := h
  obtain ⟨l, rest, rfl, hl, hrest⟩ := exists_split hps hu hshown
  have hkeyed : Keyed rest := hps.sub (List.subset_append_right l rest)
  cases v with
  | nil =>
      rw [List.append_nil] at hrest
      exact ⟨rest, ⟨l, [], by simp, hl ▸ hu, by simp⟩, hrest⟩
  | cons c v =>
      have hc : Text.isWordChar c = false := hv c rfl
      obtain ⟨qs, r, rfl, hqs, hr⟩ := exists_cut_at hkeyed hc hrest
      refine ⟨qs, ⟨l, .verbatim c :: r, rfl, hl ▸ hu, ?_⟩, hqs⟩
      intro d hd
      cases hd
      exact hc

/-- Pieces cut around a call. -/
structure Cut (ps : List Piece) (s : CallSite) where
  before : List Piece
  name : List Piece
  args : List Piece
  after : List Piece
  pieces : before ++ (name ++ (.verbatim '(' :: (args ++ (.verbatim ')' :: after)))) = ps
  shown_before : shown before = s.before
  shown_name : shown name = s.name
  shown_args : shown args = s.args
  shown_after : shown after = s.after

/-- The pieces of the call. -/
def Cut.call {ps : List Piece} {s : CallSite} (cut : Cut ps s) : List Piece :=
  cut.name ++ (.verbatim '(' :: (cut.args ++ [.verbatim ')']))

/-- The pieces after the call is reduced to a placeholder. -/
def Cut.replace {ps : List Piece} {s : CallSite} (cut : Cut ps s) (key : Text) : List Piece :=
  cut.before ++ .reduced key (source cut.call) :: cut.after

section Cuts

variable {ps : List Piece} {s : CallSite} (cut : Cut ps s)

theorem Cut.pieces_call : cut.before ++ (cut.call ++ cut.after) = ps := by
  have := cut.pieces
  simpa [Cut.call] using this

theorem Cut.shown_replace (key : Text) : shown (cut.replace key) = s.replace key := by
  simp only [Cut.replace, shown_append, shown_cons, cut.shown_before, cut.shown_after]
  rfl

/-- Reduction does not change what was submitted. -/
theorem Cut.source_replace (key : Text) : source (cut.replace key) = source ps := by
  have := congrArg source cut.pieces_call
  simpa [Cut.replace, Piece.source] using this

/-- The submitted text of a call ends with its parenthesis. -/
theorem Cut.source_call : (source cut.call).getLast? = some ')' := by
  simp only [Cut.call, source_append, source_cons, source_nil, Piece.source]
  rw [List.append_nil, List.singleton_append, ← List.cons_append, ← List.append_assoc,
    List.getLast?_concat]

theorem Cut.shown_call : (shown cut.call).getLast? = some ')' := by
  simp only [Cut.call, shown_append, shown_cons, shown_nil, Piece.shown]
  rw [List.append_nil, List.singleton_append, ← List.cons_append, ← List.append_assoc,
    List.getLast?_concat]

theorem Cut.verbatim_replace {key t : Text} (h : Verbatim (cut.replace key) t) :
    Verbatim cut.before t ∨ Verbatim cut.after t :=
  verbatim_replaced h

theorem Cut.verbatim_before {t : Text} (h : Verbatim cut.before t) : Verbatim ps t :=
  h.trans ⟨[], cut.call ++ cut.after, cut.pieces_call⟩

theorem Cut.verbatim_after {t : Text} (h : Verbatim cut.after t) : Verbatim ps t :=
  h.trans ⟨cut.before ++ cut.call, [], by rw [List.append_nil, List.append_assoc, cut.pieces_call]⟩

end Cuts

/-- Pieces can be cut around a call that they show. -/
theorem exists_cut {ps : List Piece} (hps : Keyed ps) {s : CallSite} (hs : s.IsCall)
    (h : shown ps = s.line) : Nonempty (Cut ps s) := by
  have hopen : shown ps = (s.before ++ s.name) ++ '(' :: (s.args ++ ')' :: s.after) := by
    rw [h, CallSite.line, List.append_assoc]
  obtain ⟨front, back, rfl, hfront, hback⟩ := exists_cut_at hps (by decide) hopen
  obtain ⟨args, after, rfl, hargs, hafter⟩ := exists_cut_at
    (hps.sub fun x hx => by simp [hx]) (by decide) hback
  -- what stands before the name ends in no word
  obtain ⟨before, name, rfl, hbefore, hname⟩ := exists_split
    (hps.sub (List.subset_append_left _ _)) hs.whole hfront
  exact ⟨⟨before, name, args, after, by simp, hbefore, hname, hargs, hafter⟩⟩

end Weave

end CommandConsole

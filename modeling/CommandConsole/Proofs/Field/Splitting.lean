import CommandConsole.Field
import CommandConsole.Proofs.Text.Trimming

set_option autoImplicit false

/-!
# Where fields are cut

A text is cut at the commas of depth zero and nowhere else.  `Solid` texts have no such comma, so
they stay in one piece (`pieces_append`); `Whole` texts have none at any depth and leave the depth
as it was, so a comma after one of them cuts (`pieces_comma`).  Texts without brackets and commas
are whole, and brackets around a list of whole texts make a whole text again.
-/

namespace CommandConsole.Field

/-- The depth after a text. -/
def depthOver (depth : Nat) (t : Text) : Nat := t.foldl depthAfter depth

@[simp] theorem depthOver_nil (d : Nat) : depthOver d [] = d := rfl

@[simp] theorem depthOver_cons (d : Nat) (c : Char) (t : Text) :
    depthOver d (c :: t) = depthOver (depthAfter d c) t := rfl

@[simp] theorem depthOver_append (d : Nat) (s t : Text) :
    depthOver d (s ++ t) = depthOver (depthOver d s) t := List.foldl_append

/-- The text has no comma of depth zero when it starts at the given depth. -/
def Solid : Nat → Text → Prop
  | _, [] => True
  | d, c :: rest => ¬ (c = ',' ∧ d = 0) ∧ Solid (depthAfter d c) rest

theorem solid_append {s t : Text} {d : Nat} (hs : Solid d s) (ht : Solid (depthOver d s) t) :
    Solid d (s ++ t) := by
  induction s generalizing d with
  | nil => exact ht
  | cons c s ih => exact ⟨hs.1, ih hs.2 ht⟩

/-! ## Pieces of solid texts -/

theorem pieces_ne_nil (d : Nat) (t : Text) : pieces d t ≠ [] := by
  cases t with
  | nil => simp [pieces]
  | cons c rest =>
      unfold pieces
      split
      · simp
      · cases pieces (depthAfter d c) rest <;> simp [consFirst]

theorem consFirst_eq_modifyHead (c : Char) {ps : List Text} (h : ps ≠ []) :
    consFirst c ps = ps.modifyHead (c :: ·) := by
  cases ps with
  | nil => exact absurd rfl h
  | cons p rest => rfl

/-- A solid text goes into one piece. -/
theorem pieces_append {d : Nat} {s : Text} (hs : Solid d s) (t : Text) :
    pieces d (s ++ t) = (pieces (depthOver d s) t).modifyHead (s ++ ·) := by
  induction s generalizing d with
  | nil => cases h : pieces d t <;> simp [h]
  | cons c s ih =>
      rw [List.cons_append, pieces, if_neg hs.1, consFirst_eq_modifyHead c (pieces_ne_nil _ _),
        ih hs.2, List.modifyHead_modifyHead]
      rfl

theorem pieces_of_solid {s : Text} (hs : Solid 0 s) : pieces 0 s = [s] := by
  have := pieces_append hs []
  simpa [pieces] using this

/-! ## Whole texts -/

/-- The text has no comma of depth zero at any depth, and it leaves the depth as it was. -/
structure Whole (t : Text) : Prop where
  solid : ∀ d, Solid d t
  level : ∀ d, depthOver d t = d

/-- The text is one between brackets: at any depth but zero it has no comma of depth zero and
leaves the depth as it was. -/
structure Enclosed (t : Text) : Prop where
  solid : ∀ d, Solid (d + 1) t
  level : ∀ d, depthOver (d + 1) t = d + 1

theorem Whole.enclosed {t : Text} (h : Whole t) : Enclosed t :=
  ⟨fun d => h.solid (d + 1), fun d => h.level (d + 1)⟩

theorem Whole.append {s t : Text} (hs : Whole s) (ht : Whole t) : Whole (s ++ t) where
  solid d := solid_append (hs.solid d) (ht.solid _)
  level d := by rw [depthOver_append, hs.level, ht.level]

/-- A comma between two texts does not cut between brackets. -/
theorem Enclosed.comma {s t : Text} (hs : Enclosed s) (ht : Enclosed t) :
    Enclosed (s ++ ',' :: t) where
  solid d := by
    refine solid_append (hs.solid d) ?_
    rw [hs.level]
    exact ⟨by simp, ht.solid d⟩
  level d := by
    rw [depthOver_append, hs.level, depthOver_cons]
    exact ht.level d

/-- Square brackets make a whole text of what may stand between them. -/
theorem Enclosed.bracket {t : Text} (h : Enclosed t) : Whole ('[' :: (t ++ [']'])) where
  solid d := by
    refine ⟨by simp, solid_append (h.solid d) ?_⟩
    rw [show depthAfter d '[' = d + 1 from rfl, h.level]
    exact ⟨by simp, trivial⟩
  level d := by
    rw [depthOver_cons, depthOver_append, show depthAfter d '[' = d + 1 from rfl, h.level]
    rfl

/-- The characters that fields are cut at and that change the depth. -/
def isStructural (c : Char) : Bool :=
  c == '(' || c == ')' || c == '[' || c == ']' || c == ','

/-- The text has no bracket, parenthesis or comma. -/
def Plain (t : Text) : Prop := ∀ c ∈ t, isStructural c = false

instance (t : Text) : Decidable (Plain t) :=
  decidable_of_iff (t.all (fun c => !isStructural c) = true) (by simp [Plain])

theorem depthAfter_of_plain {c : Char} (h : isStructural c = false) (d : Nat) :
    depthAfter d c = d := by
  unfold depthAfter
  split <;> simp_all [isStructural]

theorem Plain.whole {t : Text} (h : Plain t) : Whole t := by
  have hstep : ∀ d, Solid d t ∧ depthOver d t = d := by
    induction t with
    | nil => exact fun d => ⟨trivial, rfl⟩
    | cons c rest ih =>
        intro d
        have hc := h c List.mem_cons_self
        obtain ⟨hsolid, hlevel⟩ := ih (fun e he => h e (List.mem_cons_of_mem _ he)) d
        have hcomma : c ≠ ',' := by
          rintro rfl
          simp [isStructural] at hc
        rw [depthOver_cons, depthAfter_of_plain hc]
        refine ⟨⟨fun hcut => hcomma hcut.1, ?_⟩, hlevel⟩
        rw [depthAfter_of_plain hc]
        exact hsolid
  exact ⟨fun d => (hstep d).1, fun d => (hstep d).2⟩

theorem Plain.append {s t : Text} (hs : Plain s) (ht : Plain t) : Plain (s ++ t) := by
  intro c hc
  rcases List.mem_append.1 hc with hc | hc
  · exact hs c hc
  · exact ht c hc

theorem isStructural_of_isBlank {c : Char} (h : Text.isBlank c = true) :
    isStructural c = false := by
  simp only [isStructural, Bool.or_eq_false_iff, beq_eq_false_iff_ne]
  refine ⟨⟨⟨⟨?_, ?_⟩, ?_⟩, ?_⟩, ?_⟩ <;>
  · rintro rfl
    revert h
    decide

theorem isStructural_of_isWordChar {c : Char} (h : Text.isWordChar c = true) :
    isStructural c = false := by
  simp only [isStructural, Bool.or_eq_false_iff, beq_eq_false_iff_ne]
  refine ⟨⟨⟨⟨?_, ?_⟩, ?_⟩, ?_⟩, ?_⟩ <;>
  · rintro rfl
    revert h
    decide

theorem plain_of_blank {t : Text} (h : Text.Blank t) : Plain t :=
  fun c hc => isStructural_of_isBlank (h c hc)

theorem plain_of_word {t : Text} (h : ∀ c ∈ t, Text.isWordChar c = true) : Plain t :=
  fun c hc => isStructural_of_isWordChar (h c hc)

/-- Plain text has no parenthesis. -/
theorem flat_of_plain {t : Text} (h : Plain t) : ∀ c ∈ t, c ≠ '(' ∧ c ≠ ')' := by
  intro c hc
  have := h c hc
  refine ⟨?_, ?_⟩ <;>
  · rintro rfl
    exact absurd this (by decide)

theorem flat_append {s t : Text} (hs : ∀ c ∈ s, c ≠ '(' ∧ c ≠ ')')
    (ht : ∀ c ∈ t, c ≠ '(' ∧ c ≠ ')') : ∀ c ∈ s ++ t, c ≠ '(' ∧ c ≠ ')' := by
  intro c hc
  rcases List.mem_append.1 hc with hc | hc
  · exact hs c hc
  · exact ht c hc

/-! ## Fields -/

/-- A text is cut at a comma of depth zero. -/
theorem pieces_append_comma {d : Nat} {u : Text} (h : depthOver d u = 0) (v : Text) :
    pieces d (u ++ ',' :: v) = pieces d u ++ pieces 0 v := by
  induction u generalizing d with
  | nil =>
      cases h
      rfl
  | cons c u ih =>
      rw [List.cons_append, pieces, pieces]
      split
      · rename_i hcut
        obtain ⟨rfl, rfl⟩ := hcut
        exact congrArg ([] :: ·) (ih h)
      · rw [ih h]
        obtain ⟨p, ps, hps⟩ := List.exists_cons_of_ne_nil (pieces_ne_nil (depthAfter d c) u)
        rw [hps]
        rfl

/-- A comma after a whole text cuts. -/
theorem pieces_comma {s : Text} (hs : Whole s) (t : Text) :
    pieces 0 (s ++ ',' :: t) = s :: pieces 0 t := by
  rw [pieces_append_comma (hs.level 0), pieces_of_solid (hs.solid 0)]
  rfl

theorem split_of_blank {t : Text} (h : Text.Blank t) : split t = [] :=
  if_pos ((Text.isAllBlank_iff t).2 h)

theorem split_of_not_blank {t : Text} (h : ¬ Text.Blank t) :
    split t = (pieces 0 t).map Text.trim :=
  if_neg fun hb => h ((Text.isAllBlank_iff t).1 hb)

/-- A field between margins is one field. -/
theorem split_margins {b b' t : Text} (hb : Text.Blank b) (hb' : Text.Blank b')
    (ht : Whole t) (hink : ¬ Text.Blank t) :
    split (b ++ (t ++ b')) = [Text.trim t] := by
  have hwhole := (plain_of_blank hb).whole.append
    (ht.append (plain_of_blank hb').whole)
  have hne : ¬ Text.Blank (b ++ (t ++ b')) := by
    intro h
    apply hink
    intro c hc
    exact h c (by simp [hc])
  rw [split_of_not_blank hne, pieces_of_solid (hwhole.solid 0), List.map_singleton,
    Text.trim_margins hb hb']

/-- The first field ends at the comma after it. -/
theorem split_comma {b b' t u : Text} (hb : Text.Blank b) (hb' : Text.Blank b')
    (ht : Whole t) (hink : ¬ Text.Blank t) (hu : ¬ Text.Blank u) :
    split (b ++ (t ++ (b' ++ ',' :: u))) = Text.trim t :: split u := by
  have hwhole := (plain_of_blank hb).whole.append
    (ht.append (plain_of_blank hb').whole)
  have hne : ¬ Text.Blank (b ++ (t ++ (b' ++ ',' :: u))) := by
    intro h
    apply hink
    intro c hc
    exact h c (by simp [hc])
  have hshape : b ++ (t ++ (b' ++ ',' :: u)) = (b ++ (t ++ b')) ++ ',' :: u := by
    simp
  rw [split_of_not_blank hne, hshape, pieces_comma hwhole, List.map_cons,
    Text.trim_margins hb hb', split_of_not_blank hu]

end CommandConsole.Field

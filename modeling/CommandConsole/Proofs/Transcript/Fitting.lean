import CommandConsole.Proofs.Transcript.Keeping

set_option autoImplicit false

/-!
# Transcripts that evict nothing

As long as nothing is evicted (`Fits`), the lines that acts leave are settled by the lines from
before and by the acts alone: without a clearing they are the lines from before and all that was
pushed, and with one they are what was pushed since the last one.

Whether a line fits depends on what is there already.  A transcript is ahead of another one if it
has used at least as much of the same budget (`Ahead`).  Whatever fits into it fits into the other
one too, and it stays ahead when it gets lines that the other one does not.
-/

namespace CommandConsole

namespace Transcript

variable {t t' : Transcript} {line : Line} {lines : List Line} {acts acts' : List Act}

/-! ## Lines without evictions -/

/-- The lines after an act, if it evicts none. -/
def Act.after (lines : List Line) : Act → List Line
  | clear => []
  | act => lines ++ act.lines

/-- Acts, one after the other, evict nothing. -/
def Fits : List Act → Transcript → Prop
  | [], _ => True
  | act :: acts, t => (act.perform t).lines = act.after t.lines ∧ Fits acts (act.perform t)

instance decidableFits : ∀ (acts : List Act) (t : Transcript), Decidable (Fits acts t)
  | [], _ => inferInstanceAs (Decidable True)
  | act :: acts, t =>
    have := decidableFits acts (act.perform t)
    inferInstanceAs (Decidable (_ ∧ _))

theorem fits_append :
    Fits (acts ++ acts') t ↔ Fits acts t ∧ Fits acts' (acts.foldl Act.perform t) := by
  induction acts generalizing t with
  | nil => exact (and_iff_right trivial).symm
  | cons act acts ih => simp only [List.cons_append, Fits, ih, and_assoc, List.foldl_cons]

theorem Act.after_of_ne {act : Act} (h : act ≠ .clear) (lines : List Line) :
    act.after lines = lines ++ act.lines := by
  cases act with
  | clear => exact absurd rfl h
  | push line | extend added | takeUnread => rfl

theorem lines_of_fits (h : Fits acts t) :
    (acts.foldl Act.perform t).lines = acts.foldl Act.after t.lines := by
  induction acts generalizing t with
  | nil => rfl
  | cons act acts ih => rw [List.foldl_cons, List.foldl_cons, ih h.2, h.1]

theorem Does.lines_of_fits (h : Does acts t t') (hfits : Fits acts t) :
    t'.lines = acts.foldl Act.after t.lines := by
  obtain ⟨scroll, rfl⟩ := h
  exact Transcript.lines_of_fits hfits

/-- Acts that do not clear add what they push. -/
theorem foldl_after_of_not_mem (h : .clear ∉ acts) (lines : List Line) :
    acts.foldl Act.after lines = lines ++ pushed acts := by
  induction acts generalizing lines with
  | nil => exact (List.append_nil lines).symm
  | cons act acts ih =>
      rw [List.mem_cons, not_or] at h
      have hpushed : pushed (act :: acts) = act.lines ++ pushed acts := List.flatMap_cons
      rw [List.foldl_cons, ih h.2, Act.after_of_ne (Ne.symm h.1), hpushed, List.append_assoc]

/-- Acts that clear leave what they push since then. -/
theorem foldl_after_of_mem (h : .clear ∈ acts) (lines : List Line) :
    acts.foldl Act.after lines = pushed (since .clear acts) := by
  induction acts using List.reverseRecOn with
  | nil => cases h
  | append_singleton acts act ih =>
      rw [List.foldl_concat]
      by_cases hact : act = .clear
      · rw [hact, since_concat_self]
        rfl
      · have hmem : .clear ∈ acts := by simpa [Ne.symm hact] using h
        rw [ih hmem, Act.after_of_ne hact, since_concat hact, pushed_append, pushed_singleton]

/-! ## When a line fits -/

theorem evict_suffix (budget : Nat) (lines : List Line) (characters : Nat) :
    (evict budget lines characters).1 <:+ lines := by
  fun_induction evict budget lines characters with
  | case1 line next rest characters hover ih => exact ih.trans (List.suffix_cons ..)
  | case2 line next rest characters hle => exact List.suffix_rfl
  | case3 lines characters hshort => exact List.suffix_rfl

theorem lines_push_suffix (line : Line) (t : Transcript) :
    (t.push line).lines <:+ t.lines ++ [line] :=
  evict_suffix ..

theorem lines_extend_suffix (lines : List Line) (t : Transcript) :
    (t.extend lines).lines <:+ t.lines ++ lines := by
  induction lines generalizing t with
  | nil => rw [List.append_nil]; exact List.suffix_rfl
  | cons line lines ih =>
      have hpush : (t.push line).lines ++ lines <:+ t.lines ++ [line] ++ lines :=
        List.suffix_append_self_iff.2 (lines_push_suffix line t)
      rw [List.append_assoc] at hpush
      exact (ih (t.push line)).trans hpush

/-- A line fits exactly if it is the only one or within the budget. -/
theorem lines_push_eq_iff :
    (t.push line).lines = t.lines ++ [line] ↔
      t.lines = [] ∨ t.characters + line.cost ≤ t.maxCharacters := by
  constructor
  · intro hfits
    -- an eviction drops at least the first line, and then the lines are too few
    by_contra hover
    rw [not_or, Nat.not_le] at hover
    obtain ⟨hne, hover⟩ := hover
    obtain ⟨first, rest, hlines⟩ := List.exists_cons_of_ne_nil hne
    obtain ⟨next, more, hmore⟩ := List.exists_cons_of_ne_nil (l := rest ++ [line]) (by simp)
    have hevict : (t.push line).lines <:+ rest ++ [line] := by
      change (evict _ (t.lines ++ [line]) _).1 <:+ _
      rw [hlines, List.cons_append, hmore, evict, if_pos hover]
      exact evict_suffix ..
    have hlength := hevict.length_le
    rw [hfits, hlines, List.cons_append, List.length_cons] at hlength
    exact Nat.not_succ_le_self _ hlength
  · rintro (hnil | hle)
    · change (evict _ (t.lines ++ [line]) _).1 = _
      rw [hnil]
      rfl
    · rw [push_of_le hle]

/-- The account of a line that fits. -/
theorem characters_push (h : (t.push line).lines = t.lines ++ [line]) :
    (t.push line).characters = t.characters + line.cost := by
  rcases lines_push_eq_iff.1 h with hnil | hle
  · change (evict _ (t.lines ++ [line]) _).2 = _
    rw [hnil]
    rfl
  · rw [push_of_le hle]

/-- Lines fit exactly if the first fits and then the others do. -/
theorem lines_extend_cons_eq_iff :
    (t.extend (line :: lines)).lines = t.lines ++ line :: lines ↔
      (t.push line).lines = t.lines ++ [line] ∧
        ((t.push line).extend lines).lines = (t.push line).lines ++ lines := by
  constructor
  · intro hfits
    change ((t.push line).extend lines).lines = _ at hfits
    have hfirst : (t.push line).lines = t.lines ++ [line] := by
      refine (lines_push_suffix line t).eq_of_length_le ?_
      have hlength := (lines_extend_suffix lines (t.push line)).length_le
      rw [hfits] at hlength
      simp only [List.length_append, List.length_cons, List.length_nil] at hlength ⊢
      omega
    exact ⟨hfirst, by rw [hfits, hfirst, List.append_assoc, List.singleton_append]⟩
  · rintro ⟨hfirst, hrest⟩
    rw [hfirst, List.append_assoc, List.singleton_append] at hrest
    exact hrest

/-! ## A transcript that is ahead -/

/-- The first transcript has used at least as much of the same budget as the second. -/
structure Ahead (t' t : Transcript) : Prop where
  maxCharacters : t'.maxCharacters = t.maxCharacters
  characters : t.characters ≤ t'.characters
  nil : t'.lines = [] → t.lines = []

namespace Ahead

theorem refl (t : Transcript) : t.Ahead t := ⟨rfl, Nat.le_refl _, id⟩

/-- A line that fits into the first fits into the second. -/
theorem push (h : t'.Ahead t) (hfits : (t'.push line).lines = t'.lines ++ [line]) :
    (t.push line).lines = t.lines ++ [line] ∧ (t'.push line).Ahead (t.push line) := by
  have hfits' : (t.push line).lines = t.lines ++ [line] := by
    refine lines_push_eq_iff.2 ((lines_push_eq_iff.1 hfits).imp h.nil fun hle => ?_)
    have hchars := h.characters
    rw [h.maxCharacters] at hle
    omega
  refine ⟨hfits', h.maxCharacters, ?_, fun hnil => ?_⟩
  · rw [characters_push hfits, characters_push hfits']
    exact Nat.add_le_add_right h.characters _
  · rw [hfits] at hnil
    exact absurd hnil (List.concat_ne_nil _ _)

theorem extend (h : t'.Ahead t) (hfits : (t'.extend lines).lines = t'.lines ++ lines) :
    (t.extend lines).lines = t.lines ++ lines ∧ (t'.extend lines).Ahead (t.extend lines) := by
  induction lines generalizing t t' with
  | nil => exact ⟨(List.append_nil _).symm, h⟩
  | cons line lines ih =>
      obtain ⟨hfirst, hrest⟩ := lines_extend_cons_eq_iff.1 hfits
      obtain ⟨hfirst', hpush⟩ := h.push hfirst
      obtain ⟨hrest', hextend⟩ := ih hpush hrest
      exact ⟨lines_extend_cons_eq_iff.2 ⟨hfirst', hrest'⟩, hextend⟩

theorem perform (h : t'.Ahead t) {act : Act} (hfits : (act.perform t').lines = act.after t'.lines) :
    (act.perform t).lines = act.after t.lines ∧ (act.perform t').Ahead (act.perform t) := by
  cases act with
  | push line => exact h.push hfits
  | extend lines => exact h.extend hfits
  | clear => exact ⟨rfl, h.maxCharacters, Nat.le_refl 0, fun _ => rfl⟩
  | takeUnread => exact ⟨(List.append_nil _).symm, h.maxCharacters, h.characters, h.nil⟩

/-- Acts that fit into the first fit into the second. -/
theorem foldl (h : t'.Ahead t) (hfits : Fits acts t') :
    Fits acts t ∧ (acts.foldl Act.perform t').Ahead (acts.foldl Act.perform t) := by
  induction acts generalizing t t' with
  | nil => exact ⟨trivial, h⟩
  | cons act acts ih =>
      obtain ⟨hact, hperform⟩ := h.perform hfits.1
      obtain ⟨hacts, hfoldl⟩ := ih hperform hfits.2
      exact ⟨⟨hact, hacts⟩, hfoldl⟩

/-- The first stays ahead when only it gets lines. -/
theorem extend_left (h : t'.Ahead t) (hfits : (t'.extend lines).lines = t'.lines ++ lines) :
    (t'.extend lines).Ahead t := by
  induction lines generalizing t' with
  | nil => exact h
  | cons line lines ih =>
      obtain ⟨hfirst, hrest⟩ := lines_extend_cons_eq_iff.1 hfits
      refine ih ⟨h.maxCharacters, ?_, fun hnil => ?_⟩ hrest
      · rw [characters_push hfirst]
        exact Nat.le_add_right_of_le h.characters
      · rw [hfirst] at hnil
        exact absurd hnil (List.concat_ne_nil _ _)

end Ahead

end Transcript

end CommandConsole

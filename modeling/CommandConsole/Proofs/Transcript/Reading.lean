import CommandConsole.Proofs.Transcript.Retention

set_option autoImplicit false

/-!
# Reading a transcript

The lines of a run are numbered in the order in which they are pushed, and no number is used again.
Evictions and clearings take lines away from the front, so what is retained are always the last of
all lines, from some number on (`lines_run`).  The transcript itself has no numbers: it keeps the
mere count of unread lines, which an eviction caps and later lines raise again.  Nevertheless the
count is always that of the retained lines since the last reading (`unread_run`), so that each of
them is read once, and a line is missed only if it is gone before the next reading (`readsOnce`).
-/

namespace CommandConsole

namespace Transcript

open Line (totalCost)

/-! ## Numbers -/

/-- The lines that acts push, with their numbers. -/
def numbered (acts : List Act) : List (Line × Nat) := (pushed acts).zipIdx

/-- The number of the first line since the last act of a kind. -/
def firstSince (mark : Act) (acts : List Act) : Nat :=
  (pushed acts).length - (pushed (since mark acts)).length

/-- The number of the first line that is retained. -/
def firstRetained (budget : Nat) (acts : List Act) : Nat :=
  (pushed acts).length - (run budget acts).lines.length

/-- The retained lines that were pushed since the last reading. -/
def unreadLines (budget : Nat) (acts : List Act) : List (Line × Nat) :=
  (numbered acts).filter fun x =>
    firstRetained budget acts ≤ x.2 ∧ firstSince .takeUnread acts ≤ x.2

theorem filter_zipIdx {α : Type} (l : List α) (i k : Nat) :
    ((l.zipIdx i).filter fun x => i + k ≤ x.2) = (l.zipIdx i).drop k := by
  induction l generalizing i k with
  | nil => rw [List.zipIdx_nil, List.filter_nil, List.drop_nil]
  | cons a l ih =>
      cases k with
      | zero =>
          rw [List.drop_zero, List.filter_eq_self]
          exact fun x hx => decide_eq_true (List.le_snd_of_mem_zipIdx hx)
      | succ k =>
          have hrest := ih (i + 1) k
          rw [List.zipIdx_cons, List.filter_cons_of_neg (by simp), List.drop_succ_cons,
            ← hrest]
          refine List.filter_congr fun x _ => ?_
          rw [show i + (k + 1) = i + 1 + k by omega]

theorem filter_numbered (acts : List Act) (k : Nat) :
    ((numbered acts).filter fun x => k ≤ x.2) = (numbered acts).drop k := by
  have hfilter := filter_zipIdx (pushed acts) 0 k
  simp only [Nat.zero_add] at hfilter
  exact hfilter

theorem unreadLines_eq_drop (budget : Nat) (acts : List Act) :
    unreadLines budget acts =
      (numbered acts).drop (max (firstRetained budget acts) (firstSince .takeUnread acts)) := by
  rw [← filter_numbered]
  simp only [unreadLines, Nat.max_le]

theorem map_fst_drop_numbered (acts : List Act) (k : Nat) :
    ((numbered acts).drop k).map Prod.fst = (pushed acts).drop k := by
  rw [List.map_drop, numbered, List.zipIdx_map_fst]

theorem length_since_le (mark : Act) (acts : List Act) :
    (pushed (since mark acts)).length ≤ (pushed acts).length :=
  (pushed_since_suffix mark acts).length_le

/-- What came before an act is not since it. -/
theorem since_append_cons (mark : Act) (acts later : List Act) :
    since mark (acts ++ mark :: later) = since mark later := by
  induction later using List.reverseRecOn with
  | nil => exact since_concat_self mark acts
  | append_singleton later act ih =>
      rw [← List.cons_append, ← List.append_assoc]
      by_cases hact : act = mark
      · rw [hact, since_concat_self, since_concat_self]
      · rw [since_concat hact, since_concat hact, ih]

theorem length_le_firstSince (mark : Act) (acts later : List Act) :
    (pushed acts).length ≤ firstSince mark (acts ++ mark :: later) := by
  have hlater := length_since_le mark later
  have hsplit : pushed (acts ++ mark :: later) = pushed acts ++ (mark.lines ++ pushed later) := by
    rw [pushed_append]
    rfl
  rw [firstSince, since_append_cons, hsplit, List.length_append, List.length_append]
  omega

/-! ## The lines and their count -/

/-- The retained lines are the last of all. -/
theorem lines_suffix (budget : Nat) (acts : List Act) :
    (run budget acts).lines <:+ pushed acts :=
  (retained_run budget acts).isSuffix.trans (pushed_since_suffix .clear acts)

theorem lines_run (budget : Nat) (acts : List Act) :
    (run budget acts).lines = (pushed acts).drop (firstRetained budget acts) :=
  List.suffix_iff_eq_drop.1 (lines_suffix budget acts)

/-- A line more is unread, as far as there are lines. -/
theorem unread_push {t : Transcript} (ht : t.Sound) {n : Nat}
    (h : t.unread = min n t.lines.length) (line : Line) :
    (t.push line).unread = min (n + 1) (t.push line).lines.length := by
  obtain ⟨kept, hkept, hpush, -⟩ := exists_push ht line
  have hlength := hkept.isSuffix.length_le
  rw [List.length_append, List.length_singleton] at hlength
  rw [hpush]
  dsimp only
  omega

theorem unread_extend {t : Transcript} (ht : t.Sound) {n : Nat}
    (h : t.unread = min n t.lines.length) (lines : List Line) :
    (t.extend lines).unread = min (n + lines.length) (t.extend lines).lines.length := by
  induction lines generalizing t n with
  | nil => exact h
  | cons line lines ih =>
      have hrest := ih (ht.push line) (unread_push ht h line)
      rwa [Nat.add_right_comm] at hrest

/-- The count of unread lines is that of the lines since the last reading, as far as they are
retained. -/
theorem unread_run (budget : Nat) (acts : List Act) :
    (run budget acts).unread =
      min (pushed (since .takeUnread acts)).length (run budget acts).lines.length := by
  induction acts using List.reverseRecOn with
  | nil => rfl
  | append_singleton acts act ih =>
      have ht := sound_run budget acts
      rw [run_concat]
      cases act with
      | takeUnread =>
          rw [since_concat_self]
          exact (Nat.zero_min _).symm
      | push line =>
          rw [since_concat (by simp), pushed_append, pushed_singleton, List.length_append]
          exact unread_push ht ih line
      | extend lines =>
          rw [since_concat (by simp), pushed_append, pushed_singleton, List.length_append]
          exact unread_extend ht ih lines
      | clear => exact (Nat.min_zero _).symm

/-- The unread lines begin at the first number that is retained and not read. -/
theorem length_sub_unread (budget : Nat) (acts : List Act) :
    (pushed acts).length - (run budget acts).unread =
      max (firstRetained budget acts) (firstSince .takeUnread acts) := by
  have hlines := (lines_suffix budget acts).length_le
  have hsince := length_since_le .takeUnread acts
  rw [unread_run, firstRetained, firstSince]
  omega

/-! ## Readings -/

/-- What is true of a reading after acts on an empty transcript. -/
structure ReadsOnce (budget : Nat) (acts : List Act) : Prop where
  /-- The transcript has the lines from a number on. -/
  retained : (run budget acts).lines =
    ((numbered acts).filter fun x => firstRetained budget acts ≤ x.2).map Prod.fst
  /-- It returns, in order, the retained lines that were pushed since the last reading. -/
  reads : (run budget acts).takeUnread.1 = (unreadLines budget acts).map Prod.fst
  /-- These are as many as the transcript counts. -/
  unread : (run budget acts).unread = (unreadLines budget acts).length
  unread_le : (run budget acts).unread ≤ (run budget acts).lines.length
  /-- The subtraction does not go below zero. -/
  exact : (run budget acts).takeUnread? = some (run budget acts).takeUnread
  /-- No later reading returns any of them again. -/
  once : ∀ later, ∀ x ∈ unreadLines budget acts,
    x ∉ unreadLines budget (acts ++ .takeUnread :: later)
  /-- A line since the last reading is missed only if a clearing removed it, or if it is not the
  newest and the lines from it on exceed the budget. -/
  missed : ∀ x ∈ numbered acts, firstSince .takeUnread acts ≤ x.2 → x ∉ unreadLines budget acts →
    x.2 < firstSince .clear acts ∨
      x.2 + 1 < (pushed acts).length ∧ budget < totalCost ((pushed acts).drop x.2)

/-- A number since the last clearing is retained unless newer lines use up the budget. -/
theorem evicted_of_lt_firstRetained {budget : Nat} {acts : List Act} {i : Nat}
    (hclear : firstSince .clear acts ≤ i) (hgone : i < firstRetained budget acts) :
    i + 1 < (pushed acts).length ∧ budget < totalCost ((pushed acts).drop i) := by
  have hretained := retained_run budget acts
  have hlength := length_since_le .clear acts
  rw [firstSince] at hclear
  rw [firstRetained] at hgone
  have hdrop : (pushed acts).drop i <:+ pushed (since .clear acts) := by
    refine List.suffix_of_suffix_length_le (List.drop_suffix i _)
      (pushed_since_suffix .clear acts) ?_
    rw [List.length_drop]
    omega
  refine ⟨?_, ?_⟩
  · -- the newest line is retained
    have hne : pushed (since .clear acts) ≠ [] := by
      apply List.ne_nil_of_length_pos
      omega
    have hpos := List.length_pos_iff.2 (hretained.newest hne)
    omega
  · by_contra hcost
    have hkept := (hretained.longest _ hdrop (Nat.not_lt.1 hcost)).length_le
    rw [List.length_drop] at hkept
    omega

/-- Every reading of every run returns the retained lines since the reading before, each line is
read once, and only lines that are gone by the next reading are missed. -/
theorem readsOnce (budget : Nat) (acts : List Act) : ReadsOnce budget acts where
  retained := by rw [filter_numbered, map_fst_drop_numbered, lines_run]
  reads := by
    have hlines := (lines_suffix budget acts).length_le
    have hunread := (sound_run budget acts).unread_le
    have hfirst : firstRetained budget acts +
        ((run budget acts).lines.length - (run budget acts).unread) =
          (pushed acts).length - (run budget acts).unread := by
      rw [firstRetained]
      omega
    calc (run budget acts).takeUnread.1
        = ((pushed acts).drop (firstRetained budget acts)).drop
            ((run budget acts).lines.length - (run budget acts).unread) := by
          rw [← lines_run]
          rfl
      _ = (pushed acts).drop ((pushed acts).length - (run budget acts).unread) := by
          rw [List.drop_drop, hfirst]
      _ = (unreadLines budget acts).map Prod.fst := by
          rw [unreadLines_eq_drop, map_fst_drop_numbered, length_sub_unread]
  unread := by
    have hlines := (lines_suffix budget acts).length_le
    have hunread := (sound_run budget acts).unread_le
    rw [unreadLines_eq_drop, ← length_sub_unread, numbered, List.length_drop, List.length_zipIdx]
    omega
  unread_le := (sound_run budget acts).unread_le
  exact := (sound_run budget acts).takeUnread?
  once later x hx hagain := by
    have hlt := List.snd_lt_of_mem_zipIdx (List.mem_filter.1 hx).1
    have hle := length_le_firstSince .takeUnread acts later
    have hnew := (of_decide_eq_true (List.mem_filter.1 hagain).2).2
    omega
  missed x hx hsince hmissed := by
    have hgone : x.2 < firstRetained budget acts := by
      by_contra hkept
      exact hmissed (List.mem_filter.2 ⟨hx, decide_eq_true ⟨Nat.not_lt.1 hkept, hsince⟩⟩)
    rcases Nat.lt_or_ge x.2 (firstSince .clear acts) with hclear | hclear
    · exact Or.inl hclear
    · exact Or.inr (evicted_of_lt_firstRetained hclear hgone)

end Transcript

end CommandConsole

import CommandConsole.Proofs.Field.Parts

set_option autoImplicit false

/-!
# Joined fields

Fields that are joined by commas, with any blanks around these, are split again into the same
fields.  It takes no more than that a field is trimmed and nested: within it every closing bracket
has an opening one before it, none stays open, and a comma stands between brackets only; the kinds
of bracket do not matter.  A single empty field alone is lost, since a blank text has no field.

Conversely every text that is not blank is joined from pieces, and these are cut at all commas of
depth zero and at no others (`splitsJoined`).
-/

namespace CommandConsole.Field

open Text (Blank Trimmed join)

/-! ## Nested texts -/

/-- Number of opening brackets and parentheses. -/
def openers (t : Text) : Nat := t.countP fun c => c == '(' || c == '['

/-- Number of closing brackets and parentheses. -/
def closers (t : Text) : Nat := t.countP fun c => c == ')' || c == ']'

/-- The brackets of the text are nested, and its commas stand between them. -/
structure Nested (f : Text) : Prop where
  /-- A bracket is opened before it is closed. -/
  opened : ∀ u, u <+: f → closers u ≤ openers u
  /-- No bracket stays open. -/
  closed : openers f ≤ closers f
  /-- A bracket is open at every comma. -/
  commas : ∀ u v, f = u ++ ',' :: v → closers u < openers u

theorem nested_iff {f : Text} :
    Nested f ↔ (∀ i ≤ f.length, closers (f.take i) ≤ openers (f.take i)) ∧
      openers f ≤ closers f ∧
        ∀ i < f.length, f[i]? = some ',' → closers (f.take i) < openers (f.take i) := by
  constructor
  · intro h
    refine ⟨fun i _ => h.opened _ (List.take_prefix i f), h.closed, fun i _ hi => ?_⟩
    obtain ⟨hlt, hcomma⟩ := List.getElem?_eq_some_iff.1 hi
    apply h.commas _ (f.drop (i + 1))
    rw [← hcomma, List.getElem_cons_drop, List.take_append_drop]
  · rintro ⟨hopened, hclosed, hcommas⟩
    refine ⟨fun u hu => ?_, hclosed, ?_⟩
    · rw [List.prefix_iff_eq_take.1 hu]
      exact hopened u.length hu.length_le
    · rintro u v rfl
      simpa using hcommas u.length (by simp) (by simp)

instance (f : Text) : Decidable (Nested f) := decidable_of_iff _ nested_iff.symm

@[simp]
theorem openers_append (s t : Text) : openers (s ++ t) = openers s + openers t :=
  List.countP_append

@[simp]
theorem closers_append (s t : Text) : closers (s ++ t) = closers s + closers t :=
  List.countP_append

theorem depthAfter_add_closers {c : Char} {d : Nat} (h : closers [c] ≤ d + openers [c]) :
    depthAfter d c + closers [c] = d + openers [c] := by
  unfold depthAfter
  split
  · rfl
  · rfl
  · exact Nat.sub_add_cancel h
  · exact Nat.sub_add_cancel h
  · rename_i hround hsquare hround' hsquare'
    have hopener : openers [c] = 0 := by
      simpa [openers] using ⟨hround, hsquare⟩
    have hcloser : closers [c] = 0 := by
      simpa [closers] using ⟨hround', hsquare'⟩
    rw [hopener, hcloser]

/-- The depth is the number of brackets that are open, if none is closed before it is opened. -/
theorem depthOver_add_closers {t : Text} {d : Nat}
    (h : ∀ u, u <+: t → closers u ≤ d + openers u) :
    depthOver d t + closers t = d + openers t := by
  induction t generalizing d with
  | nil => rfl
  | cons c t ih =>
      have hc := depthAfter_add_closers (h [c] (List.prefix_append [c] t))
      have ht := @ih (depthAfter d c) fun u hu => by
        have hcu := h ([c] ++ u) (List.prefix_append_right_inj [c] |>.2 hu)
        rw [openers_append, closers_append] at hcu
        omega
      have hopeners := openers_append [c] t
      have hclosers := closers_append [c] t
      rw [List.singleton_append] at hopeners hclosers
      rw [depthOver_cons]
      omega

theorem solid_iff {t : Text} {d : Nat} :
    Solid d t ↔ ∀ u v, t = u ++ ',' :: v → depthOver d u ≠ 0 := by
  induction t generalizing d with
  | nil =>
      refine iff_of_true trivial fun u v h => ?_
      simp at h
  | cons c t ih =>
      rw [Solid, ih]
      constructor
      · rintro ⟨hc, ht⟩ u v h
        cases u with
        | nil =>
            obtain ⟨rfl, -⟩ := List.cons.inj h
            exact fun hd => hc ⟨rfl, hd⟩
        | cons b u =>
            obtain ⟨rfl, hrest⟩ := List.cons.inj h
            exact ht u v hrest
      · intro h
        refine ⟨?_, fun u v ht => h (c :: u) v (congrArg (c :: ·) ht)⟩
        rintro ⟨rfl, hd⟩
        exact h [] t rfl hd

namespace Nested

variable {f : Text} (h : Nested f)
include h

theorem depthOver_of_prefix {u : Text} (hu : u <+: f) : depthOver 0 u + closers u = openers u := by
  have hdepth := depthOver_add_closers (d := 0) (t := u) fun v hv => by
    rw [Nat.zero_add]
    exact h.opened v (hv.trans hu)
  rwa [Nat.zero_add] at hdepth

theorem level : depthOver 0 f = 0 := by
  have hdepth := h.depthOver_of_prefix List.prefix_rfl
  have hclosed := h.closed
  omega

theorem solid : Solid 0 f := by
  rw [solid_iff]
  rintro u v rfl
  have hdepth := h.depthOver_of_prefix (List.prefix_append u _)
  have hcomma := h.commas u v rfl
  omega

end Nested

/-! ## Cuts -/

/-- The pieces are cut at the comma between two texts. -/
def CutAt (ps : List Text) (u v : Text) : Prop :=
  ∃ l r, ps = l ++ r ∧ l ≠ [] ∧ r ≠ [] ∧ join [','] l = u ∧ join [','] r = v

/-- The first piece ends with the text, or at a comma of depth zero. -/
theorem eq_nil_or_of_pieces {d : Nat} {t p : Text} {ps : List Text} (h : pieces d t = p :: ps) :
    ps = [] ∨ ∃ rest, t = p ++ ',' :: rest ∧ depthOver d p = 0 ∧ ps = pieces 0 rest := by
  induction t generalizing d p with
  | nil =>
      cases h
      exact Or.inl rfl
  | cons c t ih =>
      unfold pieces at h
      split at h
      · rename_i hcut
        obtain ⟨rfl, rfl⟩ := hcut
        cases h
        exact Or.inr ⟨t, rfl, rfl, rfl⟩
      · obtain ⟨q, qs, hqs⟩ := List.exists_cons_of_ne_nil (pieces_ne_nil (depthAfter d c) t)
        rw [hqs, consFirst] at h
        cases h
        rcases ih hqs with hnil | ⟨rest, rfl, hdepth, hps⟩
        · exact Or.inl hnil
        · exact Or.inr ⟨rest, rfl, hdepth, hps⟩

/-- Before a cut the depth is zero. -/
theorem depthOver_join {d : Nat} {t : Text} {l r : List Text} (h : pieces d t = l ++ r)
    (hl : l ≠ []) (hr : r ≠ []) : depthOver d (join [','] l) = 0 := by
  induction l generalizing d t with
  | nil => exact absurd rfl hl
  | cons p l ih =>
      rcases eq_nil_or_of_pieces h with hnil | ⟨rest, -, hdepth, hps⟩
      · exact absurd (List.append_eq_nil_iff.1 hnil).2 hr
      · by_cases hl' : l = []
        · rw [hl']
          exact hdepth
        · rw [Text.join_cons _ _ hl', List.append_assoc, depthOver_append, hdepth]
          exact ih hps.symm hl'

/-- The pieces of a text are cut at its commas of depth zero, and at no others. -/
theorem cutAt_pieces_iff {d : Nat} {u v : Text} :
    CutAt (pieces d (u ++ ',' :: v)) u v ↔ depthOver d u = 0 := by
  constructor
  · rintro ⟨l, r, hps, hl, hr, rfl, -⟩
    exact depthOver_join hps hl hr
  · intro h
    exact ⟨pieces d u, pieces 0 v, pieces_append_comma h v, pieces_ne_nil d u, pieces_ne_nil 0 v,
      join_pieces d u, join_pieces 0 v⟩

/-! ## Joined fields -/

/-- The fields stand one after the other in the text, with commas between them and any blanks
around these. -/
inductive Joins : List Text → Text → Prop where
  | single (f : Text) : Joins [f] f
  | cons (f : Text) {fs : List Text} {b d t : Text} (hb : Blank b) (hd : Blank d)
      (h : Joins fs t) : Joins (f :: fs) (f ++ (b ++ ',' :: (d ++ t)))

theorem Nested.margins {b f b' : Text} (hb : Blank b) (hf : Nested f) (hb' : Blank b') :
    Solid 0 (b ++ (f ++ b')) ∧ depthOver 0 (b ++ (f ++ b')) = 0 := by
  have hbefore := (plain_of_blank hb).whole
  have hafter := (plain_of_blank hb').whole
  refine ⟨solid_append (hbefore.solid 0) ?_, ?_⟩
  · rw [hbefore.level]
    exact solid_append hf.solid (hafter.solid _)
  · rw [depthOver_append, depthOver_append, hbefore.level, hf.level, hafter.level]

namespace Joins

variable {fs : List Text} {t : Text}

/-- The pieces of joined fields are the fields with their blanks. -/
theorem map_trim_pieces (h : Joins fs t) (hfs : ∀ f ∈ fs, Trimmed f ∧ Nested f) {m : Text}
    (hm : Blank m) : (pieces 0 (m ++ t)).map Text.trim = fs := by
  induction h generalizing m with
  | single f =>
      obtain ⟨htrimmed, hnested⟩ := hfs f List.mem_cons_self
      obtain ⟨hsolid, -⟩ := hnested.margins hm Text.blank_nil
      have htrim := Text.trim_of_trimmed htrimmed hm Text.blank_nil
      rw [List.append_nil] at hsolid htrim
      rw [pieces_of_solid hsolid, List.map_singleton, htrim]
  | @cons f fs b b' t hb hb' _ ih =>
      obtain ⟨htrimmed, hnested⟩ := hfs f List.mem_cons_self
      obtain ⟨hsolid, hlevel⟩ := hnested.margins hm hb
      have hrest := ih (fun g hg => hfs g (List.mem_cons_of_mem f hg)) hb'
      have hcut : m ++ (f ++ (b ++ ',' :: (b' ++ t))) = (m ++ (f ++ b)) ++ ',' :: (b' ++ t) := by
        simp
      rw [hcut, pieces_append_comma hlevel, pieces_of_solid hsolid, List.singleton_append,
        List.map_cons, Text.trim_of_trimmed htrimmed hm hb, hrest]

theorem not_blank (h : Joins fs t) (hfs : ∀ f ∈ fs, Trimmed f) (hne : fs ≠ [[]]) :
    ¬ Blank t := by
  intro hblank
  cases h with
  | single =>
      cases t with
      | nil => exact hne rfl
      | cons c t =>
          have hc := (hfs (c :: t) List.mem_cons_self).first c rfl
          rw [hblank c List.mem_cons_self] at hc
          cases hc
  | cons f hb hb' h =>
      have hcomma : Text.isBlank ',' = false := by decide
      exact hblank.not_mem hcomma (by simp)

/-- Joined fields are split again. -/
theorem split_eq (h : Joins fs t) (hfs : ∀ f ∈ fs, Trimmed f ∧ Nested f) (hne : fs ≠ [[]]) :
    split t = fs := by
  have hblank := h.not_blank (fun f hf => (hfs f hf).1) hne
  rw [split_of_not_blank hblank]
  exact h.map_trim_pieces hfs Text.blank_nil

end Joins

/-! ## Both ways -/

/-- The pieces are those of the text. -/
structure CutOf (t : Text) (ps : List Text) : Prop where
  join : join [','] ps = t
  fields : ps.map Text.trim = split t
  /-- The commas of depth zero are the cuts. -/
  cuts : ∀ u v, t = u ++ ',' :: v → (CutAt ps u v ↔ depthOver 0 u = 0)

theorem cutOf_pieces {t : Text} (h : ¬ Blank t) : CutOf t (pieces 0 t) where
  join := join_pieces 0 t
  fields := (split_of_not_blank h).symm
  cuts := by
    rintro u v rfl
    exact cutAt_pieces_iff

/-- Splitting undoes joining, and every text that is not blank is joined from the pieces that its
fields are trimmed from. -/
theorem splitsJoined :
    (∀ fs t, Joins fs t → (∀ f ∈ fs, Trimmed f ∧ Nested f) → fs ≠ [[]] → split t = fs) ∧
      ∀ t, ¬ Blank t → ∃ ps, CutOf t ps :=
  ⟨fun _ _ h hfs hne => h.split_eq hfs hne, fun t h => ⟨pieces 0 t, cutOf_pieces h⟩⟩

/-- Splitting keeps a comma between brackets of different kinds and an empty field. -/
theorem splitsJoined_nested :
    split "f([a, b) ] ,, 2".toList = ["f([a, b) ]".toList, [], "2".toList] :=
  splitsJoined.1 _ _
    (.cons "f([a, b) ]".toList (b := [' ']) (d := []) (by decide) (by decide)
      (.cons [] (b := []) (d := [' ']) (by decide) (by decide) (.single "2".toList)))
    (by decide) (by decide)

end CommandConsole.Field

import CommandConsole.Proofs.Reduction.Trail

set_option autoImplicit false

/-!
# Placeholders that stand alone

A placeholder stands in the line once, and no other stretch of the line spells it (`Distinct`), so
it is asked for only where it stands, and its value waits until then (`Waiting`).  Hence a field
that is a placeholder and nothing else is handed the value: it is never read as text
(`exists_turn`).
-/

namespace CommandConsole

/-- The placeholder that a piece is. -/
def Piece.key? : Piece → Option Text
  | .verbatim _ => none
  | .reduced key _ => some key

namespace Weave

/-- The placeholders in pieces. -/
def keys (ps : List Piece) : List Text := ps.filterMap Piece.key?

@[simp] theorem keys_append (ps qs : List Piece) : keys (ps ++ qs) = keys ps ++ keys qs :=
  List.filterMap_append

theorem mem_keys {ps : List Piece} {key src : Text} (h : .reduced key src ∈ ps) :
    key ∈ keys ps :=
  List.mem_filterMap.2 ⟨_, h, rfl⟩

theorem exists_of_mem_keys {ps : List Piece} {key : Text} (h : key ∈ keys ps) :
    ∃ src, .reduced key src ∈ ps := by
  obtain ⟨x, hx, hkey⟩ := List.mem_filterMap.1 h
  cases x with
  | verbatim c => cases hkey
  | reduced key src =>
      cases hkey
      exact ⟨src, hx⟩

/-- No placeholder stands twice, and a stretch that spells one is that placeholder. -/
structure Distinct (ps : List Piece) : Prop where
  once : (keys ps).Nodup
  alone : ∀ qs key src, .reduced key src ∈ ps → Stands qs ps → shown qs = key →
    qs = [.reduced key src]

theorem distinct_quote (t : Text) : Distinct (quote t) := by
  refine ⟨?_, fun _ _ _ hm => absurd hm reduced_not_mem_quote⟩
  have hkeys : keys (quote t) = [] := by
    refine List.filterMap_eq_nil_iff.2 fun x hx => ?_
    obtain ⟨c, -, rfl⟩ := List.mem_map.1 hx
    rfl
  rw [hkeys]
  exact List.nodup_nil

theorem eq_nil_of_shown {ps : List Piece} (hps : Keyed ps) (h : shown ps = []) : ps = [] := by
  cases ps with
  | nil => rfl
  | cons x ps =>
      rw [shown_cons, List.append_eq_nil_iff] at h
      cases x with
      | verbatim c => cases h.1
      | reduced key src => exact absurd h.1 (hps key src List.mem_cons_self).1

theorem key_isInfix {ps : List Piece} {key src : Text} (h : .reduced key src ∈ ps) :
    key <:+: shown ps := by
  obtain ⟨l, r, rfl⟩ := List.append_of_mem h
  exact ⟨shown l, shown r, by rw [shown_append, shown_cons, List.append_assoc]; rfl⟩

/-- Pieces that show no more than one of them are that piece. -/
theorem eq_singleton_of_shown {a b : List Piece} {key src : Text}
    (hps : Keyed (a ++ .reduced key src :: b)) (h : shown (a ++ .reduced key src :: b) = key) :
    a ++ .reduced key src :: b = [.reduced key src] := by
  have hlength := congrArg List.length h
  simp only [shown_append, shown_cons, Piece.shown, List.length_append] at hlength
  have ha : shown a = [] := List.length_eq_zero_iff.1 (by omega)
  have hb : shown b = [] := List.length_eq_zero_iff.1 (by omega)
  rw [eq_nil_of_shown (hps.sub (List.subset_append_left a _)) ha,
    eq_nil_of_shown (hps.sub fun x hx => by simp [hx]) hb]
  rfl

/-! ## Stretches that are words -/

theorem Cut.stands_args {ps : List Piece} {s : CallSite} (cut : Cut ps s) :
    Stands cut.args ps := by
  refine ⟨cut.before ++ (cut.name ++ [.verbatim '(']), .verbatim ')' :: cut.after, ?_, ?_, ?_⟩
  · refine cut.pieces.symm.trans ?_
    simp
  · intro c hc
    rw [shown_append, shown_append, ← List.append_assoc] at hc
    have hopen : '(' = c := by simpa [Piece.shown] using hc
    exact hopen ▸ Text.isWordChar_open
  · intro c hc
    cases hc
    exact Text.isWordChar_close

/-- A word before a text that does not end in one stands apart from what follows. -/
theorem Stands.left {qs l : List Piece} (h : Stands qs l) (hne : shown qs ≠ [])
    (hword : ∀ c ∈ shown qs, Text.isWordChar c = true)
    (hl : ∀ c, (shown l).getLast? = some c → Text.isWordChar c = false) (r : List Piece) :
    Stands qs (l ++ r) := by
  obtain ⟨a, b, rfl, ha, hb⟩ := h
  refine ⟨a, b ++ r, by simp, ha, ?_⟩
  intro c hc
  rw [shown_append, List.head?_append] at hc
  cases hhead : (shown b).head? with
  | some d =>
      rw [hhead] at hc
      cases hc
      exact hb c hhead
  | none =>
      rw [List.head?_eq_none_iff] at hhead
      have hlast := List.getLast?_eq_some_getLast hne
      have hend := hl ((shown qs).getLast hne) (by simp [hhead, hlast])
      rw [hword _ (List.getLast_mem hne)] at hend
      cases hend

section

variable {ps : List Piece} {s : CallSite} {cut : Cut ps s} {key : Text}

/-- A placeholder of the line after a reduction is the new one or was there before. -/
theorem Cut.mem_replace {x src : Text} (h : .reduced x src ∈ cut.replace key) :
    (.reduced x src ∈ cut.before ++ cut.after) ∨ (x = key ∧ src = source cut.call) := by
  rcases List.mem_append.1 h with h | h
  · exact Or.inl (List.mem_append_left _ h)
  · rcases List.mem_cons.1 h with h | h
    · cases h
      exact Or.inr ⟨rfl, rfl⟩
    · exact Or.inl (List.mem_append_right _ h)

theorem Cut.mem_of_mem_sides {x : Piece} (h : x ∈ cut.before ++ cut.after) : x ∈ ps := by
  rw [← cut.pieces_call]
  rcases List.mem_append.1 h with h | h
  · exact List.mem_append_left _ h
  · exact List.mem_append_right _ (List.mem_append_right _ h)

/-- A stretch on one side of the placeholder stood in the line before. -/
theorem Cut.stands_of_replace {qs : List Piece} (hkeyed : Keyed (cut.replace key))
    (h : Stands qs (cut.replace key)) :
    (∃ a b, qs = a ++ .reduced key (source cut.call) :: b) ∨
      (Stands qs ps ∧ (qs <:+: cut.before ∨ qs <:+: cut.after)) := by
  obtain ⟨l, r, hcut, hl, hr⟩ := h
  obtain ⟨hne, hword, -⟩ := hkeyed key (source cut.call) (by simp [Cut.replace])
  rcases exists_side hcut.symm with hholds | ⟨n, hbefore, hrest⟩ | ⟨m, hafter, hfront⟩
  · exact Or.inl hholds
  · refine Or.inr ⟨⟨l, n ++ (cut.call ++ cut.after), ?_, hl, ?_⟩, Or.inl ⟨l, n, ?_⟩⟩
    · refine cut.pieces_call.symm.trans ?_
      rw [hbefore]
      simp
    · subst hrest
      rw [shown_append] at hr ⊢
      exact Text.head_apart hne hword hr _
    · rw [hbefore, List.append_assoc]
  · refine Or.inr ⟨⟨cut.before ++ (cut.call ++ m), r, ?_, ?_, hr⟩, Or.inr ⟨m, r, ?_⟩⟩
    · refine cut.pieces_call.symm.trans ?_
      rw [hafter]
      simp
    · subst hfront
      rw [List.append_cons, shown_append] at hl
      rw [← List.append_assoc, shown_append]
      refine Text.last_apart (fun c hc => ?_) fun c hc => hl c ?_
      · rw [shown_append, List.getLast?_append, cut.shown_call] at hc
        cases hc
        exact Text.isWordChar_close
      · rw [List.getLast?_append, hc]
        rfl
    · rw [hafter, List.append_assoc]

/-- The new placeholder is no part of another. -/
theorem Cut.not_isInfix_key (hbefore : ¬ key <:+: shown cut.before)
    (hafter : ¬ key <:+: shown cut.after) {x src : Text}
    (hm : .reduced x src ∈ cut.before ++ cut.after) : ¬ key <:+: x := by
  intro hpart
  rcases List.mem_append.1 hm with hm | hm
  · exact hbefore (hpart.trans (key_isInfix hm))
  · exact hafter (hpart.trans (key_isInfix hm))

theorem Distinct.once_replace (h : Distinct ps) (hbefore : ¬ key <:+: shown cut.before)
    (hafter : ¬ key <:+: shown cut.after) : (keys (cut.replace key)).Nodup := by
  have hkeys : keys (cut.replace key) = keys cut.before ++ key :: keys cut.after := by
    rw [Cut.replace, keys_append]
    rfl
  have hsides : (keys cut.before ++ keys cut.after).Nodup := by
    have honce := h.once
    rw [← cut.pieces_call, keys_append, keys_append] at honce
    exact ((List.Sublist.refl _).append (List.sublist_append_right _ _)).nodup honce
  rw [hkeys, List.nodup_middle, List.nodup_cons]
  refine ⟨?_, hsides⟩
  intro hm
  rw [← keys_append] at hm
  obtain ⟨src, hm⟩ := exists_of_mem_keys hm
  exact cut.not_isInfix_key hbefore hafter hm (List.infix_refl key)

theorem Distinct.alone_replace (h : Distinct ps) (hkeyed : Keyed (cut.replace key))
    (hbefore : ¬ key <:+: shown cut.before) (hafter : ¬ key <:+: shown cut.after)
    {qs : List Piece} {x src : Text} (hm : .reduced x src ∈ cut.replace key)
    (hqs : Stands qs (cut.replace key)) (hshown : shown qs = x) : qs = [.reduced x src] := by
  rcases cut.mem_replace hm with hold | ⟨rfl, rfl⟩
  · -- the stretch spells an old placeholder, so it does not hold the new one
    have hnew := cut.not_isInfix_key hbefore hafter hold
    rcases cut.stands_of_replace hkeyed hqs with ⟨a, b, rfl⟩ | ⟨hstands, -⟩
    · exact absurd (hshown ▸ key_isInfix (List.mem_append_right a List.mem_cons_self)) hnew
    · exact h.alone qs x src (Cut.mem_of_mem_sides hold) hstands hshown
  · -- the stretch spells the new one, which stands nowhere beside the call
    rcases cut.stands_of_replace hkeyed hqs with ⟨a, b, rfl⟩ | ⟨-, hside⟩
    · exact eq_singleton_of_shown (hkeyed.sub hqs.isInfix.subset) hshown
    · have hspelled : ∀ {side : List Piece}, qs <:+: side → x <:+: shown side := by
        rintro side ⟨l, r, rfl⟩
        exact ⟨shown l, shown r, by rw [shown_append, shown_append, hshown]⟩
      rcases hside with hside | hside
      · exact absurd (hspelled hside) hbefore
      · exact absurd (hspelled hside) hafter

/-- A reduction keeps the placeholders distinct, if the new one occurs nowhere else. -/
theorem Distinct.replace (h : Distinct ps) (hkeyed : Keyed (cut.replace key))
    (hbefore : ¬ key <:+: shown cut.before) (hafter : ¬ key <:+: shown cut.after) :
    Distinct (cut.replace key) :=
  ⟨h.once_replace hbefore hafter, fun _ _ _ hm hqs hshown =>
    h.alone_replace hkeyed hbefore hafter hm hqs hshown⟩

/-- A placeholder beside a call is none of its arguments. -/
theorem Distinct.not_mem_args (h : Distinct ps) {src src' : Text}
    (hside : .reduced key src ∈ cut.before ++ cut.after) : .reduced key src' ∉ cut.args := by
  intro hargs
  have honce := h.once
  rw [← cut.pieces_call, Cut.call] at honce
  simp only [keys_append] at honce
  have hinner : key ∈ keys (.verbatim '(' :: (cut.args ++ [.verbatim ')'])) :=
    mem_keys (List.mem_cons_of_mem _ (List.mem_append_left _ hargs))
  rcases List.mem_append.1 hside with hside | hside
  · exact (List.nodup_append.1 honce).2.2 key (mem_keys hside) key (by simp [hinner]) rfl
  · exact (List.nodup_append.1 (List.nodup_append.1 honce).2.1).2.2 key (by simp [hinner]) key
      (mem_keys hside) rfl

end

end Weave

/-! ## Values that wait -/

open Weave (Cut Stands Distinct Keyed)

/-- Reading fields does not change what waits under a key that is none of their parts. -/
theorem Pending.find?_readFields {fields : List Text} {key : Text}
    (h : ∀ f ∈ fields, ∀ g, g.ApartIn f → g ≠ key) (p : Pending) :
    find? key (Literal.readFields take fields p).2 = find? key p :=
  Literal.readFields_invariant (I := fun q => find? key q = find? key p) fields
    (fun f hf g hg q hq => (find?_take_of_ne (h f hf g hg) q).trans hq) rfl

/-- The placeholders of a line are distinct, and a value waits under each. -/
structure Waiting (t : Trail) (r : Reduction) : Prop where
  distinct : Distinct t.pieces
  waits : ∀ key src, .reduced key src ∈ t.pieces → Pending.find? key r.pending ≠ none

section

variable {line : Text} {t : Trail} {r : Reduction} {s : Reduction.Step}

/-- Only where a placeholder stands among the arguments is it a part of a field. -/
theorem Waiting.mem_of_apartIn (h : Waiting t r) (hw : Woven line t r) {args : List Piece}
    (hargs : Stands args t.pieces) {key src : Text} (hm : .reduced key src ∈ t.pieces)
    (hapart : key.ApartIn (Weave.shown args)) : .reduced key src ∈ args := by
  obtain ⟨qs, hqs, hshown⟩ :=
    Weave.exists_stretch (hw.keyed.sub hargs.isInfix.subset) hapart
  have halone := h.distinct.alone qs key src hm (hqs.trans hargs) hshown
  exact hqs.isInfix.subset (halone ▸ List.mem_singleton_self _)

/-- A step keeps the placeholders distinct and their values waiting. -/
theorem Waiting.next (h : Waiting t r) (hw : Woven line t r) (hs : r.step? = some s) (v : Value)
    (cut : Cut t.pieces s.site) :
    Waiting
      { pieces := cut.replace (Placeholder.choose s.site s.pending)
        stored := (Placeholder.choose s.site s.pending, v) :: t.stored
        handed := t.handed ++ r.handed s }
      (s.resume v) := by
  have hnext := hw.next hs v cut
  obtain ⟨hbefore, hafter⟩ := Placeholder.not_isInfix_choose s.site s.pending
  refine ⟨h.distinct.replace hnext.keyed (cut.shown_before ▸ hbefore)
    (cut.shown_after ▸ hafter), ?_⟩
  intro key src hm
  have hfind := Pending.find?_cons key (Placeholder.choose s.site s.pending, v) s.pending
  by_cases hkey : Placeholder.choose s.site s.pending = key
  · rw [if_pos hkey] at hfind
    simp [Reduction.Step.resume, hfind]
  · rw [if_neg hkey] at hfind
    rcases cut.mem_replace hm with hside | ⟨rfl, -⟩
    · have hmem := Cut.mem_of_mem_sides hside
      have hkept : Pending.find? key s.pending = Pending.find? key r.pending := by
        have hother : ∀ f ∈ Field.split s.site.args, ∀ g, g.ApartIn f → g ≠ key := by
          rintro f hf g hg rfl
          have hargs := hg.trans (Field.apartIn_of_mem_split hf)
          exact h.distinct.not_mem_args hside
            (h.mem_of_apartIn hw cut.stands_args hmem (cut.shown_args ▸ hargs))
        have hread := Pending.find?_readFields hother r.pending
        rwa [Reduction.readFields_of_step? hs] at hread
      have hwaits := h.waits key src hmem
      rw [← hkept, ← hfind] at hwaits
      exact hwaits
    · exact absurd rfl hkey

theorem waiting_of_trails (h : Trails line t r) : Waiting t r := by
  induction h with
  | start =>
      exact ⟨Weave.distinct_quote line, fun _ _ hm => absurd hm Weave.reduced_not_mem_quote⟩
  | next v cut ht hs ih => exact ih.next (woven_of_trails ht) hs v cut

theorem Waiting.exists_alone (h : Waiting t r) (hw : Woven line t r) (cut : Cut t.pieces s.site)
    {i : Nat} {f : Text} (hf : (Field.split s.site.args)[i]? = some f) :
    ∃ qs, Stands qs cut.args ∧ Weave.shown qs = f ∧ ∀ key src, qs = [.reduced key src] →
      Pending.find? f (Literal.readFields Pending.take ((Field.split s.site.args).take i)
        r.pending).2 ≠ none := by
  have hargs := cut.stands_args
  have hkeyed := hw.keyed.sub hargs.isInfix.subset
  obtain ⟨u, v, huv, hu, hearlier, hapart⟩ := Field.exists_before hf
  obtain ⟨l, rest, hcut, hl, hrest⟩ := Weave.exists_split hkeyed hu (cut.shown_args.trans huv)
  have hright : Stands rest cut.args := ⟨l, [], by rw [hcut, List.append_nil], hl ▸ hu, by simp⟩
  obtain ⟨qs, hqs, hshown⟩ :=
    Weave.exists_stretch (hkeyed.sub hright.isInfix.subset) (hrest ▸ hapart)
  refine ⟨qs, hqs.trans hright, hshown, ?_⟩
  rintro key src rfl
  obtain rfl : key = f := by simpa [Piece.shown] using hshown
  have hmem : .reduced key src ∈ rest := hqs.isInfix.subset (List.mem_singleton_self _)
  have hline : .reduced key src ∈ t.pieces :=
    hargs.isInfix.subset (hright.isInfix.subset hmem)
  obtain ⟨hne, hword, -⟩ := hw.keyed key src hline
  rw [Pending.find?_readFields ?_ r.pending]
  · exact h.waits key src hline
  · -- an earlier field with that part would be a second place of the placeholder
    rintro g hg g' hg' rfl
    have hfront := hg'.trans (hearlier g hg)
    obtain ⟨ps, hps, hspelled⟩ := Weave.exists_stretch
      (hkeyed.sub (hcut ▸ List.subset_append_left l rest)) (hl ▸ hfront)
    have hstands : Stands ps cut.args :=
      hcut ▸ hps.left (hspelled ▸ hne) (hspelled ▸ hword) (hl ▸ hu) rest
    have halone := h.distinct.alone ps _ src hline (hstands.trans hargs) hspelled
    have hleft : .reduced g' src ∈ l := hps.isInfix.subset (halone ▸ List.mem_singleton_self _)
    have honce : (Weave.keys cut.args).Nodup :=
      (hargs.isInfix.sublist.filterMap Piece.key?).nodup h.distinct.once
    rw [hcut, Weave.keys_append] at honce
    exact (List.nodup_append.1 honce).2.2 g' (Weave.mem_keys hleft) g' (Weave.mem_keys hmem) rfl

/-- The turn of a field: its value is read from values that still wait then, and a stretch of the
call shows it; if that is a placeholder alone, then a value waits under it. -/
theorem Trails.exists_turn (ht : Trails line t r) (hs : r.step? = some s)
    (cut : Cut t.pieces s.site) {i : Nat} {f : Text}
    (hf : (Field.split s.site.args)[i]? = some f) :
    ∃ p qs, List.Sublist p r.pending ∧
      s.args[i]? = some (Literal.answered Pending.take f p).1 ∧
      Stands qs cut.args ∧ Weave.shown qs = f ∧
      ∀ key src, qs = [.reduced key src] → Pending.find? f p ≠ none := by
  obtain ⟨qs, hqs, hshown, halone⟩ :=
    (waiting_of_trails ht).exists_alone (woven_of_trails ht) cut hf
  have hvalue := Literal.getElem?_readFields Pending.take hf r.pending
  rw [Reduction.readFields_of_step? hs] at hvalue
  have hfewer := Literal.readFields_invariant (I := fun q => List.Sublist q r.pending)
    ((Field.split s.site.args).take i)
    (fun _ _ g _ q hq => (Pending.take_sublist g q).trans hq) (List.Sublist.refl r.pending)
  exact ⟨_, qs, hfewer, hvalue, hqs, hshown, halone⟩

end

end CommandConsole

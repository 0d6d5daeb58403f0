import CommandConsole.Text.Rule

set_option autoImplicit false

/-!
# What rules leave

A rule leaves an end of the text (`Leaves`), and the rules that are repeated leave a shorter one
(`Shortens`).  The repetitions look whether something was read before they go on, so that they come
to an end with any rule.  With rules of these kinds there always was: the repetitions are what they
would be without looking (`all_eq`, `upTo_eq`, `separatedBy_eq`).
-/

namespace CommandConsole.Text

/-! ## Ends of texts -/

/-- An end of a text that is not all of it. -/
structure ProperEnd (rest t : Text) : Prop where
  isSuffix : rest <:+ t
  length_lt : rest.length < t.length

namespace ProperEnd

variable {rest mid t : Text}

theorem cons (h : rest <:+ t) (c : Char) : ProperEnd rest (c :: t) :=
  ⟨h.trans (List.suffix_cons c t), Nat.lt_succ_of_le h.length_le⟩

theorem trans_suffix (h : ProperEnd rest mid) (h' : mid <:+ t) : ProperEnd rest t :=
  ⟨h.isSuffix.trans h', Nat.lt_of_lt_of_le h.length_lt h'.length_le⟩

theorem suffix_trans (h : rest <:+ mid) (h' : ProperEnd mid t) : ProperEnd rest t :=
  ⟨h.trans h'.isSuffix, Nat.lt_of_le_of_lt h.length_le h'.length_lt⟩

end ProperEnd

namespace Rule

variable {α β : Type} {rule part : Rule α} {stop : Rule β} {separator : Char}

/-- The rule leaves an end of the text. -/
def Leaves (rule : Rule α) : Prop :=
  ∀ t a rest, rule t = some (a, rest) → rest <:+ t

/-- The rule reads at least one character, and leaves an end of the text. -/
def Shortens (rule : Rule α) : Prop :=
  ∀ t a rest, rule t = some (a, rest) → ProperEnd rest t

theorem Shortens.leaves (h : rule.Shortens) : rule.Leaves :=
  fun t a rest ht => (h t a rest ht).isSuffix

theorem Leaves.map (h : rule.Leaves) (f : α → β) :
    Leaves fun t => (rule t).map fun p => (f p.1, p.2) := by
  intro t b rest ht
  obtain ⟨⟨a, rest⟩, hrule, heq⟩ := Option.map_eq_some_iff.1 ht
  cases heq
  exact h t a rest hrule

theorem Shortens.map (h : rule.Shortens) (f : α → β) :
    Shortens fun t => (rule t).map fun p => (f p.1, p.2) := by
  intro t b rest ht
  obtain ⟨⟨a, rest⟩, hrule, heq⟩ := Option.map_eq_some_iff.1 ht
  cases heq
  exact h t a rest hrule

/-! ## Repetition to the end of the text -/

/-- A rule that leaves less of every text may be repeated without looking. -/
theorem all_eq (hrule : ∀ t a rest, t ≠ [] → rule t = some (a, rest) → rest.length < t.length)
    {t : Text} (ht : t ≠ []) :
    all rule t = (rule t).bind fun p => (all rule p.2).map (p.1 :: ·) := by
  have hfull : ¬ t.isEmpty = true := by simpa using ht
  rw [all, if_neg hfull]
  cases h : rule t with
  | none => rfl
  | some p => exact dif_pos (hrule t p.1 p.2 ht h)

/-! ## Repetition up to a stop -/

theorem upTo_eq (hpart : part.Shortens) {t : Text} (ht : stop t = none) :
    upTo stop part t = (part t).bind fun p =>
      (upTo stop part p.2).map fun q => ((p.1 :: q.1.1, q.1.2), q.2) := by
  rw [upTo, ht]
  cases h : part t with
  | none => rfl
  | some p => exact dif_pos (hpart t p.1 p.2 h).length_lt

theorem upTo_leaves (hstop : stop.Leaves) (hpart : part.Leaves) : Leaves (upTo stop part) := by
  intro t
  fun_induction upTo stop part t with
  | case1 t b rest hb =>
      intro a rest' h
      cases h
      exact hstop t b rest hb
  | case2 => nofun
  | case3 t _ a rest ha _ ih =>
      intro as rest' h
      obtain ⟨q, hq, heq⟩ := Option.map_eq_some_iff.1 h
      cases heq
      exact (ih q.1 q.2 hq).trans (hpart t a rest ha)
  | case4 => nofun

/-! ## Repetition with separators -/

theorem separatedBy_eq (hrule : rule.Leaves) (t : Text) :
    separatedBy separator rule t = (rule t).bind fun
      | (a, []) => some ([a], [])
      | (a, c :: rest) =>
        if c = separator then
          (separatedBy separator rule rest).map fun q => (a :: q.1, q.2)
        else some ([a], c :: rest) := by
  rw [separatedBy]
  cases h : rule t with
  | none => rfl
  | some p =>
      obtain ⟨a, _ | ⟨c, rest⟩⟩ := p
      · rfl
      · have hshorter : rest.length < t.length := (hrule t a (c :: rest) h).length_le
        simp only [Option.bind_some, dif_pos hshorter]

theorem separatedBy_leaves (hrule : rule.Leaves) : Leaves (separatedBy separator rule) := by
  intro t
  fun_induction separatedBy separator rule t with
  | case1 => nofun
  | case2 t a ha =>
      intro as rest h
      cases h
      exact hrule t a [] ha
  | case3 t a rest _ ha ih =>
      intro as rest' h
      obtain ⟨q, hq, heq⟩ := Option.map_eq_some_iff.1 h
      cases heq
      exact (ih q.1 q.2 hq).trans ((List.suffix_cons _ rest).trans (hrule t a _ ha))
  | case4 => nofun
  | case5 t a c rest ha _ =>
      intro as rest' h
      cases h
      exact hrule t a (c :: rest) ha

/-- A list with separators is shorter if its first part is. -/
theorem separatedBy_shortens (hrule : rule.Shortens) :
    Shortens (separatedBy separator rule) := by
  intro t as rest h
  rw [separatedBy_eq hrule.leaves] at h
  obtain ⟨⟨a, rest₁⟩, ha, h⟩ := Option.bind_eq_some_iff.1 h
  refine ProperEnd.suffix_trans ?_ (hrule t a rest₁ ha)
  cases rest₁ with
  | nil =>
      cases h
      exact List.suffix_rfl
  | cons c rest₁ =>
      dsimp only at h
      split at h
      · obtain ⟨q, hq, heq⟩ := Option.map_eq_some_iff.1 h
        cases heq
        exact (separatedBy_leaves hrule.leaves rest₁ q.1 q.2 hq).trans (List.suffix_cons c rest₁)
      · cases h
        exact List.suffix_rfl

end Rule

end CommandConsole.Text

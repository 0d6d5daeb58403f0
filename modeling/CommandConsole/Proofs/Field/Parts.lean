import CommandConsole.Proofs.Field.Splitting

set_option autoImplicit false

/-!
# Where fields stand

The pieces of a text, joined by commas, are the text again (`join_pieces`), so a piece stands
between commas or the ends of the text, and a field between those and blanks.  None of them is a
word character: no word of the text runs over an end of a field (`apartIn_of_mem_split`).
-/

namespace CommandConsole

/-! ## Standing apart -/

namespace Text

/-- The text stands in another, and no word runs over an end of it. -/
def ApartIn (f t : Text) : Prop :=
  ∃ u v, t = u ++ (f ++ v) ∧ (∀ c, u.getLast? = some c → isWordChar c = false) ∧
    ∀ c, v.head? = some c → isWordChar c = false

theorem ApartIn.isInfix {f t : Text} (h : f.ApartIn t) : f <:+: t := by
  obtain ⟨u, v, rfl, -, -⟩ := h
  exact ⟨u, v, List.append_assoc u f v⟩

theorem ApartIn.refl (f : Text) : f.ApartIn f := ⟨[], [], by simp, by simp, by simp⟩

/-- No word ends a text whose parts both end in none. -/
theorem last_apart {u v : Text} (hu : ∀ c, u.getLast? = some c → isWordChar c = false)
    (hv : ∀ c, v.getLast? = some c → isWordChar c = false) :
    ∀ c, (u ++ v).getLast? = some c → isWordChar c = false := by
  intro c hc
  rw [List.getLast?_append, Option.or_eq_some_iff] at hc
  rcases hc with hc | ⟨-, hc⟩
  · exact hv c hc
  · exact hu c hc

/-- No word begins a text whose parts both begin with none. -/
theorem first_apart {u v : Text} (hu : ∀ c, u.head? = some c → isWordChar c = false)
    (hv : ∀ c, v.head? = some c → isWordChar c = false) :
    ∀ c, (u ++ v).head? = some c → isWordChar c = false := by
  intro c hc
  rw [List.head?_append, Option.or_eq_some_iff] at hc
  rcases hc with hc | ⟨-, hc⟩
  · exact hu c hc
  · exact hv c hc

theorem ApartIn.trans {f s t : Text} (h : f.ApartIn s) (h' : s.ApartIn t) : f.ApartIn t := by
  obtain ⟨u, v, rfl, hu, hv⟩ := h
  obtain ⟨u', v', rfl, hu', hv'⟩ := h'
  exact ⟨u' ++ u, v ++ v', by simp, last_apart hu' hu, first_apart hv hv'⟩

/-- If no word begins a text that goes on with a word, none begins it however it goes on. -/
theorem head_apart {u v key : Text} (hne : key ≠ []) (hword : ∀ c ∈ key, isWordChar c = true)
    (h : ∀ c, (u ++ (key ++ v)).head? = some c → isWordChar c = false) (w : Text) :
    ∀ c, (u ++ w).head? = some c → isWordChar c = false := by
  cases u with
  | nil =>
      obtain ⟨d, key, rfl⟩ := List.exists_cons_of_ne_nil hne
      have hd := h d rfl
      rw [hword d List.mem_cons_self] at hd
      cases hd
  | cons d u => exact h

/-- Blanks are no part of a word. -/
theorem apartIn_trim (t : Text) : (trim t).ApartIn t := by
  obtain ⟨b, b', ht, hb, hb'⟩ := exists_margins t
  refine ⟨b, b', ht, ?_, ?_⟩
  · intro c hc
    exact not_isWordChar_of_isBlank (hb c (List.mem_of_getLast? hc))
  · intro c hc
    exact not_isWordChar_of_isBlank (hb' c (List.mem_of_head? hc))

theorem join_cons (separator t : Text) {ts : List Text} (h : ts ≠ []) :
    join separator (t :: ts) = t ++ separator ++ join separator ts := by
  obtain ⟨s, ts, rfl⟩ := List.exists_cons_of_ne_nil h
  rfl

theorem join_append (separator : Text) {ts us : List Text} (ht : ts ≠ []) (hu : us ≠ []) :
    join separator (ts ++ us) = join separator ts ++ (separator ++ join separator us) := by
  induction ts with
  | nil => exact absurd rfl ht
  | cons t ts ih =>
      cases ts with
      | nil =>
          rw [List.singleton_append, join_cons _ _ hu, List.append_assoc]
          rfl
      | cons s ts =>
          rw [List.cons_append, join_cons _ _ (by simp), ih (List.cons_ne_nil s ts),
            join_cons _ _ (List.cons_ne_nil s ts)]
          simp

/-- Between commas every text stands apart. -/
theorem apartIn_join {p : Text} {ts : List Text} (h : p ∈ ts) : p.ApartIn (join [','] ts) := by
  induction ts with
  | nil => cases h
  | cons t ts ih =>
      cases ts with
      | nil =>
          rw [List.mem_singleton] at h
          subst h
          exact ⟨[], [], by simp [join], by simp, by simp⟩
      | cons s ts =>
          rw [join_cons _ _ (List.cons_ne_nil s ts)]
          rcases List.mem_cons.1 h with rfl | h
          · refine ⟨[], ',' :: join [','] (s :: ts), by simp, by simp, ?_⟩
            intro c hc
            cases hc
            exact isWordChar_comma
          · refine (ih h).trans ⟨t ++ [','], [], by simp, ?_, by simp⟩
            intro c hc
            rw [List.getLast?_concat] at hc
            cases hc
            exact isWordChar_comma

end Text

/-! ## Fields -/

namespace Field

open Text (ApartIn join)

theorem join_consFirst (separator : Text) (c : Char) {ps : List Text} (h : ps ≠ []) :
    join separator (consFirst c ps) = c :: join separator ps := by
  obtain ⟨p, ps, rfl⟩ := List.exists_cons_of_ne_nil h
  cases ps <;> rfl

/-- Cutting at commas loses nothing. -/
theorem join_pieces (d : Nat) (t : Text) : join [','] (pieces d t) = t := by
  induction t generalizing d with
  | nil => rfl
  | cons c rest ih =>
      unfold pieces
      split
      · rename_i hcut
        rw [Text.join_cons _ _ (pieces_ne_nil 0 rest), ih, hcut.1]
        rfl
      · rw [join_consFirst _ _ (pieces_ne_nil _ rest), ih]

theorem apartIn_of_mem_map_trim {f : Text} {ps : List Text} (h : f ∈ ps.map Text.trim) :
    f.ApartIn (join [','] ps) := by
  obtain ⟨p, hp, rfl⟩ := List.mem_map.1 h
  exact (Text.apartIn_trim p).trans (Text.apartIn_join hp)

/-- A field stands apart in the text. -/
theorem apartIn_of_mem_split {t f : Text} (h : f ∈ split t) : f.ApartIn t := by
  unfold split at h
  split at h
  · cases h
  · have hpiece := apartIn_of_mem_map_trim h
    rwa [join_pieces] at hpiece

/-- A field is trimmed. -/
theorem trim_of_mem_split {t f : Text} (h : f ∈ split t) : Text.trim f = f := by
  unfold split at h
  split at h
  · cases h
  · obtain ⟨p, -, rfl⟩ := List.mem_map.1 h
    exact Text.trim_trim p

/-- The text can be cut between a field and the fields before it. -/
theorem exists_before {t f : Text} {i : Nat} (h : (split t)[i]? = some f) :
    ∃ u v, t = u ++ v ∧ (∀ c, u.getLast? = some c → Text.isWordChar c = false) ∧
      (∀ g ∈ (split t).take i, g.ApartIn u) ∧ f.ApartIn v := by
  have hmem := List.mem_of_getElem? h
  cases i with
  | zero => exact ⟨[], t, rfl, by simp, by simp, apartIn_of_mem_split hmem⟩
  | succ i =>
      unfold split at h ⊢
      split at h
      · cases h
      · rename_i hblank
        rw [if_neg hblank]
        obtain ⟨hlt, -⟩ := List.getElem?_eq_some_iff.1 h
        rw [List.length_map] at hlt
        have hcut := List.take_append_drop (i + 1) (pieces 0 t)
        have htake : (pieces 0 t).take (i + 1) ≠ [] :=
          List.ne_nil_of_length_pos (by rw [List.length_take]; omega)
        have hdrop : (pieces 0 t).drop (i + 1) ≠ [] :=
          List.ne_nil_of_length_pos (by rw [List.length_drop]; omega)
        refine ⟨join [','] ((pieces 0 t).take (i + 1)) ++ [','],
          join [','] ((pieces 0 t).drop (i + 1)), ?_, ?_, ?_, ?_⟩
        · rw [List.append_assoc, ← Text.join_append _ htake hdrop, hcut, join_pieces]
        · intro c hc
          rw [List.getLast?_concat] at hc
          cases hc
          exact Text.isWordChar_comma
        · intro g hg
          rw [← List.map_take] at hg
          refine (apartIn_of_mem_map_trim hg).trans ⟨[], [','], by simp, by simp, ?_⟩
          intro c hc
          cases hc
          exact Text.isWordChar_comma
        · apply apartIn_of_mem_map_trim
          rw [List.map_drop, List.mem_iff_getElem?]
          exact ⟨0, by rw [List.getElem?_drop]; exact h⟩

end Field

end CommandConsole

import CommandConsole.Text.Blank
import CommandConsole.Text.Word

set_option autoImplicit false

/-!
# Blank margins

Trimming is known by two facts: it takes blank margins off a text (`exists_margins`), and what it
leaves neither begins nor ends with a blank (`trimmed_trim`).  Together they say that margins do
not matter to it (`trim_margins`).

Words are the other side: no blank character is a word character, so a text that begins and ends
with word characters or punctuation keeps all of itself.
-/

namespace CommandConsole.Text

/-! ## Blanks and word characters -/

/-- An interval of blanks ends below the Latin letters and numerals, or it lies above the first
128 code points and apart from every interval of letters and numerals there. -/
theorem blankRanges_apart : blankRanges.all (fun b => b.2 ≤ 32 || (128 ≤ b.1 &&
    alphanumericRanges.all fun a => a.2 < b.1 || b.2 < a.1)) = true := by
  decide +kernel

theorem not_isLatinAlphanumeric_of_le {c : Char} (h : c.toNat ≤ 32) :
    isLatinAlphanumeric c = false := by
  have hlow : ∀ d : Char, 48 ≤ d.toNat → ¬ d ≤ c := by
    intro d hd hdc
    have : d.toNat ≤ c.toNat := hdc
    omega
  simp [isLatinAlphanumeric, hlow 'a' (by decide), hlow 'A' (by decide), hlow '0' (by decide)]

theorem not_isAlphanumeric_of_isBlank {c : Char} (h : isBlank c = true) :
    isAlphanumeric c = false := by
  obtain ⟨b, hb, hin⟩ := List.any_eq_true.1 h
  have hapart := List.all_eq_true.1 blankRanges_apart b hb
  simp only [Bool.and_eq_true, Bool.or_eq_true, decide_eq_true_eq] at hin hapart
  unfold isAlphanumeric
  rcases hapart with hlow | ⟨hhigh, hapart⟩
  · rw [if_pos (by omega)]
    exact not_isLatinAlphanumeric_of_le (by omega)
  · rw [if_neg (by omega)]
    apply Bool.eq_false_iff.2
    intro halpha
    obtain ⟨a, ha, hle⟩ := List.any_eq_true.1 halpha
    have hdisjoint := List.all_eq_true.1 hapart a ha
    simp only [Bool.and_eq_true, Bool.or_eq_true, decide_eq_true_eq] at hle hdisjoint
    omega

/-- A blank stands in no word. -/
theorem not_isWordChar_of_isBlank {c : Char} (h : isBlank c = true) : isWordChar c = false := by
  have hne : c ≠ '_' := by
    rintro rfl
    revert h
    decide
  simp [isWordChar, not_isAlphanumeric_of_isBlank h, hne]

theorem not_isBlank_of_isWordChar {c : Char} (h : isWordChar c = true) : isBlank c = false := by
  apply Bool.eq_false_iff.2
  intro hb
  rw [not_isWordChar_of_isBlank hb] at h
  exact Bool.false_ne_true h

/-- Punctuation stands in no word. -/
theorem not_mem_of_word {t : Text} (ht : ∀ d ∈ t, isWordChar d = true) {c : Char}
    (hc : isWordChar c = false) : c ∉ t := by
  intro hm
  rw [ht c hm] at hc
  exact Bool.false_ne_true hc.symm

/-! ## Margins -/

/-- The text is a margin: all of it is blank. -/
def Blank (t : Text) : Prop := ∀ c ∈ t, isBlank c = true

theorem isAllBlank_iff (t : Text) : isAllBlank t = true ↔ Blank t := List.all_eq_true

instance (t : Text) : Decidable (Blank t) := decidable_of_iff _ (isAllBlank_iff t)

theorem blank_nil : Blank [] := fun _ h => absurd h List.not_mem_nil

theorem Blank.append {s t : Text} (hs : Blank s) (ht : Blank t) : Blank (s ++ t) := by
  intro c hc
  rcases List.mem_append.1 hc with hc | hc
  · exact hs c hc
  · exact ht c hc

/-- A character that is no blank does not stand in a margin. -/
theorem Blank.not_mem {t : Text} (h : Blank t) {c : Char} (hc : isBlank c = false) : c ∉ t := by
  intro hm
  rw [h c hm] at hc
  exact Bool.false_ne_true hc.symm

/-- The text has no margin. -/
structure Trimmed (t : Text) : Prop where
  first : ∀ c, t.head? = some c → isBlank c = false
  last : ∀ c, t.getLast? = some c → isBlank c = false

theorem trimEnd_append_of_blank {b : Text} (hb : Blank b) (t : Text) :
    trimEnd (t ++ b) = trimEnd t := by
  induction t with
  | nil =>
      induction b with
      | nil => rfl
      | cons c rest ih =>
          have hrest := ih fun d hd => hb d (List.mem_cons_of_mem _ hd)
          rw [List.nil_append] at hrest ⊢
          simp [trimEnd, hrest, hb c List.mem_cons_self]
  | cons c rest ih => rw [List.cons_append, trimEnd, trimEnd, ih]

theorem trimEnd_of_last {t : Text} (h : ∀ c, t.getLast? = some c → isBlank c = false) :
    trimEnd t = t := by
  induction t with
  | nil => rfl
  | cons c rest ih =>
      cases rest with
      | nil => simp [trimEnd, h c rfl]
      | cons d rest =>
          have hrest : trimEnd (d :: rest) = d :: rest := ih fun e he => h e (by simpa using he)
          rw [trimEnd, hrest]

theorem exists_trimEnd (t : Text) : ∃ b, t = trimEnd t ++ b ∧ Blank b := by
  induction t with
  | nil => exact ⟨[], rfl, blank_nil⟩
  | cons c rest ih =>
      obtain ⟨b, hb, hblank⟩ := ih
      cases hrest : trimEnd rest with
      | nil =>
          rw [hrest, List.nil_append] at hb
          subst hb
          by_cases hc : isBlank c = true
          · refine ⟨c :: rest, by simp [trimEnd, hrest, hc], ?_⟩
            have hone : Blank [c] := by simpa [Blank] using hc
            exact hone.append hblank
          · exact ⟨rest, by simp [trimEnd, hrest, hc], hblank⟩
      | cons d kept =>
          refine ⟨b, ?_, hblank⟩
          rw [hrest] at hb
          simp only [trimEnd, hrest]
          rw [List.cons_append, ← hb]

theorem last_trimEnd (t : Text) : ∀ c, (trimEnd t).getLast? = some c → isBlank c = false := by
  induction t with
  | nil => simp [trimEnd]
  | cons c rest ih =>
      intro d hd
      cases hrest : trimEnd rest with
      | nil =>
          simp only [trimEnd, hrest] at hd
          split at hd
          · simp at hd
          · rename_i hc
            rw [List.getLast?_singleton, Option.some.injEq] at hd
            simpa [← hd] using hc
      | cons e kept =>
          rw [trimEnd, hrest] at hd
          exact ih d (by rw [hrest]; simpa using hd)

theorem trimStart_append_of_blank {b : Text} (hb : Blank b) (t : Text) :
    trimStart (b ++ t) = trimStart t := by
  unfold trimStart
  rw [List.dropWhile_append_of_pos fun c hc => hb c hc]

theorem trimStart_of_first {t : Text} (h : ∀ c, t.head? = some c → isBlank c = false) :
    trimStart t = t := by
  cases t with
  | nil => rfl
  | cons c rest => simp [trimStart, h c rfl]

theorem first_trimStart (t : Text) : ∀ c, (trimStart t).head? = some c → isBlank c = false := by
  intro c hc
  have := List.head?_dropWhile_not isBlank t
  unfold trimStart at hc
  rw [hc] at this
  simpa using this

/-- Trimming takes margins off. -/
theorem exists_margins (t : Text) : ∃ b b', t = b ++ (trim t ++ b') ∧ Blank b ∧ Blank b' := by
  obtain ⟨b', hb', hblank'⟩ := exists_trimEnd (trimStart t)
  refine ⟨t.takeWhile isBlank, b', ?_, ?_, hblank'⟩
  · unfold trim
    rw [← hb', trimStart, List.takeWhile_append_dropWhile]
  · exact fun c hc => List.all_eq_true.1 List.all_takeWhile c hc

/-- What trimming leaves has no margin. -/
theorem trimmed_trim (t : Text) : Trimmed (trim t) := by
  refine ⟨?_, last_trimEnd (trimStart t)⟩
  intro c hc
  obtain ⟨b, hb, -⟩ := exists_trimEnd (trimStart t)
  apply first_trimStart t c
  rw [hb, List.head?_append]
  unfold trim at hc
  rw [hc]
  rfl

/-- A text without margins is what trimming leaves of it with any margins. -/
theorem trim_of_trimmed {t b b' : Text} (ht : Trimmed t) (hb : Blank b) (hb' : Blank b') :
    trim (b ++ (t ++ b')) = t := by
  unfold trim
  rw [trimStart_append_of_blank hb]
  cases t with
  | nil =>
      have := trimStart_append_of_blank hb' []
      rw [List.append_nil] at this
      rw [List.nil_append, this]
      rfl
  | cons c rest =>
      rw [trimStart_of_first fun d hd => ht.first d (by simpa using hd),
        trimEnd_append_of_blank hb', trimEnd_of_last ht.last]

/-- Margins do not matter to trimming. -/
theorem trim_margins {b b' : Text} (hb : Blank b) (hb' : Blank b') (t : Text) :
    trim (b ++ (t ++ b')) = trim t := by
  obtain ⟨m, m', ht, hm, hm'⟩ := exists_margins t
  have : b ++ (t ++ b') = (b ++ m) ++ (trim t ++ (m' ++ b')) := by
    conv => lhs; rw [ht]
    simp
  rw [this, trim_of_trimmed (trimmed_trim t) (hb.append hm) (hm'.append hb')]

theorem Trimmed.trim_eq {t : Text} (h : Trimmed t) : trim t = t := by
  simpa using trim_of_trimmed h blank_nil blank_nil

theorem trim_trim (t : Text) : trim (trim t) = trim t := (trimmed_trim t).trim_eq

theorem trimmed_iff {t : Text} : Trimmed t ↔ trim t = t :=
  ⟨Trimmed.trim_eq, fun h => h ▸ trimmed_trim t⟩

instance (t : Text) : Decidable (Trimmed t) := decidable_of_iff (trim t = t) trimmed_iff.symm

/-- A word has no margin. -/
theorem trimmed_of_word {t : Text} (h : ∀ c ∈ t, isWordChar c = true) : Trimmed t where
  first c hc := not_isBlank_of_isWordChar (h c (List.mem_of_head? hc))
  last c hc := not_isBlank_of_isWordChar (h c (List.mem_of_getLast? hc))

/-- A text that ends with one without margins is trimmed at its beginning only. -/
theorem trim_append_of_trimmed {s : Text} (hs : Trimmed s) (hne : s ≠ []) (t : Text) :
    trim (t ++ s) = trimStart t ++ s := by
  have hstart : trimStart (t ++ s) = trimStart t ++ s := by
    unfold trimStart
    rw [List.dropWhile_append]
    split
    · rename_i hblank
      rw [List.isEmpty_iff.1 hblank]
      exact trimStart_of_first hs.first
    · rfl
  have hlast : (trimStart t ++ s).getLast? = s.getLast? := by
    rw [List.getLast?_append, List.getLast?_eq_some_getLast hne, Option.some_or]
  unfold trim
  rw [hstart]
  exact trimEnd_of_last fun c hc => hs.last c (hlast ▸ hc)

/-- Trimming keeps what is no blank. -/
theorem mem_trim_of_not_blank {c : Char} (hc : isBlank c = false) {t : Text} (h : c ∈ t) :
    c ∈ trim t := by
  obtain ⟨b, b', ht, hb, hb'⟩ := exists_margins t
  rw [ht, List.mem_append, List.mem_append] at h
  rcases h with h | h | h
  · exact absurd h (hb.not_mem hc)
  · exact h
  · exact absurd h (hb'.not_mem hc)

/-! ## The last character that is no blank -/

/-- The text without its blanks. -/
def ink (t : Text) : Text := t.filter fun c => !isBlank c

@[simp] theorem ink_append (s t : Text) : ink (s ++ t) = ink s ++ ink t :=
  List.filter_append s t

theorem ink_of_blank {t : Text} (h : Blank t) : ink t = [] :=
  List.filter_eq_nil_iff.2 fun c hc => by simp [h c hc]

theorem ink_trim (t : Text) : ink (trim t) = ink t := by
  obtain ⟨b, b', ht, hb, hb'⟩ := exists_margins t
  conv => rhs; rw [ht]
  simp [ink_of_blank hb, ink_of_blank hb']

theorem getLast?_trim (t : Text) : (trim t).getLast? = (ink t).getLast? := by
  rw [← ink_trim]
  have hlast := (trimmed_trim t).last
  rcases List.eq_nil_or_concat (trim t) with h | ⟨front, c, h⟩
  · rw [h]
    rfl
  · rw [h] at hlast ⊢
    have hc : isBlank c = false := hlast c (by simp)
    simp [ink, hc]

end CommandConsole.Text

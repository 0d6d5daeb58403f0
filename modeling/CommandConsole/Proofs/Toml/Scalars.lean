import CommandConsole.Proofs.Text.Rules
import CommandConsole.Toml.Item

set_option autoImplicit false

/-!
# What the rules for TOML values leave

Blanks and comments, strings, dates and numbers: whatever is read of a text, an end of it is left,
and a part of a string takes at least one character.
-/

namespace CommandConsole.Toml

open Text (ProperEnd)
open Text.Rule (Leaves Shortens)

/-! ## Layout -/

theorem skipBlanks_isSuffix (t : Text) : skipBlanks t <:+ t := List.dropWhile_suffix isBlank

theorem properEnd_of_dropNewline? {t rest : Text} (h : dropNewline? t = some rest) :
    ProperEnd rest t := by
  unfold dropNewline? at h
  split at h
  · cases h
    exact .cons List.suffix_rfl '\n'
  · cases h
    exact .cons (List.suffix_cons '\n' rest) '\r'
  · cases h

theorem skipSpace_isSuffix (t : Text) : skipSpace t <:+ t := by
  fun_induction skipSpace t with
  | case1 => exact List.suffix_rfl
  | case2 rest ih => exact ih.trans ((List.suffix_cons '\n' rest).trans (List.suffix_cons '\r' _))
  | case3 c rest _ _ ih => exact ih.trans (List.suffix_cons c rest)
  | case4 => exact List.suffix_rfl

theorem skipComment_isSuffix (t : Text) : skipComment t <:+ t := by
  unfold skipComment
  split
  · exact (List.dropWhile_suffix isPlain).trans (List.suffix_cons '#' _)
  · exact List.suffix_rfl

/-- What follows the first character after a gap is shorter than the text. -/
theorem properEnd_of_skipGap {inComment : Bool} {c : Char} {t rest : Text}
    (h : skipGap inComment t = c :: rest) : ProperEnd rest t := by
  have hrest : ProperEnd rest (skipGap inComment t) := h ▸ .cons List.suffix_rfl c
  exact hrest.trans_suffix (skipGap_isSuffix inComment t)

/-- The end of a line that is not the end of the text takes a character. -/
theorem properEnd_of_endLine? {t rest : Text} (ht : t ≠ []) (h : endLine? t = some rest) :
    ProperEnd rest t := by
  have hskip : skipComment (skipBlanks t) <:+ t :=
    (skipComment_isSuffix _).trans (skipBlanks_isSuffix t)
  unfold endLine? at h
  split at h
  · cases h
    exact ⟨List.nil_suffix, List.length_pos_iff.2 ht⟩
  · exact (properEnd_of_dropNewline? h).trans_suffix hskip

theorem suffix_of_endLine? {t rest : Text} (h : endLine? t = some rest) : rest <:+ t := by
  by_cases ht : t = []
  · subst ht
    cases h
    exact List.suffix_rfl
  · exact (properEnd_of_endLine? ht h).isSuffix

/-! ## Strings -/

theorem escape_shortens : Shortens escape := by
  intro t c rest h
  unfold escape at h
  split at h
  · obtain ⟨d, -, heq⟩ := Option.map_eq_some_iff.1 h
    cases heq
    exact .cons (List.suffix_append [_, _, _, _] rest) 'u'
  · obtain ⟨d, -, heq⟩ := Option.map_eq_some_iff.1 h
    cases heq
    exact .cons (List.suffix_append [_, _, _, _, _, _, _, _] rest) 'U'
  · obtain ⟨d, -, heq⟩ := Option.map_eq_some_iff.1 h
    cases heq
    exact .cons List.suffix_rfl _
  · cases h

theorem plainPart_shortens (quote : Char) : Shortens (plainPart quote) := by
  intro t a rest h
  unfold plainPart at h
  split at h
  · split at h
    · cases h
      exact .cons List.suffix_rfl _
    · cases h
  · cases h

theorem basicPart_shortens : Shortens basicPart := by
  intro t a rest h
  unfold basicPart at h
  split at h
  · obtain ⟨p, hp, heq⟩ := Option.map_eq_some_iff.1 h
    cases heq
    exact .cons (escape_shortens.leaves _ _ _ hp) '\\'
  · exact plainPart_shortens '"' t a rest h

theorem newlinePart_shortens : Shortens newlinePart := by
  intro t a rest h
  obtain ⟨u, hu, heq⟩ := Option.map_eq_some_iff.1 h
  cases heq
  exact properEnd_of_dropNewline? hu

theorem properEnd_of_lineJoin? {t rest : Text} (h : lineJoin? t = some rest) :
    ProperEnd rest t := by
  unfold lineJoin? at h
  split at h
  · obtain ⟨u, hu, rfl⟩ := Option.map_eq_some_iff.1 h
    have hblanks := (properEnd_of_dropNewline? hu).trans_suffix (skipBlanks_isSuffix _)
    exact .cons ((skipSpace_isSuffix u).trans hblanks.isSuffix) '\\'
  · cases h

theorem literalLinesPart_shortens : Shortens literalLinesPart := by
  intro t a rest h
  unfold literalLinesPart at h
  split at h
  · cases h
    exact .cons List.suffix_rfl _
  · split at h
    · rename_i p hp
      cases h
      exact newlinePart_shortens t a rest hp
    · exact plainPart_shortens '\'' t a rest h

theorem basicLinesPart_shortens : Shortens basicLinesPart := by
  intro t a rest h
  unfold basicLinesPart at h
  split at h
  · cases h
    exact .cons List.suffix_rfl _
  · split at h
    · rename_i u hu
      cases h
      exact properEnd_of_lineJoin? hu
    · split at h
      · rename_i p hp
        cases h
        exact newlinePart_shortens t a rest hp
      · exact basicPart_shortens t a rest h

theorem stop_leaves (quote : Char) : Leaves (stop quote) := by
  intro t a rest h
  unfold stop at h
  split at h
  · split at h
    · cases h
      exact List.suffix_cons _ rest
    · cases h
  · cases h

theorem tripleStop_leaves (quote : Char) : Leaves (tripleStop quote) := by
  intro t a rest h
  unfold tripleStop at h
  split at h
  · split at h
    · split at h
      · split at h
        · cases h
          exact List.suffix_append [_, _, _, _, _] rest
        · split at h
          · cases h
            exact List.suffix_append [_, _, _, _] _
          · cases h
            exact List.suffix_append [_, _, _] _
      · split at h
        · cases h
          exact List.nil_suffix
        · cases h
          exact List.suffix_append [_, _, _] _
      · cases h
        exact List.nil_suffix
    · cases h
  · cases h

theorem body_leaves {stop part : Text.Rule Text} (hstop : stop.Leaves) (hpart : part.Leaves) :
    Leaves (body stop part) := by
  intro t a rest h
  obtain ⟨p, hp, heq⟩ := Option.map_eq_some_iff.1 h
  cases heq
  exact Text.Rule.upTo_leaves hstop hpart t p.1 p.2 hp

/-- A string that does not end here is a part of it and the rest of the string. -/
theorem body_of_part {stop part : Text.Rule Text} (hpart : part.Shortens) {t : Text}
    (ht : stop t = none) :
    body stop part t =
      (part t).bind fun p => (body stop part p.2).map fun q => (p.1 ++ q.1, q.2) := by
  rw [body, Text.Rule.upTo_eq hpart ht]
  cases part t with
  | none => rfl
  | some p =>
      rw [Option.bind_some, Option.bind_some, body]
      cases Text.Rule.upTo stop part p.2 with
      | none => rfl
      | some q => simp

theorem lineString_shortens : Shortens lineString := by
  intro t a rest h
  unfold lineString at h
  split at h
  · exact .cons (body_leaves (stop_leaves '"') basicPart_shortens.leaves _ a rest h) '"'
  · exact .cons (body_leaves (stop_leaves '\'') (plainPart_shortens '\'').leaves _ a rest h) '\''
  · cases h

theorem dropFirstNewline_isSuffix (t : Text) : dropFirstNewline t <:+ t := by
  unfold dropFirstNewline
  cases h : dropNewline? t with
  | none => exact List.suffix_rfl
  | some rest => exact (properEnd_of_dropNewline? h).isSuffix

theorem string_leaves : Leaves string := by
  intro t a rest h
  unfold string at h
  split at h
  · have hbody := body_leaves (tripleStop_leaves '"') basicLinesPart_shortens.leaves _ a rest h
    exact (hbody.trans (dropFirstNewline_isSuffix _)).trans (List.suffix_append ['"', '"', '"'] _)
  · have hbody := body_leaves (tripleStop_leaves '\'') literalLinesPart_shortens.leaves _ a rest h
    exact (hbody.trans (dropFirstNewline_isSuffix _)).trans
      (List.suffix_append ['\'', '\'', '\''] _)
  · exact lineString_shortens.leaves t a rest h

/-! ## Dates and times -/

theorem twoDigits_leaves (least most : Nat) : Leaves (twoDigits least most) := by
  intro t n rest h
  unfold twoDigits at h
  split at h
  · dsimp only at h
    split at h
    · cases h
      exact List.suffix_append [_, _] rest
    · cases h
  · cases h

theorem after?_eq_some_iff {c : Char} {t rest : Text} : after? c t = some rest ↔ t = c :: rest := by
  unfold after?
  cases t with
  | nil => exact iff_of_false nofun nofun
  | cons d t =>
      by_cases hd : d = c
      · subst hd
        simp
      · simp [hd]

theorem suffix_of_after? {c : Char} {t rest : Text} (h : after? c t = some rest) : rest <:+ t :=
  after?_eq_some_iff.1 h ▸ List.suffix_cons c rest

theorem readDate_leaves : Leaves readDate := by
  intro t d rest h
  obtain ⟨⟨month, t₁⟩, hmonth, h⟩ := Option.bind_eq_some_iff.1 h
  obtain ⟨t₂, hmark, h⟩ := Option.bind_eq_some_iff.1 h
  obtain ⟨⟨day, t₃⟩, hday, h⟩ := Option.bind_eq_some_iff.1 h
  cases h
  have h₁ : t₁ <:+ t := (twoDigits_leaves 1 12 _ _ _ hmonth).trans (List.drop_suffix 5 t)
  exact ((twoDigits_leaves _ _ _ _ _ hday).trans (suffix_of_after? hmark)).trans h₁

theorem readNanosecond_isSuffix (t : Text) : (readNanosecond t).2 <:+ t := by
  unfold readNanosecond
  split
  · dsimp only
    split
    · exact List.suffix_rfl
    · exact (List.dropWhile_suffix _).trans (List.suffix_cons '.' _)
  · exact List.suffix_rfl

theorem readTime_leaves : Leaves readTime := by
  intro t d rest h
  obtain ⟨⟨hour, t₁⟩, hhour, h⟩ := Option.bind_eq_some_iff.1 h
  obtain ⟨t₂, hmark, h⟩ := Option.bind_eq_some_iff.1 h
  obtain ⟨⟨minute, t₃⟩, hminute, h⟩ := Option.bind_eq_some_iff.1 h
  obtain ⟨t₄, hmark', h⟩ := Option.bind_eq_some_iff.1 h
  obtain ⟨⟨second, t₅⟩, hsecond, h⟩ := Option.bind_eq_some_iff.1 h
  cases h
  have h₂ : t₂ <:+ t := (suffix_of_after? hmark).trans (twoDigits_leaves _ _ _ _ _ hhour)
  have h₄ : t₄ <:+ t₂ := (suffix_of_after? hmark').trans (twoDigits_leaves _ _ _ _ _ hminute)
  have h₅ : t₅ <:+ t₄ := twoDigits_leaves _ _ _ _ _ hsecond
  exact (readNanosecond_isSuffix t₅).trans (h₅.trans (h₄.trans h₂))

theorem readOffsetMinutes_leaves : Leaves readOffsetMinutes := by
  intro t n rest h
  obtain ⟨⟨hours, t₁⟩, hhours, h⟩ := Option.bind_eq_some_iff.1 h
  obtain ⟨t₂, hmark, h⟩ := Option.bind_eq_some_iff.1 h
  obtain ⟨⟨minutes, t₃⟩, hminutes, h⟩ := Option.bind_eq_some_iff.1 h
  cases h
  have h₂ : t₂ <:+ t := (suffix_of_after? hmark).trans (twoDigits_leaves _ _ _ _ _ hhours)
  exact (twoDigits_leaves _ _ _ _ _ hminutes).trans h₂

theorem readOffset_leaves : Leaves readOffset := by
  intro t n rest h
  unfold readOffset at h
  split at h
  · cases h
    exact List.suffix_rfl
  · rename_i c u
    split at h
    · cases h
      exact List.suffix_cons c _
    · split at h
      · exact (readOffsetMinutes_leaves.map some u n rest h).trans (List.suffix_cons c u)
      · split at h
        · exact (readOffsetMinutes_leaves.map (fun n => some (-n)) u n rest h).trans
            (List.suffix_cons c u)
        · cases h
          exact List.suffix_rfl

theorem readDateTime_leaves : Leaves readDateTime := by
  intro t d rest h
  unfold readDateTime at h
  split at h
  · obtain ⟨⟨date, t₁⟩, hdate, h⟩ := Option.bind_eq_some_iff.1 h
    have h₁ : t₁ <:+ t := readDate_leaves _ _ _ hdate
    dsimp only at h
    split at h
    · obtain ⟨⟨time, t₂⟩, htime, h⟩ := Option.bind_eq_some_iff.1 h
      obtain ⟨⟨offset, t₃⟩, hoffset, h⟩ := Option.bind_eq_some_iff.1 h
      cases h
      have h₂ : t₂ <:+ t₁ := (readTime_leaves _ _ _ htime).trans (List.drop_suffix 1 t₁)
      exact (readOffset_leaves _ _ _ hoffset).trans (h₂.trans h₁)
    · cases h
      exact h₁
  · obtain ⟨⟨time, t₁⟩, htime, h⟩ := Option.bind_eq_some_iff.1 h
    cases h
    exact readTime_leaves _ _ _ htime

/-! ## Numbers -/

theorem moreDigits_isSuffix (isDigit : Char → Bool) (t : Text) :
    (moreDigits isDigit t).2 <:+ t := by
  fun_induction moreDigits isDigit t with
  | case1 => exact List.suffix_rfl
  | case2 => exact List.nil_suffix
  | case3 => exact List.suffix_rfl
  | case4 c rest _ digits rest' heq ih =>
      rw [heq] at ih
      exact ih.trans (List.suffix_append ['_', c] rest)
  | case5 => exact List.suffix_rfl
  | case6 c rest _ _ _ digits rest' heq ih =>
      rw [heq] at ih
      exact ih.trans (List.suffix_cons c rest)
  | case7 => exact List.suffix_rfl

theorem readDigits_leaves (isDigit : Char → Bool) : Leaves (readDigits isDigit) := by
  intro t a rest h
  unfold readDigits at h
  split at h
  · rename_i c u
    have hmore := moreDigits_isSuffix isDigit (c :: u)
    split at h
    · rwa [Option.some.inj h] at hmore
    · cases h
  · cases h

theorem readWhole_leaves : Leaves readWhole := by
  intro t a rest h
  unfold readWhole at h
  split at h
  · cases h
    exact List.suffix_cons '0' rest
  · exact readDigits_leaves _ t a rest h

theorem readRadix_leaves (base : Nat) : Leaves (readRadix base) := by
  intro t v rest h
  obtain ⟨⟨digits, t₁⟩, hdigits, h⟩ := Option.bind_eq_some_iff.1 h
  obtain ⟨n, -, h⟩ := Option.bind_eq_some_iff.1 h
  obtain ⟨item, -, h⟩ := Option.bind_eq_some_iff.1 h
  cases h
  exact readDigits_leaves _ _ _ _ hdigits

theorem readExponent_leaves : Leaves readExponent := by
  intro t n rest h
  unfold readExponent at h
  split at h
  · obtain ⟨⟨digits, t₁⟩, hdigits, h⟩ := Option.bind_eq_some_iff.1 h
    cases h
    have hsign := (Number.splitSign_isSuffix (t.drop 1)).trans (List.drop_suffix 1 t)
    exact (readDigits_leaves _ _ _ _ hdigits).trans hsign
  · cases h
    exact List.suffix_rfl

theorem readDecimal_leaves (negative : Bool) : Leaves (readDecimal negative) := by
  intro t v rest h
  obtain ⟨⟨whole, t₁⟩, hwhole, h⟩ := Option.bind_eq_some_iff.1 h
  have h₁ : t₁ <:+ t := readWhole_leaves _ _ _ hwhole
  dsimp only at h
  split at h
  · rename_i t₂ hpoint
    obtain ⟨⟨fraction, t₃⟩, hfraction, h⟩ := Option.bind_eq_some_iff.1 h
    obtain ⟨⟨exponent, t₄⟩, hexponent, h⟩ := Option.bind_eq_some_iff.1 h
    obtain ⟨x, -, h⟩ := Option.bind_eq_some_iff.1 h
    cases h
    have h₃ : t₃ <:+ t₁ := (readDigits_leaves _ _ _ _ hfraction).trans (suffix_of_after? hpoint)
    exact (readExponent_leaves _ _ _ hexponent).trans (h₃.trans h₁)
  · split at h
    · obtain ⟨⟨exponent, t₂⟩, hexponent, h⟩ := Option.bind_eq_some_iff.1 h
      obtain ⟨x, -, h⟩ := Option.bind_eq_some_iff.1 h
      cases h
      exact (readExponent_leaves _ _ _ hexponent).trans h₁
    · obtain ⟨n, -, h⟩ := Option.bind_eq_some_iff.1 h
      cases h
      exact h₁

theorem readUnsigned_leaves (negative : Bool) : Leaves (readUnsigned negative) := by
  intro t v rest h
  unfold readUnsigned at h
  split at h
  · cases h
    exact List.suffix_append ['i', 'n', 'f'] rest
  · cases h
    exact List.suffix_append ['n', 'a', 'n'] rest
  · exact readDecimal_leaves negative t v rest h

theorem readNumber_leaves : Leaves readNumber := by
  intro t v rest h
  unfold readNumber at h
  split at h
  · exact (readRadix_leaves 16 _ v rest h).trans (List.suffix_append ['0', 'x'] _)
  · exact (readRadix_leaves 8 _ v rest h).trans (List.suffix_append ['0', 'o'] _)
  · exact (readRadix_leaves 2 _ v rest h).trans (List.suffix_append ['0', 'b'] _)
  · exact (readUnsigned_leaves _ _ v rest h).trans (Number.splitSign_isSuffix t)

/-! ## Values without others in them -/

theorem readScalar_leaves : Leaves readScalar := by
  intro t v rest h
  unfold readScalar at h
  split at h
  · cases h
    exact List.suffix_append ['t', 'r', 'u', 'e'] rest
  · cases h
    exact List.suffix_append ['f', 'a', 'l', 's', 'e'] rest
  · exact string_leaves.map Item.string _ v rest h
  · exact string_leaves.map Item.string _ v rest h
  · split at h
    · exact readDateTime_leaves.map Item.dateTime t v rest h
    · exact readNumber_leaves t v rest h

end CommandConsole.Toml

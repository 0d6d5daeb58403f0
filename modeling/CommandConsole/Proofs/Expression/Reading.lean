import CommandConsole.Proofs.Expression.Basic
import CommandConsole.Proofs.Literal.Asking
import CommandConsole.Proofs.Reduction.Pending

set_option autoImplicit false

/-!
# Reading reduced fields

After its calls are reduced, a field is a text of words, placeholders and vectors of such texts.
`Reads` says what reading it answers: a value, which depends on nothing but what waits under the
texts that are asked for, and a change of what waits that touches only these.  `ReadsAll` says
the same of fields with commas between them.
-/

namespace CommandConsole

/-! ## Texts that are no literals of numbers -/

namespace Number

theorem floatLiteral?_bracket (t : Text) : floatLiteral? ('[' :: t) = none := by
  simp [floatLiteral?, decimalLiteral?, splitSign, fractionPart, isDigit]

theorem int64Literal?_bracket (t : Text) : int64Literal? ('[' :: t) = none := by
  simp [int64Literal?, wholeLiteral?, splitSign, isDigits, isDigit]

end Number

namespace Literal

/-- A text between square brackets is no number. -/
theorem number?_bracket (t : Text) : number? ('[' :: (t ++ [']'])) = none := by
  have hlast : Text.dropLast? 'f' ('[' :: (t ++ [']'])) = none := by
    unfold Text.dropLast?
    rw [← List.cons_append, List.getLast?_concat]
    exact if_neg (by decide)
  simp [number?, Number.int64Literal?_bracket, Number.floatLiteral?_bracket, hlast]

theorem vectorBody?_bracket (t : Text) : vectorBody? ('[' :: (t ++ [']'])) = some t := by
  rw [vectorBody?, Text.dropLast?_eq_some_iff]

theorem vectorBody?_of_plain {t : Text} (h : Field.Plain t) : vectorBody? t = none := by
  cases t with
  | nil => rfl
  | cons c rest =>
      have hc : c ≠ '[' := by
        rintro rfl
        exact absurd (h _ List.mem_cons_self) (by decide)
      unfold vectorBody?
      split
      · rename_i heq
        cases heq
        exact absurd rfl hc
      · rfl

/-- Plain text is read without a question, and margins do not matter to it. -/
theorem convertWith_of_plain {σ : Type} {ask : Text → σ → Option Value × σ} {t : Text}
    (h : Field.Plain t) (s : σ) : convertWith ask (Text.trim t) s = (convert t, s) := by
  have hv : vectorBody? (Text.trim t) = none :=
    vectorBody?_of_plain fun c hc => h c ((Text.trim_isInfix t).subset hc)
  unfold convert
  cases hn : number? (Text.trim t) with
  | some v =>
      rw [convertWith_of_number (by rw [Text.trim_trim]; exact hn), convertWith_of_number hn]
  | none =>
      rw [convertWith_of_text (by rw [Text.trim_trim]; exact hn)
        (by rw [Text.trim_trim]; exact hv), convertWith_of_text hn hv, Text.trim_trim]

end Literal

/-! ## What waits, before and after -/

namespace Pending

/-- Every key is a word. -/
def Keyed (p : Pending) : Prop := ∀ x ∈ p, ∀ c ∈ x.1, Text.isWordChar c = true

theorem find?_eq_none_of_keyed {p : Pending} (hp : p.Keyed) {f : Text} {c : Char} (hc : c ∈ f)
    (hword : Text.isWordChar c = false) : find? f p = none := by
  rw [find?_eq_none_iff]
  rintro x hx rfl
  rw [hp x hx c hc] at hword
  exact Bool.false_ne_true hword.symm

/-- The second state is the first with at most the values of some keys taken. -/
structure Takes (keys : List Text) (p q : Pending) : Prop where
  sublist : List.Sublist q p
  others : ∀ f, f ∉ keys → find? f q = find? f p

theorem Takes.refl (p : Pending) : Takes [] p p := ⟨List.Sublist.refl p, fun _ _ => rfl⟩

theorem Takes.mono {ks ls : List Text} {p q : Pending} (h : Takes ks p q) (hks : ks ⊆ ls) :
    Takes ls p q :=
  ⟨h.sublist, fun f hf => h.others f fun hm => hf (hks hm)⟩

theorem Takes.trans {ks ls : List Text} {p q r : Pending} (hpq : Takes ks p q)
    (hqr : Takes ls q r) : Takes (ks ++ ls) p r where
  sublist := hqr.sublist.trans hpq.sublist
  others f hf := by
    rw [List.mem_append, not_or] at hf
    rw [hqr.others f hf.2, hpq.others f hf.1]

theorem Takes.keyed {ks : List Text} {p q : Pending} (h : Takes ks p q) (hp : p.Keyed) : q.Keyed :=
  fun x hx => hp x (h.sublist.subset hx)

theorem Takes.none {ks : List Text} {p q : Pending} (h : Takes ks p q) {f : Text}
    (hf : find? f p = none) : find? f q = none :=
  find?_eq_none_of_sublist h.sublist hf

/-- Under each of the texts there waits the same in both states. -/
def Same (fs : List Text) (p q : Pending) : Prop := ∀ f ∈ fs, find? f q = find? f p

end Pending

/-! ## Reading a field -/

open Pending (find? take Keyed Takes Same)

/-- A reduced field: in any state that has the same values under the texts asked for, reading it
answers the value. -/
structure Reads (p : Pending) (t : Text) (v : Value) (asked : List Text) : Prop where
  whole : Field.Whole t
  flat : ∀ c ∈ t, c ≠ '(' ∧ c ≠ ')'
  inked : ¬ Text.Blank t
  parts : ∀ f ∈ asked, f <:+: t
  answer : ∀ q, Keyed q → Same asked p q →
    ∃ q', Literal.answered take (Text.trim t) q = (v, q') ∧ Takes asked q q'

/-- Reduced fields with commas between them. -/
structure ReadsAll (p : Pending) (t : Text) (vs : List Value) (asked : List Text) : Prop where
  enclosed : Field.Enclosed t
  flat : ∀ c ∈ t, c ≠ '(' ∧ c ≠ ')'
  inked : vs ≠ [] → ¬ Text.Blank t
  parts : ∀ f ∈ asked, f <:+: t
  length : (Field.split t).length = vs.length
  answer : ∀ q, Keyed q → Same asked p q →
    ∃ q', Literal.readFields take (Field.split t) q = (vs, q') ∧ Takes asked q q'
  /-- The same fields as components of a vector. -/
  components : ∀ q, Keyed q → Same asked p q →
    ∃ q', Literal.collect (Literal.component take) (Field.split t) q =
      (vs.mapM Value.asFloat?, q') ∧ Takes asked q q'

namespace Reads

variable {p q : Pending} {t : Text} {v : Value} {asked : List Text}

/-- What reading a field answers depends on the texts asked for only. -/
theorem transfer (h : Reads p t v asked) (hq : Same asked p q) : Reads q t v asked :=
  { h with answer := fun r hr hsame => h.answer r hr fun f hf => (hsame f hf).trans (hq f hf) }

/-- A word under which nothing waits is read from its text alone. -/
theorem word (u : Word) (h : find? (Text.trim u.text) p = none) :
    Reads p u.text (Literal.convert u.text) [Text.trim u.text] where
  whole := u.plain.whole
  flat := Field.flat_of_plain u.plain
  inked := u.inked
  parts f hf := by
    rw [List.mem_singleton] at hf
    exact hf ▸ Text.trim_isInfix u.text
  answer q _ hsame := by
    have hnone : find? (Text.trim u.text) q = none := (hsame _ (List.mem_singleton_self _)).trans h
    refine ⟨q, ?_, (Takes.refl q).mono (List.nil_subset _)⟩
    rw [Literal.answered, Pending.take_of_find?_none hnone]
    exact Literal.convertWith_of_plain u.plain q

/-- A placeholder is read as the value that waits under it. -/
theorem placeholder {key : Text} (hne : key ≠ []) (hword : ∀ c ∈ key, Text.isWordChar c = true)
    (h : find? key p = some v) : Reads p key v [key] where
  whole := (Field.plain_of_word hword).whole
  flat := Field.flat_of_plain (Field.plain_of_word hword)
  inked hblank := by
    obtain ⟨c, hc⟩ := List.exists_mem_of_ne_nil key hne
    have := Text.not_isBlank_of_isWordChar (hword c hc)
    rw [hblank c hc] at this
    exact Bool.false_ne_true this.symm
  parts f hf := by
    rw [List.mem_singleton] at hf
    exact hf ▸ List.infix_refl key
  answer q _ hsame := by
    have hsome : find? key q = some v := (hsame key (List.mem_singleton_self key)).trans h
    have htrim : Text.trim key = key := (Text.trimmed_of_word hword).trim_eq
    refine ⟨(q.take key).2, ?_, Pending.take_sublist key q, ?_⟩
    · rw [htrim, Literal.answered, Pending.take_of_find?_some hsome]
    · intro f hf
      exact Pending.find?_take_of_ne (fun heq => hf (by simp [heq])) q

/-- A vector is read component by component. -/
theorem vector {vs : List Value} (h : ReadsAll p t vs asked) :
    Reads p ('[' :: (t ++ [']'])) (Expr.vectorOf vs) asked where
  whole := h.enclosed.bracket
  flat c hc := by
    rcases List.mem_cons.1 hc with rfl | hc
    · decide
    · exact Field.flat_append h.flat (by simp) c hc
  inked hblank := absurd (hblank '[' List.mem_cons_self) (by decide)
  parts f hf := (h.parts f hf).trans ⟨['['], [']'], by simp⟩
  answer q hq hsame := by
    have htrim : Text.trim ('[' :: (t ++ [']'])) = '[' :: (t ++ [']']) := by
      have hends : Text.Trimmed ('[' :: (t ++ [']'])) := by
        constructor
        · intro c hc
          cases hc
          decide
        · intro c hc
          rw [← List.cons_append, List.getLast?_concat] at hc
          cases hc
          decide
      exact hends.trim_eq
    have hnone : find? ('[' :: (t ++ [']'])) q = none :=
      Pending.find?_eq_none_of_keyed hq List.mem_cons_self (by decide)
    rw [htrim, Literal.answered, Pending.take_of_find?_none hnone]
    dsimp only
    rw [Literal.convertWith_of_vector (by rw [htrim]; exact Literal.number?_bracket t)
      (by rw [htrim]; exact Literal.vectorBody?_bracket t), h.length]
    obtain ⟨q', hcollect, htakes⟩ := h.components q hq hsame
    rw [hcollect]
    by_cases hlen : 2 ≤ vs.length ∧ vs.length ≤ 4
    · refine ⟨q', ?_, htakes⟩
      rw [if_pos hlen, Expr.vectorOf]
      cases vs.mapM Value.asFloat? <;> rfl
    · refine ⟨q, ?_, (Takes.refl q).mono (List.nil_subset _)⟩
      rw [if_neg hlen, Expr.vectorOf_of_length hlen]

end Reads

/-! ## Reading fields with commas between them -/

namespace ReadsAll

variable {p : Pending} {t u b b' : Text} {v : Value} {vs : List Value} {asked asks : List Text}

/-- Nothing is read from a margin. -/
theorem nil (hb : Text.Blank b) : ReadsAll p b [] [] where
  enclosed := (Field.plain_of_blank hb).whole.enclosed
  flat := Field.flat_of_plain (Field.plain_of_blank hb)
  inked h := absurd rfl h
  parts f hf := absurd hf List.not_mem_nil
  length := by rw [Field.split_of_blank hb]; rfl
  answer q _ _ := by
    rw [Field.split_of_blank hb]
    exact ⟨q, rfl, Takes.refl q⟩
  components q _ _ := by
    rw [Field.split_of_blank hb]
    exact ⟨q, rfl, Takes.refl q⟩

theorem component_of_answered {q q' : Pending} {f : Text}
    (h : Literal.answered take f q = (v, q')) :
    Literal.component take f q = (v.asFloat?, q') := by
  rw [Literal.component_eq, h]

/-- One field between margins. -/
theorem single (hb : Text.Blank b) (ht : Reads p t v asked) (hb' : Text.Blank b') :
    ReadsAll p (b ++ (t ++ b')) [v] asked where
  enclosed := ((Field.plain_of_blank hb).whole.append
    (ht.whole.append (Field.plain_of_blank hb').whole)).enclosed
  flat := Field.flat_append (Field.flat_of_plain (Field.plain_of_blank hb))
    (Field.flat_append ht.flat (Field.flat_of_plain (Field.plain_of_blank hb')))
  inked _ h := ht.inked fun c hc => h c (by simp [hc])
  parts f hf := (ht.parts f hf).trans ⟨b, b', by simp⟩
  length := by rw [Field.split_margins hb hb' ht.whole ht.inked]; rfl
  answer q hq hsame := by
    obtain ⟨q', hanswer, htakes⟩ := ht.answer q hq hsame
    refine ⟨q', ?_, htakes⟩
    simp only [Field.split_margins hb hb' ht.whole ht.inked, Literal.readFields, hanswer]
  components q hq hsame := by
    obtain ⟨q', hanswer, htakes⟩ := ht.answer q hq hsame
    refine ⟨q', ?_, htakes⟩
    simp only [Field.split_margins hb hb' ht.whole ht.inked, Literal.collect,
      component_of_answered hanswer]
    cases hx : v.asFloat? <;> simp [hx]

/-- What is left after the first field answers the others as before, when nothing waits under the
texts that both ask for. -/
theorem same_of_takes {q q' : Pending} (hshared : ∀ f ∈ asked, f ∈ asks → find? f p = none)
    (hsame : Same asks p q) (h : Takes asked q q') : Same asks p q' := by
  intro f hf
  by_cases hask : f ∈ asked
  · rw [hshared f hask hf]
    exact h.none ((hsame f hf).trans (hshared f hask hf))
  · rw [h.others f hask]
    exact hsame f hf

/-- A field before others. -/
theorem cons (hb : Text.Blank b) (ht : Reads p t v asked) (hb' : Text.Blank b')
    (hu : ReadsAll p u vs asks) (hvs : vs ≠ [])
    (hshared : ∀ f ∈ asked, f ∈ asks → find? f p = none) :
    ReadsAll p (b ++ (t ++ (b' ++ ',' :: u))) (v :: vs) (asked ++ asks) where
  enclosed := by
    have hfirst := ((Field.plain_of_blank hb).whole.append
      (ht.whole.append (Field.plain_of_blank hb').whole)).enclosed
    simpa using hfirst.comma hu.enclosed
  flat := by
    have hrest : ∀ c ∈ ',' :: u, c ≠ '(' ∧ c ≠ ')' := by
      intro c hc
      rcases List.mem_cons.1 hc with rfl | hc
      · decide
      · exact hu.flat c hc
    exact Field.flat_append (Field.flat_of_plain (Field.plain_of_blank hb))
      (Field.flat_append ht.flat
        (Field.flat_append (Field.flat_of_plain (Field.plain_of_blank hb')) hrest))
  inked _ h := ht.inked fun c hc => h c (by simp [hc])
  parts f hf := by
    rcases List.mem_append.1 hf with hf | hf
    · exact (ht.parts f hf).trans ⟨b, b' ++ ',' :: u, by simp⟩
    · exact (hu.parts f hf).trans ⟨b ++ (t ++ (b' ++ [','])), [], by simp⟩
  length := by
    rw [Field.split_comma hb hb' ht.whole ht.inked (hu.inked hvs), List.length_cons, hu.length,
      List.length_cons]
  answer q hq hsame := by
    obtain ⟨q₁, hfirst, htakes₁⟩ := ht.answer q hq fun f hf =>
      hsame f (List.mem_append_left asks hf)
    obtain ⟨q₂, hrest, htakes₂⟩ := hu.answer q₁ (htakes₁.keyed hq)
      (same_of_takes hshared (fun f hf => hsame f (List.mem_append_right asked hf)) htakes₁)
    refine ⟨q₂, ?_, htakes₁.trans htakes₂⟩
    simp only [Field.split_comma hb hb' ht.whole ht.inked (hu.inked hvs), Literal.readFields,
      hfirst, hrest]
  components q hq hsame := by
    obtain ⟨q₁, hfirst, htakes₁⟩ := ht.answer q hq fun f hf =>
      hsame f (List.mem_append_left asks hf)
    obtain ⟨q₂, hrest, htakes₂⟩ := hu.components q₁ (htakes₁.keyed hq)
      (same_of_takes hshared (fun f hf => hsame f (List.mem_append_right asked hf)) htakes₁)
    simp only [Field.split_comma hb hb' ht.whole ht.inked (hu.inked hvs), Literal.collect,
      component_of_answered hfirst]
    -- the reading of components ends at the first that is no number
    cases hx : v.asFloat? with
    | none => exact ⟨q₁, by simp [hx], htakes₁.mono (List.subset_append_left asked asks)⟩
    | some x =>
        refine ⟨q₂, ?_, htakes₁.trans htakes₂⟩
        dsimp only
        rw [hrest]
        cases hxs : vs.mapM Value.asFloat? <;> simp [hx, hxs]

end ReadsAll

end CommandConsole

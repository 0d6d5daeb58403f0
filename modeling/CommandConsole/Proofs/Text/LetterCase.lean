import CommandConsole.Proofs.Text.Trimming
import CommandConsole.Text.Lowercase
import Mathlib.Data.List.Forall2

set_option autoImplicit false

/-!
# Letter case

Two texts are alike when their characters have the same lower case, one for one (`Alike`).  The
parentheses and the blanks have no case: each is its own lower case, and it is that of no other
character (`eq_of_lower_eq`).  So texts that are alike have the same parentheses and blanks at the
same places.
-/

namespace CommandConsole.Text

/-- The characters of one text have the lower-case mappings of the other's, one for one. -/
def Alike (s t : Text) : Prop := List.Forall₂ (fun a b => lower a = lower b) s t

theorem alike_iff_map {s t : Text} : Alike s t ↔ s.map lower = t.map lower := by
  rw [← List.forall₂_eq_eq_eq, List.forall₂_map_left_iff, List.forall₂_map_right_iff]
  exact Iff.rfl

instance (s t : Text) : Decidable (Alike s t) := decidable_of_iff _ alike_iff_map.symm

/-! ## Characters without case -/

/-- The code points of the parentheses and of the blanks. -/
def caselessRanges : List (Nat × Nat) := (0x28, 0x29) :: blankRanges

/-- Whether the character is a parenthesis or a blank. -/
def isCaseless (c : Char) : Bool := inRanges caselessRanges c.toNat

theorem isCaseless_of_isBlank {c : Char} (h : isBlank c = true) : isCaseless c = true := by
  rw [isCaseless, inRanges, caselessRanges, List.any_cons]
  exact Bool.or_eq_true_iff.2 (Or.inr h)

/-- Neither the characters of a run nor their lower cases lie in the interval. -/
def CaseRun.avoids (r : CaseRun) (b : Nat × Nat) : Bool :=
  (r.last < b.1 || b.2 < r.first) &&
    ((r.last : Int) + r.offset < b.1 || (b.2 : Int) < r.first + r.offset)

/-- An interval of characters without case ends below the Latin letters, or it lies above the first
128 code points; it does not hold the capital I with a dot, and all runs avoid it. -/
theorem caselessRanges_apart : caselessRanges.all (fun b => 0 < b.1 && (b.2 < 65 || 128 ≤ b.1) &&
    (b.2 < 0x130 || 0x130 < b.1) && caseRuns.all fun r => r.avoids b) = true := by
  decide +kernel

/-- What is known of a character without case. -/
structure Apart (c : Char) : Prop where
  pos : 0 < c.toNat
  latin : c.toNat < 65 ∨ 128 ≤ c.toNat
  dotted : c.toNat ≠ 0x130
  runs : ∀ r ∈ caseRuns, ∀ n : Nat, r.holds n = true →
    n ≠ c.toNat ∧ (n : Int) + r.offset ≠ c.toNat

theorem apart_of_isCaseless {c : Char} (h : isCaseless c = true) : Apart c := by
  obtain ⟨b, hb, hin⟩ := List.any_eq_true.1 h
  have hapart := List.all_eq_true.1 caselessRanges_apart b hb
  simp only [Bool.and_eq_true, Bool.or_eq_true, decide_eq_true_eq] at hin hapart
  obtain ⟨⟨⟨hpos, hlatin⟩, hdotted⟩, hruns⟩ := hapart
  refine ⟨by omega, by omega, by omega, fun r hr n hn => ?_⟩
  have havoids := List.all_eq_true.1 hruns r hr
  simp only [CaseRun.avoids, Bool.and_eq_true, Bool.or_eq_true, decide_eq_true_eq] at havoids
  simp only [CaseRun.holds, Bool.and_eq_true, decide_eq_true_eq] at hn
  omega

/-- The lower case of a character is the character itself, or that of a Latin capital, or it lies
in a run. -/
theorem lowerSimple_cases (c : Char) :
    lowerSimple c = c ∨ (65 ≤ c.toNat ∧ c.toNat ≤ 90 ∧ lowerSimple c = Char.ofNat (c.toNat + 32)) ∨
      ∃ r ∈ caseRuns, r.holds c.toNat = true ∧
        lowerSimple c = Char.ofNat (Int.toNat (c.toNat + r.offset)) := by
  unfold lowerSimple
  split
  · split
    · rename_i hcapital
      have hlow : 'A'.toNat ≤ c.toNat := hcapital.1
      have hhigh : c.toNat ≤ 'Z'.toNat := hcapital.2
      exact Or.inr (Or.inl ⟨hlow, hhigh, rfl⟩)
    · exact Or.inl rfl
  · split
    · rename_i r hr
      have hholds := List.find?_some hr
      exact Or.inr (Or.inr ⟨r, List.mem_of_find?_eq_some hr, hholds, rfl⟩)
    · exact Or.inl rfl

theorem toNat_ofNat (n : Nat) : (Char.ofNat n).toNat = n ∨ (Char.ofNat n).toNat = 0 := by
  by_cases h : n.isValidChar
  · rw [Char.ofNat, dif_pos h]
    exact Or.inl rfl
  · rw [Char.ofNat, dif_neg h]
    exact Or.inr rfl

theorem Apart.lower_eq {c : Char} (h : Apart c) : lower c = [c] := by
  unfold lower
  rw [if_neg h.dotted]
  rcases lowerSimple_cases c with hsame | ⟨hlow, hhigh, -⟩ | ⟨r, hr, hholds, -⟩
  · rw [hsame]
  · have := h.latin
    omega
  · exact absurd rfl (h.runs r hr _ hholds).1

theorem Apart.eq_of_lower {a c : Char} (h : Apart c) (ha : lower a = [c]) : a = c := by
  unfold lower at ha
  split at ha
  · cases ha
  · obtain ⟨hsimple, -⟩ := List.cons.inj ha
    rcases lowerSimple_cases a with hsame | ⟨hlow, hhigh, hshift⟩ | ⟨r, hr, hholds, hshift⟩
    · rw [← hsame, hsimple]
    · have hc := toNat_ofNat (a.toNat + 32)
      rw [← hshift, hsimple] at hc
      have := h.latin
      have := h.pos
      omega
    · have hc := toNat_ofNat (Int.toNat (a.toNat + r.offset))
      rw [← hshift, hsimple] at hc
      have := (h.runs r hr _ hholds).2
      have := h.pos
      omega

/-- No other character has the lower case of a parenthesis or of a blank. -/
theorem eq_of_lower_eq {a c : Char} (hc : isCaseless c = true) (h : lower a = lower c) : a = c := by
  have hapart := apart_of_isCaseless hc
  rw [hapart.lower_eq] at h
  exact hapart.eq_of_lower h

theorem eq_iff_of_lower_eq {a b c : Char} (hc : isCaseless c = true) (h : lower a = lower b) :
    a = c ↔ b = c := by
  constructor
  · rintro rfl
    exact eq_of_lower_eq hc h.symm
  · rintro rfl
    exact eq_of_lower_eq hc h

theorem isBlank_eq_of_lower_eq {a b : Char} (h : lower a = lower b) : isBlank a = isBlank b := by
  rw [Bool.eq_iff_iff]
  constructor
  · intro ha
    rw [eq_of_lower_eq (isCaseless_of_isBlank ha) h.symm]
    exact ha
  · intro hb
    rw [eq_of_lower_eq (isCaseless_of_isBlank hb) h]
    exact hb

theorem Alike.trimStart {s t : Text} (h : Alike s t) : Alike (trimStart s) (trimStart t) := by
  induction h with
  | nil => exact .nil
  | @cons a b s t hab hst ih =>
      unfold Text.trimStart at ih ⊢
      rw [List.dropWhile_cons, List.dropWhile_cons, isBlank_eq_of_lower_eq hab]
      split
      · exact ih
      · exact .cons hab hst

end CommandConsole.Text

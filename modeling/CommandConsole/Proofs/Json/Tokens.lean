import CommandConsole.Json.Tree
import CommandConsole.Proofs.Text.Rules

set_option autoImplicit false

/-!
# The tokens of a JSON text and how deep they nest

A token takes at least one character, so a text is cut into tokens without looking whether
something was read (`tokens_eq`), and there are at most as many tokens as characters.

The machine over the tokens keeps no count of what is open.  It needs none: an array or object that
is read to its end has taken two tokens of its own, so a value is never nested deeper than half of
its text is long (`depth_le_of_ofText?`).
-/

namespace CommandConsole.Json

open Text (ProperEnd Rule)
open Text.Rule (Leaves Shortens)

/-! ## Tokens -/

namespace Numeral

theorem readDigits_shortens : Shortens readDigits := by
  intro t digits rest h
  unfold readDigits at h
  cases t with
  | nil => cases h
  | cons c u =>
      by_cases hc : Number.isDigit c = true
      · rw [List.takeWhile_cons_of_pos hc, List.dropWhile_cons_of_pos hc] at h
        cases h
        exact .cons (List.dropWhile_suffix _) c
      · rw [List.takeWhile_cons_of_neg hc] at h
        cases h

theorem readWhole_shortens : Shortens readWhole := by
  intro t digits rest h
  unfold readWhole at h
  split at h
  · cases h
    exact .cons List.suffix_rfl '0'
  · exact readDigits_shortens t digits rest h

theorem readFraction_leaves : Leaves readFraction := by
  intro t digits rest h
  unfold readFraction at h
  split at h
  · exact (readDigits_shortens.leaves.map some _ digits rest h).trans (List.suffix_cons '.' _)
  · cases h
    exact List.suffix_rfl

theorem readExponent_leaves : Leaves readExponent := by
  intro t n rest h
  unfold readExponent at h
  split at h
  · cases h
    exact List.suffix_rfl
  · rename_i c u
    split at h
    · obtain ⟨p, hp, heq⟩ := Option.map_eq_some_iff.1 h
      cases heq
      have hsign := (Number.splitSign_isSuffix u).trans (List.suffix_cons c u)
      exact (readDigits_shortens.leaves _ p.1 p.2 hp).trans hsign
    · cases h
      exact List.suffix_rfl

theorem readSign_isSuffix (t : Text) : (readSign t).2 <:+ t := by
  unfold readSign
  split
  · exact List.suffix_cons '-' _
  · exact List.suffix_rfl

theorem read_shortens : Shortens read := by
  intro t n rest h
  obtain ⟨⟨whole, t₁⟩, hwhole, h⟩ := Option.bind_eq_some_iff.1 h
  obtain ⟨⟨fraction, t₂⟩, hfraction, h⟩ := Option.bind_eq_some_iff.1 h
  obtain ⟨⟨exponent, t₃⟩, hexponent, h⟩ := Option.bind_eq_some_iff.1 h
  cases h
  have h₁ : ProperEnd t₁ t := (readWhole_shortens _ _ _ hwhole).trans_suffix (readSign_isSuffix t)
  have h₃ := (readExponent_leaves _ _ _ hexponent).trans (readFraction_leaves _ _ _ hfraction)
  exact h₁.suffix_trans h₃

end Numeral

theorem exists_of_consPoint {point : Option Nat} {read : Option (Points × Text)} {s : Points}
    {rest : Text} (h : consPoint point read = some (s, rest)) : ∃ s', read = some (s', rest) := by
  obtain ⟨n, -, h⟩ := Option.bind_eq_some_iff.1 h
  obtain ⟨⟨s', rest'⟩, hread, h⟩ := Option.bind_eq_some_iff.1 h
  cases h
  exact ⟨s', hread⟩

theorem readString_leaves : Leaves readString := by
  intro t
  fun_induction readString t with
  | case1 => nofun
  | case2 u =>
      intro s rest h
      cases h
      exact List.suffix_cons _ u
  | case3 a b c d u ih =>
      intro s rest h
      obtain ⟨s', hread⟩ := exists_of_consPoint h
      exact (ih s' rest hread).trans (List.suffix_append ['\\', 'u', a, b, c, d] u)
  | case4 c u _ ih =>
      intro s rest h
      obtain ⟨s', hread⟩ := exists_of_consPoint h
      exact (ih s' rest hread).trans (List.suffix_append ['\\', c] u)
  | case5 => nofun
  | case6 c u _ _ _ _ ih =>
      intro s rest h
      obtain ⟨s', hread⟩ := exists_of_consPoint h
      exact (ih s' rest hread).trans (List.suffix_cons c u)

theorem Token.read_shortens : Shortens Token.read := by
  intro t token rest h
  unfold Token.read at h
  split at h
  · cases h
    exact .cons List.suffix_rfl _
  · cases h
    exact .cons List.suffix_rfl _
  · cases h
    exact .cons List.suffix_rfl _
  · cases h
    exact .cons List.suffix_rfl _
  · cases h
    exact .cons List.suffix_rfl _
  · cases h
    exact .cons List.suffix_rfl _
  · cases h
    exact .cons (List.suffix_append ['u', 'l', 'l'] rest) 'n'
  · cases h
    exact .cons (List.suffix_append ['r', 'u', 'e'] rest) 't'
  · cases h
    exact .cons (List.suffix_append ['a', 'l', 's', 'e'] rest) 'f'
  · exact .cons (readString_leaves.map Token.string _ token rest h) _
  · exact Numeral.read_shortens.map Token.number t token rest h

/-- A token and the blanks after it. -/
def readSpaced : Rule Token := fun t => (Token.read t).map fun p => (p.1, p.2.dropWhile isBlank)

theorem readSpaced_shortens : Shortens readSpaced := by
  intro t token rest h
  obtain ⟨p, hp, heq⟩ := Option.map_eq_some_iff.1 h
  cases heq
  exact (Token.read_shortens t p.1 p.2 hp).suffix_trans (List.dropWhile_suffix isBlank)

theorem tokens?_eq (t : Text) : tokens? t = Rule.all readSpaced (t.dropWhile isBlank) := rfl

/-- The tokens of a text are read without looking whether something was read. -/
theorem tokens_eq {t : Text} (ht : t ≠ []) :
    Rule.all readSpaced t =
      (readSpaced t).bind fun p => (Rule.all readSpaced p.2).map (p.1 :: ·) :=
  Rule.all_eq (fun t token rest _ h => (readSpaced_shortens t token rest h).length_lt) ht

/-- A text has at most as many tokens as characters. -/
theorem length_tokens_le {t : Text} {tokens : List Token} (h : tokens? t = some tokens) :
    tokens.length ≤ t.length :=
  Nat.le_trans (Rule.length_le_of_all (tokens?_eq t ▸ h)) (List.dropWhile_suffix isBlank).length_le

/-! ## Depth -/

namespace Tree

@[simp]
theorem itemsDepth_append (items items' : List Tree) :
    itemsDepth (items ++ items') = max (itemsDepth items) (itemsDepth items') := by
  induction items with
  | nil => exact (Nat.zero_max _).symm
  | cons t items ih => rw [List.cons_append, itemsDepth, itemsDepth, ih, Nat.max_assoc]

@[simp]
theorem entriesDepth_append (entries entries' : List (Points × Tree)) :
    entriesDepth (entries ++ entries') = max (entriesDepth entries) (entriesDepth entries') := by
  induction entries with
  | nil => exact (Nat.zero_max _).symm
  | cons e entries ih =>
      rw [List.cons_append, entriesDepth, entriesDepth, ih, Nat.max_assoc]

end Tree

/-- How deep the values are nested that an open array or object holds so far. -/
def Frame.depth : Frame → Nat
  | .array items => Tree.itemsDepth items
  | .object entries _ => Tree.entriesDepth entries

/-- How deep a value will be nested at least, when something inside of the frames is nested so
deep. -/
def depthWithin : List Frame → Nat → Nat
  | [], d => d
  | f :: frames, d => depthWithin frames (max f.depth d + 1)

theorem depthWithin_mono {d d' : Nat} (h : d ≤ d') (frames : List Frame) :
    depthWithin frames d ≤ depthWithin frames d' := by
  induction frames generalizing d d' with
  | nil => exact h
  | cons f frames ih => exact ih (by omega)

theorem depthWithin_succ_le (frames : List Frame) (d : Nat) :
    depthWithin frames (d + 1) ≤ depthWithin frames d + 1 := by
  induction frames generalizing d with
  | nil => exact Nat.le_refl _
  | cons f frames ih =>
      exact Nat.le_trans (depthWithin_mono (by omega) frames) (ih (max f.depth d + 1))

namespace Reading

/-- How deep what was read is nested. -/
def depth (r : Reading) : Nat :=
  match r.position with
  | .value => depthWithin r.frames 0
  | .firstItem | .firstKey => depthWithin r.frames 1
  | .key entries | .colon entries _ => depthWithin r.frames (Tree.entriesDepth entries + 1)
  | .read t => depthWithin r.frames t.depth

/-- Number of arrays and objects that are open. -/
def opened (r : Reading) : Nat :=
  match r.position with
  | .value | .read _ => r.frames.length
  | .firstItem | .firstKey | .key _ | .colon _ _ => r.frames.length + 1

/-- So many tokens suffice for what was read: two for each array or object around what is nested
deepest, less those that are still to close. -/
def Costs (r : Reading) (n : Nat) : Prop := 2 * r.depth ≤ n + r.opened

variable {r r' : Reading} {token : Token} {n : Nat}

theorem depth_of_scalar? {t : Tree} (h : scalar? token = some t) : t.depth = 0 := by
  unfold scalar? at h
  split at h
  · cases h
    rfl
  · cases h
    rfl
  · cases h
    rfl
  · cases h
    rfl
  · cases h

/-- A value that begins opens one level, or none. -/
theorem costs_of_start {frames : List Frame}
    (h : 2 * depthWithin frames 0 ≤ n + frames.length) (hstart : start frames token = some r') :
    r'.Costs (n + 1) := by
  have hone : depthWithin frames 1 ≤ depthWithin frames 0 + 1 := depthWithin_succ_le frames 0
  unfold start at hstart
  split at hstart
  · cases hstart
    simp only [Costs, depth, opened]
    omega
  · cases hstart
    simp only [Costs, depth, opened]
    omega
  · obtain ⟨t, ht, rfl⟩ := Option.map_eq_some_iff.1 hstart
    simp only [Costs, depth, opened, depth_of_scalar? ht]
    omega

/-- After a value the frame around it goes on or is closed, and is nested as deep as before. -/
theorem costs_of_resume {frames : List Frame} {t : Tree}
    (h : 2 * depthWithin frames t.depth ≤ n + frames.length)
    (hresume : resume t frames token = some r') : r'.Costs (n + 1) := by
  unfold resume at hresume
  split at hresume
  · cases hresume
    simp only [Costs, depth, opened, depthWithin, Frame.depth, Tree.itemsDepth_append,
      Tree.itemsDepth, List.length_cons, Nat.max_zero] at h ⊢
    omega
  · cases hresume
    simp only [Costs, depth, opened, depthWithin, Frame.depth, Tree.itemsDepth_append,
      Tree.itemsDepth, List.length_cons, Nat.max_zero, Tree.depth] at h ⊢
    omega
  · cases hresume
    simp only [Costs, depth, opened, depthWithin, Frame.depth, Tree.entriesDepth_append,
      Tree.entriesDepth, List.length_cons, Nat.max_zero] at h ⊢
    omega
  · cases hresume
    simp only [Costs, depth, opened, depthWithin, Frame.depth, Tree.entriesDepth_append,
      Tree.entriesDepth, List.length_cons, Nat.max_zero, Tree.depth] at h ⊢
    omega
  · cases hresume

/-- A token pays for what it opens, and what it closes has been paid for. -/
theorem Costs.step (h : r.Costs n) (hstep : r.step token = some r') : r'.Costs (n + 1) := by
  revert hstep
  unfold Costs depth opened at h
  fun_cases Reading.step r token with
  | case1 token hposition =>
      rw [hposition] at h
      exact costs_of_start h
  | case2 hposition =>
      rw [hposition] at h
      rintro ⟨⟩
      simp only [Costs, depth, opened, Tree.depth, Tree.itemsDepth, Nat.zero_add] at h ⊢
      omega
  | case3 token _ hposition =>
      rw [hposition] at h
      exact costs_of_start h
  | case4 hposition =>
      rw [hposition] at h
      rintro ⟨⟩
      simp only [Costs, depth, opened, Tree.depth, Tree.entriesDepth, Nat.zero_add] at h ⊢
      omega
  | case5 key hposition =>
      rw [hposition] at h
      rintro ⟨⟩
      simp only [Costs, depth, opened, Tree.entriesDepth, Nat.zero_add] at h ⊢
      omega
  | case6 entries key hposition =>
      rw [hposition] at h
      rintro ⟨⟩
      simp only [Costs, depth, opened] at h ⊢
      omega
  | case7 entries key hposition =>
      rw [hposition] at h
      rintro ⟨⟩
      simp only [Costs, depth, opened, depthWithin, Frame.depth, List.length_cons,
        Nat.max_zero] at h ⊢
      omega
  | case8 token t hposition =>
      rw [hposition] at h
      exact costs_of_resume h
  | case9 => nofun

theorem costs_of_foldlM {tokens : List Token} (h : r.Costs n)
    (hrun : tokens.foldlM Reading.step r = some r') : r'.Costs (n + tokens.length) := by
  induction tokens generalizing r n with
  | nil =>
      cases hrun
      exact h
  | cons token tokens ih =>
      rw [List.foldlM_cons] at hrun
      obtain ⟨r₁, hstep, hrest⟩ := Option.bind_eq_some_iff.1 hrun
      rw [List.length_cons, Nat.add_comm tokens.length, ← Nat.add_assoc]
      exact ih (h.step hstep) hrest

end Reading

/-- A value takes two tokens for each level of arrays and objects in it. -/
theorem depth_le_of_ofTokens? {tokens : List Token} {t : Tree}
    (h : Tree.ofTokens? tokens = some t) : 2 * t.depth ≤ tokens.length := by
  obtain ⟨⟨frames, position⟩, hrun, hresult⟩ := Option.bind_eq_some_iff.1 h
  have hstart : Reading.Costs {} 0 := Nat.le_refl 0
  have hcosts := Reading.costs_of_foldlM hstart hrun
  unfold Reading.result? at hresult
  split at hresult
  · rename_i hframes hposition
    cases hframes
    cases hposition
    cases hresult
    rwa [Nat.zero_add] at hcosts
  · cases hresult

/-- A value is never nested deeper than half of its text is long. -/
theorem depth_le_of_ofText? {text : Text} {t : Tree} (h : Tree.ofText? text = some t) :
    2 * t.depth ≤ text.length := by
  obtain ⟨tokens, htokens, ht⟩ := Option.bind_eq_some_iff.1 h
  exact Nat.le_trans (depth_le_of_ofTokens? ht) (length_tokens_le htokens)

end CommandConsole.Json

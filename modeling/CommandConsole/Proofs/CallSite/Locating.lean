import CommandConsole.Proofs.CallSite.Innermost
import CommandConsole.Proofs.Text.Slicing

set_option autoImplicit false

/-!
# Where the innermost call is

A line may have many calls whose argument text has no parenthesis, and no two of them end at the
same byte.  `innermost?` finds the one that ends first, and finds none exactly if the line has
none: one scan, which keeps only the last opening parenthesis, misses nothing
(`locatesFirst`).

The offsets of the call lie between characters and in order, so the parts of the line around them
can be cut out, and the call can be replaced.
-/

namespace CommandConsole.CallSite

/-! ## Calls of a line -/

/-- The text has a word character directly followed by a text in parentheses that has none. -/
def HasCall (t : Text) : Prop :=
  ∃ u c args v, t = u ++ c :: '(' :: (args ++ ')' :: v) ∧ Text.isWordChar c = true ∧
    ∀ d ∈ args, d ≠ '(' ∧ d ≠ ')'

/-- The cut is around the call of the line that ends first. -/
structure IsFirst (line : Text) (s : CallSite) : Prop where
  cut : s.line = line
  call : s.IsCall
  /-- Every other call ends later. -/
  first : ∀ t : CallSite, t.line = line → t.IsCall → t = s ∨ s.stop < t.stop

/-- An opening parenthesis after a word character starts a call. -/
theorem exists_opened? (u : Text) {c : Char} (hc : Text.isWordChar c = true) :
    ∃ before name, opened? (c :: u) = some ⟨before, name, [], []⟩ := by
  unfold opened?
  rw [List.takeWhile_cons_of_pos hc]
  exact ⟨_, _, rfl⟩

theorem hasCall_iff {t : Text} : HasCall t ↔ ∃ s : CallSite, s.line = t ∧ s.IsCall := by
  constructor
  · rintro ⟨u, c, args, v, rfl, hc, hargs⟩
    obtain ⟨before, name, hopened⟩ := exists_opened? u.reverse hc
    have hcut := (opens_opened? hopened).text
    have hcall := isCall_opened? hopened
    refine ⟨⟨before, name, args, v⟩, ?_, hcall.word, hcall.named, hargs, hcall.whole⟩
    simpa [line] using congrArg (· ++ (args ++ ')' :: v)) hcut
  · rintro ⟨s, rfl, hs⟩
    obtain ⟨front, c, hname⟩ := (List.eq_nil_or_concat s.name).resolve_left hs.named
    refine ⟨s.before ++ front, c, s.args, s.after, ?_, hs.word c (by simp [hname]), hs.flat⟩
    simp [line, hname]

/-! ## Offsets -/

/-- The offsets of a call, and what they cut out of its line. -/
structure Offsets (line : Text) (s : CallSite) : Prop where
  start : s.start = Text.byteSize s.before
  stop : s.stop = Text.byteSize (s.before ++ s.name ++ '(' :: s.args ++ [')'])
  start_lt_stop : s.start < s.stop
  stop_le : s.stop ≤ Text.byteSize line
  before : Text.slice? line 0 s.start = some s.before
  name : Text.slice? line s.start (s.start + Text.byteSize s.name) = some s.name
  args : Text.slice? line (s.start + Text.byteSize s.name + 1) (s.stop - 1) = some s.args
  after : Text.slice? line s.stop (Text.byteSize line) = some s.after
  replace : ∀ t, Text.splice? line s.start s.stop t = some (s.replace t)

theorem stop_eq (s : CallSite) :
    s.stop = Text.byteSize (s.before ++ s.name ++ '(' :: s.args ++ [')']) := by
  have hopen : '('.utf8Size = 1 := rfl
  have hclose : ')'.utf8Size = 1 := rfl
  simp only [stop, start, Text.byteSize_append, Text.byteSize_cons, Text.byteSize_nil, hopen,
    hclose]
  omega

theorem stop_add_after (s : CallSite) :
    s.stop + Text.byteSize s.after = Text.byteSize s.line := by
  rw [stop_eq, ← Text.byteSize_append]
  simp [line]

theorem offsets_line (s : CallSite) : Offsets s.line s where
  start := rfl
  stop := s.stop_eq
  start_lt_stop := by
    unfold stop
    omega
  stop_le := by
    rw [← stop_add_after]
    omega
  before := by
    have hslice := Text.slice?_append [] s.before (s.name ++ '(' :: (s.args ++ ')' :: s.after))
    rwa [Text.byteSize_nil, Nat.zero_add] at hslice
  name := Text.slice?_append s.before s.name ('(' :: (s.args ++ ')' :: s.after))
  args := by
    have hslice := Text.slice?_append (s.before ++ s.name ++ ['(']) s.args (')' :: s.after)
    have hsize : Text.byteSize (s.before ++ s.name ++ ['(']) =
        s.start + Text.byteSize s.name + 1 := by
      rw [Text.byteSize_append, Text.byteSize_append]
      rfl
    have hstop : s.start + Text.byteSize s.name + 1 + Text.byteSize s.args = s.stop - 1 := rfl
    rw [hsize, hstop] at hslice
    simpa [line] using hslice
  after := by
    have hslice := Text.slice?_append (s.before ++ s.name ++ '(' :: s.args ++ [')']) s.after []
    rw [← stop_eq, stop_add_after] at hslice
    simpa [line] using hslice
  replace t := by
    have hsplice := Text.splice?_append s.before (s.name ++ '(' :: s.args ++ [')']) s.after t
    have hstop : Text.byteSize s.before + Text.byteSize (s.name ++ '(' :: s.args ++ [')']) =
        s.stop := by
      rw [← Text.byteSize_append, stop_eq]
      simp
    rw [hstop] at hsplice
    simpa [line, replace, start] using hsplice

/-! ## What is located -/

/-- No call of a line ends where another does, or before the one that is found. -/
theorem first_of_innermost? {s : CallSite} {line : Text} (h : innermost? line = some s)
    {t : CallSite} (hline : t.line = line) (ht : t.IsCall) : t = s ∨ s.stop < t.stop := by
  obtain ⟨s', hfound, rfl | ⟨-, v, hafter⟩⟩ := exists_innermost? ht
  · rw [hline, h] at hfound
    exact Or.inl (Option.some.inj hfound).symm
  · rw [hline, h] at hfound
    cases hfound
    have hstop := t.stop_add_after
    rw [hline, ← line_of_innermost? h, ← stop_add_after, hafter] at hstop
    simp only [Text.byteSize_append, Text.byteSize_cons] at hstop
    have hclose := ')'.utf8Size_pos
    exact Or.inr (by omega)

theorem innermost?_eq_some_iff {line : Text} {s : CallSite} :
    innermost? line = some s ↔ IsFirst line s := by
  constructor
  · intro h
    exact ⟨line_of_innermost? h, isCall_of_innermost? h, fun t hline ht =>
      first_of_innermost? h hline ht⟩
  · rintro ⟨rfl, hcall, hfirst⟩
    obtain ⟨s', hfound, -⟩ := exists_innermost? hcall
    have hs' := hfirst s' (line_of_innermost? hfound) (isCall_of_innermost? hfound)
    have hs := first_of_innermost? hfound rfl hcall
    rcases hs with rfl | hs
    · exact hfound
    · rcases hs' with rfl | hs'
      · exact hfound
      · omega

theorem innermost?_eq_none_iff {line : Text} : innermost? line = none ↔ ¬ HasCall line := by
  rw [hasCall_iff]
  constructor
  · rintro h ⟨s, rfl, hs⟩
    obtain ⟨s', hfound, -⟩ := exists_innermost? hs
    rw [h] at hfound
    cases hfound
  · intro h
    cases hfound : innermost? line with
    | none => rfl
    | some s => exact absurd ⟨s, line_of_innermost? hfound, isCall_of_innermost? hfound⟩ h

/-- The innermost call is the call of the line that ends first; there is none exactly if the line
has no call; and its offsets cut the line where its parts end. -/
theorem locatesFirst (line : Text) :
    (∀ s, innermost? line = some s ↔ IsFirst line s) ∧
      (innermost? line = none ↔ ¬ HasCall line) ∧
        ∀ s, innermost? line = some s → Offsets line s := by
  refine ⟨fun s => innermost?_eq_some_iff, innermost?_eq_none_iff, fun s hs => ?_⟩
  have hoffsets := s.offsets_line
  rwa [line_of_innermost? hs] at hoffsets

end CommandConsole.CallSite

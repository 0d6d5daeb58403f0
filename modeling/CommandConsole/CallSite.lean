import CommandConsole.Text.Word

set_option autoImplicit false

/-!
# Innermost calls

A call is a word directly followed by an argument text in parentheses.  `innermost?` finds the
call that ends first among those whose argument text has no parenthesis, and cuts the line around
it into `before ++ name ++ "(" ++ args ++ ")" ++ after`.
-/

namespace CommandConsole

/-- A line cut around one call. -/
structure CallSite where
  before : Text
  name : Text
  args : Text
  after : Text
  deriving DecidableEq, Repr, Inhabited

namespace CallSite

/-- The line that was cut. -/
def line (s : CallSite) : Text :=
  s.before ++ (s.name ++ ('(' :: (s.args ++ (')' :: s.after))))

/-- The byte at which the name starts. -/
def start (s : CallSite) : Nat := Text.byteSize s.before

/-- The byte after the closing parenthesis. -/
def stop (s : CallSite) : Nat := s.start + Text.byteSize s.name + 1 + Text.byteSize s.args + 1

/-- The line with another text in the place of the call. -/
def replace (s : CallSite) (t : Text) : Text := s.before ++ (t ++ s.after)

/-- The call that an opening parenthesis starts after `seen`, which is the line before the
parenthesis with its last character first.  Without a name there is no call. -/
def opened? (seen : Text) : Option CallSite :=
  match seen.takeWhile Text.isWordChar with
  | [] => none
  | name => some ⟨(seen.dropWhile Text.isWordChar).reverse, name.reverse, [], []⟩

/-- The call with one more character of argument text, which is kept last character first until
the call closes. -/
def push (c : Char) (s : CallSite) : CallSite := { s with args := c :: s.args }

/-- The call closed before `after`. -/
def close (after : Text) (s : CallSite) : CallSite :=
  { s with args := s.args.reverse, after := after }

/-- Scans the rest of a line.  `seen` is the line up to here, last character first; `site` is the
call of the last opening parenthesis, if it has a name and none has closed since. -/
def scan (seen : Text) (site : Option CallSite) : Text → Option CallSite
  | [] => none
  | c :: rest =>
    if c = '(' then scan (c :: seen) (opened? seen) rest
    else if c = ')' then
      match site with
      | some s => some (s.close rest)
      | none => scan (c :: seen) none rest
    else scan (c :: seen) (site.map (push c)) rest

/-- The call that ends first among those whose argument text has no parenthesis. -/
def innermost? (line : Text) : Option CallSite := scan [] none line

/-! ## What a call site is -/

/-- The call of an opening parenthesis, as far as it has been scanned: it ends where the scan is,
and its name is a word. -/
structure Opens (seen : Text) (s : CallSite) : Prop where
  text : s.before ++ (s.name ++ ('(' :: s.args.reverse)) = seen.reverse
  word : ∀ c ∈ s.name, Text.isWordChar c = true
  named : s.name ≠ []

theorem opens_opened? {seen : Text} {s : CallSite} (h : opened? seen = some s) :
    Opens ('(' :: seen) s := by
  unfold opened? at h
  split at h
  · simp at h
  · rename_i name hn
    cases h
    refine ⟨?_, fun c hc => ?_, by simpa using hn⟩
    · rw [← List.append_assoc, ← List.reverse_append, List.takeWhile_append_dropWhile]
      simp
    · exact List.all_eq_true.1 List.all_takeWhile c (List.mem_reverse.1 hc)

theorem Opens.push {seen : Text} {s : CallSite} (h : Opens seen s) (c : Char) :
    Opens (c :: seen) (s.push c) := by
  refine ⟨?_, h.word, h.named⟩
  rw [List.reverse_cons, ← h.text]
  simp [CallSite.push]

/-- What a scan finds is a cut of the line at a call with a name. -/
theorem of_scan {seen rest : Text} {site : Option CallSite} {s : CallSite}
    (hsite : ∀ t, site = some t → Opens seen t) (h : scan seen site rest = some s) :
    s.line = seen.reverse ++ rest ∧ (∀ c ∈ s.name, Text.isWordChar c = true) ∧ s.name ≠ [] := by
  induction rest generalizing seen site with
  | nil => simp [scan] at h
  | cons c rest ih =>
    unfold scan at h
    split at h
    · rename_i hc
      subst hc
      have := ih (fun t ht => opens_opened? ht) h
      simpa using this
    · split at h
      · rename_i hc
        subst hc
        cases site with
        | none =>
          have := ih (by simp) h
          simpa using this
        | some t =>
          cases h
          have ht := hsite t rfl
          refine ⟨?_, ht.word, ht.named⟩
          rw [← ht.text]
          simp [line, close]
      · have hpush : ∀ t, site.map (push c) = some t → Opens (c :: seen) t := fun t ht => by
          obtain ⟨u, hu, rfl⟩ := Option.map_eq_some_iff.1 ht
          exact (hsite u hu).push c
        simpa using ih hpush h

/-- The cut loses nothing. -/
theorem line_of_innermost? {line : Text} {s : CallSite} (h : innermost? line = some s) :
    s.line = line := by
  simpa using (of_scan (by simp) h).1

/-- The name of a call holds word characters only. -/
theorem word_of_innermost? {line : Text} {s : CallSite} (h : innermost? line = some s) :
    ∀ c ∈ s.name, Text.isWordChar c = true :=
  (of_scan (by simp) h).2.1

end CallSite

end CommandConsole

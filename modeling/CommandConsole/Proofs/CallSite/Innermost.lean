import CommandConsole.CallSite
import CommandConsole.Proofs.Text.Trimming

set_option autoImplicit false

/-!
# The call that a scan finds

What `innermost?` finds is a call: a whole word, directly followed by an argument text without
parentheses between parentheses (`isCall_of_innermost?`).  Conversely, in a line with a call it
finds that one or one that ends earlier (`exists_innermost?`); so it finds every call before which
nothing is closed (`innermost?_line`), and it finds none in a text that closes nothing.
-/

namespace CommandConsole.CallSite

/-- The cut is around a call. -/
structure IsCall (s : CallSite) : Prop where
  word : ∀ c ∈ s.name, Text.isWordChar c = true
  named : s.name ≠ []
  /-- The argument text has no parenthesis. -/
  flat : ∀ c ∈ s.args, c ≠ '(' ∧ c ≠ ')'
  /-- The name is not the rest of a longer word. -/
  whole : ∀ c, s.before.getLast? = some c → Text.isWordChar c = false

/-! ## What is found -/

theorem isCall_opened? {seen : Text} {s : CallSite} (h : opened? seen = some s) : s.IsCall := by
  unfold opened? at h
  split at h
  · simp at h
  · rename_i name hname
    cases h
    refine ⟨?_, by simpa using hname, by simp, ?_⟩
    · intro c hc
      exact List.all_eq_true.1 List.all_takeWhile c (List.mem_reverse.1 hc)
    · intro c hc
      have := List.head?_dropWhile_not Text.isWordChar seen
      rw [List.getLast?_reverse] at hc
      rw [hc] at this
      simpa using this

theorem IsCall.push {s : CallSite} (h : s.IsCall) {c : Char} (hopen : c ≠ '(')
    (hclose : c ≠ ')') : (s.push c).IsCall := by
  refine ⟨h.word, h.named, ?_, h.whole⟩
  intro d hd
  rcases List.mem_cons.1 hd with rfl | hd
  · exact ⟨hopen, hclose⟩
  · exact h.flat d hd

theorem IsCall.close {s : CallSite} (h : s.IsCall) (after : Text) : (s.close after).IsCall :=
  ⟨h.word, h.named, fun c hc => h.flat c (List.mem_reverse.1 hc), h.whole⟩

theorem isCall_of_scan {seen rest : Text} {site : Option CallSite} {s : CallSite}
    (hsite : ∀ t, site = some t → t.IsCall) (h : scan seen site rest = some s) : s.IsCall := by
  induction rest generalizing seen site with
  | nil => simp [scan] at h
  | cons c rest ih =>
      unfold scan at h
      split at h
      · exact ih (fun t ht => isCall_opened? ht) h
      · rename_i hopen
        split at h
        · cases site with
          | none => exact ih (by simp) h
          | some t =>
              cases h
              exact (hsite t rfl).close rest
        · rename_i hclose
          refine ih ?_ h
          intro t ht
          obtain ⟨u, hu, rfl⟩ := Option.map_eq_some_iff.1 ht
          exact (hsite u hu).push hopen hclose

/-- What is found is a call. -/
theorem isCall_of_innermost? {line : Text} {s : CallSite} (h : innermost? line = some s) :
    s.IsCall :=
  isCall_of_scan (by simp) h

/-! ## What is not missed -/

section

variable (seen rest : Text) (site : Option CallSite)

theorem scan_open : scan seen site ('(' :: rest) = scan ('(' :: seen) (opened? seen) rest := by
  simp [scan]

theorem scan_unopened : scan seen none (')' :: rest) = scan (')' :: seen) none rest := by
  simp [scan]

theorem scan_close (s : CallSite) : scan seen (some s) (')' :: rest) = some (s.close rest) := by
  simp [scan]

theorem scan_flat {c : Char} (hopen : c ≠ '(') (hclose : c ≠ ')') :
    scan seen site (c :: rest) = scan (c :: seen) (site.map (push c)) rest := by
  simp [scan, hopen, hclose]

end

/-- What a scan makes of a text, whatever follows: it ends at a closing parenthesis of it, or goes
through it. -/
inductive Passes (seen : Text) (site : Option CallSite) (u : Text) : Prop where
  | ends (s : CallSite) (v : Text) (hmem : ')' ∈ u)
      (h : ∀ rest, scan seen site (u ++ rest) = some (s.close (v ++ rest)))
  | through (site' : Option CallSite)
      (h : ∀ rest, scan seen site (u ++ rest) = scan (u.reverse ++ seen) site' rest)

theorem Passes.cons {seen u : Text} {site site' : Option CallSite} {c : Char}
    (hu : Passes (c :: seen) site' u)
    (hc : ∀ rest, scan seen site (c :: rest) = scan (c :: seen) site' rest) :
    Passes seen site (c :: u) := by
  cases hu with
  | ends s v hmem h =>
      exact .ends s v (List.mem_cons_of_mem c hmem) fun rest => (hc (u ++ rest)).trans (h rest)
  | through site'' h =>
      refine .through site'' fun rest => ?_
      rw [List.reverse_cons, List.append_assoc]
      exact (hc (u ++ rest)).trans (h rest)

theorem scan_passes (seen : Text) (site : Option CallSite) (u : Text) : Passes seen site u := by
  induction u generalizing seen site with
  | nil => exact .through site fun rest => rfl
  | cons c u ih =>
      by_cases hopen : c = '('
      · subst hopen
        exact (ih ('(' :: seen) (opened? seen)).cons fun rest => scan_open seen rest site
      · by_cases hclose : c = ')'
        · subst hclose
          cases site with
          | none => exact (ih (')' :: seen) none).cons (scan_unopened seen)
          | some s => exact .ends s u List.mem_cons_self fun rest => scan_close seen (u ++ rest) s
        · exact (ih (c :: seen) (site.map (push c))).cons fun rest =>
            scan_flat seen rest site hopen hclose

theorem scan_args {args : Text} (hargs : ∀ c ∈ args, c ≠ '(' ∧ c ≠ ')') (seen after : Text)
    (s : CallSite) :
    scan seen (some s) (args ++ ')' :: after) =
      some { s with args := s.args.reverse ++ args, after := after } := by
  induction args generalizing seen s with
  | nil => simp [scan_close, close]
  | cons c args ih =>
      obtain ⟨hopen, hclose⟩ := hargs c List.mem_cons_self
      have hrest := ih (fun d hd => hargs d (List.mem_cons_of_mem _ hd)) (c :: seen) (s.push c)
      rw [List.cons_append, scan_flat _ _ _ hopen hclose, Option.map_some, hrest]
      simp [push]

/-- The call of an opening parenthesis is named by the whole word before it. -/
theorem opened?_of_word {before name : Text} (hname : ∀ c ∈ name, Text.isWordChar c = true)
    (hne : name ≠ []) (hwhole : ∀ c, before.getLast? = some c → Text.isWordChar c = false) :
    opened? (name.reverse ++ before.reverse) = some ⟨before, name, [], []⟩ := by
  have htake : before.reverse.takeWhile Text.isWordChar = [] := by
    cases hrev : before.reverse with
    | nil => rfl
    | cons c rest =>
        have hc : Text.isWordChar c = false := hwhole c (by rw [← List.head?_reverse, hrev]; rfl)
        simp [hc]
  have hword : ∀ c ∈ name.reverse, Text.isWordChar c = true := by
    intro c hc
    exact hname c (List.mem_reverse.1 hc)
  have hdrop : before.reverse.dropWhile Text.isWordChar = before.reverse := by
    have := List.takeWhile_append_dropWhile (p := Text.isWordChar) (l := before.reverse)
    rwa [htake, List.nil_append] at this
  unfold opened?
  rw [List.takeWhile_append_of_pos hword, List.dropWhile_append_of_pos hword, htake, hdrop,
    List.append_nil]
  split
  · rename_i h
    exact absurd (List.reverse_eq_nil_iff.1 h) hne
  · simp

/-- In a line with a call, that call is found, or one that ends before its name does. -/
theorem exists_innermost? {t : CallSite} (ht : t.IsCall) :
    ∃ s, innermost? t.line = some s ∧ (s = t ∨
      ')' ∈ t.before ∧ ∃ v, s.after = v ++ '(' :: (t.args ++ ')' :: t.after)) := by
  have hline : t.line = (t.before ++ t.name) ++ '(' :: (t.args ++ ')' :: t.after) := by
    simp [line]
  rw [innermost?, hline]
  cases scan_passes [] none (t.before ++ t.name) with
  | ends s v hmem h =>
      refine ⟨_, h _, Or.inr ⟨?_, v, rfl⟩⟩
      have hname : ')' ∉ t.name := Text.not_mem_of_word ht.word (by decide)
      exact (List.mem_append.1 hmem).resolve_right hname
  | through site h =>
      refine ⟨t, ?_, Or.inl rfl⟩
      rw [h, List.append_nil, List.reverse_append, scan_open,
        opened?_of_word ht.word ht.named ht.whole, scan_args ht.flat]
      rfl

/-- A call before which nothing is closed is found. -/
theorem innermost?_line {s : CallSite} (hs : s.IsCall) (hb : ')' ∉ s.before) :
    innermost? s.line = some s := by
  obtain ⟨t, hfound, rfl | ⟨hmem, -⟩⟩ := exists_innermost? hs
  · exact hfound
  · exact absurd hmem hb

/-- A text that closes nothing has no call. -/
theorem innermost?_eq_none {t : Text} (h : ')' ∉ t) : innermost? t = none := by
  cases scan_passes [] none t with
  | ends s v hmem _ => exact absurd hmem h
  | through site hscan =>
      have hend := hscan []
      rw [List.append_nil, List.append_nil] at hend
      rw [innermost?, hend, scan]

end CommandConsole.CallSite

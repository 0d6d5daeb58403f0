import CommandConsole.Suggestions
import CommandConsole.Proofs.Text.Trimming

set_option autoImplicit false

/-!
# Accepting a suggestion

A name is a word, so it has no parenthesis and no blank: with a name in the place of its partial
token a text keeps its head, and the name is its partial token (`head_accept`, `token_accept`).
The suggestions for that text are the names that begin like the name, and the name is one of them
(`mem_matching_self`).
-/

namespace CommandConsole

namespace Completion

/-! ## Scans -/

/-- What the scan of a text is, by what the text begins with. -/
inductive Scans : Text → Scan → Prop where
  | nil : Scans [] (.closers 0)
  /-- An open parenthesis that stands last is found whatever stands before it. -/
  | found {c : Char} {t head tail : Text} (ht : Scans t (.opened head tail)) :
      Scans (c :: t) (.opened (c :: head) tail)
  | opens {t : Text} (ht : Scans t (.closers 0)) : Scans ('(' :: t) (.opened ['('] t)
  | pairs {t : Text} {count : Nat} (ht : Scans t (.closers (count + 1))) :
      Scans ('(' :: t) (.closers count)
  | closes {t : Text} {count : Nat} (ht : Scans t (.closers count)) :
      Scans (')' :: t) (.closers (count + 1))
  | passes {c : Char} {t : Text} {count : Nat} (hopen : c ≠ '(') (hclose : c ≠ ')')
      (ht : Scans t (.closers count)) : Scans (c :: t) (.closers count)

theorem scans_scan (t : Text) : Scans t (scan t) := by
  induction t with
  | nil => exact .nil
  | cons c t ih =>
      rw [scan]
      cases hscan : scan t with
      | opened head tail => exact .found (hscan ▸ ih)
      | closers count =>
          rw [hscan] at ih
          dsimp only
          by_cases hopen : c = '('
          · subst hopen
            cases count with
            | zero => exact .opens ih
            | succ count => exact .pairs ih
          · rw [if_neg hopen]
            by_cases hclose : c = ')'
            · subst hclose
              exact .closes ih
            · rw [if_neg hclose]
              exact .passes hopen hclose ih

theorem Scans.scan_eq {t : Text} {x : Scan} (h : Scans t x) : scan t = x := by
  induction h with
  | nil => rfl
  | found _ ih => rw [scan, ih]
  | opens _ ih | pairs _ ih | closes _ ih =>
      rw [scan, ih]
      rfl
  | passes hopen hclose _ ih =>
      rw [scan, ih]
      dsimp only
      rw [if_neg hopen, if_neg hclose]

theorem scans_iff {t : Text} {x : Scan} : Scans t x ↔ scan t = x :=
  ⟨Scans.scan_eq, fun h => h ▸ scans_scan t⟩

theorem scans_of_flat {t : Text} (hopen : '(' ∉ t) (hclose : ')' ∉ t) : Scans t (.closers 0) := by
  induction t with
  | nil => exact .nil
  | cons c t ih =>
      rw [List.mem_cons, not_or] at hopen hclose
      exact .passes (Ne.symm hopen.1) (Ne.symm hclose.1) (ih hopen.2 hclose.2)

/-- What follows the last open parenthesis may be replaced by any text without parentheses. -/
theorem Scans.replace {t head tail name : Text} (h : Scans t (.opened head tail))
    (hopen : '(' ∉ name) (hclose : ')' ∉ name) : Scans (head ++ name) (.opened head name) := by
  generalize hx : Scan.opened head tail = x at h
  induction h generalizing head with
  | found ht ih =>
      cases hx
      exact .found (ih rfl)
  | opens ht =>
      cases hx
      exact .opens (scans_of_flat hopen hclose)
  | _ => cases hx

/-- The cut of a text with a name in the place of its partial token. -/
theorem cut_accept (t : Text) {name : Text} (h : ∀ c ∈ name, Text.isWordChar c = true) :
    cut (accept t name) = (head t, name) := by
  have hopen : '(' ∉ name := Text.not_mem_of_word h Text.isWordChar_open
  have hclose : ')' ∉ name := Text.not_mem_of_word h Text.isWordChar_close
  unfold accept head cut
  cases hscan : scan t with
  | opened front back =>
      dsimp only
      rw [((scans_iff.2 hscan).replace hopen hclose).scan_eq]
  | closers count =>
      dsimp only
      rw [List.nil_append, (scans_of_flat hopen hclose).scan_eq]

/-! ## Heads and tokens -/

theorem head_accept (t : Text) {name : Text} (h : ∀ c ∈ name, Text.isWordChar c = true) :
    head (accept t name) = head t := by
  rw [head, cut_accept t h]

theorem token_accept (t : Text) {name : Text} (h : ∀ c ∈ name, Text.isWordChar c = true) :
    token (accept t name) = name := by
  rw [token, cut_accept t h]
  exact Text.trimStart_of_first (Text.trimmed_of_word h).first

/-- A second name takes the place of the first. -/
theorem accept_accept (t other : Text) {name : Text}
    (h : ∀ c ∈ name, Text.isWordChar c = true) :
    accept (accept t name) other = accept t other := by
  rw [accept, head_accept t h]
  rfl

theorem accept_inj (t : Text) {name other : Text} : accept t name = accept t other ↔ name = other :=
  List.append_right_inj (head t)

/-- A text that ends with a word is not blank. -/
theorem trim_accept_ne_nil (t : Text) {name : Text} (hne : name ≠ [])
    (h : ∀ c ∈ name, Text.isWordChar c = true) : Text.trim (accept t name) ≠ [] := by
  obtain ⟨c, hc⟩ := List.exists_mem_of_ne_nil name hne
  have hmem : c ∈ Text.trim (accept t name) :=
    Text.mem_trim_of_not_blank (Text.not_isBlank_of_isWordChar (h c hc))
      (List.mem_append_right (head t) hc)
  exact List.ne_nil_of_mem hmem

end Completion

/-! ## The suggestions for a text -/

namespace Suggestions

theorem startsAlike_refl (name : Text) : startsAlike name name = true := by
  induction name with
  | nil => rfl
  | cons c name ih => rw [startsAlike, Text.alike_refl, ih, Bool.and_self]

theorem matching_sublist (token : Text) (names : List Text) :
    (matching token names).Sublist names := by
  unfold matching
  split
  · exact List.nil_sublist names
  · exact List.filter_sublist

/-- A name begins like itself. -/
theorem mem_matching_self {name : Text} {names : List Text} (hne : name ≠ [])
    (h : name ∈ names) : name ∈ matching name names := by
  unfold matching
  rw [if_neg (by simpa using hne)]
  exact List.mem_filter.2 ⟨h, startsAlike_refl name⟩

theorem names_refresh (text : Text) (names : List Text) (s : Suggestions) :
    (s.refresh text names).names = matching (Completion.token text) names := by
  unfold refresh
  dsimp only
  split <;> rfl

/-- The cursor keeps its place as far as there are suggestions. -/
theorem cursor_refresh {text : Text} {names : List Text} (s : Suggestions)
    (h : matching (Completion.token text) names ≠ []) :
    (s.refresh text names).cursor =
      s.cursor.map fun i => min i ((matching (Completion.token text) names).length - 1) := by
  unfold refresh
  dsimp only
  rw [if_neg (by simpa using h)]

end Suggestions

end CommandConsole

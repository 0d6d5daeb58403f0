import CommandConsole.Proofs.Transcript.Retention

set_option autoImplicit false

/-!
# Transcripts that keep their lines

A line gets lost before it is read only by a clearing, or by an eviction when the budget is
exceeded.  Acts that do neither keep every line: what they read, followed by what is left to read,
is what was to be read before, followed by what they push (`readBy_append_toRead`).

The flag for scrolling has no part in this.  `Does` says what acts lead to, up to the flag, and
`Reaches` that some acts lead there, whether these may read or not.
-/

namespace CommandConsole

namespace Transcript

open Line (totalCost)

variable {t t' t'' : Transcript}

/-- The lines that the next reading returns. -/
def toRead (t : Transcript) : List Line := t.takeUnread.1

/-! ## Acts that keep every line -/

/-- The lines that an act reads. -/
def Act.read (t : Transcript) : Act → List Line
  | push _ => []
  | extend _ => []
  | clear => []
  | takeUnread => t.toRead

/-- An act keeps every line: it is not the clearing, and what it pushes is within the budget. -/
def Act.Keeps (t : Transcript) (act : Act) : Prop :=
  act ≠ .clear ∧ (act.lines ≠ [] → t.characters + totalCost act.lines ≤ t.maxCharacters)

instance (t : Transcript) (act : Act) : Decidable (act.Keeps t) :=
  inferInstanceAs (Decidable (_ ∧ _))

/-- The lines that acts read, one after the other. -/
def readBy : List Act → Transcript → List Line
  | [], _ => []
  | act :: acts, t => act.read t ++ readBy acts (act.perform t)

/-- Acts, one after the other, keep every line. -/
def Keeps : List Act → Transcript → Prop
  | [], _ => True
  | act :: acts, t => act.Keeps t ∧ Keeps acts (act.perform t)

instance decidableKeeps : ∀ (acts : List Act) (t : Transcript), Decidable (Keeps acts t)
  | [], _ => inferInstanceAs (Decidable True)
  | act :: acts, t =>
    have := decidableKeeps acts (act.perform t)
    inferInstanceAs (Decidable (_ ∧ _))

theorem evict_of_le {budget characters : Nat} (h : characters ≤ budget) (lines : List Line) :
    evict budget lines characters = (lines, characters) := by
  cases lines with
  | nil => rfl
  | cons line rest =>
      cases rest with
      | nil => rfl
      | cons next rest => exact if_neg (Nat.not_lt.2 h)

theorem push_of_le {line : Line} (h : t.characters + line.cost ≤ t.maxCharacters) :
    t.push line = { t with
      lines := t.lines ++ [line]
      characters := t.characters + line.cost
      unread := min (t.unread + 1) (t.lines.length + 1)
      scroll := true } := by
  simp only [push, evict_of_le h, List.length_append, List.length_singleton]

theorem toRead_push {line : Line} (h : t.characters + line.cost ≤ t.maxCharacters) :
    (t.push line).toRead = t.toRead ++ [line] := by
  have hdrop : (t.lines ++ [line]).length - min (t.unread + 1) (t.lines.length + 1) =
      t.lines.length - t.unread := by
    rw [List.length_append, List.length_singleton]
    omega
  rw [push_of_le h]
  change (t.lines ++ [line]).drop ((t.lines ++ [line]).length - _) = _
  rw [hdrop, List.drop_append_of_le_length (Nat.sub_le _ _)]
  rfl

theorem toRead_extend {lines : List Line}
    (h : lines ≠ [] → t.characters + totalCost lines ≤ t.maxCharacters) :
    (t.extend lines).toRead = t.toRead ++ lines := by
  induction lines generalizing t with
  | nil => exact (List.append_nil _).symm
  | cons line lines ih =>
      have hle := h (List.cons_ne_nil _ _)
      rw [Line.totalCost_cons] at hle
      have hline : t.characters + line.cost ≤ t.maxCharacters := by omega
      have hrest : (t.push line).characters + totalCost lines ≤ (t.push line).maxCharacters := by
        rw [push_of_le hline]
        dsimp only
        omega
      have hread := ih fun _ => hrest
      rw [toRead_push hline, List.append_assoc] at hread
      exact hread

/-- Nothing is left to read after a reading. -/
theorem toRead_takeUnread (t : Transcript) : t.takeUnread.2.toRead = [] :=
  List.drop_length

/-- What an act reads, and what is left, is what was there and what it pushes. -/
theorem Act.read_append_toRead {act : Act} (h : act.Keeps t) :
    act.read t ++ (act.perform t).toRead = t.toRead ++ act.lines := by
  cases act with
  | push line =>
      have hle := h.2 (List.cons_ne_nil _ _)
      exact toRead_push hle
  | extend lines => exact toRead_extend h.2
  | clear => exact absurd rfl h.1
  | takeUnread =>
      have hread := toRead_takeUnread t
      exact congrArg (t.toRead ++ ·) hread

/-- What acts read, and what is left, is what was there and what they push. -/
theorem readBy_append_toRead {acts : List Act} (h : Keeps acts t) :
    readBy acts t ++ (acts.foldl Act.perform t).toRead = t.toRead ++ pushed acts := by
  induction acts generalizing t with
  | nil => exact (List.append_nil _).symm
  | cons act acts ih =>
      calc act.read t ++ readBy acts (act.perform t) ++
            (acts.foldl Act.perform (act.perform t)).toRead
          = act.read t ++ (act.perform t).toRead ++ pushed acts := by
            rw [List.append_assoc, ih h.2, List.append_assoc]
        _ = t.toRead ++ (act.lines ++ pushed acts) := by
            rw [Act.read_append_toRead h.1, List.append_assoc]

theorem readBy_of_not_mem {acts : List Act} (h : .takeUnread ∉ acts) (t : Transcript) :
    readBy acts t = [] := by
  induction acts generalizing t with
  | nil => rfl
  | cons act acts ih =>
      rw [List.mem_cons, not_or] at h
      have hact : act.read t = [] := by
        cases act with
        | takeUnread => exact absurd rfl h.1
        | push line | extend lines | clear => rfl
      rw [readBy, hact, ih h.2, List.nil_append]

/-! ## What acts lead to -/

/-- Acts lead from one transcript to another, up to the flag for scrolling. -/
def Does (acts : List Act) (t t' : Transcript) : Prop :=
  ∃ scroll, t' = { acts.foldl Act.perform t with scroll }

/-- Some acts lead from one transcript to another, and they read it only if that is allowed. -/
def Reaches (mayRead : Prop) (t t' : Transcript) : Prop :=
  ∃ acts, (.takeUnread ∈ acts → mayRead) ∧ Does acts t t'

theorem Does.toRead {acts : List Act} (h : Does acts t t') :
    t'.toRead = (acts.foldl Act.perform t).toRead := by
  obtain ⟨scroll, rfl⟩ := h
  rfl

theorem exists_extend_scroll (lines : List Line) (t : Transcript) (scroll : Bool) :
    ∃ scroll', { t with scroll }.extend lines = { t.extend lines with scroll := scroll' } := by
  cases lines with
  | nil => exact ⟨scroll, rfl⟩
  | cons line lines => exact ⟨(t.extend (line :: lines)).scroll, rfl⟩

/-- The flag matters to no act. -/
theorem exists_perform_scroll (act : Act) (t : Transcript) (scroll : Bool) :
    ∃ scroll', act.perform { t with scroll } = { act.perform t with scroll := scroll' } := by
  cases act with
  | push line => exact exists_extend_scroll [line] t scroll
  | extend lines => exact exists_extend_scroll lines t scroll
  | clear => exact ⟨scroll, rfl⟩
  | takeUnread => exact ⟨scroll, rfl⟩

theorem does_foldl_scroll (acts : List Act) (t : Transcript) (scroll : Bool) :
    Does acts t (acts.foldl Act.perform { t with scroll }) := by
  induction acts generalizing t scroll with
  | nil => exact ⟨scroll, rfl⟩
  | cons act acts ih =>
      obtain ⟨scroll', heq⟩ := exists_perform_scroll act t scroll
      rw [List.foldl_cons, heq]
      exact ih (act.perform t) scroll'

theorem Does.append {acts acts' : List Act} (h : Does acts t t') (h' : Does acts' t' t'') :
    Does (acts ++ acts') t t'' := by
  obtain ⟨scroll, rfl⟩ := h
  obtain ⟨scroll', rfl⟩ := h'
  obtain ⟨scroll'', heq⟩ := does_foldl_scroll acts' (acts.foldl Act.perform t) scroll
  exact ⟨scroll', by rw [heq, List.foldl_append]⟩

namespace Reaches

variable {mayRead : Prop}

theorem refl (t : Transcript) : Reaches mayRead t t :=
  ⟨[], fun hread => absurd hread List.not_mem_nil, t.scroll, rfl⟩

theorem trans (h : Reaches mayRead t t') (h' : Reaches mayRead t' t'') :
    Reaches mayRead t t'' := by
  obtain ⟨acts, hread, hacts⟩ := h
  obtain ⟨acts', hread', hacts'⟩ := h'
  exact ⟨acts ++ acts', fun h => (List.mem_append.1 h).elim hread hread', hacts.append hacts'⟩

theorem perform (act : Act) (hact : act ≠ .takeUnread) (t : Transcript) :
    Reaches mayRead t (act.perform t) :=
  ⟨[act], fun hread => absurd (List.mem_singleton.1 hread).symm hact, (act.perform t).scroll, rfl⟩

theorem scheduleScroll (t : Transcript) : Reaches mayRead t t.scheduleScroll.2 :=
  ⟨[], fun hread => absurd hread List.not_mem_nil, true, rfl⟩

end Reaches

end Transcript

end CommandConsole

import CommandConsole.Transcript
import Mathlib.Data.List.DropRight
import Mathlib.Data.Nat.PSub

set_option autoImplicit false

/-!
# What a transcript retains

The handles of a transcript share it, so all that is done to it, through any of them, is one
sequence of acts.  Lines are dropped one at a time, by what the lines cost at that moment.  Yet the
lines that are left are always the longest part, from the end, of what was pushed since the last
clearing that is within the budget; only a newest line that exceeds the budget by itself stays
nevertheless (`retains_longest`).

`run?` is a run whose subtractions fail below zero.  It never fails, so the truncated subtractions
of the program are exact.
-/

namespace CommandConsole

/-! ## Costs -/

namespace Line

/-- The characters of lines, and one more for the end of each. -/
def totalCost : List Line → Nat
  | [] => 0
  | line :: lines => line.text.length + 1 + totalCost lines

@[simp]
theorem totalCost_nil : totalCost [] = 0 := rfl

/-- A line costs what it adds to the characters of the lines. -/
@[simp]
theorem totalCost_cons (line : Line) (lines : List Line) :
    totalCost (line :: lines) = line.cost + totalCost lines := rfl

@[simp]
theorem totalCost_append (lines lines' : List Line) :
    totalCost (lines ++ lines') = totalCost lines + totalCost lines' := by
  induction lines with
  | nil => simp
  | cons line lines ih => rw [List.cons_append, totalCost_cons, totalCost_cons, ih, Nat.add_assoc]

end Line

namespace Transcript

open Line (totalCost)

/-! ## What is to be retained -/

/-- Of the lines that were pushed, those are kept that a budget allows, from the newest on. -/
structure Retained (budget : Nat) (pushed kept : List Line) : Prop where
  isSuffix : kept <:+ pushed
  /-- The newest line is kept. -/
  newest : pushed ≠ [] → kept ≠ []
  /-- The lines are within the budget, or there is only the newest. -/
  within : totalCost kept ≤ budget ∨ kept.length = 1
  /-- No longer part from the end is within the budget. -/
  longest : ∀ lines, lines <:+ pushed → totalCost lines ≤ budget → lines <:+ kept

namespace Retained

variable {budget : Nat} {pushed kept kept' : List Line}

/-- The budget and the lines that were pushed determine what is kept. -/
theorem unique (h : Retained budget pushed kept) (h' : Retained budget pushed kept') :
    kept = kept' := by
  -- the shorter of two different lists would be a single line over the budget and part of the other
  have hle : ∀ {kept kept' : List Line}, Retained budget pushed kept →
      Retained budget pushed kept' → kept.length ≤ kept'.length := by
    intro kept kept' h h'
    rcases h.within with hcost | hone
    · exact (h'.longest kept h.isSuffix hcost).length_le
    · have hpushed : pushed ≠ [] := by
        rintro rfl
        rw [List.suffix_nil.1 h.isSuffix] at hone
        exact absurd hone (by decide)
      have hpos := List.length_pos_iff.2 (h'.newest hpushed)
      omega
  have hsame : kept.length = kept'.length := Nat.le_antisymm (hle h h') (hle h' h)
  have hsuffix : kept <:+ kept' :=
    List.suffix_of_suffix_length_le h.isSuffix h'.isSuffix hsame.le
  exact hsuffix.eq_of_length hsame

/-- What is kept may be cut down again after each further line, instead of once at the end. -/
theorem push (h : Retained budget pushed kept) {line : Line}
    (h' : Retained budget (kept ++ [line]) kept') : Retained budget (pushed ++ [line]) kept' where
  isSuffix := h'.isSuffix.trans (List.suffix_append_self_iff.2 h.isSuffix)
  newest _ := h'.newest (by simp)
  within := h'.within
  longest lines hlines hcost := by
    apply h'.longest lines _ hcost
    rcases List.suffix_concat_iff.1 hlines with rfl | ⟨older, rfl, holder⟩
    · exact List.nil_suffix
    · have holderCost : totalCost older ≤ budget := by
        rw [Line.totalCost_append] at hcost
        omega
      exact List.suffix_append_self_iff.2 (h.longest older holder holderCost)

theorem nil (budget : Nat) : Retained budget [] [] where
  isSuffix := List.suffix_rfl
  newest hne := hne
  within := Or.inl (Nat.zero_le budget)
  longest _ hlines _ := hlines

end Retained

/-! ## Subtractions that may fail -/

/-- `evict` by subtractions that fail below zero. -/
def evict? (budget : Nat) : List Line → Nat → Option (List Line × Nat)
  | line :: next :: rest, characters =>
    if budget < characters then
      (characters.psub line.cost).bind (evict? budget (next :: rest))
    else some (line :: next :: rest, characters)
  | lines, characters => some (lines, characters)

/-- `push` by subtractions that fail below zero. -/
def push? (line : Line) (t : Transcript) : Option Transcript :=
  (evict? t.maxCharacters (t.lines ++ [line]) (t.characters + line.cost)).map
    fun (lines, characters) =>
      { t with lines, characters, unread := min (t.unread + 1) lines.length, scroll := true }

/-- `extend` by subtractions that fail below zero. -/
def extend? (lines : List Line) (t : Transcript) : Option Transcript :=
  lines.foldlM (fun t line => push? line t) t

/-- `takeUnread` by subtractions that fail below zero. -/
def takeUnread? (t : Transcript) : Option (List Line × Transcript) :=
  (t.lines.length.psub t.unread).map fun k => (t.lines.drop k, { t with unread := 0 })

/-! ## Acts -/

/-- What can be done to a transcript. -/
inductive Act where
  | push (line : Line)
  | extend (lines : List Line)
  | clear
  | takeUnread
  deriving DecidableEq

namespace Act

/-- The lines that an act pushes. -/
def lines : Act → List Line
  | push line => [line]
  | extend lines => lines
  | clear => []
  | takeUnread => []

/-- The transcript after an act. -/
def perform (t : Transcript) : Act → Transcript
  | push line => t.push line
  | extend lines => t.extend lines
  | clear => t.clear
  | takeUnread => t.takeUnread.2

/-- The transcript after an act, by subtractions that fail below zero. -/
def perform? (t : Transcript) : Act → Option Transcript
  | push line => t.push? line
  | extend lines => t.extend? lines
  | clear => some t.clear
  | takeUnread => t.takeUnread?.map Prod.snd

end Act

/-- The transcript after acts on an empty one. -/
def run (budget : Nat) (acts : List Act) : Transcript := acts.foldl Act.perform (empty budget)

/-- The transcript after acts on an empty one, by subtractions that fail below zero. -/
def run? (budget : Nat) (acts : List Act) : Option Transcript :=
  acts.foldlM Act.perform? (empty budget)

/-- The acts since the last one of a kind, or all if there is none. -/
def since (mark : Act) (acts : List Act) : List Act := acts.rtakeWhile (· ≠ mark)

/-- The lines that acts push. -/
def pushed (acts : List Act) : List Line := acts.flatMap Act.lines

@[simp]
theorem run_concat (budget : Nat) (acts : List Act) (act : Act) :
    run budget (acts ++ [act]) = act.perform (run budget acts) :=
  List.foldl_concat ..

@[simp]
theorem since_concat_self (mark : Act) (acts : List Act) : since mark (acts ++ [mark]) = [] :=
  List.rtakeWhile_concat_neg _ _ _ (by simp)

theorem since_concat {mark act : Act} (h : act ≠ mark) (acts : List Act) :
    since mark (acts ++ [act]) = since mark acts ++ [act] :=
  List.rtakeWhile_concat_pos _ _ _ (by simpa using h)

@[simp]
theorem pushed_append (acts acts' : List Act) :
    pushed (acts ++ acts') = pushed acts ++ pushed acts' :=
  List.flatMap_append

@[simp]
theorem pushed_singleton (act : Act) : pushed [act] = act.lines := by
  simp [pushed]

/-- The lines since the last act of a kind are the last of all lines. -/
theorem pushed_since_suffix (mark : Act) (acts : List Act) :
    pushed (since mark acts) <:+ pushed acts := by
  obtain ⟨older, holder⟩ := List.rtakeWhile_suffix (· ≠ mark) acts
  exact ⟨pushed older, by rw [← pushed_append, since, holder]⟩

/-! ## One act -/

/-- The counters of a transcript agree with its lines. -/
structure Sound (t : Transcript) : Prop where
  characters : t.characters = totalCost t.lines
  unread_le : t.unread ≤ t.lines.length

/-- Eviction keeps what is to be retained and the account of it, and every cost that it subtracts
is part of the account. -/
theorem exists_evict (budget : Nat) (lines : List Line) :
    ∃ kept, Retained budget lines kept ∧
      evict budget lines (totalCost lines) = (kept, totalCost kept) ∧
      evict? budget lines (totalCost lines) = some (kept, totalCost kept) := by
  induction lines with
  | nil => exact ⟨[], .nil budget, rfl, rfl⟩
  | cons line rest ih =>
      cases rest with
      | nil =>
          refine ⟨[line], ⟨List.suffix_rfl, fun h => h, Or.inr rfl, fun _ h _ => h⟩, rfl, rfl⟩
      | cons next rest =>
          by_cases hover : budget < totalCost (line :: next :: rest)
          · obtain ⟨kept, hkept, hevict, hevict?⟩ := ih
            have hdrop : totalCost (line :: next :: rest) - line.cost =
                totalCost (next :: rest) := by
              rw [Line.totalCost_cons line]
              exact Nat.add_sub_cancel_left ..
            have hdrop? : (totalCost (line :: next :: rest)).psub line.cost =
                some (totalCost (next :: rest)) := by
              rw [Nat.psub_eq_some, Line.totalCost_cons line]
              exact Nat.add_comm _ _
            refine ⟨kept, ?_, ?_, ?_⟩
            · refine ⟨hkept.isSuffix.trans (List.suffix_cons line _),
                fun _ => hkept.newest (by simp), hkept.within, fun lines hlines hcost => ?_⟩
              -- what is within the budget does not reach back to the dropped line
              rcases List.suffix_cons_iff.1 hlines with rfl | hlines
              · exact absurd hcost (Nat.not_le.2 hover)
              · exact hkept.longest lines hlines hcost
            · rw [evict, if_pos hover, hdrop, hevict]
            · rw [evict?, if_pos hover, hdrop?, Option.bind_some, hevict?]
          · refine ⟨line :: next :: rest, ?_, ?_, ?_⟩
            · exact ⟨List.suffix_rfl, fun h => h, Or.inl (Nat.not_lt.1 hover), fun _ h _ => h⟩
            · rw [evict, if_neg hover]
            · rw [evict?, if_neg hover]

/-- Eviction spares the newest line, whatever the account says. -/
theorem getLast?_evict (budget : Nat) (lines : List Line) (characters : Nat) :
    (evict budget lines characters).1.getLast? = lines.getLast? := by
  induction lines generalizing characters with
  | nil => rfl
  | cons line rest ih =>
      cases rest with
      | nil => rfl
      | cons next rest =>
          rw [evict]
          split
          · rw [ih, List.getLast?_cons_cons]
          · rfl

/-- The last of the lines that are added is the newest of the transcript then. -/
theorem getLast?_extend {lines : List Line} (h : lines ≠ []) (t : Transcript) :
    (t.extend lines).lines.getLast? = lines.getLast? := by
  obtain ⟨front, line, rfl⟩ := (List.eq_nil_or_concat' lines).resolve_left h
  rw [extend, List.foldl_concat, List.getLast?_concat]
  exact (getLast?_evict _ _ _).trans List.getLast?_concat

/-- What a push does. -/
theorem exists_push {t : Transcript} (ht : t.Sound) (line : Line) :
    ∃ kept, Retained t.maxCharacters (t.lines ++ [line]) kept ∧
      t.push line = { t with
        lines := kept
        characters := totalCost kept
        unread := min (t.unread + 1) kept.length
        scroll := true } ∧
      t.push? line = some (t.push line) := by
  obtain ⟨kept, hkept, hevict, hevict?⟩ := exists_evict t.maxCharacters (t.lines ++ [line])
  have hcost : t.characters + line.cost = totalCost (t.lines ++ [line]) := by
    simp [ht.characters]
  have hpush : t.push line = { t with
      lines := kept
      characters := totalCost kept
      unread := min (t.unread + 1) kept.length
      scroll := true } := by
    rw [push, hcost, hevict]
  refine ⟨kept, hkept, hpush, ?_⟩
  rw [hpush, push?, hcost, hevict?]
  rfl

namespace Sound

variable {t : Transcript}

theorem push (ht : t.Sound) (line : Line) : (t.push line).Sound := by
  obtain ⟨kept, -, hpush, -⟩ := exists_push ht line
  rw [hpush]
  exact ⟨rfl, Nat.min_le_right _ _⟩

theorem extend (ht : t.Sound) (lines : List Line) :
    (t.extend lines).Sound ∧ t.extend? lines = some (t.extend lines) := by
  induction lines generalizing t with
  | nil => exact ⟨ht, rfl⟩
  | cons line lines ih =>
      obtain ⟨-, -, -, hpush?⟩ := exists_push ht line
      obtain ⟨hrest, hrest?⟩ := ih (ht.push line)
      refine ⟨hrest, ?_⟩
      rw [extend?, List.foldlM_cons, hpush?]
      exact hrest?

theorem takeUnread? (ht : t.Sound) : t.takeUnread? = some t.takeUnread := by
  rw [Transcript.takeUnread?, Nat.psub_eq_sub ht.unread_le]
  rfl

/-- An act keeps the counters right and needs no subtraction below zero. -/
theorem perform (ht : t.Sound) (act : Act) :
    (act.perform t).Sound ∧ act.perform? t = some (act.perform t) := by
  cases act with
  | push line =>
      obtain ⟨-, -, -, hpush?⟩ := exists_push ht line
      exact ⟨ht.push line, hpush?⟩
  | extend lines => exact ht.extend lines
  | clear => exact ⟨⟨rfl, Nat.le_refl 0⟩, rfl⟩
  | takeUnread => exact ⟨⟨ht.characters, Nat.zero_le _⟩, by rw [Act.perform?, ht.takeUnread?]; rfl⟩

end Sound

/-! ## Runs -/

theorem sound_empty (budget : Nat) : (empty budget).Sound := ⟨rfl, Nat.le_refl 0⟩

theorem sound_run (budget : Nat) (acts : List Act) : (run budget acts).Sound := by
  induction acts using List.reverseRecOn with
  | nil => exact sound_empty budget
  | append_singleton acts act ih => exact run_concat budget acts act ▸ (ih.perform act).1

/-- No subtraction goes below zero. -/
theorem run?_eq_some (budget : Nat) (acts : List Act) :
    run? budget acts = some (run budget acts) := by
  induction acts using List.reverseRecOn with
  | nil => rfl
  | append_singleton acts act ih =>
      obtain ⟨-, hact⟩ := (sound_run budget acts).perform act
      have hlast : [act].foldlM Act.perform? (run budget acts) =
          some (act.perform (run budget acts)) := by
        rw [List.foldlM_cons, hact]
        rfl
      rw [run?, List.foldlM_append, ← run?, ih, run_concat]
      exact hlast

theorem maxCharacters_extend (lines : List Line) (t : Transcript) :
    (t.extend lines).maxCharacters = t.maxCharacters := by
  induction lines generalizing t with
  | nil => rfl
  | cons line lines ih => exact ih (t.push line)

theorem maxCharacters_run (budget : Nat) (acts : List Act) :
    (run budget acts).maxCharacters = budget := by
  induction acts using List.reverseRecOn with
  | nil => rfl
  | append_singleton acts act ih =>
      rw [run_concat]
      cases act with
      | push line => exact ih
      | extend lines => exact (maxCharacters_extend lines _).trans ih
      | clear => exact ih
      | takeUnread => exact ih

theorem retained_push {t : Transcript} (ht : t.Sound) {lines : List Line}
    (h : Retained t.maxCharacters lines t.lines) (line : Line) :
    Retained t.maxCharacters (lines ++ [line]) (t.push line).lines := by
  obtain ⟨kept, hkept, hpush, -⟩ := exists_push ht line
  rw [hpush]
  exact h.push hkept

theorem retained_extend {t : Transcript} (ht : t.Sound) {lines : List Line}
    (h : Retained t.maxCharacters lines t.lines) (added : List Line) :
    Retained t.maxCharacters (lines ++ added) (t.extend added).lines := by
  induction added generalizing t lines with
  | nil => rwa [List.append_nil]
  | cons line added ih =>
      have hrest := ih (ht.push line) (retained_push ht h line)
      rwa [List.append_assoc] at hrest

/-- An act other than clearing adds its lines to what was pushed. -/
theorem retained_perform {t : Transcript} (ht : t.Sound) {budget : Nat}
    (hbudget : t.maxCharacters = budget) {lines : List Line} (h : Retained budget lines t.lines)
    {act : Act} (hact : act ≠ .clear) :
    Retained budget (lines ++ act.lines) (act.perform t).lines := by
  subst hbudget
  cases act with
  | push line => exact retained_push ht h line
  | extend added => exact retained_extend ht h added
  | clear => exact absurd rfl hact
  | takeUnread => rwa [Act.lines, List.append_nil]

theorem retained_run (budget : Nat) (acts : List Act) :
    Retained budget (pushed (since .clear acts)) (run budget acts).lines := by
  induction acts using List.reverseRecOn with
  | nil => exact .nil budget
  | append_singleton acts act ih =>
      rw [run_concat]
      by_cases hact : act = .clear
      · rw [hact, since_concat_self]
        exact .nil budget
      · rw [since_concat hact, pushed_append, pushed_singleton]
        exact retained_perform (sound_run budget acts) (maxCharacters_run budget acts) ih hact

/-- After any acts a transcript has exactly the longest part, from the end, of the lines since the
last clearing that is within the budget, and at least the newest of them; its account of their cost
is right, and no subtraction has gone below zero. -/
theorem retains_longest (budget : Nat) (acts : List Act) :
    (∀ kept, Retained budget (pushed (since .clear acts)) kept ↔ kept = (run budget acts).lines) ∧
      (run budget acts).characters = totalCost (run budget acts).lines ∧
      run? budget acts = some (run budget acts) := by
  have hretained := retained_run budget acts
  refine ⟨fun kept => ⟨fun hkept => hkept.unique hretained, ?_⟩, (sound_run budget acts).characters,
    run?_eq_some budget acts⟩
  rintro rfl
  exact hretained

end Transcript

end CommandConsole

set_option autoImplicit false

/-!
# Text

Every rule of this library reads or writes characters from the left, so a text is a list of
characters.  Offsets and sizes that callers see count UTF-8 bytes.  The module holds the few
operations on text that the rest of the library shares: byte size, search for a part, removal of
a given beginning or ending, joining, and membership of a code point in a list of intervals.
-/

namespace CommandConsole

/-- A text: its characters from first to last. -/
abbrev Text := List Char

namespace Text

/-- Number of bytes of the text in UTF-8. -/
def byteSize : Text → Nat
  | [] => 0
  | c :: rest => c.utf8Size + byteSize rest

@[simp] theorem byteSize_nil : byteSize [] = 0 := rfl

@[simp] theorem byteSize_cons (c : Char) (t : Text) : byteSize (c :: t) = c.utf8Size + byteSize t :=
  rfl

@[simp] theorem byteSize_append (s t : Text) : byteSize (s ++ t) = byteSize s + byteSize t := by
  induction s with
  | nil => simp
  | cons c s ih => simp [ih, Nat.add_assoc]

/-- Whether `part` stands somewhere in the text. -/
def contains (part : Text) : Text → Bool
  | [] => part.isEmpty
  | c :: rest => part.isPrefixOf (c :: rest) || contains part rest

theorem contains_iff (part t : Text) : contains part t = true ↔ part <:+: t := by
  induction t with
  | nil => simp [contains]
  | cons c rest ih => simp [contains, ih, List.infix_cons_iff]

/-- A part is no longer than the text it stands in. -/
theorem length_le_of_contains {part t : Text} (h : contains part t = true) :
    part.length ≤ t.length :=
  ((contains_iff part t).1 h).length_le

/-- The text after `start`, if the text begins so. -/
def dropStart? : Text → Text → Option Text
  | [], t => some t
  | _ :: _, [] => none
  | a :: start, c :: t => if a = c then dropStart? start t else none

theorem dropStart?_eq_some_iff (start t rest : Text) :
    dropStart? start t = some rest ↔ t = start ++ rest := by
  induction start generalizing t with
  | nil => simp [dropStart?]
  | cons a start ih =>
    cases t with
    | nil => simp [dropStart?]
    | cons c t =>
      by_cases h : a = c
      · subst h; simp [dropStart?, ih]
      · simp [dropStart?, h, Ne.symm h]

/-- The text before its last character, if that character is `c`. -/
def dropLast? (c : Char) (t : Text) : Option Text :=
  if t.getLast? = some c then some t.dropLast else none

theorem dropLast?_eq_some_iff (c : Char) (t front : Text) :
    dropLast? c t = some front ↔ t = front ++ [c] := by
  unfold dropLast?
  constructor
  · split
    · rename_i h
      intro hf
      cases hf
      obtain ⟨l, rfl⟩ := List.getLast?_eq_some_iff.1 h
      simp
    · simp
  · rintro rfl
    simp

/-- The texts with `separator` between neighbours. -/
def join (separator : Text) : List Text → Text
  | [] => []
  | [t] => t
  | t :: rest => t ++ separator ++ join separator rest

/-- The texts joined by a comma and a space. -/
def commaSeparated (ts : List Text) : Text := join [',', ' '] ts

/-- Whether one of the closed intervals holds the number. -/
def inRanges (ranges : List (Nat × Nat)) (n : Nat) : Bool :=
  ranges.any fun r => r.1 ≤ n && n ≤ r.2

end Text

end CommandConsole

import CommandConsole.Text.Basic

set_option autoImplicit false

/-!
# Blank characters and trimming

The blank characters are those with the Unicode property `White_Space`.  Trimming takes them off
an end; the statements say that a trimmed text is a part of the text and that what is taken off
is blank.
-/

namespace CommandConsole.Text

/-- The code points with the property `White_Space`. -/
def blankRanges : List (Nat × Nat) := [
  (0x9, 0xD), (0x20, 0x20), (0x85, 0x85), (0xA0, 0xA0), (0x1680, 0x1680), (0x2000, 0x200A),
  (0x2028, 0x2029), (0x202F, 0x202F), (0x205F, 0x205F), (0x3000, 0x3000)]

/-- Whether the character is blank. -/
def isBlank (c : Char) : Bool := inRanges blankRanges c.toNat

/-- Whether every character is blank. -/
def isAllBlank (t : Text) : Bool := t.all isBlank

/-- The text without its leading blanks. -/
def trimStart (t : Text) : Text := t.dropWhile isBlank

/-- The text without its trailing blanks. -/
def trimEnd : Text → Text
  | [] => []
  | c :: rest =>
    match trimEnd rest with
    | [] => if isBlank c then [] else [c]
    | kept => c :: kept

/-- The text without blanks at either end. -/
def trim (t : Text) : Text := trimEnd (trimStart t)

/-! ## What trimming leaves -/

theorem trimStart_isSuffix (t : Text) : trimStart t <:+ t := List.dropWhile_suffix _

theorem trimEnd_isPrefix (t : Text) : trimEnd t <+: t := by
  induction t with
  | nil => simp [trimEnd]
  | cons c rest ih =>
    unfold trimEnd
    split
    · split
      · exact List.nil_prefix
      · rw [List.cons_prefix_cons]; exact ⟨rfl, List.nil_prefix⟩
    · rw [List.cons_prefix_cons]; exact ⟨rfl, ih⟩

theorem trim_isInfix (t : Text) : trim t <:+: t :=
  (trimEnd_isPrefix _).isInfix.trans (trimStart_isSuffix t).isInfix

theorem length_trim_le (t : Text) : (trim t).length ≤ t.length := (trim_isInfix t).length_le

end CommandConsole.Text

import CommandConsole.Text.Alphanumeric

set_option autoImplicit false

/-!
# Words

Command names are words: non-empty runs of letters, numerals and underscores.  The statements
separate word characters from the punctuation that structures a line.
-/

namespace CommandConsole.Text

/-- Whether the character may stand in a command name. -/
def isWordChar (c : Char) : Bool := isAlphanumeric c || c == '_'

/-- Whether the text is a word: not empty, and all of it word characters. -/
def isWord (t : Text) : Bool := !t.isEmpty && t.all isWordChar

@[simp] theorem isWordChar_underscore : isWordChar '_' = true := by decide

@[simp] theorem isWordChar_open : isWordChar '(' = false := by decide

@[simp] theorem isWordChar_close : isWordChar ')' = false := by decide

@[simp] theorem isWordChar_comma : isWordChar ',' = false := by decide

theorem isWordChar_digit {c : Char} (hl : '0' ≤ c) (hu : c ≤ '9') : isWordChar c = true := by
  have h : c.toNat < 128 := by
    have : c.toNat ≤ '9'.toNat := hu
    exact Nat.lt_of_le_of_lt this (by decide)
  simp [isWordChar, isAlphanumeric, h, isLatinAlphanumeric, hl, hu]

end CommandConsole.Text

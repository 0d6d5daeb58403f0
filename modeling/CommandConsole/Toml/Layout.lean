import CommandConsole.Text.Rule

set_option autoImplicit false

/-!
# TOML layout

Blanks, line ends and comments.  Inside a line only spaces and tabs separate; between the items of
an array also line ends and comments.
-/

namespace CommandConsole.Toml

/-- Whether a character separates inside a line. -/
def isBlank (c : Char) : Bool := c == ' ' || c == '\t'

/-- Whether a character may stand in a comment or unescaped in a string: tabs, and all but control
characters. -/
def isPlain (c : Char) : Bool := c == '\t' || (32 ≤ c.toNat && c.toNat != 127)

/-- The text after its first spaces and tabs. -/
def skipBlanks (t : Text) : Text := t.dropWhile isBlank

/-- The text after a line end. -/
def dropNewline? : Text → Option Text
  | '\n' :: rest => some rest
  | '\r' :: '\n' :: rest => some rest
  | _ => none

/-- The text after blanks and line ends. -/
def skipSpace : Text → Text
  | [] => []
  | '\r' :: '\n' :: rest => skipSpace rest
  | c :: rest => if isBlank c || c == '\n' then skipSpace rest else c :: rest

/-- The text after a comment, if one begins here. -/
def skipComment : Text → Text
  | '#' :: rest => rest.dropWhile isPlain
  | t => t

/-- The text after the end of a line, before which blanks and a comment may stand. -/
def endLine? (t : Text) : Option Text :=
  match skipComment (skipBlanks t) with
  | [] => some []
  | t => dropNewline? t

/-- The text after blanks, line ends and comments; `inComment` says whether a comment has begun. -/
def skipGap (inComment : Bool) : Text → Text
  | [] => []
  | '\n' :: rest => skipGap false rest
  | '\r' :: '\n' :: rest => skipGap false rest
  | c :: rest =>
    if inComment then if isPlain c then skipGap true rest else c :: rest
    else if isBlank c then skipGap false rest
    else if c = '#' then skipGap true rest
    else c :: rest

/-- Nothing is read twice: what is left after a gap is an end of the text. -/
theorem skipGap_isSuffix (inComment : Bool) (t : Text) : skipGap inComment t <:+ t := by
  fun_induction skipGap inComment t with
  | case1 => exact List.suffix_rfl
  | case2 _ rest ih => exact ih.trans (List.suffix_cons _ _)
  | case3 _ rest ih => exact ih.trans ((List.suffix_cons _ _).trans (List.suffix_cons _ _))
  | case4 => rename_i ih; exact ih.trans (List.suffix_cons _ _)
  | case5 => exact List.suffix_rfl
  | case6 => rename_i ih; exact ih.trans (List.suffix_cons _ _)
  | case7 => rename_i ih; exact ih.trans (List.suffix_cons _ _)
  | case8 => exact List.suffix_rfl

end CommandConsole.Toml

import CommandConsole.Text.Visible

set_option autoImplicit false

/-!
# Quoted text

A text between double quotes, as a session shows a text result.  Quotes and backslashes are
preceded by a backslash, the common control characters have short names, and a character that
does not show by itself is named by its code point in hexadecimal.
-/

namespace CommandConsole.Text

/-- The code point of a character, in hexadecimal between braces. -/
def codePointEscape (c : Char) : Text :=
  ['\\', 'u', '\x7b'] ++ Nat.toDigits 16 c.toNat ++ ['\x7d']

/-- One character as it is written between quotes. -/
def quoteChar (c : Char) : Text :=
  match c with
  | '"' => ['\\', '"']
  | '\\' => ['\\', '\\']
  | '\t' => ['\\', 't']
  | '\r' => ['\\', 'r']
  | '\n' => ['\\', 'n']
  | '\x00' => ['\\', '0']
  | c => if isVisible c then [c] else codePointEscape c

/-- The text between double quotes. -/
def quote (t : Text) : Text := '"' :: (t.flatMap quoteChar ++ ['"'])

end CommandConsole.Text

import CommandConsole.Number.Radix
import CommandConsole.Toml.Layout

set_option autoImplicit false

/-!
# TOML strings

Two kinds of quotes, and each in one line or, tripled, over several.  Double quotes know escapes;
between single quotes every character stands for itself.  Tripled quotes end at the last three of
up to five quotes in a row.
-/

namespace CommandConsole.Toml

open Text (Rule)

/-! ## Parts of a string -/

/-- The character of a one-letter escape. -/
def escaped? : Char → Option Char
  | 'b' => some '\x08'
  | 't' => some '\t'
  | 'n' => some '\n'
  | 'f' => some '\x0c'
  | 'r' => some '\r'
  | '"' => some '"'
  | '\\' => some '\\'
  | _ => none

/-- The character with a code point in hexadecimal. -/
def charOfHex? (digits : Text) : Option Char :=
  (Number.valueIn? 16 digits).bind fun n => if n.isValidChar then some (Char.ofNat n) else none

/-- An escape after its backslash. -/
def escape : Rule Char
  | 'u' :: a :: b :: c :: d :: rest => (charOfHex? [a, b, c, d]).map (·, rest)
  | 'U' :: a :: b :: c :: d :: e :: f :: g :: h :: rest =>
    (charOfHex? [a, b, c, d, e, f, g, h]).map (·, rest)
  | c :: rest => (escaped? c).map (·, rest)
  | [] => none

/-- A character that stands for itself between quotes of one kind. -/
def plainPart (quote : Char) : Rule Text
  | c :: rest => if isPlain c ∧ c ≠ quote then some ([c], rest) else none
  | [] => none

/-- A character or an escape between double quotes. -/
def basicPart : Rule Text
  | '\\' :: rest => (escape rest).map fun p => ([p.1], p.2)
  | t => plainPart '"' t

/-- A line end inside a string. -/
def newlinePart (t : Text) : Option (Text × Text) := (dropNewline? t).map (['\n'], ·)

/-- A backslash at the end of a line takes away the line end and all blanks and line ends after
it. -/
def lineJoin? : Text → Option Text
  | '\\' :: rest => (dropNewline? (skipBlanks rest)).map skipSpace
  | _ => none

/-! ## Strings -/

/-- The quote that ends a string of one line. -/
def stop (quote : Char) : Rule Text
  | c :: rest => if c = quote then some ([], rest) else none
  | [] => none

/-- The three quotes that end a string of several lines, with up to two in front of them that
belong to the string. -/
def tripleStop (quote : Char) : Rule Text
  | a :: b :: c :: rest =>
    if a = quote ∧ b = quote ∧ c = quote then
      match rest with
      | d :: e :: rest =>
        if d = quote ∧ e = quote then some ([quote, quote], rest)
        else if d = quote then some ([quote], e :: rest)
        else some ([], d :: e :: rest)
      | [d] => if d = quote then some ([quote], []) else some ([], [d])
      | [] => some ([], [])
    else none
  | _ => none

/-- The parts of a string up to its end, put together. -/
def body (stop part : Rule Text) : Rule Text := fun t =>
  (Rule.upTo stop part t).map fun p => (p.1.1.flatten ++ p.1.2, p.2)

/-- A part of a string of several lines between single quotes. -/
def literalLinesPart : Rule Text
  | '\'' :: rest => some (['\''], rest)
  | t =>
    match newlinePart t with
    | some p => some p
    | none => plainPart '\'' t

/-- A part of a string of several lines between double quotes. -/
def basicLinesPart : Rule Text
  | '"' :: rest => some (['"'], rest)
  | t =>
    match lineJoin? t with
    | some rest => some ([], rest)
    | none =>
      match newlinePart t with
      | some p => some p
      | none => basicPart t

/-- A string of one line. -/
def lineString : Rule Text
  | '"' :: rest => body (stop '"') basicPart rest
  | '\'' :: rest => body (stop '\'') (plainPart '\'') rest
  | _ => none

/-- The text after a line end, if it begins with one. -/
def dropFirstNewline (t : Text) : Text := (dropNewline? t).getD t

/-- A string of any form. -/
def string : Rule Text
  | '"' :: '"' :: '"' :: rest => body (tripleStop '"') basicLinesPart (dropFirstNewline rest)
  | '\'' :: '\'' :: '\'' :: rest => body (tripleStop '\'') literalLinesPart (dropFirstNewline rest)
  | t => lineString t

end CommandConsole.Toml

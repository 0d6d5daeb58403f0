import CommandConsole.Text.Blank

set_option autoImplicit false

/-!
# The partial token

What is being typed is the text after the last parenthesis that is still open, or the whole text
when none is, less its leading blanks.  Completing it keeps everything up to and with that
parenthesis and puts a name in the place of the rest.
-/

namespace CommandConsole.Completion

/-- What a scan from the right knows of a text: either where its last open parenthesis stands
(the text up to and with it, and the text after it), or how many of its closing parentheses have
no opening one before them. -/
inductive Scan where
  | opened (head tail : Text)
  | closers (count : Nat)
  deriving DecidableEq, Repr, Inhabited

/-- The scan of a text. -/
def scan : Text → Scan
  | [] => .closers 0
  | c :: rest =>
    match scan rest with
    | .opened head tail => .opened (c :: head) tail
    | .closers count =>
      if c = '(' then
        match count with
        | 0 => .opened ['('] rest
        | count + 1 => .closers count
      else if c = ')' then .closers (count + 1)
      else .closers count

/-- The text up to and with its last open parenthesis, and what follows it.  Without an open
parenthesis everything follows. -/
def cut (t : Text) : Text × Text :=
  match scan t with
  | .opened head tail => (head, tail)
  | .closers _ => ([], t)

/-- The byte of the last open parenthesis. -/
def lastOpen? (t : Text) : Option Nat :=
  match scan t with
  | .opened head _ => some (Text.byteSize head - 1)
  | .closers _ => none

/-- The part of the text that a completion keeps. -/
def head (t : Text) : Text := (cut t).1

/-- The partial token. -/
def token (t : Text) : Text := Text.trimStart (cut t).2

/-- The text with a name in the place of its partial token. -/
def accept (t name : Text) : Text := head t ++ name

/-- Whether the text has a parenthesis of either kind. -/
def hasParenthesis (t : Text) : Bool := t.any fun c => c == '(' || c == ')'

theorem cut_append (t : Text) : (cut t).1 ++ (cut t).2 = t := by
  have h : ∀ head tail, scan t = .opened head tail → head ++ tail = t := by
    induction t with
    | nil => simp [scan]
    | cons c rest ih =>
      intro head tail hs
      unfold scan at hs
      split at hs
      · rename_i h0 t0 hr
        cases hs
        simp [ih _ _ hr]
      · split at hs
        · split at hs
          · cases hs
            simp_all
          · cases hs
        · split at hs <;> cases hs
  unfold cut
  split
  · exact h _ _ ‹_›
  · simp

end CommandConsole.Completion

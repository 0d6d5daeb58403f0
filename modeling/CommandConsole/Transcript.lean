import CommandConsole.Line

set_option autoImplicit false

/-!
# The transcript

The lines written so far, oldest first, under a budget of characters.  A line costs its characters
and one more.  When the budget is exceeded the oldest lines go, but the newest always stays.  The
transcript counts the lines that nobody has read yet, and remembers whether a view should scroll
to the end.
-/

namespace CommandConsole

/-- What a line takes of the budget. -/
def Line.cost (line : Line) : Nat := line.text.length + 1

/-- The retained lines. -/
structure Transcript where
  maxCharacters : Nat
  /-- Oldest first. -/
  lines : List Line := []
  /-- The cost of the retained lines. -/
  characters : Nat := 0
  /-- Number of lines, at the end, that nobody has read. -/
  unread : Nat := 0
  /-- Whether a scroll to the end has been requested. -/
  scroll : Bool := false
  deriving DecidableEq, Repr, Inhabited

namespace Transcript

/-- A transcript without lines. -/
def empty (maxCharacters : Nat) : Transcript := { maxCharacters }

/-- Drops the oldest of the lines while they cost more than the budget and more than one is left;
`characters` is what they cost. -/
def evict (budget : Nat) : List Line → Nat → List Line × Nat
  | line :: next :: rest, characters =>
    if budget < characters then evict budget (next :: rest) (characters - line.cost)
    else (line :: next :: rest, characters)
  | lines, characters => (lines, characters)

/-- Adds a line and requests a scroll to it. -/
def push (line : Line) (t : Transcript) : Transcript :=
  let (lines, characters) :=
    evict t.maxCharacters (t.lines ++ [line]) (t.characters + line.cost)
  { t with lines, characters, unread := min (t.unread + 1) lines.length, scroll := true }

/-- Adds lines in order. -/
def extend (lines : List Line) (t : Transcript) : Transcript :=
  lines.foldl (fun t line => t.push line) t

/-- Adds a line of regular output. -/
def info (text : Text) (t : Transcript) : Transcript := t.push (.info text)

/-- Adds a warning. -/
def warn (text : Text) (t : Transcript) : Transcript := t.push (.warn text)

/-- Drops every line. -/
def clear (t : Transcript) : Transcript := { t with lines := [], characters := 0, unread := 0 }

/-- The lines that nobody has read, which are then read. -/
def takeUnread (t : Transcript) : List Line × Transcript :=
  (t.lines.drop (t.lines.length - t.unread), { t with unread := 0 })

/-- Number of retained lines of a severity. -/
def count (severity : Severity) (t : Transcript) : Nat :=
  t.lines.countP fun line => line.severity == severity

/-- Requests a scroll to the end and answers whether none had been requested. -/
def scheduleScroll (t : Transcript) : Bool × Transcript := (!t.scroll, { t with scroll := true })

/-- Takes the request for a scroll back and answers whether there was one. -/
def takeScroll (t : Transcript) : Bool × Transcript := (t.scroll, { t with scroll := false })

end Transcript

end CommandConsole

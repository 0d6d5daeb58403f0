import CommandConsole.Toml.Table

set_option autoImplicit false

/-!
# TOML documents

A document is a list of statements, one a line: headers of tables, headers of arrays of tables,
and keys with their values.  It denotes a table, unless the statements contradict each other.
Arrays and tables between braces are nested to a limited depth, and paths are of limited length.
-/

namespace CommandConsole.Toml

open Text (Rule)

/-! ## Keys -/

/-- Whether a character may stand in a key without quotes. -/
def isKeyChar (c : Char) : Bool :=
  ('a' ≤ c && c ≤ 'z') || ('A' ≤ c && c ≤ 'Z') || Number.isDigit c || c == '-' || c == '_'

/-- One part of a key, which may be quoted. -/
def keyPart : Rule Text
  | [] => none
  | c :: rest =>
    if c = '"' ∨ c = '\'' then lineString (c :: rest)
    else if isKeyChar c then some ((c :: rest).takeWhile isKeyChar, rest.dropWhile isKeyChar)
    else none

/-- Depth and length from which on a document is refused. -/
def limit : Nat := 80

/-- The parts of a key with points between them and blanks around them. -/
def path : Rule (List Text) := fun t =>
  (Rule.separatedBy '.'
    (fun t => (keyPart (skipBlanks t)).map fun p => (p.1, skipBlanks p.2)) t).bind
    fun p => if p.1.length < limit then some p else none

/-! ## Values -/

/-- The items of an array and its end.  A comma may follow the last item. -/
def arrayItems (item : Rule Item) (t : Text) : Option (List Item × Text) :=
  match skipGap false t with
  | ']' :: rest => some ([], rest)
  | begun =>
    match item begun with
    | none => none
    | some (v, rest) =>
      match skipGap false rest with
      | ']' :: rest => some ([v], rest)
      | ',' :: rest =>
        if _shorter : rest.length < t.length then
          (arrayItems item rest).map fun p => (v :: p.1, p.2)
        else none
      | _ => none
termination_by t.length

/-- A key and its value. -/
def assignment (item : Rule Item) : Rule (List Text × Item) := fun t => do
  let (keys, t) ← path t
  let t ← after? '=' t
  let (v, t) ← item (skipBlanks t)
  some ((keys, v), skipBlanks t)

/-- The entries of a table between braces and its end. -/
def inlineEntries (item : Rule Item) : Rule (List (List Text × Item)) := fun t =>
  match skipBlanks t with
  | '\x7d' :: rest => some ([], rest)
  | t => do
    let (entries, t) ← Rule.separatedBy ',' (assignment item) t
    some (entries, ← after? '\x7d' t)

/-- A value with fewer than `depth` arrays and tables inside each other. -/
def item : Nat → Rule Item
  | 0, t => readScalar t
  | depth + 1, t =>
    match t with
    | '[' :: rest =>
      if depth = 0 then none else (arrayItems (item depth) rest).map fun p => (.array p.1, p.2)
    | '\x7b' :: rest =>
      if depth = 0 then none
      else (inlineEntries (item depth) rest).bind fun p => (inlineTable? p.1).map (·, p.2)
    | t => readScalar t

/-! ## Statements -/

/-- One line of a document. -/
inductive Statement where
  | blank
  | header (path : List Text)
  | element (path : List Text)
  | assign (path : List Text) (value : Item)
  deriving Inhabited

/-- The statement without what may follow it on its line. -/
def statementStart : Rule Statement
  | '[' :: '[' :: rest => do
    let (keys, t) ← path rest
    let t ← after? ']' t
    let t ← after? ']' t
    some (.element keys, t)
  | '[' :: rest => do
    let (keys, t) ← path rest
    let t ← after? ']' t
    some (.header keys, t)
  | t => (assignment (item limit) t).map fun p => (.assign p.1.1 p.1.2, p.2)

/-- One line. -/
def statement : Rule Statement := fun t =>
  let t := skipBlanks t
  match endLine? t with
  | some rest => some (.blank, rest)
  | none => (statementStart t).bind fun p => (endLine? p.2).map (p.1, ·)

/-- The statements of a document.  A mark of the byte order may stand in front. -/
def statements? (t : Text) : Option (List Statement) :=
  Rule.all statement ((Text.dropStart? ['\uFEFF'] t).getD t)

/-! ## The table of a document -/

/-- A document in the making: its table so far, and the path that the last header gave. -/
structure Draft where
  entries : Entries := []
  table : List Text := []

/-- Adds a statement. -/
def Draft.add (d : Draft) : Statement → Option Draft
  | .blank => some d
  | .header path =>
    (splitLast? path).bind fun p => (d.entries.define p.1 p.2).map fun es => ⟨es, path⟩
  | .element path =>
    (splitLast? path).bind fun p => (d.entries.extend p.1 p.2).map fun es => ⟨es, path⟩
  | .assign path v =>
    (splitLast? path).bind fun p =>
      (d.entries.giveAt d.table p.1 p.2 v).map fun es => { d with entries := es }

/-- The table that a document denotes. -/
def table? (t : Text) : Option (List (Text × Item)) := do
  let statements ← statements? t
  let draft ← statements.foldlM Draft.add {}
  some (entriesToItems draft.entries)

end CommandConsole.Toml

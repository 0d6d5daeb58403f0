import CommandConsole.Toml.Item

set_option autoImplicit false

/-!
# TOML tables in the making

A document names its tables bit by bit: by headers, by the paths of headers, and by dotted keys.
Which of these made a table decides who may add to it.  No key is given two values, a header
defines a table once, and dotted keys do not reach into a table that a header defined or a value.
The tables between braces follow the same rules on their own.
-/

namespace CommandConsole.Toml

/-- What made a table. -/
inductive Origin where
  /-- A header of its own, or the beginning of the document. -/
  | header
  /-- A header of one of its subtables. -/
  | subtable
  /-- A dotted key. -/
  | dottedKey
  deriving DecidableEq, Repr, Inhabited

/-- What a key has been given so far. -/
inductive Node where
  /-- A value, to which nothing can be added. -/
  | value (v : Item)
  | table (origin : Origin) (entries : List (Text × Node))
  /-- An array of tables, of which headers reach the last. -/
  | tables (earlier : List (List (Text × Node))) (last : List (Text × Node))
  deriving Inhabited

/-- The keys of a table in the order in which they came. -/
abbrev Entries := List (Text × Node)

namespace Entries

/-- Gives a key a node in place of the one it had, if any. -/
def put (key : Text) (n : Node) : Entries → Entries
  | [] => [(key, n)]
  | (k, old) :: rest => if k = key then (k, n) :: rest else (k, old) :: put key n rest

/-- Changes the table at the end of a path, making the tables on the way that are missing.  A
dotted key does not pass through a table with a header. -/
def reach (dotted : Bool) (change : Origin → Entries → Option Entries) :
    List Text → Origin → Entries → Option Entries
  | [], origin, entries => change origin entries
  | key :: path, _, entries =>
    match entries.lookup key with
    | none =>
      let origin := if dotted then .dottedKey else .subtable
      (reach dotted change path origin []).map fun es => put key (.table origin es) entries
    | some (.value _) => none
    | some (.table origin inner) =>
      if dotted ∧ origin = .header then none
      else (reach dotted change path origin inner).map fun es =>
        put key (.table origin es) entries
    | some (.tables earlier last) =>
      (reach dotted change path .header last).map fun es => put key (.tables earlier es) entries

/-- Gives a key of a table a value.  A dotted key gives one only to tables that dotted keys made,
and it alone does. -/
def give (path : List Text) (key : Text) (v : Item) (entries : Entries) : Option Entries :=
  reach true (fun origin es =>
    if decide (origin = .dottedKey) = path.isEmpty then none
    else if (es.lookup key).isSome then none
    else some (put key (.value v) es)) path .header entries

/-- Defines a table by its header: a new one, or one that has only subtables yet. -/
def define (path : List Text) (key : Text) (entries : Entries) : Option Entries :=
  reach false (fun _ es =>
    match es.lookup key with
    | none => some (put key (.table .header []) es)
    | some (.table .subtable inner) => some (put key (.table .header inner) es)
    | some _ => none) path .header entries

/-- Adds a table to an array of tables. -/
def extend (path : List Text) (key : Text) (entries : Entries) : Option Entries :=
  reach false (fun _ es =>
    match es.lookup key with
    | none => some (put key (.tables [] []) es)
    | some (.tables earlier last) => some (put key (.tables (earlier ++ [last]) []) es)
    | some _ => none) path .header entries

/-- Gives a key inside the table that a header led to a value. -/
def giveAt (table path : List Text) (key : Text) (v : Item) (entries : Entries) :
    Option Entries :=
  reach false (fun _ es => give path key v es) table .header entries

end Entries

/-! ## The finished tables -/

mutual

/-- The value of a key. -/
def Node.toItem : Node → Item
  | .value v => v
  | .table _ entries => .table (entriesToItems entries)
  | .tables earlier last => .array (tablesToItems earlier ++ [.table (entriesToItems last)])

def entriesToItems : List (Text × Node) → List (Text × Item)
  | [] => []
  | (key, n) :: rest => (key, n.toItem) :: entriesToItems rest

def tablesToItems : List (List (Text × Node)) → List Item
  | [] => []
  | entries :: rest => .table (entriesToItems entries) :: tablesToItems rest

end

/-- The last part of a path, and the parts before it. -/
def splitLast? : List Text → Option (List Text × Text)
  | [] => none
  | key :: rest =>
    match splitLast? rest with
    | none => some ([], key)
    | some (front, last) => some (key :: front, last)

/-- The table between braces with these entries. -/
def inlineTable? (given : List (List Text × Item)) : Option Item :=
  (given.foldlM (fun es e => (splitLast? e.1).bind fun p => Entries.give p.1 p.2 e.2 es) []).map
    fun es => .table (entriesToItems es)

/-! ## Lemmas -/

theorem Entries.lookup_put_self (key : Text) (n : Node) (entries : Entries) :
    (Entries.put key n entries).lookup key = some n := by
  induction entries with
  | nil => simp [Entries.put]
  | cons e rest ih =>
    obtain ⟨k, old⟩ := e
    by_cases h : k = key
    · subst h; simp [Entries.put]
    · have hne : (key == k) = false := beq_false_of_ne (Ne.symm h)
      simp [Entries.put, h, List.lookup_cons, hne, ih]

theorem splitLast?_append (front : List Text) (last : Text) :
    splitLast? (front ++ [last]) = some (front, last) := by
  induction front with
  | nil => rfl
  | cons key front ih => simp [splitLast?, ih]

end CommandConsole.Toml

import CommandConsole.Json.Tree

set_option autoImplicit false

/-!
# Readers of JSON values

A reader takes a JSON value for something else, or refuses it.  A record is written as an object,
where fields are found by their names, or as an array, where they are found by their places.  An
object may hold further entries, which are not looked at, but no field twice.
-/

namespace CommandConsole.Json

/-- What a JSON value stands for, if it stands for one. -/
abbrev Reader (α : Type) := Tree → Option α

namespace Reader

variable {α : Type}

/-- A text. -/
def text : Reader Text
  | .string s => textOf? s
  | _ => none

/-- A truth value. -/
def boolean : Reader Bool
  | .boolean b => some b
  | _ => none

/-- A signed integer of 64 bits. -/
def int64 : Reader Int64
  | .number n => n.integer?.bind fun i => if Number.fitsInt64 i then some (.ofInt i) else none
  | _ => none

/-- An unsigned integer of 64 bits. -/
def count : Reader Nat
  | .number n => n.integer?.bind fun i => if 0 ≤ i then some i.toNat else none
  | _ => none

/-- A number. -/
def float : Reader Float
  | .number n => n.float?
  | _ => none

/-- The items of an array. -/
def list (item : Reader α) : Reader (List α)
  | .array items => items.mapM item
  | _ => none

/-- Something or `null`. -/
def nullable (reader : Reader α) : Reader (Option α)
  | .null => some none
  | t => (reader t).map some

/-- One of a few choices by its name: the name alone, or the name with nothing in it. -/
def choice (choices : List (Text × α)) : Reader α
  | .string s => (textOf? s).bind fun name => choices.lookup name
  | .object [(s, .null)] => (textOf? s).bind fun name => choices.lookup name
  | _ => none

/-! ## Records -/

/-- The entries of an object by their names. -/
def named (entries : List (Points × Tree)) : Option (List (Text × Tree)) :=
  entries.mapM fun e => (textOf? e.1).map (·, e.2)

/-- The value of a field, if there is one; refused when there are several. -/
def lookupOnce (name : Text) (entries : List (Text × Tree)) : Option (Option Tree) :=
  match entries.filter fun e => e.1 = name with
  | [] => some none
  | [(_, t)] => some (some t)
  | _ => none

/-- The values of the named fields of a record.  An array has all of them, or, for a record whose
fields may all be left out, the first few. -/
def fields (names : List Text) (mayStop : Bool) : Reader (List (Option Tree))
  | .object entries =>
    (named entries).bind fun entries => names.mapM fun name => lookupOnce name entries
  | .array items =>
    if items.length = names.length ∨ (mayStop ∧ items.length < names.length) then
      some (items.map some ++ List.replicate (names.length - items.length) none)
    else none
  | _ => none

/-- A field that must be there. -/
def required (reader : Reader α) : Option Tree → Option α
  | some t => reader t
  | none => none

/-- A field that may be left out or `null`. -/
def optional (reader : Reader α) : Option Tree → Option (Option α)
  | some t => nullable reader t
  | none => some none

/-- A field that may be left out for a default. -/
def withDefault (reader : Reader α) (default : α) : Option Tree → Option α
  | some t => reader t
  | none => some default

/-! ## Tagged values -/

/-- How deep a value may be nested that has to be kept until it is known what it stands for. -/
def keptDepth : Nat := 126

/-- A tag and, if there is one, a content: in an object, the two entries in either order; in an
array, two items, of which the tag is the bare name.  A content before its tag has to be kept, so
all of it has to make sense. -/
def tagged (tagName contentName : Text) : Reader (Tree × Option Tree)
  | .array [.string tag, content] => some (.string tag, some content)
  | .object entries =>
    (named entries).bind fun entries =>
      match entries.filter fun e => e.1 = tagName ∨ e.1 = contentName with
      | [(first, a)] => if first = tagName then some (a, none) else none
      | [(first, a), (second, b)] =>
        if first = second then none
        else if first = tagName then some (a, some b)
        else if a.isDefinite ∧ a.depth ≤ keptDepth then some (b, some a)
        else none
      | _ => none
  | _ => none

end Reader

end CommandConsole.Json

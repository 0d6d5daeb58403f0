import CommandConsole.Json.Token

set_option autoImplicit false

/-!
# JSON trees

The value that a JSON text denotes, with the entries of an object in their order and with
repetitions.  Reading is a machine over the tokens: a stack of the arrays and objects that are
open, and what may come next.  Every token is one step, so nesting has no limit here.
-/

namespace CommandConsole.Json

/-- A JSON value. -/
inductive Tree where
  | null
  | boolean (b : Bool)
  | number (n : Numeral)
  | string (s : Points)
  | array (items : List Tree)
  | object (entries : List (Points × Tree))
  deriving Repr, Inhabited

/-! ## Reading -/

/-- An array or object that is open around the next value, with what it holds so far. -/
inductive Frame where
  | array (items : List Tree)
  /-- The next value belongs to the key. -/
  | object (entries : List (Points × Tree)) (key : Points)

/-- What was read last, and so what may come next. -/
inductive Position where
  /-- A value. -/
  | value
  /-- A value or the end of an array that has none yet. -/
  | firstItem
  /-- A key or the end of an object that has none yet. -/
  | firstKey
  /-- A key, after the entries so far. -/
  | key (entries : List (Points × Tree))
  /-- A colon, after the entries so far and a key. -/
  | colon (entries : List (Points × Tree)) (key : Points)
  /-- The end of what is open, or a comma; at the outside, the end of the text. -/
  | read (t : Tree)

/-- A reading in progress. -/
structure Reading where
  frames : List Frame := []
  position : Position := .value

namespace Reading

/-- The value that a token is by itself. -/
def scalar? : Token → Option Tree
  | .null => some .null
  | .boolean b => some (.boolean b)
  | .number n => some (.number n)
  | .string s => some (.string s)
  | _ => none

/-- Begins a value. -/
def start (frames : List Frame) : Token → Option Reading
  | .openArray => some ⟨frames, .firstItem⟩
  | .openObject => some ⟨frames, .firstKey⟩
  | token => (scalar? token).map fun t => ⟨frames, .read t⟩

/-- Goes on after a value inside an array or object. -/
def resume (t : Tree) : List Frame → Token → Option Reading
  | .array items :: frames, .comma => some ⟨.array (items ++ [t]) :: frames, .value⟩
  | .array items :: frames, .closeArray => some ⟨frames, .read (.array (items ++ [t]))⟩
  | .object entries key :: frames, .comma => some ⟨frames, .key (entries ++ [(key, t)])⟩
  | .object entries key :: frames, .closeObject =>
    some ⟨frames, .read (.object (entries ++ [(key, t)]))⟩
  | _, _ => none

/-- Takes one token. -/
def step (r : Reading) (token : Token) : Option Reading :=
  match r.position, token with
  | .value, token => start r.frames token
  | .firstItem, .closeArray => some ⟨r.frames, .read (.array [])⟩
  | .firstItem, token => start (.array [] :: r.frames) token
  | .firstKey, .closeObject => some ⟨r.frames, .read (.object [])⟩
  | .firstKey, .string key => some ⟨r.frames, .colon [] key⟩
  | .key entries, .string key => some ⟨r.frames, .colon entries key⟩
  | .colon entries key, .colon => some ⟨.object entries key :: r.frames, .value⟩
  | .read t, token => resume t r.frames token
  | _, _ => none

/-- The value, if it is complete and nothing is open around it. -/
def result? (r : Reading) : Option Tree :=
  match r.frames, r.position with
  | [], .read t => some t
  | _, _ => none

end Reading

namespace Tree

/-- The value of a list of tokens. -/
def ofTokens? (tokens : List Token) : Option Tree :=
  (tokens.foldlM Reading.step {}).bind Reading.result?

/-- The value that a text denotes. -/
def ofText? (t : Text) : Option Tree := (tokens? t).bind ofTokens?

/-! ## Values that are kept -/

mutual

/-- How deep arrays and objects are nested in a value. -/
def depth : Tree → Nat
  | .array items => itemsDepth items + 1
  | .object entries => entriesDepth entries + 1
  | _ => 0

def itemsDepth : List Tree → Nat
  | [] => 0
  | t :: rest => max t.depth (itemsDepth rest)

def entriesDepth : List (Points × Tree) → Nat
  | [] => 0
  | (_, t) :: rest => max t.depth (entriesDepth rest)

end

mutual

/-- Whether every string in a value is a text and every number a float. -/
def isDefinite : Tree → Bool
  | .number n => n.float?.isSome
  | .string s => (textOf? s).isSome
  | .array items => areDefinite items
  | .object entries => entriesAreDefinite entries
  | _ => true

def areDefinite : List Tree → Bool
  | [] => true
  | t :: rest => t.isDefinite && areDefinite rest

def entriesAreDefinite : List (Points × Tree) → Bool
  | [] => true
  | (key, t) :: rest => (textOf? key).isSome && t.isDefinite && entriesAreDefinite rest

end

end Tree

end CommandConsole.Json

import CommandConsole.Field
import CommandConsole.Number.FloatLiteral
import CommandConsole.Value

set_option autoImplicit false

/-!
# Literals

One argument text as a typed value.  In order it may be an integer, a float, a float with the
suffix `f`, a vector of two to four components in square brackets, and else the trimmed text.
A bracketed text with another number of components, or with a component that is not a number, is
no value.

A component of a vector may stand for a value that its text does not show.  `convertWith` asks for
such a value first, handing the state of the answers along, and only then converts the text.
-/

namespace CommandConsole.Literal

/-- The number that a trimmed text denotes. -/
def number? (t : Text) : Option Value :=
  match Number.int64Literal? t with
  | some n => some (.int n)
  | none =>
    match Number.floatLiteral? t with
    | some x => some (.float x)
    | none =>
      match (Text.dropLast? 'f' t).bind Number.floatLiteral? with
      | some x => some (.float x)
      | none => none

/-- The text between the square brackets of a vector literal. -/
def vectorBody? : Text → Option Text
  | '[' :: rest => Text.dropLast? ']' rest
  | _ => none

/-- Runs `step` along the list and hands the state along; stops at the first element without an
answer. -/
def collect {α β σ : Type} (step : α → σ → Option β × σ) : List α → σ → Option (List β) × σ
  | [], s => (some [], s)
  | a :: rest, s =>
    match step a s with
    | (none, s) => (none, s)
    | (some b, s) =>
      match collect step rest s with
      | (none, s) => (none, s)
      | (some bs, s) => (some (b :: bs), s)

theorem length_lt_of_vectorBody? {t body : Text} (h : vectorBody? t = some body) :
    body.length < t.length := by
  unfold vectorBody? at h
  split at h
  · rw [Text.dropLast?_eq_some_iff] at h
    simp only [h, List.length_cons, List.length_append, List.length_nil]
    omega
  · simp at h

/-- A field of a vector's body is shorter than the token that holds the vector. -/
theorem length_field_lt {token body field : Text} (hb : vectorBody? (Text.trim token) = some body)
    (hf : field ∈ Field.split body) : field.length < token.length :=
  Nat.lt_of_le_of_lt (Field.length_le_of_mem_split hf)
    (Nat.lt_of_lt_of_le (length_lt_of_vectorBody? hb) (Text.length_trim_le token))

/-- The value of a token, and the state after all that was asked.  `ask` is asked for the
components of a vector only, from left to right, and before a component's own text is read. -/
def convertWith {σ : Type} (ask : Text → σ → Option Value × σ) (token : Text) (s : σ) :
    Value × σ :=
  match number? (Text.trim token) with
  | some v => (v, s)
  | none =>
    match h : vectorBody? (Text.trim token) with
    | none => (.text (Text.trim token), s)
    | some body =>
      let fields := Field.split body
      if 2 ≤ fields.length ∧ fields.length ≤ 4 then
        let component : { f : Text // f ∈ fields } → σ → Option Float × σ := fun f s =>
          match ask f.1 s with
          | (some v, s) => (v.asFloat?, s)
          | (none, s) =>
            have : f.1.length < token.length := length_field_lt h f.2
            let (v, s) := convertWith ask f.1 s
            (v.asFloat?, s)
        match collect component fields.attach s with
        | (some xs, s) => (Value.ofComponents xs, s)
        | (none, s) => (.nil, s)
      else (.nil, s)
termination_by token.length

/-- The value of a token that stands for itself. -/
def convert (token : Text) : Value := (convertWith (fun _ s => (none, s)) token ()).1

end CommandConsole.Literal

import CommandConsole.Evaluation
import CommandConsole.Proofs.Field.Splitting

set_option autoImplicit false

/-!
# Expressions

What an operator means by a line is a tree: a call has fields, a field is a call, a vector or a
word, and a vector has fields again.  `Renders` says which texts show a tree: blanks may surround
a field, and nothing stands between a name and its parenthesis.

`Yields` is the meaning of a tree, and nothing in it speaks of text: fields are evaluated from
left to right, a call after all of its fields, and a call without value ends everything.
-/

namespace CommandConsole

/-- The name of a command. -/
structure Name where
  text : Text
  isWord : Text.isWord text = true

/-- A literal that is no vector: text without brackets, parentheses and commas. -/
structure Word where
  text : Text
  plain : Field.Plain text
  inked : ¬ Text.Blank text

/-- A field of a call. -/
inductive Expr where
  | word (t : Word)
  | vector (items : List Expr)
  | call (name : Name) (args : List Expr)

namespace Expr

/-! ## Texts of a tree -/

mutual

/-- The text shows the tree. -/
inductive Renders : Expr → Text → Prop where
  | word (t : Word) : Renders (.word t) t.text
  | vector {items : List Expr} {t : Text} (h : RendersAll items t) :
      Renders (.vector items) ('[' :: (t ++ [']']))
  | call {name : Name} {args : List Expr} {t : Text} (h : RendersAll args t) :
      Renders (.call name args) (name.text ++ '(' :: (t ++ [')']))

/-- The text shows the trees, with commas between them. -/
inductive RendersAll : List Expr → Text → Prop where
  | nil {b : Text} (hb : Text.Blank b) : RendersAll [] b
  | single {x : Expr} {t b d : Text} (hb : Text.Blank b) (hx : Renders x t)
      (hd : Text.Blank d) : RendersAll [x] (b ++ (t ++ d))
  | cons {x y : Expr} {rest : List Expr} {t u b d : Text} (hb : Text.Blank b)
      (hx : Renders x t) (hd : Text.Blank d) (hrest : RendersAll (y :: rest) u) :
      RendersAll (x :: y :: rest) (b ++ (t ++ (d ++ ',' :: u)))

end

/-! ## Meaning of a tree -/

/-- The vector of the numbers that the values stand for.  There is none if one of them stands for
no number, or if there are not two to four of them. -/
def vectorOf (vs : List Value) : Value :=
  match vs.mapM Value.asFloat? with
  | some xs => Value.ofComponents xs
  | none => .nil

/-- A list is mapped to one of its length. -/
theorem length_of_mapM {α γ : Type} {f : α → Option γ} {l : List α} {l' : List γ}
    (h : l.mapM f = some l') : l'.length = l.length := by
  induction l generalizing l' with
  | nil =>
      cases h
      rfl
  | cons a l ih =>
      rw [List.mapM_cons] at h
      cases hb : f a with
      | none => simp [hb] at h
      | some b =>
          cases hbs : l.mapM f with
          | none => simp [hb, hbs] at h
          | some bs =>
              simp only [hb, hbs, Option.bind_eq_bind, Option.bind_some, Option.pure_def,
                Option.some.injEq] at h
              rw [← h, List.length_cons, ih hbs, List.length_cons]

/-- Fewer than two values or more than four are no vector. -/
theorem vectorOf_of_length {vs : List Value} (h : ¬ (2 ≤ vs.length ∧ vs.length ≤ 4)) :
    vectorOf vs = .nil := by
  unfold vectorOf
  cases hxs : vs.mapM Value.asFloat? with
  | none => rfl
  | some xs =>
      rw [← length_of_mapM hxs] at h
      dsimp only
      unfold Value.ofComponents
      split
      · exact absurd (by simp) h
      · exact absurd (by simp) h
      · exact absurd (by simp) h
      · rfl

variable {β σ : Type}

mutual

/-- The tree has the value, and leaves the world behind.  Without a value the evaluation ended on
the way.  A call is described with some argument text, which its body does not get. -/
inductive Yields (e : Evaluator β σ) : Expr → World β σ → Option Value → World β σ → Prop where
  | word (t : Word) (w : World β σ) :
      Yields e (.word t) w (some (Literal.convert t.text)) w
  | vector {items : List Expr} {vs : List Value} {w w' : World β σ}
      (h : YieldsAll e items w (some vs) w') :
      Yields e (.vector items) w (some (vectorOf vs)) w'
  | vectorEnds {items : List Expr} {w w' : World β σ} (h : YieldsAll e items w none w') :
      Yields e (.vector items) w none w'
  | call {name : Name} {args : List Expr} {vs : List Value} {raw : Text} {v : Option Value}
      {w w₁ w₂ : World β σ} (h : YieldsAll e args w (some vs) w₁)
      (hcall : e.call name.text raw vs w₁ = (v, w₂)) :
      Yields e (.call name args) w v w₂
  | callEnds {name : Name} {args : List Expr} {w w' : World β σ}
      (h : YieldsAll e args w none w') :
      Yields e (.call name args) w none w'

/-- The trees have the values, one after the other. -/
inductive YieldsAll (e : Evaluator β σ) :
    List Expr → World β σ → Option (List Value) → World β σ → Prop where
  | nil (w : World β σ) : YieldsAll e [] w (some []) w
  | cons {x : Expr} {rest : List Expr} {v : Value} {vs : List Value} {w w₁ w₂ : World β σ}
      (hx : Yields e x w (some v) w₁) (hrest : YieldsAll e rest w₁ (some vs) w₂) :
      YieldsAll e (x :: rest) w (some (v :: vs)) w₂
  | headEnds {x : Expr} {rest : List Expr} {w w' : World β σ} (hx : Yields e x w none w') :
      YieldsAll e (x :: rest) w none w'
  | tailEnds {x : Expr} {rest : List Expr} {v : Value} {w w₁ w₂ : World β σ}
      (hx : Yields e x w (some v) w₁) (hrest : YieldsAll e rest w₁ none w₂) :
      YieldsAll e (x :: rest) w none w₂

end

/-! ## One meaning -/

/-- Calls that are not described do not depend on their argument text. -/
theorem call_eq_of_not_described {e : Evaluator β σ} (he : e.functionInfo = false)
    (name raw raw' : Text) (vs : List Value) (w : World β σ) :
    e.call name raw vs w = e.call name raw' vs w := by
  have htrace : ∀ raw, e.trace name raw vs w = w := fun raw => by
    simp [Evaluator.trace, he]
  unfold Evaluator.call
  rw [htrace, htrace]

mutual

/-- Without descriptions, a tree has at most one value and leaves at most one world behind. -/
theorem Yields.unique {e : Evaluator β σ} (he : e.functionInfo = false) {x : Expr}
    {w w₁ w₂ : World β σ} {v₁ v₂ : Option Value} (h₁ : Yields e x w v₁ w₁)
    (h₂ : Yields e x w v₂ w₂) : v₁ = v₂ ∧ w₁ = w₂ := by
  cases h₁ with
  | word t =>
      cases h₂
      exact ⟨rfl, rfl⟩
  | vector h =>
      cases h₂ with
      | vector h' =>
          obtain ⟨hv, hw⟩ := h.unique he h'
          cases hv
          exact ⟨rfl, hw⟩
      | vectorEnds h' => cases (h.unique he h').1
  | vectorEnds h =>
      cases h₂ with
      | vector h' => cases (h.unique he h').1
      | vectorEnds h' => exact ⟨rfl, (h.unique he h').2⟩
  | call h hcall =>
      cases h₂ with
      | call h' hcall' =>
          obtain ⟨hv, rfl⟩ := h.unique he h'
          cases hv
          rw [call_eq_of_not_described he _ _ _ _ _, hcall'] at hcall
          cases hcall
          exact ⟨rfl, rfl⟩
      | callEnds h' => cases (h.unique he h').1
  | callEnds h =>
      cases h₂ with
      | call h' hcall' => cases (h.unique he h').1
      | callEnds h' => exact ⟨rfl, (h.unique he h').2⟩

theorem YieldsAll.unique {e : Evaluator β σ} (he : e.functionInfo = false) {xs : List Expr}
    {w w₁ w₂ : World β σ} {vs₁ vs₂ : Option (List Value)} (h₁ : YieldsAll e xs w vs₁ w₁)
    (h₂ : YieldsAll e xs w vs₂ w₂) : vs₁ = vs₂ ∧ w₁ = w₂ := by
  cases h₁ with
  | nil =>
      cases h₂
      exact ⟨rfl, rfl⟩
  | cons hx hrest =>
      cases h₂ with
      | cons hx' hrest' =>
          obtain ⟨hv, rfl⟩ := hx.unique he hx'
          obtain ⟨hvs, rfl⟩ := hrest.unique he hrest'
          cases hv
          cases hvs
          exact ⟨rfl, rfl⟩
      | headEnds hx' => cases (hx.unique he hx').1
      | tailEnds hx' hrest' =>
          obtain ⟨-, rfl⟩ := hx.unique he hx'
          cases (hrest.unique he hrest').1
  | headEnds hx =>
      cases h₂ with
      | cons hx' _ => cases (hx.unique he hx').1
      | headEnds hx' => exact ⟨rfl, (hx.unique he hx').2⟩
      | tailEnds hx' _ => cases (hx.unique he hx').1
  | tailEnds hx hrest =>
      cases h₂ with
      | cons hx' hrest' =>
          obtain ⟨-, rfl⟩ := hx.unique he hx'
          cases (hrest.unique he hrest').1
      | headEnds hx' => cases (hx.unique he hx').1
      | tailEnds hx' hrest' =>
          obtain ⟨-, rfl⟩ := hx.unique he hx'
          exact ⟨rfl, (hrest.unique he hrest').2⟩

end

end Expr

end CommandConsole

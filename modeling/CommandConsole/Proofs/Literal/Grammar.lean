import CommandConsole.Proofs.Literal.Asking
import Mathlib.Data.List.Forall2
import Mathlib.Logic.Relation

set_option autoImplicit false

/-!
# The grammar of literals

What a token is, said without the reader: a number, a vector in square brackets, or a text
(`Converts`).  A field of a vector has the value that it is answered with and else the value of its
text (`ConvertsField`), and fields are taken one after the other (`ConvertsFields`).  The relations
note the fields that are asked for, in order: a field comes before the fields nested in it, and
nothing is asked for after a field that is no number.

Every token has a reading (`exists_converts`), and it is what the reader finds, asking for the same
fields (`Converts.convertWith_noting`).  `followsGrammar` puts the two together, with what follows
for the values of a token and for the fields that are asked for.
-/

namespace CommandConsole

namespace Value

/-- The value is the vector of two to four components. -/
inductive HasComponents : Value → List Float → Prop where
  | two (x y : Float) : HasComponents (.vector2 x y) [x, y]
  | three (x y z : Float) : HasComponents (.vector3 x y z) [x, y, z]
  | four (x y z w : Float) : HasComponents (.vector4 x y z w) [x, y, z, w]

theorem HasComponents.length {v : Value} {xs : List Float} (h : HasComponents v xs) :
    2 ≤ xs.length ∧ xs.length ≤ 4 := by
  cases h <;> simp

theorem HasComponents.ofComponents_eq {v : Value} {xs : List Float} (h : HasComponents v xs) :
    ofComponents xs = v := by
  cases h <;> rfl

theorem HasComponents.unique {v : Value} {xs ys : List Float} (h : HasComponents v xs)
    (h' : HasComponents v ys) : xs = ys := by
  cases h <;> cases h' <;> rfl

theorem exists_hasComponents {xs : List Float} (h : 2 ≤ xs.length ∧ xs.length ≤ 4) :
    ∃ v, HasComponents v xs := by
  match xs, h with
  | [x, y], _ => exact ⟨_, .two x y⟩
  | [x, y, z], _ => exact ⟨_, .three x y z⟩
  | [x, y, z, w], _ => exact ⟨_, .four x y z w⟩

/-- The value is a number: an integer, taken for the float that is nearest, or a float. -/
inductive IsNumber : Value → Float → Prop where
  | int (n : Int64) : IsNumber (.int n) n.toFloat
  | float (x : Float) : IsNumber (.float x) x

theorem asFloat?_eq_some_iff {v : Value} {x : Float} : v.asFloat? = some x ↔ v.IsNumber x := by
  constructor
  · intro h
    cases v with
    | int n =>
        cases h
        exact .int n
    | float y =>
        cases h
        exact .float _
    | nil | vector2 | vector3 | vector4 | text => cases h
  · intro h
    cases h with
    | int n => rfl
    | float x => rfl

theorem asFloat?_eq_none_iff {v : Value} : v.asFloat? = none ↔ ∀ x, ¬ v.IsNumber x := by
  simp only [Option.eq_none_iff_forall_ne_some, ne_eq, asFloat?_eq_some_iff]

/-- The values stand for the numbers, one for one. -/
def StandFor (vs : List Value) (xs : List Float) : Prop := List.Forall₂ IsNumber vs xs

end Value

namespace Literal

open Value (HasComponents StandFor)

variable {σ : Type} {ask : Text → σ → Option Value × σ}

/-! ## The grammar -/

/-- The text is an integer, a float, or a float with the suffix `f`, and denotes the number. -/
inductive DenotesNumber : Text → Value → Prop where
  | int {t : Text} {n : Int64} (h : Number.int64Literal? t = some n) : DenotesNumber t (.int n)
  | float {t : Text} {x : Float} (hint : Number.int64Literal? t = none)
      (h : Number.floatLiteral? t = some x) : DenotesNumber t (.float x)
  | suffixed {t : Text} {x : Float} (hint : Number.int64Literal? (t ++ ['f']) = none)
      (hfloat : Number.floatLiteral? (t ++ ['f']) = none)
      (h : Number.floatLiteral? t = some x) : DenotesNumber (t ++ ['f']) (.float x)

/-- The text is no number, and it is the body between square brackets. -/
structure Brackets (t body : Text) : Prop where
  notNumber : ∀ v, ¬ DenotesNumber t v
  shape : t = '[' :: (body ++ [']'])

/-- Whether a body has as many fields as a vector may have. -/
def Countable (body : Text) : Prop :=
  2 ≤ (Field.split body).length ∧ (Field.split body).length ≤ 4

mutual

/-- The token is read as the value, and the fields are asked for meanwhile. -/
inductive Converts (ask : Text → σ → Option Value × σ) :
    Text → σ → Value → σ → List Text → Prop where
  | number {token : Text} {v : Value} (h : DenotesNumber (Text.trim token) v) (s : σ) :
      Converts ask token s v s []
  | text {token : Text} (hnumber : ∀ v, ¬ DenotesNumber (Text.trim token) v)
      (hshape : ∀ body, Text.trim token ≠ '[' :: (body ++ [']'])) (s : σ) :
      Converts ask token s (.text (Text.trim token)) s []
  | miscounted {token body : Text} (hbody : Brackets (Text.trim token) body)
      (hcount : ¬ Countable body) (s : σ) : Converts ask token s .nil s []
  | vector {token body : Text} {v : Value} {vs : List Value} {xs : List Float} {s s' : σ}
      {asked : List Text} (hbody : Brackets (Text.trim token) body)
      (hfields : ConvertsFields ask (Field.split body) s vs s' asked) (hvs : StandFor vs xs)
      (hv : HasComponents v xs) : Converts ask token s v s' asked
  | stopped {token body f : Text} {front rest : List Text} {v : Value} {vs : List Value}
      {xs : List Float} {s s₁ s₂ : σ} {asked askedLast : List Text}
      (hbody : Brackets (Text.trim token) body) (hcount : Countable body)
      (hsplit : Field.split body = front ++ f :: rest)
      (hfront : ConvertsFields ask front s vs s₁ asked) (hvs : StandFor vs xs)
      (hlast : ConvertsField ask f s₁ v s₂ askedLast) (hv : ∀ x, ¬ v.IsNumber x) :
      Converts ask token s .nil s₂ (asked ++ askedLast)

/-- The field has the value: the answer to it, or else that of its text. -/
inductive ConvertsField (ask : Text → σ → Option Value × σ) :
    Text → σ → Value → σ → List Text → Prop where
  | answered {f : Text} {v : Value} {s s' : σ} (h : ask f s = (some v, s')) :
      ConvertsField ask f s v s' [f]
  | converted {f : Text} {v : Value} {s s₁ s' : σ} {asked : List Text}
      (h : ask f s = (none, s₁)) (hconvert : Converts ask f s₁ v s' asked) :
      ConvertsField ask f s v s' (f :: asked)

/-- The fields have the values, one after the other. -/
inductive ConvertsFields (ask : Text → σ → Option Value × σ) :
    List Text → σ → List Value → σ → List Text → Prop where
  | nil (s : σ) : ConvertsFields ask [] s [] s []
  | cons {f : Text} {fields : List Text} {v : Value} {vs : List Value} {s s₁ s' : σ}
      {asked askedRest : List Text} (hfield : ConvertsField ask f s v s₁ asked)
      (hrest : ConvertsFields ask fields s₁ vs s' askedRest) :
      ConvertsFields ask (f :: fields) s (v :: vs) s' (asked ++ askedRest)

end

/-! ## Numbers and brackets -/

theorem number?_eq_some_iff {t : Text} {v : Value} : number? t = some v ↔ DenotesNumber t v := by
  constructor
  · intro h
    unfold number? at h
    cases hint : Number.int64Literal? t with
    | some n =>
        rw [hint] at h
        cases h
        exact .int hint
    | none =>
        rw [hint] at h
        dsimp only at h
        cases hfloat : Number.floatLiteral? t with
        | some x =>
            rw [hfloat] at h
            cases h
            exact .float hint hfloat
        | none =>
            rw [hfloat] at h
            dsimp only at h
            split at h
            · rename_i x hx
              cases h
              obtain ⟨u, hu, hsuffixed⟩ := Option.bind_eq_some_iff.1 hx
              obtain rfl := (Text.dropLast?_eq_some_iff _ _ _).1 hu
              exact .suffixed hint hfloat hsuffixed
            · cases h
  · intro h
    unfold number?
    cases h with
    | int h => rw [h]
    | float hint h => rw [hint, h]
    | @suffixed t x hint hfloat h =>
        have hlast : Text.dropLast? 'f' (t ++ ['f']) = some t :=
          (Text.dropLast?_eq_some_iff _ _ _).2 rfl
        rw [hint, hfloat, hlast, Option.bind_some, h]

theorem number?_eq_none_iff {t : Text} : number? t = none ↔ ∀ v, ¬ DenotesNumber t v := by
  simp only [Option.eq_none_iff_forall_ne_some, ne_eq, number?_eq_some_iff]

theorem vectorBody?_eq_some_iff {t body : Text} :
    vectorBody? t = some body ↔ t = '[' :: (body ++ [']']) := by
  unfold vectorBody?
  split
  · rw [Text.dropLast?_eq_some_iff, List.cons.injEq]
    exact (and_iff_right rfl).symm
  · rename_i hshape
    refine iff_of_false nofun ?_
    rintro rfl
    exact hshape _ rfl

theorem Brackets.number? {t body : Text} (h : Brackets t body) : number? t = none :=
  number?_eq_none_iff.2 h.notNumber

theorem Brackets.vectorBody? {t body : Text} (h : Brackets t body) : vectorBody? t = some body :=
  vectorBody?_eq_some_iff.2 h.shape

theorem Brackets.unique {t body body' : Text} (h : Brackets t body) (h' : Brackets t body') :
    body = body' :=
  Option.some.inj (h.vectorBody?.symm.trans h'.vectorBody?)

/-! ## The reader follows the grammar -/

namespace Brackets

variable {token body : Text} (h : Brackets (Text.trim token) body)
include h

theorem convertWith_of_miscounted (hcount : ¬ Countable body) (s : σ) :
    convertWith ask token s = (.nil, s) := by
  rw [convertWith_of_vector h.number? h.vectorBody?]
  exact if_neg hcount

theorem convertWith_of_collected (hcount : Countable body) {xs : List Float} {s s' : σ}
    (hcollect : collect (component ask) (Field.split body) s = (some xs, s')) :
    convertWith ask token s = (Value.ofComponents xs, s') := by
  rw [convertWith_of_vector h.number? h.vectorBody?, hcollect]
  exact if_pos hcount

theorem convertWith_of_stopped (hcount : Countable body) {s s' : σ}
    (hcollect : collect (component ask) (Field.split body) s = (none, s')) :
    convertWith ask token s = (.nil, s') := by
  rw [convertWith_of_vector h.number? h.vectorBody?, hcollect]
  exact if_pos hcount

end Brackets

theorem collect_cons_of_some {τ α β : Type} {step : α → τ → Option β × τ} {a : α} {b : β}
    {t t' : τ} (h : step a t = (some b, t')) (l : List α) :
    collect step (a :: l) t = ((collect step l t').1.map (b :: ·), (collect step l t').2) := by
  simp only [collect, h]
  rcases collect step l t' with ⟨_ | bs, u⟩ <;> rfl

theorem collect_cons_of_none {τ α β : Type} {step : α → τ → Option β × τ} {a : α} {t t' : τ}
    (h : step a t = (none, t')) (l : List α) : collect step (a :: l) t = (none, t') := by
  simp only [collect, h]

/-- Asks, and notes what it was asked. -/
def noting (ask : Text → σ → Option Value × σ) (f : Text) (s : σ × List Text) :
    Option Value × σ × List Text :=
  ((ask f s.1).1, (ask f s.1).2, s.2 ++ [f])

/-- Noting changes neither a value nor the answers. -/
theorem convertWith_eq_noting (ask : Text → σ → Option Value × σ) (token : Text) (s : σ)
    (log : List Text) :
    convertWith ask token s =
      ((convertWith (noting ask) token (s, log)).1,
        (convertWith (noting ask) token (s, log)).2.1) := by
  have hagree : ∀ f, f.ApartIn token →
      Agree ask (noting ask) (fun s (t : σ × List Text) => t.1 = s) f := by
    rintro f - s t rfl
    exact ⟨rfl, rfl⟩
  obtain ⟨hvalue, hstate⟩ := convertWith_matches (t := (s, log)) hagree rfl
  exact Prod.ext hvalue hstate.symm

/-- There is one value for each field. -/
theorem ConvertsFields.length {fields : List Text} {s s' : σ} {vs : List Value}
    {asked : List Text} (h : ConvertsFields ask fields s vs s' asked) :
    vs.length = fields.length := by
  induction vs generalizing fields s asked with
  | nil =>
      cases h
      rfl
  | cons v vs ih =>
      cases h with
      | cons hfield hrest => exact congrArg (· + 1) (ih hrest)

theorem ConvertsFields.countable {body : Text} {s s' : σ} {v : Value} {vs : List Value}
    {xs : List Float} {asked : List Text}
    (h : ConvertsFields ask (Field.split body) s vs s' asked) (hvs : StandFor vs xs)
    (hv : HasComponents v xs) : Countable body := by
  have hlength := hv.length
  rwa [← hvs.length_eq, h.length] at hlength

mutual

theorem Converts.convertWith_noting {token : Text} {s s' : σ} {v : Value} {asked : List Text}
    (h : Converts ask token s v s' asked) (log : List Text) :
    convertWith (noting ask) token (s, log) = (v, s', log ++ asked) := by
  match h with
  | .number h _ => rw [convertWith_of_number (number?_eq_some_iff.2 h), List.append_nil]
  | .text hnumber hshape _ =>
      have hbody : vectorBody? (Text.trim token) = none :=
        Option.eq_none_iff_forall_ne_some.2 fun body hb =>
          hshape body (vectorBody?_eq_some_iff.1 hb)
      rw [convertWith_of_text (number?_eq_none_iff.2 hnumber) hbody, List.append_nil]
  | .miscounted hbody hcount _ => rw [hbody.convertWith_of_miscounted hcount, List.append_nil]
  | .vector hbody hfields hvs hv =>
      have hcollect := hfields.collect_noting hvs [] log
      rw [List.append_nil, collect, Option.map_some, List.append_nil] at hcollect
      rw [hbody.convertWith_of_collected (hfields.countable hvs hv) hcollect, hv.ofComponents_eq]
  | .stopped hbody hcount hsplit hfront hvs hlast hv =>
      have hstop := hlast.component_noting
      simp only [Value.asFloat?_eq_none_iff.2 hv] at hstop
      refine hbody.convertWith_of_stopped hcount ?_
      rw [hsplit, hfront.collect_noting hvs, collect_cons_of_none (hstop _), List.append_assoc]
      rfl

theorem ConvertsField.component_noting {f : Text} {s s' : σ} {v : Value} {asked : List Text}
    (h : ConvertsField ask f s v s' asked) (log : List Text) :
    component (noting ask) f (s, log) = (v.asFloat?, s', log ++ asked) := by
  match h with
  | .answered h => simp only [component, noting, h]
  | .converted h hconvert =>
      have hnested := hconvert.convertWith_noting (log ++ [f])
      rw [List.append_assoc, List.singleton_append] at hnested
      simp only [component, noting, h, hnested]

theorem ConvertsFields.collect_noting {fields : List Text} {s s' : σ} {vs : List Value}
    {asked : List Text} (h : ConvertsFields ask fields s vs s' asked) :
    ∀ {xs : List Float}, StandFor vs xs → ∀ (rest log : List Text),
      collect (component (noting ask)) (fields ++ rest) (s, log) =
        ((collect (component (noting ask)) rest (s', log ++ asked)).1.map (xs ++ ·),
          (collect (component (noting ask)) rest (s', log ++ asked)).2) := by
  intro xs hvs rest log
  match h with
  | .nil _ =>
      cases hvs
      simp
  | .cons hfield hrest =>
      cases hvs with
      | cons hx hxs =>
          have hhead := hfield.component_noting
          simp only [Value.asFloat?_eq_some_iff.2 hx] at hhead
          rw [List.cons_append, collect_cons_of_some (hhead log), hrest.collect_noting hxs rest,
            List.append_assoc, Option.map_map]
          rfl

end

/-! ## Every token has a reading -/

/-- Fields are read up to their end, or up to the first that is no number. -/
theorem exists_convertsFields {fields : List Text}
    (h : ∀ f ∈ fields, ∀ s, ∃ v s' asked, ConvertsField ask f s v s' asked) (s : σ) :
    ∃ front rest vs xs s' asked, fields = front ++ rest ∧
      ConvertsFields ask front s vs s' asked ∧ StandFor vs xs ∧
        (rest = [] ∨ ∃ f later v s'' askedLast, rest = f :: later ∧
          ConvertsField ask f s' v s'' askedLast ∧ ∀ x, ¬ v.IsNumber x) := by
  induction fields generalizing s with
  | nil => exact ⟨[], [], [], [], s, [], rfl, .nil s, .nil, Or.inl rfl⟩
  | cons f fields ih =>
      obtain ⟨v, s₁, asked, hfield⟩ := h f List.mem_cons_self s
      cases hv : v.asFloat? with
      | none =>
          exact ⟨[], f :: fields, [], [], s, [], rfl, .nil s, .nil,
            Or.inr ⟨f, fields, v, s₁, asked, rfl, hfield, Value.asFloat?_eq_none_iff.1 hv⟩⟩
      | some x =>
          obtain ⟨front, rest, vs, xs, s', askedRest, rfl, hfront, hvs, hend⟩ :=
            ih (fun g hg => h g (List.mem_cons_of_mem f hg)) s₁
          exact ⟨f :: front, rest, v :: vs, x :: xs, s', asked ++ askedRest, rfl,
            .cons hfield hfront, .cons (Value.asFloat?_eq_some_iff.1 hv) hvs, hend⟩

theorem Brackets.exists_converts {token body : Text} (hbody : Brackets (Text.trim token) body)
    (h : ∀ f ∈ Field.split body, ∀ s, ∃ v s' asked, ConvertsField ask f s v s' asked) (s : σ) :
    ∃ v s' asked, Converts ask token s v s' asked := by
  by_cases hcount : Countable body
  · obtain ⟨front, rest, vs, xs, s', asked, hsplit, hfront, hvs, hend⟩ := exists_convertsFields h s
    rcases hend with rfl | ⟨f, later, v, s'', askedLast, rfl, hlast, hv⟩
    · rw [List.append_nil] at hsplit
      subst hsplit
      have hlength : 2 ≤ xs.length ∧ xs.length ≤ 4 := by
        rwa [← hvs.length_eq, hfront.length]
      obtain ⟨v, hv⟩ := Value.exists_hasComponents hlength
      exact ⟨v, s', asked, .vector hbody hfront hvs hv⟩
    · exact ⟨.nil, s'', asked ++ askedLast, .stopped hbody hcount hsplit hfront hvs hlast hv⟩
  · exact ⟨.nil, s, [], .miscounted hbody hcount s⟩

theorem exists_converts (ask : Text → σ → Option Value × σ) (token : Text) (s : σ) :
    ∃ v s' asked, Converts ask token s v s' asked := by
  -- the fields of a vector are shorter than the token that holds it
  induction hlen : token.length using Nat.strongRecOn generalizing token s with
  | ind n ih =>
      subst hlen
      by_cases hnumber : ∃ v, DenotesNumber (Text.trim token) v
      · obtain ⟨v, hv⟩ := hnumber
        exact ⟨v, s, [], .number hv s⟩
      rw [not_exists] at hnumber
      by_cases hshape : ∃ body, Text.trim token = '[' :: (body ++ [']'])
      · obtain ⟨body, hshape⟩ := hshape
        have hbody : Brackets (Text.trim token) body := ⟨hnumber, hshape⟩
        refine hbody.exists_converts (fun f hf s => ?_) s
        rcases hask : ask f s with ⟨_ | v, s₁⟩
        · have hshorter : f.length < token.length := length_field_lt hbody.vectorBody? hf
          obtain ⟨v, s', asked, hconvert⟩ := ih f.length hshorter f s₁ rfl
          exact ⟨v, s', f :: asked, .converted hask hconvert⟩
        · exact ⟨v, s₁, [f], .answered hask⟩
      · rw [not_exists] at hshape
        exact ⟨_, s, [], .text hnumber hshape s⟩

theorem converts_iff {token : Text} {s s' : σ} {v : Value} {asked : List Text} :
    Converts ask token s v s' asked ↔
      convertWith (noting ask) token (s, []) = (v, s', asked) := by
  constructor
  · intro h
    exact h.convertWith_noting []
  · intro h
    obtain ⟨v', s'', asked', h'⟩ := exists_converts ask token s
    have hsame := (h'.convertWith_noting []).symm.trans h
    cases hsame
    exact h'

/-- A token has one reading. -/
theorem Converts.convertWith_eq {token : Text} {s s' : σ} {v : Value} {asked : List Text}
    (h : Converts ask token s v s' asked) : convertWith ask token s = (v, s') := by
  rw [convertWith_eq_noting ask token s [], converts_iff.1 h]

/-- The reader finds a value exactly if the grammar has it. -/
theorem fst_convertWith_eq_iff {token : Text} {s : σ} {v : Value} :
    (convertWith ask token s).1 = v ↔ ∃ s' asked, Converts ask token s v s' asked := by
  constructor
  · rintro rfl
    obtain ⟨v, s', asked, h⟩ := exists_converts ask token s
    rw [h.convertWith_eq]
    exact ⟨s', asked, h⟩
  · rintro ⟨s', asked, h⟩
    rw [h.convertWith_eq]

/-! ## What is asked for -/

/-- The text is a field of the vector that the token may be. -/
def FieldOf (f token : Text) : Prop :=
  ∃ body, Brackets (Text.trim token) body ∧ Countable body ∧ f ∈ Field.split body

open Relation (TransGen ReflTransGen)

mutual

/-- The fields that are asked for stand in the token, at any depth. -/
theorem Converts.fieldOf {token : Text} {s s' : σ} {v : Value} {asked : List Text}
    (h : Converts ask token s v s' asked) : ∀ f ∈ asked, TransGen FieldOf f token := by
  intro f hf
  match h with
  | .number _ _ => cases hf
  | .text _ _ _ => cases hf
  | .miscounted _ _ _ => cases hf
  | .vector hbody hfields hvs hv =>
      obtain ⟨g, hg, hfg⟩ := hfields.fieldOf f hf
      exact .tail' hfg ⟨_, hbody, hfields.countable hvs hv, hg⟩
  | .stopped hbody hcount hsplit hfront hvs hlast hv =>
      rcases List.mem_append.1 hf with hf | hf
      · obtain ⟨g, hg, hfg⟩ := hfront.fieldOf f hf
        exact .tail' hfg ⟨_, hbody, hcount, hsplit ▸ List.mem_append_left _ hg⟩
      · exact .tail' (hlast.fieldOf f hf) ⟨_, hbody, hcount, hsplit ▸ by simp⟩

theorem ConvertsField.fieldOf {g : Text} {s s' : σ} {v : Value} {asked : List Text}
    (h : ConvertsField ask g s v s' asked) : ∀ f ∈ asked, ReflTransGen FieldOf f g := by
  intro f hf
  match h with
  | .answered _ =>
      obtain rfl := List.mem_singleton.1 hf
      exact .refl
  | .converted _ hconvert =>
      rcases List.mem_cons.1 hf with rfl | hf
      · exact .refl
      · exact (hconvert.fieldOf f hf).to_reflTransGen

theorem ConvertsFields.fieldOf {fields : List Text} {s s' : σ} {vs : List Value}
    {asked : List Text} (h : ConvertsFields ask fields s vs s' asked) :
    ∀ f ∈ asked, ∃ g ∈ fields, ReflTransGen FieldOf f g := by
  intro f hf
  match h with
  | .nil _ => cases hf
  | .cons hfield hrest =>
      rcases List.mem_append.1 hf with hf | hf
      · exact ⟨_, List.mem_cons_self, hfield.fieldOf f hf⟩
      · obtain ⟨g, hg, hfg⟩ := hrest.fieldOf f hf
        exact ⟨g, List.mem_cons_of_mem _ hg, hfg⟩

end

/-! ## Values -/

theorem denotesNumber_int_iff {t : Text} {n : Int64} :
    DenotesNumber t (.int n) ↔ Number.int64Literal? t = some n := by
  constructor
  · intro h
    cases h with
    | int h => exact h
  · exact .int

theorem DenotesNumber.eq_int_or_float {t : Text} {v : Value} (h : DenotesNumber t v) :
    (∃ n, v = .int n) ∨ ∃ x, v = .float x := by
  cases h with
  | int => exact Or.inl ⟨_, rfl⟩
  | float => exact Or.inr ⟨_, rfl⟩
  | suffixed => exact Or.inr ⟨_, rfl⟩

/-- The fields of the body stand for the numbers. -/
def Holds (ask : Text → σ → Option Value × σ) (body : Text) (s : σ) (xs : List Float) : Prop :=
  ∃ vs s' asked, ConvertsFields ask (Field.split body) s vs s' asked ∧ StandFor vs xs

/-- A token is a vector exactly if it holds the components between square brackets. -/
theorem convertWith_eq_vector_iff {token : Text} {s : σ} {v : Value} {xs : List Float}
    (hv : HasComponents v xs) :
    (convertWith ask token s).1 = v ↔
      ∃ body, Brackets (Text.trim token) body ∧ Holds ask body s xs := by
  rw [fst_convertWith_eq_iff]
  constructor
  · rintro ⟨s', asked, h⟩
    cases h with
    | number hnumber =>
        rcases hnumber.eq_int_or_float with ⟨n, rfl⟩ | ⟨x, rfl⟩ <;> cases hv
    | text => cases hv
    | miscounted => cases hv
    | vector hbody hfields hvs hv' =>
        obtain rfl := hv.unique hv'
        exact ⟨_, hbody, _, _, _, hfields, hvs⟩
    | stopped => cases hv
  · rintro ⟨body, hbody, vs, s', asked, hfields, hvs⟩
    exact ⟨s', asked, .vector hbody hfields hvs hv⟩

/-- A token is no value exactly if it is bracketed and holds no two to four components. -/
theorem convertWith_eq_nil_iff {token : Text} {s : σ} :
    (convertWith ask token s).1 = .nil ↔
      ∃ body, Brackets (Text.trim token) body ∧
        ∀ v xs, HasComponents v xs → ¬ Holds ask body s xs := by
  constructor
  · intro hnil
    have hbody : ∃ body, Brackets (Text.trim token) body := by
      obtain ⟨s', asked, h⟩ := fst_convertWith_eq_iff.1 hnil
      cases h with
      | number hnumber => rcases hnumber.eq_int_or_float with ⟨n, hn⟩ | ⟨x, hx⟩ <;> contradiction
      | miscounted hbody | vector hbody | stopped hbody => exact ⟨_, hbody⟩
    obtain ⟨body, hbody⟩ := hbody
    refine ⟨body, hbody, fun v xs hv hholds => ?_⟩
    -- it would be a vector
    have hvector := (convertWith_eq_vector_iff hv).2 ⟨body, hbody, hholds⟩
    obtain rfl : v = .nil := hvector.symm.trans hnil
    cases hv
  · rintro ⟨body, hbody, hholds⟩
    obtain ⟨v, s', asked, h⟩ := exists_converts ask token s
    rw [h.convertWith_eq]
    cases h with
    | number hnumber => exact absurd hnumber (hbody.notNumber v)
    | text hnumber hshape => exact absurd hbody.shape (hshape body)
    | miscounted => rfl
    | vector hbody' hfields hvs hv =>
        obtain rfl := hbody.unique hbody'
        exact absurd ⟨_, _, _, hfields, hvs⟩ (hholds v _ hv)
    | stopped => rfl

/-- A token is a text exactly if it is no number and not bracketed. -/
theorem convertWith_eq_text_iff {token t : Text} {s : σ} :
    (convertWith ask token s).1 = .text t ↔
      t = Text.trim token ∧ (∀ v, ¬ DenotesNumber (Text.trim token) v) ∧
        ∀ body, Text.trim token ≠ '[' :: (body ++ [']']) := by
  rw [fst_convertWith_eq_iff]
  constructor
  · rintro ⟨s', asked, h⟩
    cases h with
    | number hnumber => rcases hnumber.eq_int_or_float with ⟨n, hn⟩ | ⟨x, hx⟩ <;> contradiction
    | text hnumber hshape => exact ⟨rfl, hnumber, hshape⟩
    | vector _ _ _ hv => cases hv
  · rintro ⟨rfl, hnumber, hshape⟩
    exact ⟨s, [], .text hnumber hshape s⟩

/-! ## The reader and the grammar -/

/-- A token is read by the grammar, and no more is asked for than the grammar asks for. -/
structure FollowsGrammar (ask : Text → σ → Option Value × σ) (token : Text) (s : σ) : Prop where
  /-- The value, the state of the answers and all that was asked for, in order. -/
  reading : ∀ v s' asked,
    convertWith (noting ask) token (s, []) = (v, s', asked) ↔ Converts ask token s v s' asked
  /-- Noting what was asked for changes nothing else. -/
  unnoted : convertWith ask token s =
    ((convertWith (noting ask) token (s, [])).1, (convertWith (noting ask) token (s, [])).2.1)
  number : ∀ v, DenotesNumber (Text.trim token) v → convertWith ask token s = (v, s)
  vector : ∀ v xs, HasComponents v xs → ((convertWith ask token s).1 = v ↔
    ∃ body, Brackets (Text.trim token) body ∧ Holds ask body s xs)
  nil : (convertWith ask token s).1 = .nil ↔
    ∃ body, Brackets (Text.trim token) body ∧ ∀ v xs, HasComponents v xs → ¬ Holds ask body s xs
  text : ∀ t, (convertWith ask token s).1 = .text t ↔
    t = Text.trim token ∧ (∀ v, ¬ DenotesNumber (Text.trim token) v) ∧
      ∀ body, Text.trim token ≠ '[' :: (body ++ [']'])
  asked : ∀ f ∈ (convertWith (noting ask) token (s, [])).2.2, TransGen FieldOf f token

/-- Every token is read by the grammar, however its fields are answered. -/
theorem followsGrammar (ask : Text → σ → Option Value × σ) (token : Text) (s : σ) :
    FollowsGrammar ask token s where
  reading _ _ _ := converts_iff.symm
  unnoted := convertWith_eq_noting ask token s []
  number _ h := (Converts.number h s).convertWith_eq
  vector _ _ hv := convertWith_eq_vector_iff hv
  nil := convertWith_eq_nil_iff
  text _ := convertWith_eq_text_iff
  asked := by
    obtain ⟨v, s', asked, hconvert⟩ := exists_converts ask token s
    rw [converts_iff.1 hconvert]
    exact hconvert.fieldOf

end Literal

end CommandConsole

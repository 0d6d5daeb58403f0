import CommandConsole.Reduction
import CommandConsole.Proofs.Field.Parts

set_option autoImplicit false

/-!
# Reading a literal with answers

How the value of a token depends on the answers that its vector components get.  The main
statement is `convertWith_matches`: when two ways to answer agree on every part of the token that
no word runs out of, and keep their states related while they do, the token has one value and the
states stay related.  What a state keeps through each answer it keeps through the reading of fields
(`readFields_invariant`), and a token of which no part is answered is read from its text alone
(`convertWith_eq_convert`).
-/

namespace CommandConsole.Literal

variable {σ τ : Type}

/-! ## The value of a token, case by case -/

/-- The brackets of a vector are no part of a word. -/
theorem apartIn_body {t body : Text} (h : vectorBody? t = some body) : body.ApartIn t := by
  unfold vectorBody? at h
  split at h
  · rename_i rest
    rw [Text.dropLast?_eq_some_iff] at h
    refine ⟨['['], [']'], by simp [h], ?_, ?_⟩ <;>
    · intro c hc
      cases hc
      decide
  · cases h

/-- The value of a text that may have an answer: the answer, or what the text denotes. -/
def answered (ask : Text → σ → Option Value × σ) (f : Text) (s : σ) : Value × σ :=
  match ask f s with
  | (some v, s) => (v, s)
  | (none, s) => convertWith ask f s

/-- The number that a component stands for. -/
def component (ask : Text → σ → Option Value × σ) (f : Text) (s : σ) : Option Float × σ :=
  match ask f s with
  | (some v, s) => (v.asFloat?, s)
  | (none, s) => ((convertWith ask f s).1.asFloat?, (convertWith ask f s).2)

/-- The values of fields, from left to right. -/
def readFields (ask : Text → σ → Option Value × σ) : List Text → σ → List Value × σ
  | [], s => ([], s)
  | f :: rest, s =>
    let (v, s) := answered ask f s
    let (vs, s) := readFields ask rest s
    (v :: vs, s)

/-- A component is read as any other text. -/
theorem component_eq (ask : Text → σ → Option Value × σ) (f : Text) (s : σ) :
    component ask f s = ((answered ask f s).1.asFloat?, (answered ask f s).2) := by
  unfold component answered
  rcases ask f s with ⟨_ | v, t⟩ <;> rfl

theorem collect_map {α β γ : Type} (f : α → β) (step : β → σ → Option γ × σ) (l : List α)
    (s : σ) : collect step (l.map f) s = collect (fun a s => step (f a) s) l s := by
  induction l generalizing s with
  | nil => rfl
  | cons a l ih => simp only [List.map_cons, collect, ih]

theorem convertWith_of_number {ask : Text → σ → Option Value × σ} {token : Text} {v : Value}
    (h : number? (Text.trim token) = some v) (s : σ) : convertWith ask token s = (v, s) := by
  rw [convertWith, h]

theorem convertWith_of_text {ask : Text → σ → Option Value × σ} {token : Text}
    (hn : number? (Text.trim token) = none) (hv : vectorBody? (Text.trim token) = none) (s : σ) :
    convertWith ask token s = (.text (Text.trim token), s) := by
  rw [convertWith, hn]
  dsimp only
  split
  · rfl
  · rename_i body hbody
    rw [hv] at hbody
    cases hbody

/-- A bracketed token is read component by component. -/
theorem convertWith_of_vector {ask : Text → σ → Option Value × σ} {token body : Text}
    (hn : number? (Text.trim token) = none) (hv : vectorBody? (Text.trim token) = some body)
    (s : σ) :
    convertWith ask token s =
      if 2 ≤ (Field.split body).length ∧ (Field.split body).length ≤ 4 then
        match collect (component ask) (Field.split body) s with
        | (some xs, s) => (Value.ofComponents xs, s)
        | (none, s) => (.nil, s)
      else (.nil, s) := by
  rw [convertWith, hn]
  dsimp only
  split
  · rename_i hbody
    rw [hv] at hbody
    cases hbody
  · rename_i body' hbody
    rw [hv] at hbody
    cases hbody
    have hmap := collect_map (fun f : { f // f ∈ Field.split body } => f.1) (component ask)
      (Field.split body).attach s
    rw [List.attach_map_subtype_val] at hmap
    rw [hmap]
    rfl

/-! ## Two ways to answer -/

section Related

variable {ask : Text → σ → Option Value × σ} {ask' : Text → τ → Option Value × τ}
  {R : σ → τ → Prop}

/-- Two outcomes answer the same and leave related states. -/
def Matches {α : Type} (R : σ → τ → Prop) (x : α × σ) (y : α × τ) : Prop :=
  x.1 = y.1 ∧ R x.2 y.2

/-- Two ways to answer agree on a text. -/
def Agree (ask : Text → σ → Option Value × σ) (ask' : Text → τ → Option Value × τ)
    (R : σ → τ → Prop) (f : Text) : Prop :=
  ∀ s t, R s t → Matches R (ask f s) (ask' f t)

theorem collect_matches {α β : Type} {step : α → σ → Option β × σ}
    {step' : α → τ → Option β × τ} {l : List α}
    (h : ∀ a ∈ l, ∀ s t, R s t → Matches R (step a s) (step' a t)) {s : σ} {t : τ}
    (hst : R s t) : Matches R (collect step l s) (collect step' l t) := by
  induction l generalizing s t with
  | nil => exact ⟨rfl, hst⟩
  | cons a l ih =>
      have hhead := h a List.mem_cons_self s t hst
      unfold collect
      rcases hs : step a s with ⟨b, s₁⟩
      rcases ht : step' a t with ⟨b', t₁⟩
      rw [hs, ht] at hhead
      obtain ⟨rfl, hnext⟩ : b = b' ∧ R s₁ t₁ := hhead
      cases b with
      | none => exact ⟨rfl, hnext⟩
      | some b =>
          have hrest := ih (fun c hc => h c (List.mem_cons_of_mem a hc)) hnext
          rcases hs' : collect step l s₁ with ⟨bs, s₂⟩
          rcases ht' : collect step' l t₁ with ⟨bs', t₂⟩
          rw [hs', ht'] at hrest
          obtain ⟨rfl, hlast⟩ : bs = bs' ∧ R s₂ t₂ := hrest
          simp only [hs', ht']
          cases bs <;> exact ⟨rfl, hlast⟩

theorem answered_matches {f : Text} (hask : Agree ask ask' R f)
    (hconvert : ∀ s t, R s t → Matches R (convertWith ask f s) (convertWith ask' f t)) {s : σ}
    {t : τ} (hst : R s t) : Matches R (answered ask f s) (answered ask' f t) := by
  have hanswer := hask s t hst
  unfold answered
  rcases hs : ask f s with ⟨v, s₁⟩
  rcases ht : ask' f t with ⟨v', t₁⟩
  rw [hs, ht] at hanswer
  obtain ⟨rfl, hnext⟩ : v = v' ∧ R s₁ t₁ := hanswer
  cases v with
  | none => exact hconvert s₁ t₁ hnext
  | some v => exact ⟨rfl, hnext⟩

/-- Two ways to answer that agree on every part of a token give it one value. -/
theorem convertWith_matches {token : Text} (h : ∀ f, f.ApartIn token → Agree ask ask' R f)
    {s : σ} {t : τ} (hst : R s t) :
    Matches R (convertWith ask token s) (convertWith ask' token t) := by
  -- the fields of a vector are shorter than the token that holds it
  induction hlen : token.length using Nat.strongRecOn generalizing token s t with
  | ind n ih =>
      subst hlen
      cases hn : number? (Text.trim token) with
      | some v =>
          rw [convertWith_of_number hn, convertWith_of_number hn]
          exact ⟨rfl, hst⟩
      | none =>
          cases hv : vectorBody? (Text.trim token) with
          | none =>
              rw [convertWith_of_text hn hv, convertWith_of_text hn hv]
              exact ⟨rfl, hst⟩
          | some body =>
              have hpart : ∀ f ∈ Field.split body, f.ApartIn token := by
                intro f hf
                have hbody : body.ApartIn token := (apartIn_body hv).trans (Text.apartIn_trim token)
                exact (Field.apartIn_of_mem_split hf).trans hbody
              have hcomponent : ∀ f ∈ Field.split body, ∀ s t, R s t →
                  Matches R (component ask f s) (component ask' f t) := by
                intro f hf s t hst
                have hinner : ∀ g, g.ApartIn f → Agree ask ask' R g := by
                  intro g hg
                  exact h g (hg.trans (hpart f hf))
                obtain ⟨hvalue, hnext⟩ := answered_matches (h f (hpart f hf))
                  (fun s t hst => ih f.length (length_field_lt hv hf) hinner hst rfl) hst
                rw [component_eq, component_eq]
                exact ⟨congrArg Value.asFloat? hvalue, hnext⟩
              rw [convertWith_of_vector hn hv, convertWith_of_vector hn hv]
              split
              · have hcollect := collect_matches hcomponent hst
                rcases hs : collect (component ask) (Field.split body) s with ⟨xs, s₁⟩
                rcases ht : collect (component ask') (Field.split body) t with ⟨xs', t₁⟩
                rw [hs, ht] at hcollect
                obtain ⟨rfl, hlast⟩ : xs = xs' ∧ R s₁ t₁ := hcollect
                cases xs <;> exact ⟨rfl, hlast⟩
              · exact ⟨rfl, hst⟩

theorem readFields_matches (fields : List Text)
    (h : ∀ f ∈ fields, ∀ g, g.ApartIn f → Agree ask ask' R g) {s : σ} {t : τ} (hst : R s t) :
    Matches R (readFields ask fields s) (readFields ask' fields t) := by
  induction fields generalizing s t with
  | nil => exact ⟨rfl, hst⟩
  | cons f rest ih =>
      have hf := h f List.mem_cons_self
      obtain ⟨hvalue, hnext⟩ := answered_matches (hf f (Text.ApartIn.refl f))
        (fun s t hst => convertWith_matches hf hst) hst
      obtain ⟨hvalues, hlast⟩ := ih (fun g hg => h g (List.mem_cons_of_mem f hg)) hnext
      exact ⟨by simp only [readFields, hvalue, hvalues], hlast⟩

end Related

/-- What every answer keeps, the reading of fields keeps. -/
theorem readFields_invariant {ask : Text → σ → Option Value × σ} {I : σ → Prop}
    (fields : List Text) (h : ∀ f ∈ fields, ∀ g, g.ApartIn f → ∀ s, I s → I (ask g s).2) {s : σ}
    (hs : I s) : I (readFields ask fields s).2 := by
  have hagree : ∀ f ∈ fields, ∀ g, g.ApartIn f → Agree ask ask (fun s t => s = t ∧ I s) g := by
    rintro f hf g hg s t ⟨rfl, hs⟩
    exact ⟨rfl, rfl, h f hf g hg s hs⟩
  exact (readFields_matches fields hagree ⟨rfl, hs⟩).2.2

/-- A token of which no part has an answer is read from its text alone. -/
theorem convertWith_eq_convert {ask : Text → σ → Option Value × σ} {token : Text}
    (h : ∀ f, f <:+: token → ∀ s, ask f s = (none, s)) (s : σ) :
    convertWith ask token s = (convert token, s) := by
  have hagree : ∀ f, f.ApartIn token →
      Agree ask (fun _ (u : Unit) => (none, u)) (fun t _ => t = s) f := by
    rintro f hf t u rfl
    rw [h f hf.isInfix t]
    exact ⟨rfl, rfl⟩
  obtain ⟨hvalue, hstate⟩ := convertWith_matches (t := ()) hagree rfl
  exact Prod.ext hvalue hstate

/-- The value of a field is the answer to it after the fields before it are read. -/
theorem getElem?_readFields (ask : Text → σ → Option Value × σ) {fields : List Text} {i : Nat}
    {f : Text} (h : fields[i]? = some f) (s : σ) :
    (readFields ask fields s).1[i]? =
      some (answered ask f (readFields ask (fields.take i) s).2).1 := by
  induction fields generalizing i s with
  | nil => simp at h
  | cons g rest ih =>
      cases i with
      | zero =>
          rw [List.getElem?_cons_zero] at h
          cases h
          rfl
      | succ i =>
          rw [List.getElem?_cons_succ] at h
          exact ih h (answered ask g s).2

/-- The value of a field is the answer to it in some state. -/
theorem exists_answered (ask : Text → σ → Option Value × σ) {fields : List Text}
    {i : Nat} {f : Text} (h : fields[i]? = some f) (s : σ) :
    ∃ t, (readFields ask fields s).1[i]? = some (answered ask f t).1 :=
  ⟨_, getElem?_readFields ask h s⟩

theorem length_readFields (ask : Text → σ → Option Value × σ) (fields : List Text) (s : σ) :
    (readFields ask fields s).1.length = fields.length := by
  induction fields generalizing s with
  | nil => rfl
  | cons f rest ih => exact congrArg (· + 1) (ih (answered ask f s).2)

/-! ## Texts -/

theorem number?_ne_text {t x : Text} : number? t ≠ some (.text x) := by
  unfold number?
  split
  · simp
  · split
    · simp
    · split <;> simp

theorem ofComponents_ne_text {xs : List Float} {x : Text} : Value.ofComponents xs ≠ .text x := by
  unfold Value.ofComponents
  split <;> simp

/-- A token that is a text is its own text. -/
theorem eq_trim_of_convertWith {ask : Text → σ → Option Value × σ} {token x : Text} {s : σ}
    (h : (convertWith ask token s).1 = .text x) : x = Text.trim token := by
  cases hn : number? (Text.trim token) with
  | some v =>
      rw [convertWith_of_number hn] at h
      exact absurd (hn.trans (congrArg some h)) number?_ne_text
  | none =>
      cases hv : vectorBody? (Text.trim token) with
      | none =>
          rw [convertWith_of_text hn hv] at h
          cases h
          rfl
      | some body =>
          rw [convertWith_of_vector hn hv] at h
          split at h
          · rcases hcollect : collect (component ask) (Field.split body) s with ⟨_ | xs, t⟩
            · rw [hcollect] at h
              cases h
            · rw [hcollect] at h
              exact absurd h ofComponents_ne_text
          · cases h

end CommandConsole.Literal

namespace CommandConsole.Pending

/-- The arguments of a call are its fields, read with the values that wait as answers. -/
theorem arguments_eq_readFields (fields : List Text) (p : Pending) :
    arguments fields p = Literal.readFields take fields p := by
  induction fields generalizing p with
  | nil => rfl
  | cons f rest ih =>
      have hf : argument f p = Literal.answered take f p := by
        unfold argument Literal.answered
        rcases p.take f with ⟨_ | v, q⟩ <;> rfl
      simp only [arguments, Literal.readFields, hf, ih]

end CommandConsole.Pending

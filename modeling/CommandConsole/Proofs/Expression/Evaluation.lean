import CommandConsole.Proofs.Evaluation.Run
import CommandConsole.Proofs.Expression.Reading

set_option autoImplicit false

/-!
# Reduction is evaluation

A line that shows a call is reduced to the value of the call as a tree.  The simulation goes over
the tree: where a line shows a field, reduction either ends as the field does, or it comes to the
same line with a text in the place of the field that reads as the value of the field
(`reduced_of_renders`).  Around the field nothing has changed: what is asked for elsewhere has the
values it had, and the placeholders in the new text stand nowhere else (`Settled`).
-/

namespace CommandConsole

open Pending (find? Keyed Takes Same)

/-! ## One call -/

/-- A field may stand after the text: nothing is closed in it, and no word ends it. -/
structure Before (t : Text) : Prop where
  unclosed : ')' ∉ t
  apart : ∀ c, t.getLast? = some c → Text.isWordChar c = false

namespace Before

theorem nil : Before [] := ⟨by simp, by simp⟩

/-- A field may stand after a margin. -/
theorem margin {t b : Text} (ht : Before t) (hb : Text.Blank b) : Before (t ++ b) := by
  constructor
  · intro h
    rcases List.mem_append.1 h with h | h
    · exact ht.unclosed h
    · exact hb.not_mem (by decide) h
  · intro c hc
    cases hlast : b.getLast? with
    | none =>
        rw [List.getLast?_eq_none_iff] at hlast
        rw [hlast, List.append_nil] at hc
        exact ht.apart c hc
    | some d =>
        rw [List.getLast?_append, hlast] at hc
        cases hc
        exact Text.not_isWordChar_of_isBlank (hb _ (List.mem_of_getLast? hlast))

/-- A field may stand after punctuation that closes nothing. -/
theorem mark {t u : Text} {c : Char} (ht : Before t) (hu : ')' ∉ u)
    (hc : Text.isWordChar c = false) (hclose : c ≠ ')') : Before (t ++ (u ++ [c])) := by
  constructor
  · intro h
    rcases List.mem_append.1 h with h | h
    · exact ht.unclosed h
    · rcases List.mem_append.1 h with h | h
      · exact hu h
      · exact hclose (List.mem_singleton.1 h).symm
  · intro d hd
    rw [← List.append_assoc, List.getLast?_concat] at hd
    cases hd
    exact hc

end Before

theorem Name.word (n : Name) : ∀ c ∈ n.text, Text.isWordChar c = true := by
  have := n.isWord
  rw [Text.isWord, Bool.and_eq_true] at this
  exact List.all_eq_true.1 this.2

theorem Name.ne_nil (n : Name) : n.text ≠ [] := by
  intro h
  have := n.isWord
  simp [Text.isWord, h] at this

theorem Name.not_mem_close (n : Name) : ')' ∉ n.text := Text.not_mem_of_word n.word (by decide)

/-- A call whose fields are reduced is the next one, with one argument for each field. -/
theorem exists_step {pre t : Text} {p : Pending} {vs : List Value} {asked : List Text}
    (post : Text) (name : Name) (hpre : Before pre) (hp : p.Keyed) (ht : ReadsAll p t vs asked)
    (last : Option Text) :
    ∃ q, Reduction.step? ⟨pre ++ (name.text ++ '(' :: (t ++ ')' :: post)), p, last⟩ =
      some ⟨⟨pre, name.text, t, post⟩, vs, q⟩ ∧ Takes asked p q := by
  have hcall : CallSite.IsCall ⟨pre, name.text, t, post⟩ :=
    ⟨name.word, name.ne_nil, ht.flat, hpre.apart⟩
  have hsite := CallSite.innermost?_line hcall hpre.unclosed
  obtain ⟨q, hanswer, htakes⟩ := ht.answer p hp fun _ _ => rfl
  refine ⟨q, ?_, htakes⟩
  rw [← Pending.arguments_eq_readFields] at hanswer
  unfold CallSite.line at hsite
  simp only [Reduction.step?, hsite, Option.map_some, hanswer]

/-! ## What has changed in a line -/

/-- The second state is the first after the reduction of a field between two texts: where it has
values for what the field asks for now, these are new, and elsewhere nothing has changed. -/
structure Settled (pre post t : Text) (p q : Pending) (asked : List Text) : Prop where
  keyed : q.Keyed
  fresh : ∀ f ∈ asked, (f <:+: t ∧ find? f q = none) ∨ (¬ f <:+: pre ∧ ¬ f <:+: post)
  frame : ∀ f, f <:+: pre ∨ f <:+: post → find? f q = find? f p

variable {pre post t u g l : Text} {p q r : Pending} {asked asks : List Text}

/-- What is settled between two texts is settled between shorter ones, for all that stands
there. -/
theorem Settled.around {l' : Text} (h : Settled (pre ++ l) (l' ++ post) t p q asked) :
    Settled pre post (l ++ (t ++ l')) p q asked where
  keyed := h.keyed
  fresh f hf := by
    rcases h.fresh f hf with ⟨hwithin, hnone⟩ | ⟨hpre, hpost⟩
    · exact Or.inl ⟨hwithin.trans ⟨l, l', by simp⟩, hnone⟩
    · right
      constructor
      · intro hi
        exact hpre (hi.trans (List.prefix_append pre l).isInfix)
      · intro hi
        exact hpost (hi.trans (List.suffix_append l' post).isInfix)
  frame f hf := by
    refine h.frame f (hf.imp ?_ ?_)
    · intro hi
      exact hi.trans (List.prefix_append pre l).isInfix
    · intro hi
      exact hi.trans (List.suffix_append l' post).isInfix

/-- A placeholder for a call settles the call, when its fields are settled. -/
theorem Settled.resume {name : Text} {v : Value}
    (h : Settled (pre ++ (name ++ ['('])) (')' :: post) t p q asked) (htakes : Takes asked q r)
    (hname : ∀ c ∈ name, Text.isWordChar c = true) :
    Settled pre post u p ((Placeholder.choose ⟨pre, name, g, post⟩ r, v) :: r)
      [Placeholder.choose ⟨pre, name, g, post⟩ r] where
  keyed := by
    intro x hx
    rcases List.mem_cons.1 hx with rfl | hx
    · exact fun c hc => Placeholder.isWordChar_of_mem_choose hname hc
    · exact htakes.keyed h.keyed x hx
  fresh f hf := by
    rw [List.mem_singleton] at hf
    exact Or.inr (hf ▸ Placeholder.not_isInfix_choose ⟨pre, name, g, post⟩ r)
  frame f hf := by
    obtain ⟨hbefore, hafter⟩ := Placeholder.not_isInfix_choose ⟨pre, name, g, post⟩ r
    have hne : Placeholder.choose ⟨pre, name, g, post⟩ r ≠ f := by
      rintro rfl
      exact hf.elim hbefore hafter
    have houter : f <:+: pre ++ (name ++ ['(']) ∨ f <:+: ')' :: post := hf.imp
      (fun hi => hi.trans (List.prefix_append pre _).isInfix) List.infix_cons
    rw [Pending.find?_cons, if_neg hne, ← h.frame f houter]
    by_cases hask : f ∈ asked
    · rcases h.fresh f hask with ⟨-, hnone⟩ | ⟨hpre, hpost⟩
      · rw [htakes.none hnone, hnone]
      · exact absurd houter (not_or.2 ⟨hpre, hpost⟩)
    · exact htakes.others f hask

/-- What is settled stays settled when something after it is. -/
theorem Settled.append (hfirst : Settled pre post t p q asked)
    (hrest : Settled (pre ++ l) post u q r asks) (hu : u <:+: t)
    (hparts : ∀ f ∈ asked, f <:+: pre ++ l) : Settled pre post t p r (asked ++ asks) where
  keyed := hrest.keyed
  fresh f hf := by
    rcases List.mem_append.1 hf with hf | hf
    · rw [hrest.frame f (Or.inl (hparts f hf))]
      exact hfirst.fresh f hf
    · rcases hrest.fresh f hf with ⟨hwithin, hnone⟩ | ⟨hpre, hpost⟩
      · exact Or.inl ⟨hwithin.trans hu, hnone⟩
      · exact Or.inr ⟨fun hi => hpre (hi.trans (List.prefix_append pre l).isInfix), hpost⟩
  frame f hf := by
    have hlater : find? f r = find? f q := hrest.frame f
      (hf.imp (fun hi => hi.trans (List.prefix_append pre l).isInfix) id)
    rw [hlater, hfirst.frame f hf]

/-- Nothing waits under a text that is asked for before and after. -/
theorem Settled.shared (hrest : Settled (pre ++ l) post u q r asks)
    (hparts : ∀ f ∈ asked, f <:+: pre ++ l) : ∀ f ∈ asked, f ∈ asks → find? f r = none := by
  intro f hf hfs
  rcases hrest.fresh f hfs with ⟨-, hnone⟩ | ⟨hpre, -⟩
  · exact hnone
  · exact absurd (hparts f hf) hpre

/-! ## The simulation -/

section Simulation

variable {β σ : Type} {e : Evaluator β σ} {line : Text} {last : Option Text} {w : World β σ}

/-- The reduction of a line with a field between two texts ends as the evaluation of the field
ends, or it goes on from a text that reads as its value. -/
inductive Reduced (e : Evaluator β σ) (line : Text) (x : Expr) (pre t post : Text)
    (p : Pending) (last : Option Text) (w : World β σ) : Prop where
  | ends {w' : World β σ} (hx : x.Yields e w none w')
      (hreduce : e.reduce line ⟨pre ++ (t ++ post), p, last⟩ w = (none, w'))
  | settles {v : Value} {w' : World β σ} {g : Text} {q : Pending} {last' : Option Text}
      {asked : List Text} (hx : x.Yields e w (some v) w') (hreads : Reads q g v asked)
      (hsettled : Settled pre post t p q asked)
      (hreduce : e.reduce line ⟨pre ++ (t ++ post), p, last⟩ w =
        e.reduce line ⟨pre ++ (g ++ post), q, last'⟩ w')

/-- The same of fields with commas between them. -/
inductive ReducedAll (e : Evaluator β σ) (line : Text) (xs : List Expr) (pre t post : Text)
    (p : Pending) (last : Option Text) (w : World β σ) : Prop where
  | ends {w' : World β σ} (hx : Expr.YieldsAll e xs w none w')
      (hreduce : e.reduce line ⟨pre ++ (t ++ post), p, last⟩ w = (none, w'))
  | settles {vs : List Value} {w' : World β σ} {g : Text} {q : Pending} {last' : Option Text}
      {asked : List Text} (hx : Expr.YieldsAll e xs w (some vs) w')
      (hreads : ReadsAll q g vs asked) (hsettled : Settled pre post t p q asked)
      (hreduce : e.reduce line ⟨pre ++ (t ++ post), p, last⟩ w =
        e.reduce line ⟨pre ++ (g ++ post), q, last'⟩ w')

/-- The reduction of a line with a call between two texts ends as the evaluation of the call ends,
or it goes on from a placeholder under which the value of the call waits. -/
inductive Called (e : Evaluator β σ) (line : Text) (x : Expr) (pre t post : Text)
    (p : Pending) (last : Option Text) (w : World β σ) : Prop where
  | ends {w' : World β σ} (hx : x.Yields e w none w')
      (hreduce : e.reduce line ⟨pre ++ (t ++ post), p, last⟩ w = (none, w'))
  | waits {v : Value} {w' : World β σ} {key : Text} {q : Pending} (hx : x.Yields e w (some v) w')
      (hne : key ≠ []) (hword : ∀ c ∈ key, Text.isWordChar c = true)
      (hkey : find? key q = some v) (hsettled : Settled pre post t p q [key])
      (hreduce : e.reduce line ⟨pre ++ (t ++ post), p, last⟩ w =
        e.reduce line ⟨pre ++ (key ++ post), q, some key⟩ w')

/-- What waits under a placeholder is read there. -/
theorem Called.reduced {x : Expr} (h : Called e line x pre t post p last w) :
    Reduced e line x pre t post p last w := by
  cases h with
  | ends hx hreduce => exact .ends hx hreduce
  | waits hx hne hword hkey hsettled hreduce =>
      exact .settles hx (.placeholder hne hword hkey) hsettled hreduce

theorem ne_nil_of_yieldsAll {x : Expr} {xs : List Expr} {vs : List Value} {w' : World β σ}
    (h : Expr.YieldsAll e (x :: xs) w (some vs) w') : vs ≠ [] := by
  cases h
  exact List.cons_ne_nil _ _

/-- A word is there already. -/
theorem Reduced.word (u : Word) (hp : p.Keyed) (h : find? (Text.trim u.text) p = none) :
    Reduced e line (.word u) pre u.text post p last w := by
  refine .settles (.word u w) (.word u h) ⟨hp, ?_, fun f _ => rfl⟩ rfl
  intro f hf
  rw [List.mem_singleton] at hf
  subst hf
  exact Or.inl ⟨Text.trim_isInfix u.text, h⟩

/-- A vector is reduced when its components are. -/
theorem ReducedAll.vector {items : List Expr}
    (h : ReducedAll e line items (pre ++ ['[']) t ([']'] ++ post) p last w) :
    Reduced e line (.vector items) pre ('[' :: (t ++ [']'])) post p last w := by
  cases h with
  | ends hx hreduce => exact .ends (.vectorEnds hx) (by simpa using hreduce)
  | @settles vs w' g q last' asked hx hreads hsettled hreduce =>
      have hvector : Reads q ('[' :: (g ++ [']'])) (Expr.vectorOf vs) asked := .vector hreads
      exact .settles (.vector hx) hvector hsettled.around (by simpa using hreduce)

/-- A call runs when its fields are reduced. -/
theorem ReducedAll.call {name : Name} {args : List Expr} (hpre : Before pre)
    (h : ReducedAll e line args (pre ++ (name.text ++ ['('])) t (')' :: post) p last w) :
    Called e line (.call name args) pre (name.text ++ '(' :: (t ++ [')'])) post p last w := by
  cases h with
  | ends hx hreduce => exact .ends (.callEnds hx) (by simpa using hreduce)
  | @settles vs w₁ g q last' asked hx hreads hsettled hreduce =>
      obtain ⟨r, hstep, htakes⟩ := exists_step post name hpre hsettled.keyed hreads last'
      have hrun : e.reduce line ⟨pre ++ (name.text ++ '(' :: (t ++ [')']) ++ post), p, last⟩ w =
          e.reduce line ⟨pre ++ (name.text ++ '(' :: (g ++ ')' :: post)), q, last'⟩ w₁ := by
        simpa using hreduce
      rw [Evaluator.reduce_of_step hstep] at hrun
      rcases hcall : e.call name.text g vs w₁ with ⟨_ | v, w₂⟩
      · simp only [hcall] at hrun
        exact .ends (.call hx hcall) hrun
      · simp only [hcall] at hrun
        have hkey := Placeholder.choose_ne_nil ⟨pre, name.text, g, post⟩ r
        have hword : ∀ c ∈ Placeholder.choose ⟨pre, name.text, g, post⟩ r,
            Text.isWordChar c = true := by
          intro c hc
          exact Placeholder.isWordChar_of_mem_choose name.word hc
        refine .waits (.call hx hcall) hkey hword ?_ (hsettled.resume htakes name.word) hrun
        rw [Pending.find?_cons, if_pos rfl]

mutual

/-- Where a line shows a field, under no part of which a value waits, reduction evaluates it. -/
theorem reduced_of_renders {x : Expr} {t : Text} (h : x.Renders t) {pre : Text} (post : Text)
    {p : Pending} (last : Option Text) (w : World β σ) (hpre : Before pre) (hp : p.Keyed)
    (ht : ∀ f, f <:+: t → find? f p = none) : Reduced e line x pre t post p last w := by
  cases h with
  | word u => exact Reduced.word u hp (ht _ (Text.trim_isInfix u.text))
  | @vector items t h =>
      apply ReducedAll.vector
      refine reducedAll_of_renders h _ last w ?_ hp ?_
      · exact hpre.mark (u := []) (by simp) (by decide) (by decide)
      · intro f hf
        exact ht f (hf.trans ⟨['['], [']'], by simp⟩)
  | @call name args t h =>
      apply Called.reduced
      apply ReducedAll.call hpre
      refine reducedAll_of_renders h _ last w ?_ hp ?_
      · exact hpre.mark name.not_mem_close (by decide) (by decide)
      · intro f hf
        exact ht f (hf.trans ⟨name.text ++ ['('], [')'], by simp⟩)

theorem reducedAll_of_renders {xs : List Expr} {t : Text} (h : Expr.RendersAll xs t) {pre : Text}
    (post : Text) {p : Pending} (last : Option Text) (w : World β σ) (hpre : Before pre)
    (hp : p.Keyed) (ht : ∀ f, f <:+: t → find? f p = none) :
    ReducedAll e line xs pre t post p last w := by
  cases h with
  | nil hb =>
      exact .settles (.nil w) (.nil hb)
        ⟨hp, fun f hf => absurd hf List.not_mem_nil, fun f _ => rfl⟩ rfl
  | @single x t b b' hb hx hb' =>
      have hfield := reduced_of_renders hx (b' ++ post) last w (hpre.margin hb) hp
        fun f hf => ht f (hf.trans ⟨b, b', by simp⟩)
      cases hfield with
      | ends hx hreduce => exact .ends (.headEnds hx) (by simpa using hreduce)
      | @settles v w₁ g q last₁ asked hx hreads hsettled hreduce =>
          exact .settles (.cons hx (.nil _)) (.single hb hreads hb') hsettled.around
            (by simpa using hreduce)
  | @cons x y rest t u b b' hb hx hb' hrest =>
      have hfield := reduced_of_renders hx ((b' ++ ',' :: u) ++ post) last w (hpre.margin hb) hp
        fun f hf => ht f (hf.trans ⟨b, b' ++ ',' :: u, by simp⟩)
      cases hfield with
      | ends hx hreduce => exact .ends (.headEnds hx) (by simpa using hreduce)
      | @settles v w₁ g q last₁ asked hx hreads hfirst hreduce =>
          -- the first field has become a part of what stands before the others
          have hbefore : Before (pre ++ (b ++ (g ++ b') ++ [','])) := by
            have hwhole : ReadsAll q (b ++ (g ++ b')) [v] asked := .single hb hreads hb'
            exact hpre.mark (fun hm => (hwhole.flat _ hm).2 rfl) (by decide) (by decide)
          have hshown : ∀ f, f <:+: u → find? f q = none := by
            intro f hf
            rw [hfirst.frame f (Or.inr (hf.trans ⟨b' ++ [','], post, by simp⟩))]
            exact ht f (hf.trans ⟨b ++ (t ++ (b' ++ [','])), [], by simp⟩)
          have hparts : ∀ f ∈ asked, f <:+: pre ++ (b ++ (g ++ b') ++ [',']) := by
            intro f hf
            exact (hreads.parts f hf).trans ⟨pre ++ b, b' ++ [','], by simp⟩
          have hothers := reducedAll_of_renders hrest post last₁ w₁ hbefore hfirst.keyed hshown
          have hrun : e.reduce line ⟨pre ++ (b ++ (t ++ (b' ++ ',' :: u)) ++ post), p, last⟩ w =
              e.reduce line ⟨pre ++ (b ++ (g ++ b') ++ [',']) ++ (u ++ post), q, last₁⟩ w₁ := by
            simpa using hreduce
          cases hothers with
          | ends hxs hreduce' => exact .ends (.tailEnds hx hxs) (hrun.trans hreduce')
          | @settles vs w₂ g' r last₂ asks hxs hreads' hlater hreduce' =>
              have hkept : Reads r g v asked := by
                apply hreads.transfer
                intro f hf
                exact hlater.frame f (Or.inl (hparts f hf))
              have hvalues : vs ≠ [] := ne_nil_of_yieldsAll hxs
              have hpart : u <:+: b ++ (t ++ (b' ++ ',' :: u)) :=
                ⟨b ++ (t ++ (b' ++ [','])), [], by simp⟩
              have hend : pre ++ (b ++ (g ++ b') ++ [',']) ++ (g' ++ post) =
                  pre ++ (b ++ (g ++ (b' ++ ',' :: g')) ++ post) := by
                simp
              rw [hend] at hreduce'
              exact .settles (.cons hx hxs)
                (.cons hb hkept hb' hreads' hvalues (hlater.shared hparts))
                (hfirst.around.append hlater hpart hparts) (hrun.trans hreduce')

end

/-- A call begins and ends without margin. -/
theorem trimmed_call (name : Name) (t : Text) :
    Text.Trimmed (name.text ++ '(' :: (t ++ [')'])) := by
  obtain ⟨c, rest, hname⟩ := List.exists_cons_of_ne_nil name.ne_nil
  constructor
  · intro d hd
    rw [hname] at hd
    cases hd
    exact Text.not_isBlank_of_isWordChar (name.word c (by simp [hname]))
  · intro d hd
    rw [← List.cons_append, ← List.append_assoc, List.getLast?_concat] at hd
    cases hd
    decide

/-- A line that shows a call is evaluated as the call is: its fields from left to right, each to
one argument, and nothing but the tree decides which bodies run and what they get. -/
theorem evaluate_yields {name : Name} {args : List Expr} {line : Text}
    (h : Expr.RendersAll [.call name args] line) (e : Evaluator β σ) (w : World β σ) :
    (Expr.call name args).Yields e w (e.evaluate line w).1 (e.evaluate line w).2 := by
  cases h with
  | @single _ _ b b' hb hx hb' =>
      cases hx with
      | @call _ _ t ht =>
          have htrim := Text.trim_of_trimmed (trimmed_call name t) hb hb'
          have hparen : Completion.hasParenthesis (name.text ++ '(' :: (t ++ [')'])) = true := by
            rw [Evaluator.hasParenthesis_iff]
            simp
          have hcalled : Called e (name.text ++ '(' :: (t ++ [')'])) (.call name args) []
              (name.text ++ '(' :: (t ++ [')'])) [] [] none w := by
            refine ReducedAll.call .nil (reducedAll_of_renders ht [')'] none w ?_ ?_ ?_)
            · exact Before.nil.mark name.not_mem_close (by decide) (by decide)
            · exact fun x hx => absurd hx List.not_mem_nil
            · exact fun f _ => Pending.find?_nil f
          rw [Evaluator.evaluate_of_hasParenthesis (by rw [htrim]; exact hparen), htrim]
          cases hcalled with
          | ends hx hreduce =>
              rw [List.nil_append, List.append_nil] at hreduce
              rw [Reduction.start, hreduce]
              exact hx
          | waits hx hne hword hkey hsettled hreduce =>
              rw [List.nil_append, List.append_nil, List.nil_append, List.append_nil,
                Evaluator.reduce_placeholder hword hkey] at hreduce
              rw [Reduction.start, hreduce]
              exact hx

end Simulation

/-- The tree of `g(2)`. -/
def innerCall : Expr := .call ⟨['g'], by decide⟩ [.word ⟨['2'], by decide, by decide⟩]

/-- The tree of `f([g(2), 3])`. -/
def nestedCall : Expr :=
  .call ⟨['f'], by decide⟩ [.vector [innerCall, .word ⟨['3'], by decide, by decide⟩]]

theorem renders_nestedCall : Expr.RendersAll [nestedCall] " f([g(2), 3])".toList := by
  have hinner : Expr.Renders innerCall ['g', '(', '2', ')'] :=
    .call (.single (b := []) (d := []) (by decide) (.word _) (by decide))
  have hitems : Expr.Renders (.vector [innerCall, .word ⟨['3'], by decide, by decide⟩])
      ['[', 'g', '(', '2', ')', ',', ' ', '3', ']'] :=
    .vector (.cons (b := []) (d := []) (by decide) hinner (by decide)
      (.single (b := [' ']) (d := []) (by decide) (.word _) (by decide)))
  exact .single (b := [' ']) (d := []) (by decide)
    (.call (.single (b := []) (d := []) (by decide) hitems (by decide))) (by decide)

/-- A line with a result in a vector is evaluated as its tree. -/
theorem evaluate_yields_nested :
    nestedCall.Yields Evaluator.echo (Evaluator.echoWorld [("f", 1), ("g", 1)])
      (Evaluator.echo.evaluate " f([g(2), 3])".toList
        (Evaluator.echoWorld [("f", 1), ("g", 1)])).1
      (Evaluator.echo.evaluate " f([g(2), 3])".toList
        (Evaluator.echoWorld [("f", 1), ("g", 1)])).2 :=
  evaluate_yields renders_nestedCall _ _

end CommandConsole

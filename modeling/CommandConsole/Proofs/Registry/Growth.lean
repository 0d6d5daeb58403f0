import CommandConsole.Builtin
import Mathlib.Data.List.Basic

set_option autoImplicit false

/-!
# The registry only grows

Commands are added at the end, after validation, and none is ever changed or removed.  So what an
operation does to the commands is that the registry `Grows`, and what holds of every accepted
command holds of every registered one (`Valid`): above all, its name is a word.
-/

namespace CommandConsole

namespace Registry

variable {β : Type} {r r' r'' : Registry β}

/-! ## Growth -/

/-- The second registry has the commands of the first, and accepted ones after them. -/
def Grows (r r' : Registry β) : Prop :=
  ∃ added, r'.commands = r.commands ++ added ∧ ∀ c ∈ added, c.refusal? = none

theorem Grows.of_eq (h : r'.commands = r.commands) : r.Grows r' :=
  ⟨[], by rw [h, List.append_nil], fun _ hc => absurd hc List.not_mem_nil⟩

theorem Grows.refl (r : Registry β) : r.Grows r := .of_eq rfl

theorem Grows.trans (h : r.Grows r') (h' : r'.Grows r'') : r.Grows r'' := by
  obtain ⟨added, hcommands, hadded⟩ := h
  obtain ⟨added', hcommands', hadded'⟩ := h'
  refine ⟨added ++ added', by rw [hcommands', hcommands, List.append_assoc], ?_⟩
  intro c hc
  rcases List.mem_append.1 hc with hc | hc
  · exact hadded c hc
  · exact hadded' c hc

theorem grows_register {c : Command β} (h : r.register c = .ok r') : r.Grows r' := by
  unfold register at h
  cases hrefusal : c.refusal? with
  | some reason =>
      rw [hrefusal] at h
      cases h
  | none =>
      rw [hrefusal] at h
      cases h
      exact ⟨[c], rfl, fun d hd => List.mem_singleton.1 hd ▸ hrefusal⟩

theorem grows_registerAll (cs : List (Command β)) (r : Registry β) :
    r.Grows (registerAll cs r).2 := by
  induction cs generalizing r with
  | nil => exact .refl r
  | cons c rest ih =>
      unfold registerAll
      cases hregister : r.register c with
      | error e => exact .refl r
      | ok r' => exact (grows_register hregister).trans (ih r')

theorem grows_registerBound (name : Text) (description category : Option Text) (type : TypeKey)
    (table : List (Method β)) (method : Text) (r : Registry β) :
    r.Grows (r.registerBound name description category type table method).2 := by
  unfold registerBound
  split
  · exact .refl r
  · dsimp only
    split <;>
    · rename_i hall
      exact congrArg Prod.snd hall ▸ grows_registerAll _ r

theorem grows_registerSingleton (i : Instance) (r : Registry β) :
    r.Grows (r.registerSingleton i).2 :=
  .of_eq rfl

theorem grows_unregisterSingleton (type : TypeKey) (r : Registry β) :
    r.Grows (r.unregisterSingleton type).2 :=
  .of_eq rfl

/-! ## Names -/

theorem mem_distinct {t : Text} {ts : List Text} : t ∈ distinct ts ↔ t ∈ ts := by
  induction ts with
  | nil => rfl
  | cons u ts ih =>
      rw [distinct, List.mem_cons, List.mem_cons, List.mem_filter, ih]
      by_cases h : t = u <;> simp [h]

/-- Distinct elements come in the order in which they stand first. -/
theorem pairwise_distinct (ts : List Text) :
    (distinct ts).Pairwise fun s t => ts.idxOf s < ts.idxOf t := by
  induction ts with
  | nil => exact List.Pairwise.nil
  | cons t rest ih =>
      have hlater : ∀ {u : Text}, u ∈ (distinct rest).filter (fun u => u ≠ t) →
          (t :: rest).idxOf u = rest.idxOf u + 1 := fun hu =>
        List.idxOf_cons_ne rest (Ne.symm (by simpa using (List.mem_filter.1 hu).2))
      rw [distinct, List.pairwise_cons]
      refine ⟨fun u hu => ?_, (ih.filter _).imp_of_mem fun hs hu hlt => ?_⟩
      · rw [hlater hu, List.idxOf_cons_self]
        exact Nat.succ_pos _
      · rw [hlater hs, hlater hu]
        exact Nat.succ_lt_succ hlt

theorem mem_names {name : Text} : name ∈ r.names ↔ ∃ c ∈ r.commands, c.name = name := by
  rw [names, mem_distinct, List.mem_map]

/-- Names stay. -/
theorem Grows.names_subset (h : r.Grows r') : r.names ⊆ r'.names := by
  intro name hname
  obtain ⟨added, hcommands, -⟩ := h
  obtain ⟨c, hc, hcname⟩ := mem_names.1 hname
  exact mem_names.2 ⟨c, hcommands ▸ List.mem_append_left added hc, hcname⟩

/-! ## Validity -/

/-- Every command passed validation. -/
def Valid (r : Registry β) : Prop := ∀ c ∈ r.commands, c.refusal? = none

theorem valid_empty : Valid ({} : Registry β) := fun _ hc => absurd hc List.not_mem_nil

theorem Valid.grows (h : r.Valid) (hgrows : r.Grows r') : r'.Valid := by
  obtain ⟨added, hcommands, hadded⟩ := hgrows
  intro c hc
  rw [hcommands] at hc
  rcases List.mem_append.1 hc with hc | hc
  · exact h c hc
  · exact hadded c hc

/-- The name of an accepted command is a word. -/
theorem word_of_accepted {c : Command β} (h : c.refusal? = none) :
    c.name ≠ [] ∧ ∀ d ∈ c.name, Text.isWordChar d = true := by
  unfold Command.refusal? at h
  split at h
  · cases h
  · rename_i hword
    simpa [Text.isWord] using hword

/-- Every registered name is a word. -/
theorem Valid.word (h : r.Valid) {name : Text} (hname : name ∈ r.names) :
    name ≠ [] ∧ ∀ d ∈ name, Text.isWordChar d = true := by
  obtain ⟨c, hc, rfl⟩ := mem_names.1 hname
  exact word_of_accepted (h c hc)

end Registry

end CommandConsole

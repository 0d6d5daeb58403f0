import CommandConsole.Proofs.Registry.Resolution
import Mathlib.Data.List.Forall2

set_option autoImplicit false

/-!
# Registration

Validation accepts exactly the well-formed commands (`refusal?_eq_none_iff`), and nothing enters a
registry but through it; so whatever is done to a registry, all of its commands are well-formed.  A
descriptor may be changed at will before that.

A registration is whole: either it is refused and leaves the registry as it was, or all of its
commands are added.  The overloads of a bound method are added one by one, and the registration ends
at the first one refused.  But they have one name, which alone decides, so the first one is refused
or none (`registersWhole`).
-/

namespace CommandConsole

namespace Command

variable {β : Type}

/-- The command runs a method on the instances of a type. -/
def IsMethod (c : Command β) : Prop := ∃ type body, c.invoker = .method type body

/-- The command runs a body for its effect only. -/
def IsAction (c : Command β) : Prop := ∃ body, c.invoker = .action body

/-- What holds of every registered command. -/
structure WellFormed (c : Command β) : Prop where
  named : c.name ≠ []
  word : ∀ d ∈ c.name, Text.isWordChar d = true
  direct_iff : c.descriptor.targetMode = .direct ↔ ¬ c.IsMethod
  params : c.IsAction → c.descriptor.params = []

/-- A name passes validation if it is not empty and all of it are word characters. -/
theorem isWord_iff (t : Text) :
    Text.isWord t = true ↔ t ≠ [] ∧ ∀ d ∈ t, Text.isWordChar d = true := by
  simp [Text.isWord]

/-- Validation accepts the well-formed commands and no others. -/
theorem refusal?_eq_none_iff (c : Command β) : c.refusal? = none ↔ c.WellFormed := by
  have hsplit : c.WellFormed ↔ Text.isWord c.name = true ∧
      (c.descriptor.targetMode = .direct ↔ ¬ c.IsMethod) ∧
        (c.IsAction → c.descriptor.params = []) := by
    rw [isWord_iff, and_assoc]
    exact ⟨fun h => ⟨h.named, h.word, h.direct_iff, h.params⟩,
      fun h => ⟨h.1, h.2.1, h.2.2.1, h.2.2.2⟩⟩
  rw [hsplit]
  unfold refusal? IsMethod IsAction
  cases Text.isWord c.name with
  | false => exact iff_of_false nofun nofun
  | true =>
      cases c.invoker with
      | action body =>
          cases c.descriptor.targetMode with
          | direct =>
              cases c.descriptor.params with
              | nil => exact iff_of_true rfl ⟨rfl, iff_of_true rfl nofun, fun _ => rfl⟩
              | cons kind rest => exact iff_of_false nofun fun h => nomatch h.2.2 ⟨body, rfl⟩
          | single | all | registry => exact iff_of_false nofun fun h => nomatch h.2.1.2 nofun
      | bound body =>
          cases c.descriptor.targetMode with
          | direct => exact iff_of_true rfl ⟨rfl, iff_of_true rfl nofun, nofun⟩
          | single | all | registry => exact iff_of_false nofun fun h => nomatch h.2.1.2 nofun
      | method type body =>
          cases c.descriptor.targetMode with
          | direct => exact iff_of_false nofun fun h => h.2.1.1 rfl ⟨type, body, rfl⟩
          | single | all | registry =>
              exact iff_of_true rfl ⟨rfl, iff_of_false nofun fun h => h ⟨type, body, rfl⟩, nofun⟩

end Command

namespace Registry

variable {β : Type}

/-! ## What is registered -/

/-- What can be done to a registry. -/
inductive Registration (β : Type) where
  | request (q : Request β)
  | registerSingleton (i : Instance)
  | unregisterSingleton (type : TypeKey)
  deriving Repr

namespace Registration

/-- The registry after a registration. -/
def apply (a : Registration β) (r : Registry β) : Registry β :=
  match a with
  | .request q => (q.apply r).2
  | .registerSingleton i => (r.registerSingleton i).2
  | .unregisterSingleton type => (r.unregisterSingleton type).2

theorem grows_apply (a : Registration β) (r : Registry β) : r.Grows (a.apply r) := by
  cases a with
  | request q => exact q.grows_apply r
  | registerSingleton i => exact grows_registerSingleton i r
  | unregisterSingleton type => exact grows_unregisterSingleton type r

/-- The registry after registrations. -/
def run (as : List (Registration β)) (r : Registry β) : Registry β :=
  as.foldl (fun r a => a.apply r) r

theorem valid_run {r : Registry β} (hr : r.Valid) (as : List (Registration β)) :
    (run as r).Valid := by
  induction as generalizing r with
  | nil => exact hr
  | cons a rest ih => exact ih (hr.grows (a.grows_apply r))

end Registration

/-! ## Refusals -/

/-- The name under which a request registers its commands. -/
def Request.name : Request β → Text
  | .register c => c.name
  | .registerDiscovered c => c.name
  | .registerBound name _ _ _ _ _ => name

theorem Request.name_of_mem_commands (q : Request β) {c : Command β} (hc : c ∈ q.commands) :
    c.name = q.name := by
  cases q with
  | register d | registerDiscovered d => exact congrArg Command.name (List.mem_singleton.1 hc)
  | registerBound name description category type table method =>
      obtain ⟨m, -, rfl⟩ := List.mem_map.1 hc
      cases description <;> rfl

/-- What is reported when a command is refused names the command. -/
theorem error_of_registerAll {cs : List (Command β)} {r r' : Registry β} {e : ConsoleError}
    (h : registerAll cs r = (.error e, r')) :
    ∃ c ∈ cs, ∃ reason, e = .invalidRegistration c.name reason := by
  induction cs generalizing r with
  | nil => cases h
  | cons c rest ih =>
      cases hrefusal : c.refusal? with
      | some reason =>
          rw [registerAll_of_refused hrefusal] at h
          cases h
          exact ⟨c, List.mem_cons_self, reason, rfl⟩
      | none =>
          rw [registerAll, register_of_accepted hrefusal] at h
          obtain ⟨d, hd, hreason⟩ := ih h
          exact ⟨d, List.mem_cons_of_mem c hd, hreason⟩

theorem Request.error_of_apply {q : Request β} {r r' : Registry β} {e : ConsoleError}
    (h : q.apply r = (.error e, r')) : ∃ reason, e = .invalidRegistration q.name reason := by
  cases q with
  | register c | registerDiscovered c =>
      cases hrefusal : c.refusal? with
      | some reason =>
          change apply.one (r.register c) r = _ at h
          rw [register_of_refused hrefusal] at h
          cases h
          exact ⟨reason, rfl⟩
      | none =>
          change apply.one (r.register c) r = _ at h
          rw [register_of_accepted hrefusal] at h
          cases h
  | registerBound name description category type table method =>
      by_cases hfound : Method.overloads method table = []
      · rw [apply, registerBound_of_none hfound] at h
        cases h
        exact ⟨_, rfl⟩
      · rw [apply, registerBound_of_some hfound] at h
        split at h
        · rename_i hall
          cases h
          obtain ⟨c, hc, reason, rfl⟩ := error_of_registerAll hall
          have hname := (Request.registerBound name description category type table
            method).name_of_mem_commands hc
          exact ⟨reason, by rw [hname]⟩
        · cases h

/-! ## Whole registrations -/

/-- A registration under a name is refused and leaves the registry as it was, or is answered with
the number of commands that it adds, of which there is at least one. -/
inductive Whole (name : Text) (Added : List (Command β) → Prop) (r : Registry β) :
    Except ConsoleError Nat × Registry β → Prop where
  | refused (reason : Text) : Whole name Added r (.error (.invalidRegistration name reason), r)
  | accepted {added : List (Command β)} (hne : added ≠ []) (hadded : Added added) :
      Whole name Added r (.ok added.length, { r with commands := r.commands ++ added })

theorem Whole.imp {name : Text} {P Q : List (Command β) → Prop} {r : Registry β}
    {answer : Except ConsoleError Nat × Registry β} (h : Whole name P r answer)
    (hpq : ∀ added, P added → Q added) : Whole name Q r answer := by
  cases h with
  | refused reason => exact .refused reason
  | accepted hne hadded => exact .accepted hne (hpq _ hadded)

/-- A request is whole. -/
theorem Request.whole_apply (q : Request β) (r : Registry β) :
    Whole q.name (fun added => added = q.commands) r (q.apply r) := by
  by_cases hvalid : q.Valid
  · rw [q.apply_of_valid hvalid r]
    exact .accepted hvalid.1 rfl
  · obtain ⟨e, hanswer⟩ := q.apply_of_not_valid hvalid r
    obtain ⟨reason, rfl⟩ := Request.error_of_apply hanswer
    rw [hanswer]
    exact .refused reason

/-- The direct command for an overload of a method, and for no other body. -/
structure Binds (name : Text) (description category : Option Text) (m : Method β)
    (c : Command β) : Prop where
  descriptor : c.descriptor = { name, description, category, params := m.params }
  invoker : c.invoker = .bound (.custom m.body)

theorem binds_boundCommand (name : Text) (description category : Option Text) (m : Method β) :
    Binds name description category m (boundCommand name description category m) := by
  cases description <;> exact ⟨rfl, rfl⟩

/-- The commands of a bound method are those for its overloads, in the order of the table. -/
theorem forall₂_binds_commands (name : Text) (description category : Option Text)
    (type : TypeKey) (table : List (Method β)) (method : Text) :
    List.Forall₂ (Binds name description category) (table.filter fun m => m.name = method)
      (Request.registerBound name description category type table method).commands := by
  rw [Request.commands, Method.overloads, List.forall₂_map_right_iff, List.forall₂_same]
  exact fun m _ => binds_boundCommand name description category m

/-- The command for an overload is well-formed exactly if its name is a word. -/
theorem wellFormed_iff_of_binds {name : Text} {description category : Option Text} {m : Method β}
    {c : Command β} (h : Binds name description category m c) :
    c.WellFormed ↔ Text.isWord name = true := by
  have hname : c.name = name := congrArg Descriptor.name h.descriptor
  have hdirect : c.descriptor.targetMode = .direct := congrArg Descriptor.targetMode h.descriptor
  rw [Command.isWord_iff]
  refine ⟨fun hc => hname ▸ ⟨hc.named, hc.word⟩, fun hword => ?_⟩
  have hmethod : ¬ c.IsMethod := fun ⟨type, body, hinvoker⟩ =>
    nomatch h.invoker.symm.trans hinvoker
  have haction : ¬ c.IsAction := fun ⟨body, hinvoker⟩ => nomatch h.invoker.symm.trans hinvoker
  exact ⟨hname ▸ hword.1, hname ▸ hword.2, iff_of_true hdirect hmethod, fun hc => absurd hc haction⟩

/-- The registration of a method is accepted exactly if the method has an overload and the name is
a word. -/
theorem valid_registerBound_iff (name : Text) (description category : Option Text)
    (type : TypeKey) (table : List (Method β)) (method : Text) :
    (Request.registerBound name description category type table method).Valid ↔
      Text.isWord name = true ∧ ∃ m ∈ table, m.name = method := by
  have hoverload : ∀ m : Method β, (boundCommand name description category m).refusal? = none ↔
      Text.isWord name = true := fun m =>
    (Command.refusal?_eq_none_iff _).trans (wellFormed_iff_of_binds (binds_boundCommand ..))
  unfold Request.Valid Request.commands
  constructor
  · rintro ⟨hne, hall⟩
    obtain ⟨m, hm⟩ := List.exists_mem_of_ne_nil _ (mt List.map_eq_nil_iff.2 hne)
    obtain ⟨hmem, hname⟩ := List.mem_filter.1 hm
    exact ⟨(hoverload m).1 (hall _ (List.mem_map_of_mem hm)), m, hmem, of_decide_eq_true hname⟩
  · rintro ⟨hword, m, hmem, hname⟩
    have hm : m ∈ Method.overloads method table := List.mem_filter.2 ⟨hmem, decide_eq_true hname⟩
    refine ⟨List.ne_nil_of_mem (List.mem_map_of_mem hm), fun c hc => ?_⟩
    obtain ⟨m', -, rfl⟩ := List.mem_map.1 hc
    exact (hoverload m').2 hword

/-- What is true of a registry and of the next registration. -/
structure RegistersWhole (r : Registry β) : Prop where
  wellFormed : ∀ c ∈ r.commands, c.WellFormed
  /-- A command is added alone, or refused if it is not well-formed. -/
  register : ∀ c : Command β,
    Whole c.name (fun added => added = [c]) r ((Request.register c).apply r) ∧
      (((Request.register c).apply r).1.isOk = true ↔ c.WellFormed)
  registerDiscovered : ∀ c : Command β, r.registerDiscovered c = r.register c
  /-- Of a bound method all overloads are added, in the order of the table, or none. -/
  registerBound : ∀ (name : Text) (description category : Option Text) (type : TypeKey)
      (table : List (Method β)) (method : Text),
    Whole name
        (List.Forall₂ (Binds name description category) (table.filter fun m => m.name = method))
        r (r.registerBound name description category type table method) ∧
      ((r.registerBound name description category type table method).1.isOk = true ↔
        Text.isWord name = true ∧ ∃ m ∈ table, m.name = method)

/-- After any registrations all commands are well-formed, and the next registration is accepted as
a whole or leaves no trace. -/
theorem registersWhole (as : List (Registration β)) :
    RegistersWhole (Registration.run as ({} : Registry β)) where
  wellFormed c hc := by
    have hvalid := Registration.valid_run valid_empty as
    exact (Command.refusal?_eq_none_iff c).1 (hvalid c hc)
  register c := by
    refine ⟨(Request.register c).whole_apply _, ((Request.register c).isOk_apply_iff _).trans ?_⟩
    have hvalid : (Request.register c).Valid ↔ c.refusal? = none := by
      simp [Request.Valid, Request.commands]
    exact hvalid.trans (Command.refusal?_eq_none_iff c)
  registerDiscovered c := rfl
  registerBound name description category type table method := by
    have hwhole := (Request.registerBound name description category type table method).whole_apply
      (Registration.run as {})
    refine ⟨hwhole.imp fun added hadded => ?_,
      (Request.isOk_apply_iff _ _).trans (valid_registerBound_iff ..)⟩
    exact hadded ▸ forall₂_binds_commands name description category type table method

end Registry

end CommandConsole

import CommandConsole.Proofs.Registry.Growth

set_option autoImplicit false

/-!
# Resolution after any registrations

Requests reach the registry on three ways: one command, one command of a discovery pass, and all
overloads of a method of one receiver.  A request is accepted as a whole or leaves no trace: the
commands of a bound method have one name, and that alone could make the registry refuse them.  So
the registry holds exactly the commands of the accepted requests, in order (`commands_run`), and a
call takes the earliest of them that has its name and its number of parameters (`resolvesEarliest`).
-/

namespace CommandConsole

namespace Registry

variable {β : Type}

/-! ## Requests -/

/-- A request to register commands. -/
inductive Request (β : Type) where
  | register (command : Command β)
  /-- The command was built by a discovery pass. -/
  | registerDiscovered (command : Command β)
  | registerBound (name : Text) (description category : Option Text) (type : TypeKey)
      (table : List (Method β)) (method : Text)
  deriving Repr

/-- The direct command for one overload of a method. -/
def boundCommand (name : Text) (description category : Option Text) (m : Method β) :
    Command β :=
  let c := (Command.bound name m.params (.custom m.body)).categorize category
  match description with
  | some d => c.describe d
  | none => c

namespace Request

/-- The commands that a request is to register. -/
def commands : Request β → List (Command β)
  | .register c => [c]
  | .registerDiscovered c => [c]
  | .registerBound name description category _ table method =>
    (Method.overloads method table).map (boundCommand name description category)

/-- The answer to a request, which is the number of commands it has registered, and the registry
after it. -/
def apply (q : Request β) (r : Registry β) : Except ConsoleError Nat × Registry β :=
  match q with
  | .register c => one (r.register c) r
  | .registerDiscovered c => one (r.registerDiscovered c) r
  | .registerBound name description category type table method =>
    r.registerBound name description category type table method
where
  one (result : Except ConsoleError (Registry β)) (r : Registry β) :
      Except ConsoleError Nat × Registry β :=
    match result with
    | .ok r' => (.ok 1, r')
    | .error e => (.error e, r)

/-- Whether a request has a command and all of them pass validation. -/
def Valid (q : Request β) : Prop := q.commands ≠ [] ∧ ∀ c ∈ q.commands, c.refusal? = none

end Request

/-- The registry after requests. -/
def run (qs : List (Request β)) (r : Registry β) : Registry β :=
  qs.foldl (fun r q => (q.apply r).2) r

/-- The accepted commands of requests, in order: those of the requests that are answered with
success. -/
def accepted : List (Request β) → Registry β → List (Command β)
  | [], _ => []
  | q :: rest, r =>
    (if (q.apply r).1.isOk then q.commands else []) ++ accepted rest (q.apply r).2

/-! ## What one request does -/

theorem register_of_refused {c : Command β} {reason : Text} (h : c.refusal? = some reason)
    (r : Registry β) : r.register c = .error (.invalidRegistration c.name reason) := by
  rw [register, h]

theorem register_of_accepted {c : Command β} (h : c.refusal? = none) (r : Registry β) :
    r.register c = .ok { r with commands := r.commands ++ [c] } := by
  rw [register, h]

theorem registerAll_of_accepted {cs : List (Command β)} (h : ∀ c ∈ cs, c.refusal? = none)
    (r : Registry β) : registerAll cs r = (.ok (), { r with commands := r.commands ++ cs }) := by
  induction cs generalizing r with
  | nil => rw [registerAll, List.append_nil]
  | cons c rest ih =>
      rw [registerAll, register_of_accepted (h c List.mem_cons_self)]
      dsimp only
      rw [ih fun d hd => h d (List.mem_cons_of_mem c hd)]
      simp

theorem registerAll_of_refused {c : Command β} {reason : Text} (h : c.refusal? = some reason)
    (rest : List (Command β)) (r : Registry β) :
    registerAll (c :: rest) r = (.error (.invalidRegistration c.name reason), r) := by
  rw [registerAll, register_of_refused h]

/-- Whether the command of a bound overload is refused depends on its name only. -/
theorem refusal?_boundCommand (name : Text) (description category : Option Text)
    (m m' : Method β) :
    (boundCommand name description category m).refusal? =
      (boundCommand name description category m').refusal? := by
  cases description <;> rfl

section Bound

variable {name method : Text} {description category : Option Text} {type : TypeKey}
  {table : List (Method β)} {r : Registry β}

theorem registerBound_of_none (hnone : Method.overloads method table = []) :
    r.registerBound name description category type table method =
      (.error (.invalidRegistration name ("could not find method \"".toList ++ method ++
        "\" on ".toList ++ type.name)), r) := by
  unfold registerBound
  split
  · rfl
  · contradiction

theorem registerBound_of_some (hsome : Method.overloads method table ≠ []) :
    r.registerBound name description category type table method =
      match registerAll ((Method.overloads method table).map
        (boundCommand name description category)) r with
      | (.error e, r) => (.error e, r)
      | (.ok (), r) => (.ok (Method.overloads method table).length, r) := by
  unfold registerBound
  split
  · contradiction
  · rfl

end Bound

/-- A valid request is answered with the number of its commands, which are then registered after
all others. -/
theorem Request.apply_of_valid {q : Request β} (h : q.Valid) (r : Registry β) :
    q.apply r = (.ok q.commands.length, { r with commands := r.commands ++ q.commands }) := by
  obtain ⟨hne, hvalid⟩ := h
  cases q with
  | register c | registerDiscovered c =>
      have hc : c.refusal? = none := hvalid c List.mem_cons_self
      change apply.one (r.register c) r = _
      rw [register_of_accepted hc]
      rfl
  | registerBound name description category type table method =>
      have hfound : Method.overloads method table ≠ [] := fun hnil => hne (by simp [commands, hnil])
      have hall := registerAll_of_accepted hvalid r
      rw [commands] at hall
      rw [apply, registerBound_of_some hfound, hall, commands, List.length_map]

/-- Any other request is answered with an error and leaves no trace. -/
theorem Request.apply_of_not_valid {q : Request β} (h : ¬ q.Valid) (r : Registry β) :
    ∃ e, q.apply r = (.error e, r) := by
  cases q with
  | register c | registerDiscovered c =>
      cases hrefusal : c.refusal? with
      | none => exact absurd ⟨by simp [commands], by simpa [commands] using hrefusal⟩ h
      | some reason =>
          refine ⟨.invalidRegistration c.name reason, ?_⟩
          change apply.one (r.register c) r = _
          rw [register_of_refused hrefusal]
          rfl
  | registerBound name description category type table method =>
      cases hoverloads : Method.overloads method table with
      | nil => exact ⟨_, registerBound_of_none hoverloads⟩
      | cons m rest =>
          cases hrefusal : (boundCommand name description category m).refusal? with
          | none =>
              refine absurd ⟨by simp [commands, hoverloads], ?_⟩ h
              intro c hc
              obtain ⟨m', -, rfl⟩ := List.mem_map.1 hc
              exact (refusal?_boundCommand name description category m' m).trans hrefusal
          | some reason =>
              refine ⟨.invalidRegistration (boundCommand name description category m).name
                reason, ?_⟩
              rw [apply, registerBound_of_some (by simp [hoverloads]), hoverloads, List.map_cons,
                registerAll_of_refused hrefusal]

/-- A request is accepted exactly if it is valid. -/
theorem Request.isOk_apply_iff (q : Request β) (r : Registry β) :
    (q.apply r).1.isOk = true ↔ q.Valid := by
  by_cases hvalid : q.Valid
  · rw [q.apply_of_valid hvalid r]
    exact iff_of_true rfl hvalid
  · obtain ⟨e, hanswer⟩ := q.apply_of_not_valid hvalid r
    rw [hanswer]
    exact iff_of_false nofun hvalid

/-- A request that is not accepted leaves no trace. -/
theorem Request.apply_of_not_accepted {q : Request β} {r : Registry β}
    (h : (q.apply r).1.isOk = false) : (q.apply r).2 = r := by
  have hinvalid : ¬ q.Valid := fun hvalid =>
    absurd (h.symm.trans ((q.isOk_apply_iff r).2 hvalid)) nofun
  obtain ⟨e, hanswer⟩ := q.apply_of_not_valid hinvalid r
  rw [hanswer]

theorem Request.commands_apply (q : Request β) (r : Registry β) :
    (q.apply r).2.commands =
      r.commands ++ if (q.apply r).1.isOk then q.commands else [] := by
  by_cases hvalid : q.Valid
  · rw [if_pos ((q.isOk_apply_iff r).2 hvalid), q.apply_of_valid hvalid r]
  · have hanswer := mt (q.isOk_apply_iff r).1 hvalid
    rw [if_neg hanswer, q.apply_of_not_accepted (eq_false_of_ne_true hanswer), List.append_nil]

/-! ## Runs -/

theorem run_append (qs more : List (Request β)) (r : Registry β) :
    run (qs ++ more) r = run more (run qs r) :=
  List.foldl_append

/-- Requests add the accepted commands, in order, and nothing else. -/
theorem commands_run (qs : List (Request β)) (r : Registry β) :
    (run qs r).commands = r.commands ++ accepted qs r := by
  induction qs generalizing r with
  | nil => exact (List.append_nil _).symm
  | cons q rest ih =>
      have hrest : run (q :: rest) r = run rest (q.apply r).2 := rfl
      rw [hrest, ih, q.commands_apply r, accepted, List.append_assoc]

/-! ## Resolution -/

/-- The command has the name and takes that many arguments. -/
def Takes (name : Text) (argCount : Nat) (c : Command β) : Prop :=
  c.name = name ∧ c.arity = argCount

instance (name : Text) (argCount : Nat) (c : Command β) : Decidable (Takes name argCount c) :=
  inferInstanceAs (Decidable (_ ∧ _))

theorem find?_named (name : Text) (argCount : Nat) (r : Registry β) :
    ((r.named name).find? fun c => c.arity = argCount) =
      r.commands.find? fun c => Takes name argCount c := by
  rw [named, List.find?_filter]
  congr 1
  funext c
  rw [Bool.eq_iff_iff]
  simp only [decide_eq_true_eq]
  rfl

theorem named_eq_nil_iff {name : Text} {r : Registry β} :
    r.named name = [] ↔ ∀ c ∈ r.commands, c.name ≠ name := by
  simp [named, List.filter_eq_nil_iff]

/-- A resolution is decided by the first command of the name that takes as many arguments, and if
there is none by whether a command has the name. -/
theorem resolve_eq (name : Text) (argCount : Nat) (r : Registry β) :
    r.resolve name argCount =
      match r.commands.find? fun c => Takes name argCount c with
      | some c => .found c
      | none => if r.named name = [] then .notFound else .arityMismatch (r.lookup name) := by
  unfold resolve lookup
  rw [← find?_named]
  cases hnamed : r.named name with
  | nil => rfl
  | cons c rest =>
      dsimp only
      cases (c :: rest).find? fun c => c.arity = argCount <;> rfl

/-- The only command of a name is found by calls with its number of arguments. -/
theorem resolve_of_named_singleton {name : Text} {r : Registry β} {c : Command β}
    (hnamed : r.named name = [c]) (argCount : Nat) :
    r.resolve name argCount =
      if c.arity = argCount then .found c else .arityMismatch [c.descriptor] := by
  rw [resolve, hnamed]
  dsimp only
  rw [List.find?_singleton]
  by_cases harity : c.arity = argCount <;> simp [harity]

section Outcomes

variable {name : Text} {argCount : Nat} {r : Registry β}

theorem resolve_eq_found_iff {c : Command β} :
    r.resolve name argCount = .found c ↔
      (r.commands.find? fun c => Takes name argCount c) = some c := by
  rw [resolve_eq]
  cases r.commands.find? fun c => Takes name argCount c with
  | some d => simp
  | none =>
      dsimp only
      split <;> exact iff_of_false nofun nofun

/-- Where a command is found, one has the name. -/
theorem named_ne_nil_of_find? {c : Command β}
    (hfind : (r.commands.find? fun c => Takes name argCount c) = some c) : r.named name ≠ [] := by
  have htakes : Takes name argCount c := by simpa using List.find?_some hfind
  exact fun hnil => named_eq_nil_iff.1 hnil c (List.mem_of_find?_eq_some hfind) htakes.1

theorem resolve_eq_notFound_iff : r.resolve name argCount = .notFound ↔ r.named name = [] := by
  rw [resolve_eq]
  cases hfind : r.commands.find? fun c => Takes name argCount c with
  | some c => exact iff_of_false nofun (named_ne_nil_of_find? hfind)
  | none =>
      dsimp only
      split
      · exact iff_of_true rfl ‹_›
      · exact iff_of_false nofun ‹_›

theorem resolve_eq_arityMismatch_iff {candidates : List Descriptor} :
    r.resolve name argCount = .arityMismatch candidates ↔
      r.named name ≠ [] ∧ (r.commands.find? fun c => Takes name argCount c) = none ∧
        candidates = r.lookup name := by
  rw [resolve_eq]
  cases r.commands.find? fun c => Takes name argCount c with
  | some c => exact iff_of_false nofun fun h => nomatch h.2.1
  | none =>
      dsimp only
      split
      · exact iff_of_false nofun fun h => h.1 ‹_›
      · rename_i hnamed
        rw [Resolution.arityMismatch.injEq, eq_comm]
        exact ⟨fun hlookup => ⟨hnamed, rfl, hlookup⟩, fun h => h.2.2⟩

end Outcomes

/-- What a name and a number of arguments are to resolve to among commands. -/
structure ResolvesAmong (commands : List (Command β)) (name : Text) (argCount : Nat)
    (resolution : Resolution β) : Prop where
  /-- The earliest command of the name with as many parameters. -/
  found : ∀ c, resolution = .found c ↔
    ∃ earlier later, commands = earlier ++ c :: later ∧ Takes name argCount c ∧
      ∀ d ∈ earlier, ¬ Takes name argCount d
  notFound : resolution = .notFound ↔ ∀ c ∈ commands, c.name ≠ name
  /-- Else the candidates are all commands of the name, in order. -/
  arityMismatch : ∀ candidates, resolution = .arityMismatch candidates ↔
    (∃ c ∈ commands, c.name = name) ∧ (∀ c ∈ commands, c.name = name → c.arity ≠ argCount) ∧
      candidates = (commands.filter fun c => c.name = name).map Command.descriptor

theorem resolvesAmong (name : Text) (argCount : Nat) (r : Registry β) :
    ResolvesAmong r.commands name argCount (r.resolve name argCount) where
  found c := by
    rw [resolve_eq_found_iff, List.find?_eq_some_iff_append]
    simp [and_left_comm, ← exists_and_left]
  notFound := resolve_eq_notFound_iff.trans named_eq_nil_iff
  arityMismatch candidates := by
    have hsome : r.named name ≠ [] ↔ ∃ c ∈ r.commands, c.name = name := by
      simp [named_eq_nil_iff]
    have hnone : (r.commands.find? fun c => Takes name argCount c) = none ↔
        ∀ c ∈ r.commands, c.name = name → c.arity ≠ argCount := by
      rw [List.find?_eq_none]
      exact forall₂_congr fun c _ => (not_congr decide_eq_true_iff).trans not_and
    rw [resolve_eq_arityMismatch_iff, hsome, hnone]
    rfl

/-- Commands that are added later leave a found one found. -/
theorem Grows.resolve {r r' : Registry β} (h : r.Grows r') {name : Text} {argCount : Nat}
    {c : Command β} (hfound : r.resolve name argCount = .found c) :
    r'.resolve name argCount = .found c := by
  obtain ⟨added, hcommands, -⟩ := h
  obtain ⟨earlier, later, hsplit, htakes, hearlier⟩ :=
    ((resolvesAmong name argCount r).found c).1 hfound
  refine ((resolvesAmong name argCount r').found c).2
    ⟨earlier, later ++ added, ?_, htakes, hearlier⟩
  rw [hcommands, hsplit, List.append_assoc, List.cons_append]

theorem Request.grows_apply (q : Request β) (r : Registry β) : r.Grows (q.apply r).2 := by
  by_cases hvalid : q.Valid
  · rw [q.apply_of_valid hvalid r]
    exact ⟨q.commands, rfl, hvalid.2⟩
  · obtain ⟨e, hanswer⟩ := q.apply_of_not_valid hvalid r
    rw [hanswer]
    exact .refl r

theorem grows_run (qs : List (Request β)) (r : Registry β) : r.Grows (run qs r) := by
  induction qs generalizing r with
  | nil => exact .refl r
  | cons q rest ih => exact (q.grows_apply r).trans (ih _)

/-- What calls resolve to after requests to a new registry. -/
structure ResolvesEarliest (qs : List (Request β)) (name : Text) (argCount : Nat) : Prop where
  /-- The accepted commands decide, and no others. -/
  among : ResolvesAmong (accepted qs {}) name argCount ((run qs {}).resolve name argCount)
  /-- A request that is not accepted leaves no trace. -/
  refused : ∀ q : Request β, (q.apply (run qs {})).1.isOk = false →
    run (qs ++ [q]) {} = run qs {}
  /-- What is found stays found. -/
  stays : ∀ c, (run qs {}).resolve name argCount = .found c → ∀ more,
    (run (qs ++ more) {}).resolve name argCount = .found c

/-- After any requests a call resolves to the earliest accepted command of its name and its number
of parameters, and further requests do not change that. -/
theorem resolvesEarliest (qs : List (Request β)) (name : Text) (argCount : Nat) :
    ResolvesEarliest qs name argCount where
  among := by
    have hcommands : (run qs {}).commands = accepted qs {} := commands_run qs {}
    exact hcommands ▸ resolvesAmong name argCount (run qs {})
  refused q hq := by
    rw [run_append]
    exact q.apply_of_not_accepted hq
  stays c hfound more := by
    rw [run_append]
    exact (grows_run more _).resolve hfound

end Registry

end CommandConsole

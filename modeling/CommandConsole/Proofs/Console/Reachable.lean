import CommandConsole.Proofs.Completion.Accepting
import CommandConsole.Proofs.Console.Changes
import CommandConsole.Proofs.Registry.Growth

set_option autoImplicit false

/-!
# The consoles that can be reached

A host acts on a console by its operations, and between them on the world that they share; all
that a host can do to the commands is to register further ones (`Host.Lawful`,
`Operation.Lawful`).  `Reachable` consoles are those that such acts lead to from a new one.

What an operation does to the registry and to the suggestions is said once (`Advances`): commands
are added, and the suggestions stay or are taken from the names that are registered then.  Hence
what is suggested is registered, and is a word (`registered_of_reachable`).
-/

namespace CommandConsole

variable {β σ : Type}

/-! ## Hosts -/

/-- The world changes, and of the registry's commands none is lost. -/
def World.Keeps (f : World β σ → World β σ) : Prop :=
  ∀ w : World β σ, w.registry.Grows (f w).registry

/-- What the bodies of a host do to the commands is to register further ones. -/
structure Host.Lawful (h : Host β σ) : Prop where
  run : ∀ b receiver args, World.Keeps fun w => (h.run b receiver args w).2

/-- Changes of the world keep the commands. -/
theorem Host.Lawful.grows {h : Host β σ} (hh : h.Lawful) {w w' : World β σ}
    (hchanges : World.Changes h [] w w') : w.registry.Grows w'.registry := by
  induction hchanges with
  | refl => exact .refl w.registry
  | tail _ hchange ih =>
      refine ih.trans ?_
      cases hchange with
      | act act hact => exact .refl _
      | scroll => exact .refl _
      | body b receiver args => exact hh.run b receiver args _
      | hook hhook => exact absurd hhook List.not_mem_nil

/-! ## Operations -/

/-- What can happen to a console. -/
inductive Operation (β σ : Type) where
  | setText (text : Text)
  | submit
  | execute (line : Text)
  | handle (action : Action)
  | setOpen (isOpen : Bool)
  | register (command : Command β)
  | registerBound (name description : Text) (category : Option Text) (type : TypeKey)
      (table : List (Method β)) (method : Text)
  | registerSingleton (i : Instance)
  | unregisterSingleton (type : TypeKey)
  | onOpen (hook : World β σ → World β σ)
  | onClose (hook : World β σ → World β σ)
  | appendHostLine (line : Line)
  | forwardLog
  | takeUnread
  | endFrame
  /-- The host acts on the world by itself. -/
  | act (f : World β σ → World β σ)

namespace Operation

/-- The console after an operation. -/
def apply (h : Host β σ) (op : Operation β σ) (c : Console β σ) : Console β σ :=
  match op with
  | .setText text => c.setText text
  | .submit => (c.submit h).2
  | .execute line => (c.execute h line).2
  | .handle action => (c.handle h action).2
  | .setOpen isOpen => c.setOpen isOpen
  | .register command => (c.register command).2
  | .registerBound name description category type table method =>
    (c.registerBound name description category type table method).2
  | .registerSingleton i => (c.registerSingleton i).2
  | .unregisterSingleton type => (c.unregisterSingleton type).2
  | .onOpen hook => { c with openHooks := c.openHooks ++ [hook] }
  | .onClose hook => { c with closeHooks := c.closeHooks ++ [hook] }
  | .appendHostLine line => c.appendHostLine line
  | .forwardLog => c.forwardLog.2
  | .takeUnread => c.takeUnread.2
  | .endFrame => c.endFrame.2
  | .act f => c.mapWorld f

/-- What the host brings in keeps the commands. -/
def Lawful : Operation β σ → Prop
  | .onOpen hook => World.Keeps hook
  | .onClose hook => World.Keeps hook
  | .act f => World.Keeps f
  | _ => True

end Operation

/-- The consoles of a host that operations lead to. -/
inductive Reachable (h : Host β σ) : Console β σ → Prop where
  | new (options : Options) (log : HostLog) (host : σ) :
      Reachable h (Console.new options log host)
  | step {c : Console β σ} (op : Operation β σ) (hop : op.Lawful) :
      Reachable h c → Reachable h (op.apply h c)

/-! ## What an operation can do -/

namespace Console

/-- The registry grows, and the suggestions stay or are names that are registered then. -/
structure Advances (c c' : Console β σ) : Prop where
  grows : c.world.registry.Grows c'.world.registry
  suggested : c'.suggestions.names = c.suggestions.names ∨
    c'.suggestions.names ⊆ c'.world.registry.names
  openHooks : c'.openHooks = c.openHooks
  closeHooks : c'.closeHooks = c.closeHooks

variable {c c' c'' : Console β σ} {h : Host β σ}

theorem Advances.refl (c : Console β σ) : c.Advances c := ⟨.refl _, Or.inl rfl, rfl, rfl⟩

theorem Advances.trans (h₁ : c.Advances c') (h₂ : c'.Advances c'') : c.Advances c'' where
  grows := h₁.grows.trans h₂.grows
  suggested := by
    rcases h₂.suggested with hsame | hnames
    · rcases h₁.suggested with hsame' | hnames'
      · exact Or.inl (hsame.trans hsame')
      · exact Or.inr (hsame ▸ List.Subset.trans hnames' h₂.grows.names_subset)
    · exact Or.inr hnames
  openHooks := h₂.openHooks.trans h₁.openHooks
  closeHooks := h₂.closeHooks.trans h₁.closeHooks

theorem advances_mapWorld {f : World β σ → World β σ}
    (hf : c.world.registry.Grows (f c.world).registry) : c.Advances (c.mapWorld f) :=
  ⟨hf, Or.inl rfl, rfl, rfl⟩

theorem advances_mapTranscript (f : Transcript → Transcript) (c : Console β σ) :
    c.Advances (c.mapTranscript f) :=
  advances_mapWorld (.refl _)

/-! ### Registration -/

theorem advances_reported {α : Type} (result : Except ConsoleError α) (c : Console β σ) :
    c.Advances (c.reported result).2 := by
  cases result with
  | ok a => exact .refl c
  | error e => exact advances_mapWorld (.refl _)

theorem advances_setRegistry {registry : Registry β}
    (hr : c.world.registry.Grows registry) : c.Advances (c.setRegistry registry) :=
  advances_mapWorld hr

theorem advances_register (command : Command β) (c : Console β σ) :
    c.Advances (c.register command).2 := by
  unfold register
  split
  · rename_i hregister
    exact (advances_setRegistry (Registry.grows_register hregister)).trans (advances_reported _ _)
  · exact advances_reported _ c

theorem advances_registerBound (name description : Text) (category : Option Text)
    (type : TypeKey) (table : List (Method β)) (method : Text) (c : Console β σ) :
    c.Advances (c.registerBound name description category type table method).2 := by
  have hset := advances_setRegistry (c := c)
    (Registry.grows_registerBound name (some description) category type table method
      c.world.registry)
  exact hset.trans (advances_reported _ _)

theorem advances_registerSingleton (i : Instance) (c : Console β σ) :
    c.Advances (c.registerSingleton i).2 := by
  have hset : c.Advances (c.setRegistry (c.world.registry.registerSingleton i).2) :=
    advances_setRegistry (Registry.grows_registerSingleton i _)
  unfold registerSingleton
  dsimp only
  split
  · exact hset.trans (advances_mapTranscript _ _)
  · exact hset

/-! ### The input line -/

theorem advances_applyText (text : Text) (c : Console β σ) : c.Advances (c.applyText text) where
  grows := .refl _
  suggested := by
    right
    rw [applyText, Suggestions.names_refresh]
    exact (Suggestions.matching_sublist _ _).subset
  openHooks := rfl
  closeHooks := rfl

/-- What changes neither the world nor the names of the suggestions nor the hooks. -/
theorem advances_of_same (hworld : c'.world = c.world)
    (hnames : c'.suggestions.names = c.suggestions.names) (hopen : c'.openHooks = c.openHooks)
    (hclose : c'.closeHooks = c.closeHooks) : c.Advances c' :=
  ⟨hworld ▸ .refl _, Or.inl hnames, hopen, hclose⟩

theorem advances_setText (text : Text) (c : Console β σ) : c.Advances (c.setText text) := by
  have hdraft : c.Advances { c with draft := text } := advances_of_same rfl rfl rfl rfl
  exact hdraft.trans (advances_applyText text _)

theorem advances_navigate (direction : Direction) (c : Console β σ) :
    c.Advances (c.navigate direction) := by
  unfold navigate
  split
  · refine advances_of_same rfl ?_ rfl rfl
    unfold Suggestions.cycle
    dsimp only
    split <;> rfl
  · have hmoved : c.Advances
        { c with history := (c.history.navigate direction c.draft).2 } :=
      advances_of_same rfl rfl rfl rfl
    exact hmoved.trans (advances_applyText _ _)

theorem advances_runHooks {hooks : List (World β σ → World β σ)}
    (hhooks : ∀ hook ∈ hooks, World.Keeps hook) (c : Console β σ) :
    c.Advances (c.runHooks hooks) := by
  apply advances_mapWorld
  generalize c.world = w
  induction hooks generalizing w with
  | nil => exact .refl _
  | cons hook hooks ih =>
      have hrest := ih (fun k hk => hhooks k (List.mem_cons_of_mem hook hk)) (hook w)
      exact (hhooks hook List.mem_cons_self w).trans hrest

theorem advances_setOpen (isOpen : Bool) (hopen : ∀ hook ∈ c.openHooks, World.Keeps hook)
    (hclose : ∀ hook ∈ c.closeHooks, World.Keeps hook) : c.Advances (c.setOpen isOpen) := by
  unfold setOpen
  split
  · exact .refl c
  · split
    · have hopened : c.Advances
          { c with
            isOpen := true
            history := c.history.resetCursor
            suggestions := c.suggestions.resetCursor } :=
        advances_of_same rfl rfl rfl rfl
      exact (hopened.trans (advances_mapTranscript _ _)).trans (advances_runHooks hopen _)
    · have hclosed : c.Advances { c with isOpen := false } := advances_of_same rfl rfl rfl rfl
      exact (hclosed.trans (advances_setText [] _)).trans (advances_runHooks hclose _)

/-! ### Submitting -/

theorem advances_execute (hh : h.Lawful) (line : Text) (c : Console β σ) :
    c.Advances (c.execute h line).2 := by
  have hgrows := hh.grows ((c.evaluator h).changes_evaluate line c.world)
  exact advances_mapWorld (f := fun _ => ((c.evaluator h).evaluate line c.world).2) hgrows

theorem advances_echo (line : Text) (c : Console β σ) : c.Advances (c.echo line) := by
  have hwritten := advances_mapTranscript (·.info ("> ".toList ++ line)) c
  have hkept : (c.mapTranscript (·.info ("> ".toList ++ line))).Advances
      { c.mapTranscript (·.info ("> ".toList ++ line)) with
        history := c.history.push line
        suggestions := c.suggestions.resetCursor } :=
    advances_of_same rfl rfl rfl rfl
  exact (hwritten.trans hkept).trans (advances_setText [] _)

theorem advances_submit (hh : h.Lawful) (c : Console β σ) : c.Advances (c.submit h).2 := by
  unfold submit
  dsimp only
  split
  · exact advances_mapTranscript _ c
  · split
    · exact advances_setText _ c
    · exact (advances_echo _ c).trans (advances_execute hh _ _)

theorem advances_handle (hh : h.Lawful) (hopen : ∀ hook ∈ c.openHooks, World.Keeps hook)
    (hclose : ∀ hook ∈ c.closeHooks, World.Keeps hook) (action : Action) :
    c.Advances (c.handle h action).2 := by
  cases action with
  | toggle => exact advances_setOpen _ hopen hclose
  | toggleSuggestions => exact holds_if_open (.refl c) (advances_of_same rfl rfl rfl rfl)
  | up => exact holds_if_open (.refl c) (advances_navigate .up c)
  | down => exact holds_if_open (.refl c) (advances_navigate .down c)
  | submit => exact holds_if_open (.refl c) (advances_submit hh c)

/-! ### Frames -/

theorem advances_appendHostLine (line : Line) (c : Console β σ) :
    c.Advances (c.appendHostLine line) :=
  advances_mapTranscript _ c

theorem advances_forwardLog (c : Console β σ) : c.Advances c.forwardLog.2 := by
  have hlines : ∀ (lines : List Line) (c : Console β σ),
      c.Advances (lines.foldl (fun c line => c.appendHostLine line) c) := by
    intro lines
    induction lines with
    | nil => exact Advances.refl
    | cons line lines ih => exact fun c => (advances_appendHostLine line c).trans (ih _)
  exact (advances_mapWorld (.refl _)).trans (hlines _ _)

/-! ## What is registered and suggested -/

/-- The registry is valid, what is suggested is registered, and the hooks keep the commands. -/
structure Registered (c : Console β σ) : Prop where
  valid : c.world.registry.Valid
  suggested : c.suggestions.names ⊆ c.world.registry.names
  openHooks : ∀ hook ∈ c.openHooks, World.Keeps hook
  closeHooks : ∀ hook ∈ c.closeHooks, World.Keeps hook

theorem registered_new (options : Options) (log : HostLog) (host : σ) :
    (Console.new options log host : Console β σ).Registered where
  valid := by
    have hgrows := Registry.grows_registerAll (Builtin.commands : List (Command β)) {}
    have hworld : (initialWorld options.maxCharacters log host : World β σ).registry =
        (Registry.registerAll Builtin.commands {}).2 := by
      unfold initialWorld
      dsimp only
      split <;> rfl
    exact Registry.valid_empty.grows (hworld ▸ hgrows)
  suggested := List.nil_subset _
  openHooks hook hm := absurd hm List.not_mem_nil
  closeHooks hook hm := absurd hm List.not_mem_nil

theorem Registered.advance (hc : c.Registered) (hadvance : c.Advances c') : c'.Registered where
  valid := hc.valid.grows hadvance.grows
  suggested := by
    rcases hadvance.suggested with hsame | hnames
    · exact hsame ▸ List.Subset.trans hc.suggested hadvance.grows.names_subset
    · exact hnames
  openHooks := hadvance.openHooks ▸ hc.openHooks
  closeHooks := hadvance.closeHooks ▸ hc.closeHooks

theorem Registered.apply (hc : c.Registered) (hh : h.Lawful) {op : Operation β σ}
    (hop : op.Lawful) : (op.apply h c).Registered := by
  -- two operations change the hooks, all others advance
  cases op with
  | onOpen hook =>
      refine ⟨hc.valid, hc.suggested, ?_, hc.closeHooks⟩
      intro k hk
      rcases List.mem_append.1 hk with hk | hk
      · exact hc.openHooks k hk
      · exact List.mem_singleton.1 hk ▸ hop
  | onClose hook =>
      refine ⟨hc.valid, hc.suggested, hc.openHooks, ?_⟩
      intro k hk
      rcases List.mem_append.1 hk with hk | hk
      · exact hc.closeHooks k hk
      · exact List.mem_singleton.1 hk ▸ hop
  | setText text => exact hc.advance (advances_setText text c)
  | submit => exact hc.advance (advances_submit hh c)
  | execute line => exact hc.advance (advances_execute hh line c)
  | handle action => exact hc.advance (advances_handle hh hc.openHooks hc.closeHooks action)
  | setOpen isOpen => exact hc.advance (advances_setOpen isOpen hc.openHooks hc.closeHooks)
  | register command => exact hc.advance (advances_register command c)
  | registerBound name description category type table method =>
      exact hc.advance (advances_registerBound name description category type table method c)
  | registerSingleton i => exact hc.advance (advances_registerSingleton i c)
  | unregisterSingleton type =>
      exact hc.advance (advances_setRegistry (Registry.grows_unregisterSingleton type _))
  | appendHostLine line => exact hc.advance (advances_appendHostLine line c)
  | forwardLog => exact hc.advance (advances_forwardLog c)
  | takeUnread => exact hc.advance (advances_mapTranscript _ c)
  | endFrame => exact hc.advance (advances_mapTranscript _ c)
  | act f => exact hc.advance (advances_mapWorld (hop c.world))

end Console

/-- In every console that can be reached, what is suggested is registered. -/
theorem registered_of_reachable {h : Host β σ} (hh : h.Lawful) {c : Console β σ}
    (hc : Reachable h c) : c.Registered := by
  induction hc with
  | new options log host => exact Console.registered_new options log host
  | step op hop _ ih => exact ih.apply hh hop

end CommandConsole

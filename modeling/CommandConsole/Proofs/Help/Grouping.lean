import CommandConsole.Help
import CommandConsole.Proofs.Registry.Growth
import Mathlib.Data.List.Sort

set_option autoImplicit false

/-!
# The groups of the help listing

Which groups the listing of some commands has is said without the listing (`Groups`): there is one
for each category, in the order in which the categories appear, and one at the end for the commands
without a category, if there are any; each has the commands of its category as they stand in the
list.  This leaves no choice (`Groups.unique`), and the listing consists of these groups between the
header and the footer (`listsEach`).

A command stands in the group of its category and in no other one.  So the groups together keep the
commands of every category in order (`Groups.filter_members`), and for this reason they are all of
the commands, each as often as it stands in the list (`Groups.perm_members`).
-/

namespace CommandConsole.Help

/-- A group of the listing. -/
structure Group where
  /-- The category of the commands; without one they are uncategorized. -/
  category : Option Text
  members : List Descriptor

namespace Group

def heading (g : Group) : Text :=
  "# ".toList ++ g.category.getD "Uncategorized".toList ++ " #".toList

/-- The heading, a line for each command, and an empty line. -/
def lines (g : Group) : List Text := g.heading :: (g.members.map entry ++ [[]])

end Group

/-- The group of one category comes before that of another. -/
inductive Precedes (ds : List Descriptor) : Option Text → Option Text → Prop where
  | appears {s t : Text}
      (hfirst : (ds.filterMap Descriptor.category).idxOf s <
        (ds.filterMap Descriptor.category).idxOf t) : Precedes ds (some s) (some t)
  | lacks (t : Text) : Precedes ds (some t) none

/-- The groups in which commands are listed. -/
structure Groups (ds : List Descriptor) (gs : List Group) : Prop where
  /-- A category, or the lack of one, has a group if a command has it. -/
  category : ∀ c, c ∈ gs.map Group.category ↔ ∃ d ∈ ds, d.category = c
  order : (gs.map Group.category).Pairwise (Precedes ds)
  members : ∀ g ∈ gs, g.members = ds.filter fun d => d.category = g.category

variable {ds : List Descriptor} {gs gs' : List Group}

/-! ## There is no choice -/

theorem Precedes.asymm {c c' : Option Text} (h : Precedes ds c c') : ¬ Precedes ds c' c := by
  intro h'
  cases h with
  | appears hfirst =>
      cases h' with
      | appears hfirst' => exact Nat.lt_asymm hfirst hfirst'
  | lacks t => cases h'

instance : Std.Irrefl (Precedes ds) := ⟨fun _ h => h.asymm h⟩

instance : Std.Antisymm (Precedes ds) := ⟨fun _ _ h h' => absurd h' h.asymm⟩

/-- The group of a category. -/
def groupOf (ds : List Descriptor) (c : Option Text) : Group :=
  ⟨c, ds.filter fun d => d.category = c⟩

namespace Groups

theorem eq_map_groupOf (h : Groups ds gs) : gs = (gs.map Group.category).map (groupOf ds) := by
  rw [List.map_map]
  refine (List.map_congr_left fun g hg => ?_).trans (List.map_id gs) |>.symm
  rw [Function.comp_apply, groupOf, ← h.members g hg]
  rfl

theorem unique (h : Groups ds gs) (h' : Groups ds gs') : gs = gs' := by
  have hcategories : gs.map Group.category = gs'.map Group.category :=
    h.order.eq_of_mem_iff h'.order fun c => (h.category c).trans (h'.category c).symm
  rw [h.eq_map_groupOf, h'.eq_map_groupOf, hcategories]

/-! ## The commands of all groups -/

/-- The groups keep the commands of a category, in their order. -/
theorem filter_members (h : Groups ds gs) (c : Option Text) :
    (gs.flatMap Group.members).filter (fun d => d.category = c) =
      ds.filter fun d => d.category = c := by
  have hother : ∀ cs : List (Option Text), c ∉ cs →
      (cs.flatMap fun k => (groupOf ds k).members).filter (fun d => d.category = c) = [] := by
    intro cs hcs
    refine List.filter_eq_nil_iff.2 fun d hd => ?_
    obtain ⟨k, hk, hdk⟩ := List.mem_flatMap.1 hd
    have hcategory : d.category = k := by simpa using (List.mem_filter.1 hdk).2
    have hne : k ≠ c := fun hsame => hcs (hsame ▸ hk)
    simpa [hcategory] using hne
  have hmembers : gs.flatMap Group.members =
      (gs.map Group.category).flatMap fun k => (groupOf ds k).members := by
    conv_lhs => rw [h.eq_map_groupOf]
    rw [List.flatMap_map]
  rw [hmembers]
  by_cases hc : c ∈ gs.map Group.category
  · -- the group of the category is the only one that counts
    obtain ⟨before, after, hsplit⟩ := List.append_of_mem hc
    have honce := h.order.nodup
    rw [hsplit] at honce ⊢
    obtain ⟨-, hafter, hdisjoint⟩ := List.nodup_append.1 honce
    have hbefore : c ∉ before := fun hm => hdisjoint c hm c List.mem_cons_self rfl
    rw [List.flatMap_append, List.flatMap_cons, List.filter_append, List.filter_append,
      hother before hbefore, hother after (List.nodup_cons.1 hafter).1, List.nil_append,
      List.append_nil]
    exact List.filter_eq_self.2 fun d hd => (List.mem_filter.1 hd).2
  · rw [hother _ hc]
    refine (List.filter_eq_nil_iff.2 fun d hd hcategory => hc ?_).symm
    exact (h.category c).2 ⟨d, hd, of_decide_eq_true hcategory⟩

/-- The groups have all commands, each as often as the list. -/
theorem perm_members (h : Groups ds gs) : (gs.flatMap Group.members).Perm ds := by
  refine List.perm_iff_count.2 fun d => ?_
  have hcount : ∀ l : List Descriptor,
      (l.filter fun e => e.category = d.category).count d = l.count d := fun l =>
    List.count_filter (by simp)
  rw [← hcount, h.filter_members, hcount]

end Groups

/-! ## The listing has these groups -/

/-- The categories of the groups of a list. -/
def labels (ds : List Descriptor) : List (Option Text) :=
  (categories ds).map some ++ if none ∈ ds.map Descriptor.category then [none] else []

theorem mem_labels (ds : List Descriptor) (c : Option Text) :
    c ∈ labels ds ↔ ∃ d ∈ ds, d.category = c := by
  have hlast : c ∈ (if none ∈ ds.map Descriptor.category then [none] else []) ↔
      c = none ∧ none ∈ ds.map Descriptor.category := by
    split <;> simp [*]
  rw [labels, List.mem_append, hlast, ← List.mem_map]
  cases c with
  | none => simp
  | some t => simp [categories, Registry.mem_distinct]

theorem pairwise_labels (ds : List Descriptor) : (labels ds).Pairwise (Precedes ds) := by
  refine List.pairwise_append.2 ⟨?_, ?_, ?_⟩
  · exact List.pairwise_map.2 ((Registry.pairwise_distinct _).imp Precedes.appears)
  · split
    · exact List.pairwise_singleton _ _
    · exact List.Pairwise.nil
  · intro c hc c' hc'
    obtain ⟨t, -, rfl⟩ := List.mem_map.1 hc
    split at hc'
    · obtain rfl := List.mem_singleton.1 hc'
      exact .lacks t
    · exact absurd hc' List.not_mem_nil

theorem groups_labels (ds : List Descriptor) : Groups ds ((labels ds).map (groupOf ds)) where
  category c := by
    rw [List.map_map]
    exact (List.map_id (labels ds)).symm ▸ mem_labels ds c
  order := by
    rw [List.map_map]
    exact (List.map_id (labels ds)).symm ▸ pairwise_labels ds
  members g hg := by
    obtain ⟨c, -, rfl⟩ := List.mem_map.1 hg
    rfl

theorem uncategorizedGroup_eq (ds : List Descriptor) :
    uncategorizedGroup ds =
      (if none ∈ ds.map Descriptor.category then [none] else []).flatMap fun c =>
        (groupOf ds c).lines := by
  unfold uncategorizedGroup
  split
  · rename_i hnil
    have hnone : none ∉ ds.map Descriptor.category := by
      intro hmem
      obtain ⟨d, hd, hcategory⟩ := List.mem_map.1 hmem
      exact List.filter_eq_nil_iff.1 hnil d hd (decide_eq_true hcategory)
    rw [if_neg hnone, List.flatMap_nil]
  · rename_i hne
    have hmem : none ∈ ds.map Descriptor.category := by
      obtain ⟨d, hd⟩ := List.exists_mem_of_ne_nil _ hne
      obtain ⟨hd, hcategory⟩ := List.mem_filter.1 hd
      exact List.mem_map.2 ⟨d, hd, of_decide_eq_true hcategory⟩
    rw [if_pos hmem, List.flatMap_singleton]
    rfl

theorem lines_eq (ds : List Descriptor) :
    lines ds = header ++ ((labels ds).map (groupOf ds)).flatMap Group.lines ++ footer := by
  rw [lines, uncategorizedGroup_eq, labels, List.flatMap_map, List.flatMap_append,
    List.flatMap_map, ← List.append_assoc]
  rfl

/-- What is true of the listing of commands, in groups. -/
structure Lists (ds : List Descriptor) (gs : List Group) : Prop where
  groups : Groups ds gs
  lines : lines ds = header ++ gs.flatMap Group.lines ++ footer
  /-- Every command has its line, as often as it stands in the list. -/
  entries : (gs.flatMap fun g => g.members.map entry).Perm (ds.map entry)
  /-- The commands of a category stay in their order. -/
  stable : ∀ c, (gs.flatMap Group.members).filter (fun d => d.category = c) =
    ds.filter fun d => d.category = c
  /-- Those without a category come last. -/
  last : ∃ front, (∀ d ∈ front, d.category ≠ none) ∧
    gs.flatMap Group.members = front ++ ds.filter fun d => d.category = none

/-- Every listing has one form: its groups, and in them every command. -/
theorem listsEach (ds : List Descriptor) :
    ∃ gs, Lists ds gs ∧ ∀ gs', Groups ds gs' → gs' = gs := by
  have hgroups := groups_labels ds
  refine ⟨_, ⟨hgroups, lines_eq ds, ?_, hgroups.filter_members, ?_⟩, fun gs' h => h.unique hgroups⟩
  · rw [← List.map_flatMap]
    exact hgroups.perm_members.map entry
  · refine ⟨(categories ds).flatMap fun t => ds.filter fun d => d.category = some t, ?_, ?_⟩
    · intro d hd
      obtain ⟨t, -, hdt⟩ := List.mem_flatMap.1 hd
      have hcategory : d.category = some t := by simpa using (List.mem_filter.1 hdt).2
      rw [hcategory]
      exact Option.some_ne_none t
    · rw [labels, List.map_append, List.flatMap_append, List.map_map, List.flatMap_map]
      refine congrArg _ ?_
      split
      · exact List.append_nil _
      · rename_i hnone
        refine (List.filter_eq_nil_iff.2 fun d hd hcategory => hnone ?_).symm
        exact List.mem_map.2 ⟨d, hd, of_decide_eq_true hcategory⟩

end CommandConsole.Help

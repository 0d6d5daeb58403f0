import CommandConsole.Configuration
import Mathlib.Data.List.Pairwise
import Mathlib.Order.Comparable

set_option autoImplicit false

/-!
# Which file a path reads

The steps of a path lead from directory to directory, whatever files there are (`walk`), and what is
read is always a file whose names are those to which they lead (`exists_file_of_read`).  Once above
the directory of the program a path never comes back.

The other way round a file is read by its own path, if the files are a tree: no file has the name of
another one or of a directory on the way to one (`read_of_mem`).
-/

namespace CommandConsole

namespace Directory

variable {d : Directory} {path content step : Text} {steps way : List Text} {p q : Place}

/-! ## One step -/

/-- Where a step leads from a directory. -/
inductive StepsTo (d : Directory) (way : List Text) : Text → Place → Prop where
  | stay {step : Text} (hstays : stays step = true) : StepsTo d way step (.inside way)
  | above (hway : way = []) : StepsTo d way ['.', '.'] .outside
  | up (hway : way ≠ []) : StepsTo d way ['.', '.'] (.inside way.dropLast)
  | name {step : Text} {p : Place} (hstays : ¬ stays step = true) (hup : step ≠ ['.', '.'])
      (hshort : Text.byteSize step ≤ Files.stepLimit) (hfind : d.find (way ++ [step]) = .ok p) :
      StepsTo d way step p

theorem follow_inside_iff : d.follow step (.inside way) = .ok p ↔ StepsTo d way step p := by
  constructor
  · intro h
    rw [follow] at h
    split at h
    · rename_i hstays
      cases h
      exact .stay hstays
    · rename_i hstays
      split at h
      · rename_i hup
        subst hup
        cases way with
        | nil =>
            cases h
            exact .above rfl
        | cons name way =>
            cases h
            exact .up (List.cons_ne_nil name way)
      · rename_i hup
        split at h
        · cases h
        · rename_i hshort
          exact .name hstays hup (Nat.le_of_not_lt hshort) h
  · intro h
    cases h with
    | stay hstays => rw [follow, if_pos hstays]
    | above hway =>
        rw [hway]
        rfl
    | up hway =>
        cases way with
        | nil => exact absurd rfl hway
        | cons name way => rfl
    | name hstays hup hshort hfind =>
        rw [follow, if_neg hstays, if_neg hup, if_neg (Nat.not_lt_of_le hshort), hfind]

/-- Names lead to a file that has them, or to a directory. -/
theorem find_eq_ok (h : d.find way = .ok p) :
    (∃ f ∈ d.files, names f.1 = way ∧ p = .file f.2) ∨ p = .inside way := by
  unfold find at h
  split at h
  · rename_i f hf
    cases h
    exact Or.inl ⟨f, List.mem_of_find?_eq_some hf, by simpa using List.find?_some hf, rfl⟩
  · split at h
    · cases h
      exact Or.inr rfl
    · cases h

/-! ## What is read is a file -/

/-- Follows steps to their end. -/
def followAll (d : Directory) (p : Place) (steps : List Text) : Except ReadFailure Place :=
  steps.foldlM (fun place step => d.follow step place) p

theorem followAll_cons (h : d.followAll p (step :: steps) = .ok q) :
    ∃ r, d.follow step p = .ok r ∧ d.followAll r steps = .ok q := by
  rw [followAll, List.foldlM_cons] at h
  cases hstep : d.follow step p with
  | error reason =>
      rw [hstep] at h
      cases h
  | ok r =>
      rw [hstep] at h
      exact ⟨r, rfl, h⟩

/-- The names to which steps lead from a directory, unless they lead above that of the program. -/
def walk (way : List Text) : List Text → Option (List Text)
  | [] => some way
  | step :: steps =>
    if stays step then walk way steps
    else if step = ['.', '.'] then if way.isEmpty then none else walk way.dropLast steps
    else walk (way ++ [step]) steps

/-- Steps that lead to a file lead to its names. -/
theorem exists_file_of_followAll (h : d.followAll (.inside way) steps = .ok (.file content)) :
    ∃ f ∈ d.files, f.2 = content ∧ walk way steps = some (names f.1) := by
  induction steps generalizing way with
  | nil => cases h
  | cons step steps ih =>
      obtain ⟨q, hstep, hrest⟩ := followAll_cons h
      rw [walk]
      cases follow_inside_iff.1 hstep with
      | stay hstays =>
          rw [if_pos hstays]
          exact ih hrest
      | above hway =>
          -- nothing leads back from above
          have houtside : Place.file content = .outside := foldlM_follow_outside hrest
          cases houtside
      | up hway =>
          have hfull : ¬ way.isEmpty = true := by simpa using hway
          rw [if_neg (by decide), if_pos rfl, if_neg hfull]
          exact ih hrest
      | name hstays hup _ hfind =>
          rw [if_neg hstays, if_neg hup]
          rcases find_eq_ok hfind with ⟨f, hf, hnames, rfl⟩ | rfl
          · cases steps with
            | nil =>
                cases hrest
                exact ⟨f, hf, rfl, congrArg some hnames.symm⟩
            | cons next steps =>
                -- nothing follows a file
                obtain ⟨r, hnext, -⟩ := followAll_cons hrest
                cases hnext
          · exact ih hrest

/-- What a path reads is one of the files, and the path leads to its names.  The path does not begin
with a slash, is not empty and no longer than paths may be. -/
theorem exists_file_of_read (h : d.read path = .ok content) :
    (∃ f ∈ d.files, f.2 = content ∧ walk [] (segments path) = some (names f.1)) ∧
      Files.refusal? path = none ∧ ∀ rest, path ≠ '/' :: rest := by
  have hslash : ∀ rest, path ≠ '/' :: rest := by
    rintro rest rfl
    exact read_slash d rest content h
  have hstart : start path = .inside [] := by
    unfold start
    split
    · rename_i rest
      exact absurd rfl (hslash rest)
    · rfl
  unfold read at h
  split at h
  · cases h
  · rename_i hrefusal
    cases hplace : d.resolve path with
    | error reason =>
        rw [hplace] at h
        cases h
    | ok p =>
        rw [hplace] at h
        cases p with
        | outside => cases h
        | inside way => cases h
        | file text =>
            cases h
            rw [resolve, hstart] at hplace
            exact ⟨exists_file_of_followAll hplace, hrefusal, hslash⟩

/-! ## Every file is read by its path -/

/-- No file has the name of another file, or of a directory on the way to one. -/
def IsTree (d : Directory) : Prop :=
  d.files.Pairwise fun f g => IncompRel (· <+: ·) (names f.1) (names g.1)

variable {f g : Text × Text}

theorem IsTree.eq_of_prefix (htree : d.IsTree) (hf : f ∈ d.files) (hg : g ∈ d.files)
    (h : names f.1 <+: names g.1) : f = g := by
  have hsymm : Std.Symm fun f g : Text × Text => IncompRel (· <+: ·) (names f.1) (names g.1) :=
    ⟨fun _ _ hfg => hfg.symm⟩
  apply Classical.byContradiction
  intro hne
  exact (htree.forall hf hg hne).1 h

/-- The names of a file lead to it. -/
theorem IsTree.find_names (htree : d.IsTree) (hf : f ∈ d.files) :
    d.find (names f.1) = .ok (.file f.2) := by
  unfold find
  split
  · rename_i g hg
    have hnames : names g.1 = names f.1 := by simpa using List.find?_some hg
    rw [htree.eq_of_prefix (List.mem_of_find?_eq_some hg) hf (hnames ▸ List.prefix_rfl)]
  · rename_i hnone
    exact absurd (decide_eq_true rfl) (List.find?_eq_none.1 hnone f hf)

/-- The names on the way to a file lead to directories. -/
theorem IsTree.find_prefix (htree : d.IsTree) (hf : f ∈ d.files) (hway : way <+: names f.1)
    (hne : way ≠ names f.1) : d.find way = .ok (.inside way) := by
  unfold find
  split
  · rename_i g hg
    have hnames : names g.1 = way := by simpa using List.find?_some hg
    have heq := htree.eq_of_prefix (List.mem_of_find?_eq_some hg) hf (hnames ▸ hway)
    exact absurd (heq ▸ hnames.symm) hne
  · have hany : (d.files.any fun g => way.isPrefixOf (names g.1)) = true :=
      List.any_eq_true.2 ⟨f, hf, List.isPrefixOf_iff_prefix.2 hway⟩
    rw [if_pos hany]

/-- The step is a name, and not too long. -/
structure IsName (step : Text) : Prop where
  moves : ¬ stays step = true
  notUp : step ≠ ['.', '.']
  short : Text.byteSize step ≤ Files.stepLimit

/-- The names that are left of the way to a file lead to it. -/
theorem IsTree.followAll_names (htree : d.IsTree) (hf : f ∈ d.files)
    (hnames : names f.1 = way ++ steps) (hne : steps ≠ []) (hsteps : ∀ step ∈ steps, IsName step) :
    d.followAll (.inside way) steps = .ok (.file f.2) := by
  induction steps generalizing way with
  | nil => exact absurd rfl hne
  | cons step steps ih =>
      obtain ⟨hmoves, hup, hshort⟩ := hsteps step List.mem_cons_self
      have hfollow {q : Place} (hq : d.find (way ++ [step]) = .ok q) :
          d.followAll (.inside way) (step :: steps) = d.followAll q steps := by
        rw [followAll, List.foldlM_cons, follow_inside_iff.2 (.name hmoves hup hshort hq)]
        rfl
      have hsplit : names f.1 = (way ++ [step]) ++ steps := by
        rw [hnames, List.append_assoc, List.singleton_append]
      cases steps with
      | nil =>
          rw [List.append_nil] at hsplit
          exact hfollow (hsplit ▸ htree.find_names hf)
      | cons next steps =>
          have hway : way ++ [step] <+: names f.1 := hsplit ▸ List.prefix_append _ _
          have hproper : way ++ [step] ≠ names f.1 := by
            rw [hsplit]
            simp
          rw [hfollow (htree.find_prefix hf hway hproper)]
          exact ih hsplit (List.cons_ne_nil next steps) fun s hs =>
            hsteps s (List.mem_cons_of_mem step hs)

/-- The path is made of names, and short enough. -/
structure Plain (path : Text) : Prop where
  notRefused : Files.refusal? path = none
  steps : ∀ step ∈ segments path, IsName step

theorem segments_ne_nil (path : Text) : segments path ≠ [] := by
  unfold segments
  split
  · exact List.cons_ne_nil _ _
  · split
    · exact List.cons_ne_nil _ _
    · split
      · exact List.cons_ne_nil _ _
      · exact List.cons_ne_nil _ _

theorem Plain.names_eq (h : Plain path) : names path = segments path := by
  refine List.filter_eq_self.2 fun step hstep => ?_
  simpa using (h.steps step hstep).moves

theorem Plain.start_eq (h : Plain path) : start path = .inside [] := by
  unfold start
  split
  · rename_i rest
    -- before the slash there would be an empty step
    exact absurd rfl (h.steps [] List.mem_cons_self).moves
  · rfl

/-- In a tree every file is read by its path. -/
theorem IsTree.read_of_mem (htree : d.IsTree) (hf : f ∈ d.files) (hplain : Plain f.1) :
    d.read f.1 = .ok f.2 := by
  have hresolve : d.resolve f.1 = .ok (.file f.2) := by
    rw [resolve, hplain.start_eq]
    exact htree.followAll_names hf hplain.names_eq (segments_ne_nil f.1) hplain.steps
  rw [read, hplain.notRefused, hresolve]

end Directory

/-! ## Configurations in files -/

namespace Configuration

open Directory (IsTree Plain walk segments names)

variable {d : Directory}

/-- Options that a run is given come from one of the files, the one to which the path leads. -/
theorem exists_file_of_load {path : Text} {options : Options}
    (h : load d.read (some path) = .ok options) :
    ∃ f ∈ d.files, ofText? f.2 = some options ∧ walk [] (segments path) = some (names f.1) := by
  unfold load at h
  cases hread : d.read (file (some path)) with
  | error reason =>
      rw [hread] at h
      cases h
  | ok content =>
      rw [hread] at h
      obtain ⟨⟨f, hf, rfl, hwalk⟩, -, -⟩ := Directory.exists_file_of_read hread
      dsimp only at h
      split at h
      · rename_i options' hoptions
        cases h
        exact ⟨f, hf, hoptions, hwalk⟩
      · cases h

/-- In a tree a file is loaded by its path: its options, or the failure that it has none. -/
theorem load_of_mem (htree : d.IsTree) {f : Text × Text} (hf : f ∈ d.files)
    (hplain : Plain f.1) :
    load d.read (some f.1) = (ofText? f.2).elim (.error (.configParse f.1)) .ok := by
  have hread : d.read (file (some f.1)) = .ok f.2 := htree.read_of_mem hf hplain
  rw [load, hread]
  dsimp only
  cases ofText? f.2 with
  | none => rfl
  | some options => rfl

end Configuration

end CommandConsole

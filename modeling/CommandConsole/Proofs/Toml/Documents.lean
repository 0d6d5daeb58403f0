import CommandConsole.Proofs.Toml.Scalars
import CommandConsole.Toml.Document

set_option autoImplicit false

/-!
# What the rules for TOML documents leave

Values at any depth leave an end of the text, and a statement leaves a shorter one.  So the rules
for arrays and for documents, which look whether something was read before they go on, never refuse
a text for that (`arrayItems_of_comma`, `statements_eq`).

Each statement costs at least a character and gives the table of a document at most one key, so that
no document has more keys than characters (`length_le_of_table?`).
-/

namespace CommandConsole.Toml

open Text (ProperEnd Rule)
open Text.Rule (Leaves Shortens)

/-! ## Keys -/

theorem keyPart_shortens : Shortens keyPart := by
  intro t a rest h
  unfold keyPart at h
  split at h
  · cases h
  · rename_i c u
    split at h
    · exact lineString_shortens (c :: u) a rest h
    · split at h
      · cases h
        exact .cons (List.dropWhile_suffix isKeyChar) c
      · cases h

theorem path_shortens : Shortens path := by
  have hpart : Shortens fun t => (keyPart (skipBlanks t)).map fun p => (p.1, skipBlanks p.2) := by
    intro t a rest h
    obtain ⟨p, hp, heq⟩ := Option.map_eq_some_iff.1 h
    cases heq
    exact ((keyPart_shortens _ p.1 p.2 hp).trans_suffix (skipBlanks_isSuffix t)).suffix_trans
      (skipBlanks_isSuffix p.2)
  intro t keys rest h
  obtain ⟨p, hp, h⟩ := Option.bind_eq_some_iff.1 h
  split at h
  · cases h
    exact Rule.separatedBy_shortens hpart t keys rest hp
  · cases h

/-! ## Values -/

section

variable {item : Rule Item} (hitem : item.Leaves)
include hitem

/-- After a comma the items of an array go on, and nothing is refused for being too long. -/
theorem arrayItems_of_comma {t rest rest' : Text} {v : Item}
    (hbegun : ∀ u, skipGap false t ≠ ']' :: u) (hv : item (skipGap false t) = some (v, rest))
    (hcomma : skipGap false rest = ',' :: rest') :
    arrayItems item t = (arrayItems item rest').map fun p => (v :: p.1, p.2) := by
  have hrest : rest <:+ t := (hitem _ _ _ hv).trans (skipGap_isSuffix false t)
  have hshorter : ProperEnd rest' t := (properEnd_of_skipGap hcomma).trans_suffix hrest
  rw [arrayItems]
  split
  · rename_i u hu
    exact absurd hu (hbegun u)
  · simp only [hv, hcomma, dif_pos hshorter.length_lt]

theorem arrayItems_leaves : Leaves (arrayItems item) := by
  intro t
  fun_induction arrayItems item t with
  | case1 t u hend =>
      intro vs rest h
      cases h
      exact (properEnd_of_skipGap hend).isSuffix
  | case2 => nofun
  | case3 t v rest u hend hbegun hv =>
      intro vs rest' h
      cases h
      have hrest : rest <:+ t := (hitem _ _ _ hv).trans (skipGap_isSuffix false t)
      exact (properEnd_of_skipGap hend).isSuffix.trans hrest
  | case4 t v rest u hcomma hshorter hbegun hv ih =>
      intro vs rest' h
      obtain ⟨p, hp, heq⟩ := Option.map_eq_some_iff.1 h
      cases heq
      have hrest : rest <:+ t := (hitem _ _ _ hv).trans (skipGap_isSuffix false t)
      exact (ih p.1 p.2 hp).trans ((properEnd_of_skipGap hcomma).isSuffix.trans hrest)
  | case5 => nofun
  | case6 => nofun

theorem assignment_shortens : Shortens (assignment item) := by
  intro t a rest h
  obtain ⟨⟨keys, t₁⟩, hkeys, h⟩ := Option.bind_eq_some_iff.1 h
  obtain ⟨t₂, hmark, h⟩ := Option.bind_eq_some_iff.1 h
  obtain ⟨⟨v, t₃⟩, hvalue, h⟩ := Option.bind_eq_some_iff.1 h
  cases h
  have h₂ : ProperEnd t₂ t := (path_shortens _ _ _ hkeys).suffix_trans (suffix_of_after? hmark)
  have h₃ : t₃ <:+ t₂ := (hitem _ _ _ hvalue).trans (skipBlanks_isSuffix t₂)
  exact h₂.suffix_trans ((skipBlanks_isSuffix t₃).trans h₃)

theorem inlineEntries_leaves : Leaves (inlineEntries item) := by
  intro t es rest h
  unfold inlineEntries at h
  split at h
  · rename_i u hopen
    cases h
    exact (hopen ▸ List.suffix_cons _ _).trans (skipBlanks_isSuffix t)
  · obtain ⟨⟨entries, t₁⟩, hentries, h⟩ := Option.bind_eq_some_iff.1 h
    obtain ⟨t₂, hend, h⟩ := Option.bind_eq_some_iff.1 h
    cases h
    have h₁ := Rule.separatedBy_leaves (assignment_shortens hitem).leaves _ _ _ hentries
    exact ((suffix_of_after? hend).trans h₁).trans (skipBlanks_isSuffix t)

end

theorem item_leaves (depth : Nat) : Leaves (item depth) := by
  induction depth with
  | zero => exact readScalar_leaves
  | succ depth ih =>
      intro t v rest h
      unfold item at h
      split at h
      · split at h
        · cases h
        · exact ((arrayItems_leaves ih).map Item.array _ v rest h).trans (List.suffix_cons '[' _)
      · split at h
        · cases h
        · obtain ⟨p, hp, h⟩ := Option.bind_eq_some_iff.1 h
          obtain ⟨table, -, heq⟩ := Option.map_eq_some_iff.1 h
          cases heq
          exact (inlineEntries_leaves ih _ p.1 p.2 hp).trans (List.suffix_cons _ _)
      · exact readScalar_leaves t v rest h

/-! ## Statements -/

theorem statementStart_shortens : Shortens statementStart := by
  intro t s rest h
  unfold statementStart at h
  split at h
  · obtain ⟨⟨keys, t₁⟩, hkeys, h⟩ := Option.bind_eq_some_iff.1 h
    obtain ⟨t₂, hmark, h⟩ := Option.bind_eq_some_iff.1 h
    obtain ⟨t₃, hmark', h⟩ := Option.bind_eq_some_iff.1 h
    cases h
    have h₂ := (suffix_of_after? hmark).trans (path_shortens _ _ _ hkeys).isSuffix
    exact .cons (((suffix_of_after? hmark').trans h₂).trans (List.suffix_cons '[' _)) '['
  · obtain ⟨⟨keys, t₁⟩, hkeys, h⟩ := Option.bind_eq_some_iff.1 h
    obtain ⟨t₂, hmark, h⟩ := Option.bind_eq_some_iff.1 h
    cases h
    exact .cons ((suffix_of_after? hmark).trans (path_shortens _ _ _ hkeys).isSuffix) '['
  · have hassign := assignment_shortens (item_leaves limit)
    exact hassign.map (fun p => Statement.assign p.1 p.2) t s rest h

/-- A statement of a text that is not empty takes at least a character. -/
theorem properEnd_of_statement {t rest : Text} {s : Statement} (ht : t ≠ [])
    (h : statement t = some (s, rest)) : ProperEnd rest t := by
  unfold statement at h
  dsimp only at h
  split at h
  · rename_i u hu
    cases h
    by_cases hblank : skipBlanks t = []
    · rw [hblank] at hu
      cases hu
      exact ⟨List.nil_suffix, List.length_pos_iff.2 ht⟩
    · exact (properEnd_of_endLine? hblank hu).trans_suffix (skipBlanks_isSuffix t)
  · obtain ⟨p, hp, h⟩ := Option.bind_eq_some_iff.1 h
    obtain ⟨u, hu, heq⟩ := Option.map_eq_some_iff.1 h
    cases heq
    have hstart := (statementStart_shortens _ p.1 p.2 hp).trans_suffix (skipBlanks_isSuffix t)
    exact hstart.suffix_trans (suffix_of_endLine? hu)

/-- The statements of a text are read without looking whether something was read. -/
theorem statements_eq {t : Text} (ht : t ≠ []) :
    Rule.all statement t =
      (statement t).bind fun p => (Rule.all statement p.2).map (p.1 :: ·) :=
  Rule.all_eq (fun _ _ _ ht h => (properEnd_of_statement ht h).length_lt) ht

/-- A document has at most as many statements as characters. -/
theorem length_statements_le {t : Text} {ss : List Statement} (h : statements? t = some ss) :
    ss.length ≤ t.length := by
  refine Nat.le_trans (Rule.length_le_of_all h) ?_
  cases hmark : Text.dropStart? ['\uFEFF'] t with
  | none => exact Nat.le_refl _
  | some rest =>
      rw [(Text.dropStart?_eq_some_iff _ _ _).1 hmark]
      exact Nat.le_add_right _ _

/-! ## The keys of a document -/

namespace Entries

theorem length_put_le (key : Text) (n : Node) (es : Entries) :
    (put key n es).length ≤ es.length + 1 := by
  induction es with
  | nil => exact Nat.le_refl 1
  | cons e rest ih =>
      obtain ⟨k, old⟩ := e
      rw [put]
      split
      · exact Nat.le_succ _
      · exact Nat.succ_le_succ ih

/-- Whatever changes at the end of a path, the table where the path begins gets at most one key
more, if the changed table does. -/
theorem length_reach_le {dotted : Bool} {change : Origin → Entries → Option Entries}
    (hchange : ∀ origin es es', change origin es = some es' → es'.length ≤ es.length + 1)
    {path : List Text} {origin : Origin} {es es' : Entries}
    (h : reach dotted change path origin es = some es') : es'.length ≤ es.length + 1 := by
  cases path with
  | nil => exact hchange origin es es' h
  | cons key path =>
      rw [reach] at h
      split at h
      · obtain ⟨inner, -, rfl⟩ := Option.map_eq_some_iff.1 h
        exact length_put_le _ _ _
      · cases h
      · split at h
        · cases h
        · obtain ⟨inner, -, rfl⟩ := Option.map_eq_some_iff.1 h
          exact length_put_le _ _ _
      · obtain ⟨inner, -, rfl⟩ := Option.map_eq_some_iff.1 h
        exact length_put_le _ _ _

theorem length_give_le {path : List Text} {key : Text} {v : Item} {es es' : Entries}
    (h : give path key v es = some es') : es'.length ≤ es.length + 1 := by
  refine length_reach_le (fun origin es es' h => ?_) h
  split at h
  · cases h
  · split at h
    · cases h
    · cases h
      exact length_put_le _ _ _

theorem length_define_le {path : List Text} {key : Text} {es es' : Entries}
    (h : define path key es = some es') : es'.length ≤ es.length + 1 := by
  refine length_reach_le (fun origin es es' h => ?_) h
  split at h
  · cases h
    exact length_put_le _ _ _
  · cases h
    exact length_put_le _ _ _
  · cases h

theorem length_extend_le {path : List Text} {key : Text} {es es' : Entries}
    (h : extend path key es = some es') : es'.length ≤ es.length + 1 := by
  refine length_reach_le (fun origin es es' h => ?_) h
  split at h
  · cases h
    exact length_put_le _ _ _
  · cases h
    exact length_put_le _ _ _
  · cases h

theorem length_giveAt_le {table path : List Text} {key : Text} {v : Item} {es es' : Entries}
    (h : giveAt table path key v es = some es') : es'.length ≤ es.length + 1 :=
  length_reach_le (fun _ _ _ => length_give_le) h

end Entries

theorem length_entriesToItems (es : Entries) : (entriesToItems es).length = es.length := by
  induction es with
  | nil => rfl
  | cons e rest ih => exact congrArg (· + 1) ih

namespace Draft

/-- A statement gives the table of the document at most one key more. -/
theorem length_add_le {d d' : Draft} {s : Statement} (h : d.add s = some d') :
    d'.entries.length ≤ d.entries.length + 1 := by
  cases s with
  | blank =>
      cases h
      exact Nat.le_succ _
  | header path =>
      obtain ⟨p, -, h⟩ := Option.bind_eq_some_iff.1 h
      obtain ⟨es, hes, rfl⟩ := Option.map_eq_some_iff.1 h
      exact Entries.length_define_le hes
  | element path =>
      obtain ⟨p, -, h⟩ := Option.bind_eq_some_iff.1 h
      obtain ⟨es, hes, rfl⟩ := Option.map_eq_some_iff.1 h
      exact Entries.length_extend_le hes
  | assign path v =>
      obtain ⟨p, -, h⟩ := Option.bind_eq_some_iff.1 h
      obtain ⟨es, hes, rfl⟩ := Option.map_eq_some_iff.1 h
      exact Entries.length_giveAt_le hes

theorem length_addAll_le {ss : List Statement} {d d' : Draft}
    (h : ss.foldlM Draft.add d = some d') :
    d'.entries.length ≤ d.entries.length + ss.length := by
  induction ss generalizing d with
  | nil =>
      cases h
      exact Nat.le_refl _
  | cons s ss ih =>
      rw [List.foldlM_cons] at h
      obtain ⟨d₁, hs, hrest⟩ := Option.bind_eq_some_iff.1 h
      have hone := length_add_le hs
      have hmore := ih hrest
      rw [List.length_cons]
      omega

end Draft

/-- The table of a document has at most as many keys as the document has characters. -/
theorem length_le_of_table? {t : Text} {entries : List (Text × Item)}
    (h : table? t = some entries) : entries.length ≤ t.length := by
  obtain ⟨ss, hss, h⟩ := Option.bind_eq_some_iff.1 h
  obtain ⟨d, hd, h⟩ := Option.bind_eq_some_iff.1 h
  cases h
  calc (entriesToItems d.entries).length
      = d.entries.length := length_entriesToItems d.entries
    _ ≤ 0 + ss.length := Draft.length_addAll_le hd
    _ = ss.length := Nat.zero_add _
    _ ≤ t.length := length_statements_le hss

end CommandConsole.Toml

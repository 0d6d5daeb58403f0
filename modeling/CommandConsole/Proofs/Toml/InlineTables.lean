import CommandConsole.Toml.Table
import Mathlib.Data.List.Basic
import Mathlib.Data.List.Induction
import Mathlib.Order.Comparable

set_option autoImplicit false

/-!
# Tables between braces

The entries between braces give values to the ends of paths, and the table grows by one entry after
the other.  Whether there is a table does not depend on this, nor on the order of the entries: there
is one exactly if no path is empty and none leads on from another (`inlineTable?_isSome_iff`,
`inlineTable?_isSome_perm`).  Then it has all values at the ends of their paths, and holds nothing
besides (`inlineTable?_spec`).

While the table grows it has only values and tables that dotted keys made, none of them empty
(`Dotted`).  Giving such a table a value changes what is at the end of that path and nothing else
(`give_of_dotted`).
-/

namespace CommandConsole.Toml

/-! ## Values at the ends of paths -/

/-- The value to which a path leads from a value, through tables. -/
def Item.at? : List Text → Item → Option Item
  | [], v => some v
  | key :: path, .table entries => (entries.lookup key).bind (Item.at? path)
  | _ :: _, _ => none

/-- The value to which a path leads from a node, through tables in the making. -/
def Node.value? : List Text → Node → Option Item
  | [], .value v => some v
  | key :: path, .table _ entries => (entries.lookup key).bind (Node.value? path)
  | _, _ => none

/-- The value to which a path leads in a table in the making. -/
def Entries.value? : List Text → Entries → Option Item
  | [], _ => none
  | key :: path, es => (es.lookup key).bind (Node.value? path)

theorem Node.value?_table (path : List Text) (origin : Origin) (es : Entries) :
    (Node.table origin es).value? path = es.value? path := by
  cases path <;> rfl

theorem Node.value?_value (path : List Text) (v : Item) :
    (Node.value v).value? path = if path = [] then some v else none := by
  cases path with
  | nil => rfl
  | cons key path => rfl

namespace Entries

theorem lookup_put_of_ne {key key' : Text} (h : key' ≠ key) (n : Node) (es : Entries) :
    (put key n es).lookup key' = es.lookup key' := by
  induction es with
  | nil => rw [put, List.lookup_cons, beq_false_of_ne h]
  | cons e rest ih =>
      obtain ⟨k, old⟩ := e
      rw [put]
      split
      · rename_i hk
        subst hk
        rw [List.lookup_cons, List.lookup_cons, beq_false_of_ne h]
      · rw [List.lookup_cons, List.lookup_cons, ih]

theorem eq_or_mem_of_mem_put {key : Text} {n : Node} {es : Entries} {e : Text × Node}
    (h : e ∈ put key n es) : e.2 = n ∨ e ∈ es := by
  induction es with
  | nil =>
      rw [put, List.mem_singleton] at h
      exact Or.inl (congrArg Prod.snd h)
  | cons e' rest ih =>
      obtain ⟨k, old⟩ := e'
      rw [put] at h
      split at h
      · rcases List.mem_cons.1 h with rfl | h
        · exact Or.inl rfl
        · exact Or.inr (List.mem_cons_of_mem _ h)
      · rcases List.mem_cons.1 h with rfl | h
        · exact Or.inr List.mem_cons_self
        · exact (ih h).imp_right (List.mem_cons_of_mem _)

theorem put_ne_nil (key : Text) (n : Node) (es : Entries) : put key n es ≠ [] := by
  cases es with
  | nil => exact List.cons_ne_nil _ _
  | cons e rest =>
      rw [put]
      split
      · exact List.cons_ne_nil _ _
      · exact List.cons_ne_nil _ _

theorem mem_of_lookup {key : Text} {n : Node} {es : Entries} (h : es.lookup key = some n) :
    (key, n) ∈ es := by
  obtain ⟨front, rest, rfl, -⟩ := List.lookup_eq_some_iff.1 h
  exact List.mem_append_right _ List.mem_cons_self

/-- A node that is put in changes what is below its key. -/
theorem value?_put (key : Text) (n : Node) (es : Entries) (key' : Text) (path : List Text) :
    (put key n es).value? (key' :: path) =
      if key' = key then n.value? path else es.value? (key' :: path) := by
  rw [value?, value?]
  by_cases h : key' = key
  · subst h
    rw [lookup_put_self, if_pos rfl, Option.bind_some]
  · rw [lookup_put_of_ne h, if_neg h]

end Entries

/-! ## Tables that dotted keys make -/

/-- A value, or a table that dotted keys made and that is not empty. -/
inductive Node.Dotted : Node → Prop where
  | value (v : Item) : Dotted (.value v)
  | table {es : Entries} (hne : es ≠ []) (h : ∀ e ∈ es, Dotted e.2) : Dotted (.table .dottedKey es)

/-- There is a value in every such node. -/
theorem Node.Dotted.exists_value? {n : Node} (h : n.Dotted) : ∃ path v, n.value? path = some v := by
  induction h with
  | value v => exact ⟨[], v, rfl⟩
  | @table es hne _ ih =>
      obtain ⟨⟨key, n⟩, rest, rfl⟩ := List.exists_cons_of_ne_nil hne
      obtain ⟨path, v, hv⟩ := ih _ List.mem_cons_self
      refine ⟨key :: path, v, ?_⟩
      rw [Node.value?, List.lookup_cons_self, Option.bind_some, hv]

namespace Entries

variable {es es' : Entries} {key : Text} {path : List Text} {v : Item}

/-- The table has only values and tables that dotted keys made. -/
def Dotted (es : Entries) : Prop := ∀ e ∈ es, e.2.Dotted

theorem Dotted.nil : Dotted [] := nofun

theorem Dotted.lookup (h : es.Dotted) {n : Node} (hn : es.lookup key = some n) : n.Dotted :=
  h _ (mem_of_lookup hn)

theorem Dotted.put (h : es.Dotted) {n : Node} (hn : n.Dotted) : Dotted (put key n es) := by
  intro e he
  rcases eq_or_mem_of_mem_put he with heq | he
  · exact heq ▸ hn
  · exact h e he

/-- A value stands on the path, or the path goes on to one. -/
def Blocked (path : List Text) (es : Entries) : Prop :=
  ∃ q v, es.value? q = some v ∧ (q <+: path ∨ path <+: q)

theorem not_blocked_nil (path : List Text) : ¬ Blocked path [] := by
  rintro ⟨q, v, hv, -⟩
  cases q with
  | nil => cases hv
  | cons key q => cases hv

/-- Below a key that has a node the rest of the path is blocked by that node. -/
theorem blocked_cons_iff {n : Node} (hn : es.lookup key = some n) :
    Blocked (key :: path) es ↔ ∃ q v, n.value? q = some v ∧ (q <+: path ∨ path <+: q) := by
  have hvalue (q : List Text) : es.value? (key :: q) = n.value? q := by
    rw [value?, hn, Option.bind_some]
  constructor
  · rintro ⟨q, v, hv, hq⟩
    cases q with
    | nil => cases hv
    | cons key' q =>
        simp only [List.cons_prefix_cons] at hq
        obtain ⟨rfl, hq⟩ | ⟨rfl, hq⟩ := hq
        · exact ⟨q, v, hvalue q ▸ hv, Or.inl hq⟩
        · exact ⟨q, v, hvalue q ▸ hv, Or.inr hq⟩
  · rintro ⟨q, v, hv, hq⟩
    refine ⟨key :: q, v, (hvalue q).trans hv, ?_⟩
    simpa only [List.cons_prefix_cons, true_and] using hq

theorem not_blocked_cons (hn : es.lookup key = none) : ¬ Blocked (key :: path) es := by
  rintro ⟨q, v, hv, hq⟩
  cases q with
  | nil => cases hv
  | cons key' q =>
      have hkey : key' = key := by
        rcases hq with hq | hq
        · exact (List.cons_prefix_cons.1 hq).1
        · exact (List.cons_prefix_cons.1 hq).1.symm
      rw [value?, hkey, hn] at hv
      cases hv

/-- One table has the value at the end of the path, and is otherwise as the other. -/
structure Gives (path : List Text) (v : Item) (es es' : Entries) : Prop where
  dotted : es'.Dotted
  ne_nil : es' ≠ []
  value? : ∀ q, es'.value? q = if q = path then some v else es.value? q

/-- A key that is new may get a value. -/
theorem gives_put (hes : es.Dotted) (hkey : es.lookup key = none) (v : Item) :
    Gives [key] v es (put key (.value v) es) where
  dotted := hes.put (.value v)
  ne_nil := put_ne_nil _ _ _
  value? q := by
    cases q with
    | nil => rfl
    | cons key' q =>
        rw [value?_put, Node.value?_value]
        by_cases h : key' = key
        · subst h
          simp [Entries.value?, hkey]
        · simp [h]

/-- A path goes on in a table when the key has one, or has none yet. -/
theorem Gives.cons (hes : es.Dotted) {inner inner' : Entries} (h : Gives path v inner inner')
    (hinner : ∀ q, es.value? (key :: q) = inner.value? q) :
    Gives (key :: path) v es (put key (.table .dottedKey inner') es) where
  dotted := hes.put (.table h.ne_nil h.dotted)
  ne_nil := put_ne_nil _ _ _
  value? q := by
    cases q with
    | nil => rfl
    | cons key' q =>
        rw [value?_put, Node.value?_table]
        by_cases hkey : key' = key
        · subst hkey
          simp only [if_pos, h.value?, hinner, List.cons.injEq, true_and]
        · simp [hkey]

/-- A dotted key leads to the end of its path, and changes there and nothing else, unless a value
stands on the path or the path goes on to one. -/
theorem reach_of_dotted {change : Origin → Entries → Option Entries}
    (hchange : ∀ es : Entries, change .dottedKey es =
      if (es.lookup key).isSome then none else some (put key (.value v) es))
    (hes : es.Dotted) (path : List Text) :
    (Blocked (path ++ [key]) es ∧ reach true change path .dottedKey es = none) ∨
      (¬ Blocked (path ++ [key]) es ∧
        ∃ es', reach true change path .dottedKey es = some es' ∧
          Gives (path ++ [key]) v es es') := by
  induction path generalizing es with
  | nil =>
      rw [reach, hchange, List.nil_append]
      cases hkey : es.lookup key with
      | none => exact Or.inr ⟨not_blocked_cons hkey, _, rfl, gives_put hes hkey v⟩
      | some n =>
          obtain ⟨q, w, hw⟩ := (hes.lookup hkey).exists_value?
          exact Or.inl ⟨(blocked_cons_iff hkey).2 ⟨q, w, hw, Or.inr List.nil_prefix⟩, rfl⟩
  | cons k path ih =>
      rw [reach, List.cons_append]
      cases hk : es.lookup k with
      | none =>
          have hinner (q : List Text) : es.value? (k :: q) = Entries.value? q [] := by
            rw [value?, hk]
            cases q <;> rfl
          rcases ih .nil with ⟨hblocked, -⟩ | ⟨-, inner, hreach, hgives⟩
          · exact absurd hblocked (not_blocked_nil _)
          · refine Or.inr ⟨not_blocked_cons hk, _, ?_, hgives.cons hes hinner⟩
            dsimp only
            rw [if_pos rfl, hreach]
            rfl
      | some n =>
          rw [blocked_cons_iff hk]
          cases hes.lookup hk with
          | value w => exact Or.inl ⟨⟨[], w, rfl, Or.inl List.nil_prefix⟩, rfl⟩
          | @table inner hne hdotted =>
              have hinner (q : List Text) : es.value? (k :: q) = inner.value? q := by
                rw [value?, hk, Option.bind_some, Node.value?_table]
              have hreach : ∀ result, reach true change path .dottedKey inner = result →
                  (if True ∧ Origin.dottedKey = .header then none
                    else (reach true change path .dottedKey inner).map fun es' =>
                      put k (.table .dottedKey es') es) =
                    result.map fun es' => put k (.table .dottedKey es') es := by
                rintro result rfl
                exact if_neg nofun
              simp only [Node.value?_table]
              rcases ih hdotted with ⟨hblocked, hnone⟩ | ⟨hfree, inner', hsome, hgives⟩
              · exact Or.inl ⟨hblocked, hreach none hnone⟩
              · exact Or.inr ⟨hfree, _, hreach _ hsome, hgives.cons hes hinner⟩

/-- Giving a value either does that and nothing else, or fails as the path is blocked. -/
theorem give_of_dotted (hes : es.Dotted) (path : List Text) (key : Text) (v : Item) :
    (Blocked (path ++ [key]) es ∧ give path key v es = none) ∨
      (¬ Blocked (path ++ [key]) es ∧
        ∃ es', give path key v es = some es' ∧ Gives (path ++ [key]) v es es') := by
  cases path with
  | nil =>
      have hgive : give [] key v es = reach true (fun _ es =>
          if (es.lookup key).isSome then none else some (Entries.put key (.value v) es))
            [] .dottedKey es := rfl
      rw [hgive]
      exact reach_of_dotted (fun _ => rfl) hes []
  | cons k path => exact reach_of_dotted (fun _ => rfl) hes (k :: path)

end Entries

/-! ## The growing table -/

/-- The table with one entry more. -/
def giveEntry (es : Entries) (e : List Text × Item) : Option Entries :=
  (splitLast? e.1).bind fun p => es.give p.1 p.2 e.2

theorem giveEntry_of_dotted {es : Entries} (hes : es.Dotted) {path : List Text}
    (hpath : path ≠ []) (v : Item) :
    (es.Blocked path ∧ giveEntry es (path, v) = none) ∨
      (¬ es.Blocked path ∧ ∃ es', giveEntry es (path, v) = some es' ∧ es.Gives path v es') := by
  obtain ⟨front, key, rfl⟩ := (List.eq_nil_or_concat' path).resolve_left hpath
  rw [giveEntry, splitLast?_append]
  exact Entries.give_of_dotted hes front key v

/-- No path is empty, and none leads on from another. -/
def Compatible (given : List (List Text × Item)) : Prop :=
  (∀ e ∈ given, e.1 ≠ []) ∧ given.Pairwise fun e e' => IncompRel (· <+: ·) e.1 e'.1

theorem compatible_concat_iff {given : List (List Text × Item)} {e : List Text × Item} :
    Compatible (given ++ [e]) ↔
      Compatible given ∧ e.1 ≠ [] ∧ ∀ e' ∈ given, IncompRel (· <+: ·) e'.1 e.1 := by
  unfold Compatible
  simp only [List.forall_mem_append, List.forall_mem_singleton, List.pairwise_append,
    List.pairwise_singleton, true_and]
  tauto

/-- The order of the entries does not matter. -/
theorem Compatible.perm {given given' : List (List Text × Item)} (h : Compatible given)
    (hperm : given.Perm given') : Compatible given' :=
  ⟨fun e he => h.1 e (hperm.mem_iff.2 he), hperm.pairwise h.2 fun hapart => hapart.symm⟩

/-- The table has exactly the values that were given. -/
structure Holds (given : List (List Text × Item)) (es : Entries) : Prop where
  dotted : es.Dotted
  values : ∀ path v, es.value? path = some v ↔ (path, v) ∈ given

namespace Holds

variable {given : List (List Text × Item)} {es es' : Entries} {path : List Text} {v : Item}

theorem blocked_iff (h : Holds given es) :
    es.Blocked path ↔ ¬ ∀ e ∈ given, IncompRel (· <+: ·) e.1 path := by
  rw [not_forall]
  constructor
  · rintro ⟨q, w, hw, hq⟩
    refine ⟨(q, w), fun hfree => ?_⟩
    obtain ⟨hleft, hright⟩ := hfree ((h.values q w).1 hw)
    exact hq.elim hleft hright
  · rintro ⟨⟨q, w⟩, hfree⟩
    rw [Classical.not_imp] at hfree
    refine ⟨q, w, (h.values q w).2 hfree.1, ?_⟩
    rw [← not_not (a := q <+: path ∨ path <+: q), not_or]
    exact hfree.2

/-- The table has the values when one more is given to the end of a free path. -/
theorem concat (h : Holds given es) (hfree : ¬ es.Blocked path) (hgives : es.Gives path v es') :
    Holds (given ++ [(path, v)]) es' where
  dotted := hgives.dotted
  values q w := by
    rw [hgives.value?, List.mem_append, List.mem_singleton, Prod.mk.injEq]
    split
    · rename_i hq
      subst hq
      have hnew : (q, w) ∉ given := fun hmem =>
        hfree ⟨q, w, (h.values q w).2 hmem, Or.inl List.prefix_rfl⟩
      rw [Option.some.injEq, eq_comm]
      simp [hnew]
    · rename_i hq
      rw [h.values]
      simp [hq]

end Holds

/-- Entries make a table exactly if they are compatible, and the table has their values. -/
theorem foldlM_giveEntry (given : List (List Text × Item)) :
    (Compatible given ∧ ∃ es, given.foldlM giveEntry [] = some es ∧ Holds given es) ∨
      (¬ Compatible given ∧ given.foldlM giveEntry [] = none) := by
  induction given using List.reverseRecOn with
  | nil =>
      have hnone (path : List Text) (v : Item) : Entries.value? path [] ≠ some v := by
        cases path <;> nofun
      exact Or.inl ⟨⟨nofun, .nil⟩, [], rfl, .nil, fun path v => by simp [hnone]⟩
  | append_singleton given e ih =>
      obtain ⟨path, v⟩ := e
      rw [List.foldlM_append, compatible_concat_iff]
      rcases ih with ⟨hgiven, es, hes, hholds⟩ | ⟨hgiven, hnone⟩
      · rw [hes]
        by_cases hpath : path = []
        · subst hpath
          exact Or.inr ⟨fun h => h.2.1 rfl, rfl⟩
        · rcases giveEntry_of_dotted hholds.dotted hpath v with
            ⟨hblocked, hnone⟩ | ⟨hfree, es', hsome, hgives⟩
          · refine Or.inr ⟨fun h => hholds.blocked_iff.1 hblocked h.2.2, ?_⟩
            exact congrArg (Option.bind · pure) hnone
          · refine Or.inl ⟨⟨hgiven, hpath, ?_⟩, es', ?_, hholds.concat hfree hgives⟩
            · exact Classical.not_not.1 (mt hholds.blocked_iff.2 hfree)
            · exact congrArg (Option.bind · pure) hsome
      · exact Or.inr ⟨fun h => hgiven h.1, by rw [hnone]; rfl⟩

/-! ## The finished table -/

theorem lookup_entriesToItems (es : Entries) (key : Text) :
    (entriesToItems es).lookup key = (es.lookup key).map Node.toItem := by
  induction es with
  | nil => rfl
  | cons e rest ih =>
      obtain ⟨k, n⟩ := e
      rw [entriesToItems, List.lookup_cons, List.lookup_cons, ih]
      cases key == k <;> rfl

/-- A path goes on in a finished table as it does in the table in the making. -/
theorem at?_table_cons (es : Entries) (key : Text) (path : List Text) :
    (Item.table (entriesToItems es)).at? (key :: path) =
      (es.lookup key).bind fun n => n.toItem.at? path := by
  rw [Item.at?, lookup_entriesToItems]
  cases es.lookup key with
  | none => rfl
  | some n => rfl

/-- Where a path leads to a value in the making, the finished node has the value. -/
theorem Node.at?_of_value? {n : Node} {path : List Text} {v : Item} (h : n.value? path = some v) :
    n.toItem.at? path = some v := by
  induction path generalizing n with
  | nil =>
      cases n with
      | value w =>
          cases h
          rfl
      | table | tables => cases h
  | cons key path ih =>
      cases n with
      | table origin es =>
          obtain ⟨m, hm, hv⟩ := Option.bind_eq_some_iff.1 h
          rw [Node.toItem, at?_table_cons, hm]
          exact ih hv
      | value | tables => cases h

/-- All that a finished node holds is on the way to a value, or inside of one. -/
theorem Node.Dotted.exists_of_at? {n : Node} (hn : n.Dotted) {path : List Text} {w : Item}
    (h : n.toItem.at? path = some w) :
    ∃ q v, n.value? q = some v ∧ (q <+: path ∨ path <+: q) := by
  induction path generalizing n with
  | nil =>
      obtain ⟨q, v, hv⟩ := hn.exists_value?
      exact ⟨q, v, hv, Or.inr List.nil_prefix⟩
  | cons key path ih =>
      cases hn with
      | value v => exact ⟨[], v, rfl, Or.inl List.nil_prefix⟩
      | @table es _ hes =>
          rw [Node.toItem, at?_table_cons] at h
          obtain ⟨m, hm, hw⟩ := Option.bind_eq_some_iff.1 h
          obtain ⟨q, v, hv, hq⟩ := ih (hes _ (Entries.mem_of_lookup hm)) hw
          refine ⟨key :: q, v, ?_, ?_⟩
          · rw [Node.value?, hm, Option.bind_some, hv]
          · simpa only [List.cons_prefix_cons, true_and] using hq

theorem inlineTable?_eq (given : List (List Text × Item)) :
    inlineTable? given =
      (given.foldlM giveEntry []).map fun es => .table (entriesToItems es) := rfl

/-- There is a table between braces exactly if no path is empty and none leads on from another. -/
theorem inlineTable?_isSome_iff (given : List (List Text × Item)) :
    (inlineTable? given).isSome ↔ Compatible given := by
  rw [inlineTable?_eq, Option.isSome_map]
  rcases foldlM_giveEntry given with ⟨hgiven, es, hes, -⟩ | ⟨hgiven, hnone⟩
  · rw [hes]
    exact iff_of_true rfl hgiven
  · rw [hnone]
    exact iff_of_false nofun hgiven

theorem inlineTable?_isSome_perm {given given' : List (List Text × Item)}
    (hperm : given.Perm given') : (inlineTable? given).isSome ↔ (inlineTable? given').isSome := by
  rw [inlineTable?_isSome_iff, inlineTable?_isSome_iff]
  exact ⟨fun h => h.perm hperm, fun h => h.perm hperm.symm⟩

/-- The table has the values at the ends of their paths, and whatever else is in it is on the way to
one of them or inside of it. -/
theorem inlineTable?_spec {given : List (List Text × Item)} {table : Item}
    (h : inlineTable? given = some table) :
    (∀ e ∈ given, table.at? e.1 = some e.2) ∧
      ∀ path w, path ≠ [] → table.at? path = some w →
        ∃ e ∈ given, e.1 <+: path ∨ path <+: e.1 := by
  rw [inlineTable?_eq] at h
  obtain ⟨es, hes, rfl⟩ := Option.map_eq_some_iff.1 h
  rcases foldlM_giveEntry given with ⟨-, es', hes', hholds⟩ | ⟨-, hnone⟩
  · obtain rfl : es' = es := Option.some.inj (hes'.symm.trans hes)
    constructor
    · rintro ⟨path, v⟩ he
      have hv : (Node.table .dottedKey es').value? path = some v :=
        (Node.value?_table path .dottedKey es').trans ((hholds.values path v).2 he)
      exact Node.at?_of_value? hv
    · intro path w hpath hw
      obtain ⟨key, path, rfl⟩ := List.exists_cons_of_ne_nil hpath
      have hne : es' ≠ [] := by
        rintro rfl
        cases hw
      obtain ⟨q, v, hv, hq⟩ := (Node.Dotted.table hne hholds.dotted).exists_of_at? hw
      rw [Node.value?_table] at hv
      exact ⟨(q, v), (hholds.values q v).1 hv, hq⟩
  · rw [hes] at hnone
    cases hnone

end CommandConsole.Toml

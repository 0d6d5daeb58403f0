import CommandConsole.Proofs.Completion.Accepting
import CommandConsole.Proofs.Text.LetterCase
import CommandConsole.Proofs.Text.Slicing

set_option autoImplicit false

/-!
# Filtering the names

The suggestions for a text are the names whose first characters are alike to its partial token, in
the order of the names, and none when there is no token (`matching_eq_filter`).  What an entry
highlights is what was typed: as many characters as the token has, cut off at a byte between
characters, although the token may have other bytes (`highlights_of_mem_entries`).

Filtering sees nothing but lower cases.  Texts that are alike have tokens that are alike
(`alike_token`), since neither parentheses nor blanks have a case, and such tokens have the same
suggestions (`matching_congr`).  A longer token has fewer (`matching_append_sublist`).
-/

namespace CommandConsole

/-! ## The tokens of texts that are alike -/

namespace Completion

/-- The scans of texts that are alike: the parentheses stand at the same places. -/
inductive Scan.Alike : Scan → Scan → Prop where
  | opened {head head' tail tail' : Text} (hhead : Text.Alike head head')
      (htail : Text.Alike tail tail') : Scan.Alike (.opened head tail) (.opened head' tail')
  | closers (count : Nat) : Scan.Alike (.closers count) (.closers count)

/-- Each case of a scan is that of a text that is alike. -/
theorem Scans.alike {s t : Text} {x : Scan} (hs : Scans s x) (h : Text.Alike s t) :
    ∃ y, Scans t y ∧ x.Alike y := by
  induction hs generalizing t with
  | nil =>
      cases h
      exact ⟨_, .nil, .closers 0⟩
  | found hs ih =>
      cases h with
      | cons hab hst =>
          obtain ⟨y, ht, hxy⟩ := ih hst
          cases hxy with
          | opened hhead htail => exact ⟨_, .found ht, .opened (.cons hab hhead) htail⟩
  | opens hs ih =>
      cases h with
      | cons hab hst =>
          obtain rfl := Text.eq_of_lower_eq (c := '(') (by decide) hab.symm
          obtain ⟨y, ht, hxy⟩ := ih hst
          cases hxy
          exact ⟨_, .opens ht, .opened (.cons rfl .nil) hst⟩
  | pairs hs ih =>
      cases h with
      | cons hab hst =>
          obtain rfl := Text.eq_of_lower_eq (c := '(') (by decide) hab.symm
          obtain ⟨y, ht, hxy⟩ := ih hst
          cases hxy
          exact ⟨_, .pairs ht, .closers _⟩
  | closes hs ih =>
      cases h with
      | cons hab hst =>
          obtain rfl := Text.eq_of_lower_eq (c := ')') (by decide) hab.symm
          obtain ⟨y, ht, hxy⟩ := ih hst
          cases hxy
          exact ⟨_, .closes ht, .closers _⟩
  | passes hopen hclose hs ih =>
      cases h with
      | cons hab hst =>
          obtain ⟨y, ht, hxy⟩ := ih hst
          cases hxy
          have hopen' := mt (Text.eq_iff_of_lower_eq (by decide) hab).2 hopen
          have hclose' := mt (Text.eq_iff_of_lower_eq (by decide) hab).2 hclose
          exact ⟨_, .passes hopen' hclose' ht, .closers _⟩

theorem alike_cut {s t : Text} (h : Text.Alike s t) : Text.Alike (cut s).2 (cut t).2 := by
  obtain ⟨y, ht, hscan⟩ := (scans_scan s).alike h
  unfold cut
  rw [ht.scan_eq]
  cases hs : scan s <;> rw [hs] at hscan <;> cases hscan
  · assumption
  · exact h

/-- Texts that are alike have partial tokens that are alike. -/
theorem alike_token {s t : Text} (h : Text.Alike s t) : Text.Alike (token s) (token t) :=
  (alike_cut h).trimStart

end Completion

namespace Suggestions

open Completion (token)

/-! ## Matches -/

/-- A name begins like a token exactly if its first characters have the lower-case mappings of the
token's. -/
theorem startsAlike_iff {name token : Text} :
    startsAlike name token = true ↔
      (name.take token.length).map Text.lower = token.map Text.lower := by
  induction token generalizing name with
  | nil => simp [startsAlike]
  | cons b token ih =>
      cases name with
      | nil => simp [startsAlike]
      | cons a name => simp [startsAlike, ih]

theorem mem_matching {name token : Text} {names : List Text} :
    name ∈ matching token names ↔
      token ≠ [] ∧ name ∈ names ∧
        (name.take token.length).map Text.lower = token.map Text.lower := by
  unfold matching
  by_cases htoken : token = []
  · simp [htoken]
  · rw [if_neg (by simpa using htoken), List.mem_filter, startsAlike_iff]
    exact (and_iff_right htoken).symm

theorem startsAlike_iff_alike {name token : Text} :
    startsAlike name token = true ↔ Text.Alike (name.take token.length) token :=
  startsAlike_iff.trans Text.alike_iff_map.symm

theorem matching_eq_filter (token : Text) (names : List Text) :
    matching token names =
      names.filter fun name => token ≠ [] ∧ Text.Alike (name.take token.length) token := by
  unfold matching
  by_cases htoken : token = []
  · simp [htoken]
  · rw [if_neg (by simpa using htoken)]
    refine List.filter_congr fun name _ => ?_
    rw [Bool.eq_iff_iff, startsAlike_iff_alike, decide_eq_true_eq]
    exact (and_iff_right htoken).symm

theorem matching_congr {p p' : Text} (h : Text.Alike p p') (names : List Text) :
    matching p names = matching p' names := by
  have hlength : p.length = p'.length := h.length_eq
  have hempty : p = [] ↔ p' = [] := by
    rw [← List.length_eq_zero_iff, ← List.length_eq_zero_iff, hlength]
  rw [matching_eq_filter, matching_eq_filter]
  refine List.filter_congr fun name _ => ?_
  simp only [Text.alike_iff_map, hlength, Text.alike_iff_map.1 h, ne_eq, hempty]

/-- A name that begins like a longer token begins like the shorter one. -/
theorem startsAlike_of_append {name p q : Text} (h : startsAlike name (p ++ q) = true) :
    startsAlike name p = true := by
  induction p generalizing name with
  | nil => cases name <;> rfl
  | cons b p ih =>
      cases name with
      | nil => cases h
      | cons a name =>
          obtain ⟨hfirst, hrest⟩ := (Bool.and_eq_true _ _).mp h
          exact (Bool.and_eq_true _ _).mpr ⟨hfirst, ih hrest⟩

/-- A longer token has fewer suggestions. -/
theorem matching_append_sublist {p : Text} (hp : p ≠ []) (q : Text) (names : List Text) :
    (matching (p ++ q) names).Sublist (matching p names) := by
  unfold matching
  rw [if_neg (by simp [hp]), if_neg (by simpa using hp)]
  exact List.monotone_filter_right names fun _ => startsAlike_of_append

/-! ## Entries -/

/-- The entry highlights as many characters as the token has. -/
structure Highlights (token : Text) (e : Suggestion) : Prop where
  /-- The highlighted bytes end between characters, after those that were typed. -/
  cut : Text.splitAt? e.name e.matchedBytes =
    some (e.name.take token.length, e.name.drop token.length)
  length : (e.name.take token.length).length = token.length
  within : e.matchedBytes ≤ Text.byteSize e.name

theorem typed_refresh (text : Text) (names : List Text) (s : Suggestions) :
    (s.refresh text names).typed = (token text).length := by
  unfold refresh
  dsimp only
  split <;> rfl

theorem map_name_entries (s : Suggestions) : s.entries.map Suggestion.name = s.names := by
  rw [entries, List.map_map]
  exact List.zipIdx_map_fst 0 s.names

theorem matchedBytes_of_mem_entries {s : Suggestions} {e : Suggestion} (he : e ∈ s.entries) :
    e.matchedBytes = Text.byteSize (e.name.take s.typed) := by
  obtain ⟨⟨name, i⟩, -, rfl⟩ := List.mem_map.1 he
  rfl

/-- The entries for a text highlight what was typed. -/
theorem highlights_of_mem_entries {text : Text} {names : List Text} {s : Suggestions}
    {e : Suggestion} (he : e ∈ (s.refresh text names).entries) : Highlights (token text) e := by
  have hname : e.name ∈ matching (token text) names := by
    rw [← names_refresh text names s, ← map_name_entries]
    exact List.mem_map_of_mem he
  have hbytes := matchedBytes_of_mem_entries he
  rw [typed_refresh] at hbytes
  have hcut := Text.splitAt?_append (e.name.take (token text).length)
    (e.name.drop (token text).length)
  rw [List.take_append_drop, ← hbytes] at hcut
  refine ⟨hcut, ?_, ?_⟩
  · have halike := congrArg List.length (mem_matching.1 hname).2.2
    rwa [List.length_map, List.length_map] at halike
  · rw [hbytes]
    conv => rhs; rw [← List.take_append_drop (token text).length e.name, Text.byteSize_append]
    exact Nat.le_add_right _ _

/-! ## The suggestions for a text -/

/-- The suggestions are the names that begin like the token, with what was typed highlighted. -/
structure FilteredBy (token : Text) (names : List Text) (s : Suggestions) : Prop where
  names : s.names =
    names.filter fun name => token ≠ [] ∧ Text.Alike (name.take token.length) token
  shown : s.entries.map Suggestion.name = s.names
  highlighted : ∀ e ∈ s.entries, Highlights token e

theorem filteredBy_refresh (text : Text) (names : List Text) (s : Suggestions) :
    FilteredBy (token text) names (s.refresh text names) where
  names := (names_refresh text names s).trans (matching_eq_filter _ names)
  shown := map_name_entries _
  highlighted _ he := highlights_of_mem_entries he

/-- Refreshing filters the names by the partial token.  Characters with the same lower case may
take each other's place in the text, and a token that goes on has no further suggestions. -/
theorem filtersNames (names : List Text) :
    (∀ text s, FilteredBy (token text) names (refresh text names s)) ∧
      (∀ text text', Text.Alike text text' → Text.Alike (token text) (token text')) ∧
      (∀ text text' s s', Text.Alike (token text) (token text') →
        (refresh text' names s').names = (refresh text names s).names) ∧
      ∀ text text' q s s', token text ≠ [] → token text' = token text ++ q →
        (refresh text' names s').names.Sublist (refresh text names s).names := by
  refine ⟨fun text s => filteredBy_refresh text names s, fun _ _ h => Completion.alike_token h,
    fun text text' s s' h => ?_, fun text text' q s s' htoken hmore => ?_⟩
  · rw [names_refresh, names_refresh, matching_congr h]
  · rw [names_refresh, names_refresh, hmore]
    exact matching_append_sublist htoken q names

/-- The Kelvin sign has the lower case of `k` in three bytes. -/
theorem filtersNames_kelvin :
    (refresh "outer( \u212aI".toList ["heal".toList, "Kick".toList, "kite".toList] {}).names =
        (refresh "outer( ki".toList ["heal".toList, "Kick".toList, "kite".toList] {}).names ∧
      (refresh "outer( kiT".toList ["heal".toList, "Kick".toList, "kite".toList] {}).names.Sublist
        (refresh "outer( ki".toList ["heal".toList, "Kick".toList, "kite".toList] {}).names := by
  obtain ⟨-, htoken, hsame, hfewer⟩ :=
    filtersNames ["heal".toList, "Kick".toList, "kite".toList]
  have halike := htoken "outer( ki".toList "outer( \u212aI".toList (by decide)
  exact ⟨hsame _ _ {} {} halike, hfewer _ _ ['T'] {} {} (by decide) (by decide)⟩

end Suggestions

end CommandConsole

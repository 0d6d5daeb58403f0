import CommandConsole.Text.Basic

set_option autoImplicit false

/-!
# Cutting a text at bytes

Offsets count bytes, but a text is cut between characters only.  `splitAt?` cuts at a byte and fails
within a character and beyond the end (`splitAt?_eq_some_iff`).  `slice?` takes the part from one
byte to another, and `splice?` puts another text in its place; they fail where a cut does, or when
the bytes are out of order.
-/

namespace CommandConsole.Text

/-- The text before and after a byte that lies between characters. -/
def splitAt? : Text → Nat → Option (Text × Text)
  | t, 0 => some ([], t)
  | [], _ + 1 => none
  | c :: t, n + 1 =>
    if c.utf8Size ≤ n + 1 then
      (splitAt? t (n + 1 - c.utf8Size)).map fun p => (c :: p.1, p.2)
    else none

/-- The text from one byte to another. -/
def slice? (t : Text) (i j : Nat) : Option Text :=
  (splitAt? t j).bind fun p => (splitAt? p.1 i).map Prod.snd

/-- The text with another one in the place of what stands from one byte to another. -/
def splice? (t : Text) (i j : Nat) (s : Text) : Option Text :=
  (splitAt? t j).bind fun p => (splitAt? p.1 i).map fun q => q.1 ++ (s ++ p.2)

theorem splitAt?_cons (c : Char) (t : Text) (n : Nat) :
    splitAt? (c :: t) (c.utf8Size + n) = (splitAt? t n).map fun p => (c :: p.1, p.2) := by
  obtain ⟨m, hm⟩ := Nat.exists_eq_add_of_lt (Nat.add_pos_left c.utf8Size_pos n)
  have hn : m + 1 - c.utf8Size = n := by omega
  have hle : c.utf8Size ≤ m + 1 := by omega
  rw [hm, Nat.zero_add, splitAt?, if_pos hle, hn]

theorem splitAt?_append (u v : Text) : splitAt? (u ++ v) (byteSize u) = some (u, v) := by
  induction u with
  | nil => cases v <;> rfl
  | cons c u ih =>
      rw [List.cons_append, byteSize_cons, splitAt?_cons, ih]
      rfl

/-- A text can be cut exactly where a part of it ends. -/
theorem splitAt?_eq_some_iff {t u v : Text} {n : Nat} :
    splitAt? t n = some (u, v) ↔ t = u ++ v ∧ byteSize u = n := by
  constructor
  · intro h
    fun_induction splitAt? t n generalizing u with
    | case1 t =>
        cases h
        exact ⟨rfl, rfl⟩
    | case2 n => cases h
    | case3 c t n hle ih =>
        obtain ⟨⟨u, v⟩, hrest, heq⟩ := Option.map_eq_some_iff.1 h
        cases heq
        obtain ⟨rfl, hsize⟩ : t = u ++ v ∧ byteSize u = n + 1 - c.utf8Size := ih hrest
        refine ⟨rfl, ?_⟩
        change byteSize (c :: u) = n + 1
        rw [byteSize_cons, hsize]
        omega
    | case4 c t n hle => cases h
  · rintro ⟨rfl, rfl⟩
    exact splitAt?_append u v

/-- The part that stands between two others. -/
theorem slice?_append (u m v : Text) :
    slice? (u ++ (m ++ v)) (byteSize u) (byteSize u + byteSize m) = some m := by
  have hcut := splitAt?_append (u ++ m) v
  rw [byteSize_append, List.append_assoc] at hcut
  simp only [slice?, hcut, Option.bind_some, splitAt?_append, Option.map_some]

theorem splice?_append (u m v s : Text) :
    splice? (u ++ (m ++ v)) (byteSize u) (byteSize u + byteSize m) s = some (u ++ (s ++ v)) := by
  have hcut := splitAt?_append (u ++ m) v
  rw [byteSize_append, List.append_assoc] at hcut
  simp only [splice?, hcut, Option.bind_some, splitAt?_append, Option.map_some]

end CommandConsole.Text

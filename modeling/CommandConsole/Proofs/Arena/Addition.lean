import CommandConsole.Proofs.Arena.Runs
import Mathlib.Algebra.BigOperators.Group.List.Basic
import Mathlib.Algebra.Ring.Int.Defs
import Mathlib.Data.List.Infix

set_option autoImplicit false

/-!
# Addition

Integers are added from the left, and each sum on the way must have 64 bits.  So the command `add`
has the exact sum of its arguments for a value if all sums on the way are in the range
(`sumIntegers_of_stays`), and else it faults, be the sum of all in the range or not
(`sumIntegers_of_leaves`).  With two arguments there is no sum on the way but the last one.  With
three there is one more, that of the first two: the order of the arguments matters as far as it
decides whether this sum is in the range, and no further (`addsFromLeft`).
-/

namespace CommandConsole.Arena

/-- The sum of integers, of any size. -/
def total (ns : List Int64) : Int := (ns.map Int64.toInt).sum

/-- The number has 64 bits. -/
def InRange (n : Int) : Prop := -0x8000000000000000 ≤ n ∧ n ≤ 0x7FFFFFFFFFFFFFFF

instance (n : Int) : Decidable (InRange n) := inferInstanceAs (Decidable (_ ∧ _))

/-- The sum of the integers, and every sum on the way from the left, has 64 bits. -/
def Stays (ns : List Int64) : Prop := ∀ front, front <+: ns → InRange (total front)

theorem inRange_toInt (n : Int64) : InRange n.toInt :=
  Number.fitsInt64_iff.1 (Number.fitsInt64_toInt n)

theorem total_nil : total [] = 0 := rfl

theorem total_cons (n : Int64) (ns : List Int64) : total (n :: ns) = n.toInt + total ns :=
  List.sum_cons

theorem total_perm {ms ns : List Int64} (h : ms.Perm ns) : total ms = total ns :=
  (h.map Int64.toInt).sum_eq

/-! ## One sum after the other -/

theorem sumIntegers_of_stays {ns : List Int64} (sum : Int64)
    (h : ∀ front, front <+: ns → InRange (sum.toInt + total front)) :
    ∃ s, sumIntegers ns sum = .ok s ∧ s.toInt = sum.toInt + total ns := by
  induction ns generalizing sum with
  | nil => exact ⟨sum, rfl, (Int.add_zero _).symm⟩
  | cons n rest ih =>
      have hfirst : InRange (sum.toInt + n.toInt) := by
        have hone := h [n] (List.prefix_append [n] rest)
        rwa [total_cons, total_nil, Int.add_zero] at hone
      have hfits := Number.fitsInt64_iff.2 hfirst
      have hnext := Number.toInt_ofInt_of_fits hfits
      obtain ⟨s, hrest, hs⟩ := ih (Int64.ofInt (sum.toInt + n.toInt)) fun front hfront => by
        have hlonger := h (n :: front) (List.cons_prefix_cons.2 ⟨rfl, hfront⟩)
        rwa [total_cons, ← Int.add_assoc, ← hnext] at hlonger
      refine ⟨s, (if_pos hfits).trans hrest, ?_⟩
      rw [hs, hnext, total_cons, Int.add_assoc]

theorem sumIntegers_of_leaves {ns front : List Int64} (sum : Int64) (hfront : front <+: ns)
    (hout : ¬ InRange (sum.toInt + total front)) :
    sumIntegers ns sum = .error ⟨"integer overflow".toList⟩ := by
  induction ns generalizing front sum with
  | nil =>
      obtain rfl := List.prefix_nil.1 hfront
      rw [total_nil, Int.add_zero] at hout
      exact absurd (inRange_toInt sum) hout
  | cons n rest ih =>
      rcases List.prefix_cons_iff.1 hfront with rfl | ⟨later, rfl, hlater⟩
      · rw [total_nil, Int.add_zero] at hout
        exact absurd (inRange_toInt sum) hout
      · by_cases hfits : Number.fitsInt64 (sum.toInt + n.toInt) = true
        · -- the sum leaves the range later
          refine (if_pos hfits).trans (ih _ hlater ?_)
          rwa [Number.toInt_ofInt_of_fits hfits, Int.add_assoc, ← total_cons]
        · exact if_neg hfits

theorem integers?_map_int (ns : List Int64) : integers? (ns.map .int) = some ns := by
  induction ns with
  | nil => rfl
  | cons n rest ih => rw [List.map_cons, integers?, ih, Option.map_some]

/-- Integers alone have an integer sum. -/
theorem add_map_int (ns : List Int64) : add (ns.map .int) = Value.int <$> sumIntegers ns 0 := by
  rw [add, integers?_map_int]

/-- The integers are added, or the addition faults. -/
theorem add_of_stays {ns : List Int64} (h : Stays ns) :
    ∃ s, add (ns.map .int) = .ok (.int s) ∧ s.toInt = total ns := by
  obtain ⟨s, hsum, hs⟩ := sumIntegers_of_stays 0 fun front hfront => by
    rw [Int64.toInt_zero, Int.zero_add]
    exact h front hfront
  refine ⟨s, ?_, by rwa [Int64.toInt_zero, Int.zero_add] at hs⟩
  rw [add_map_int, hsum]
  rfl

theorem add_of_leaves {ns : List Int64} (h : ¬ Stays ns) :
    add (ns.map .int) = .error ⟨"integer overflow".toList⟩ := by
  obtain ⟨front, hout⟩ := not_forall.1 h
  obtain ⟨hfront, hout⟩ := Classical.not_imp.1 hout
  have hsum := sumIntegers_of_leaves 0 hfront (by rwa [Int64.toInt_zero, Int.zero_add])
  rw [add_map_int, hsum]
  rfl

/-! ## The command -/

/-- The command takes two or three arguments and answers what they add up to. -/
theorem invoke_add {w : World Body Arena} (hw : w.registry = registry) {args : List Value}
    (hlength : args.length = 2 ∨ args.length = 3) :
    host.invoke "add".toList args w =
      ((add args).mapError (.invocationFault "add".toList), w) := by
  have hresolve : ∃ params, registry.resolve "add".toList args.length =
      .found (Slot.whole.direct "add".toList "Add numbers; integers stay integers.".toList
        (some "Math".toList) params .add) := by
    rcases hlength with htwo | hthree
    · exact ⟨[.any, .any], htwo ▸ by decide⟩
    · exact ⟨[.any, .any, .any], hthree ▸ by decide⟩
  obtain ⟨params, hfound⟩ := hresolve
  have hrun : host.runCommand (Slot.whole.direct "add".toList
      "Add numbers; integers stay integers.".toList (some "Math".toList) params .add) args w =
        ((Outcome.ofExcept (add args)).toExcept, w) := rfl
  rw [Host.invoke, hw, hfound]
  dsimp only
  rw [hrun]
  cases add args <;> rfl

/-! ## The sums on the way -/

theorem stays_concat {ns : List Int64} {n : Int64} :
    Stays (ns ++ [n]) ↔ Stays ns ∧ InRange (total (ns ++ [n])) := by
  constructor
  · intro h
    exact ⟨fun front hfront => h front (hfront.trans (List.prefix_append ns [n])),
      h _ List.prefix_rfl⟩
  · rintro ⟨hstays, htotal⟩ front hfront
    rcases List.prefix_concat_iff.1 hfront with rfl | hfront
    · exact htotal
    · exact hstays front hfront

/-- A single integer is in the range. -/
theorem stays_singleton (a : Int64) : Stays [a] := by
  intro front hfront
  rcases List.prefix_cons_iff.1 hfront with rfl | ⟨later, rfl, hlater⟩
  · exact inRange_toInt 0
  · obtain rfl := List.prefix_nil.1 hlater
    rw [total_cons, total_nil, Int.add_zero]
    exact inRange_toInt a

/-- With two integers there is no sum on the way but the whole one. -/
theorem stays_pair (a b : Int64) : Stays [a, b] ↔ InRange (total [a, b]) :=
  (@stays_concat [a] b).trans (and_iff_right (stays_singleton a))

/-- With three integers there is that of the first two besides. -/
theorem stays_triple (a b c : Int64) :
    Stays [a, b, c] ↔ InRange (total [a, b]) ∧ InRange (total [a, b, c]) :=
  (@stays_concat [a, b] c).trans (and_congr_left' (stays_pair a b))

/-- Orders that differ in whether all sums stay in the range are those of three integers whose sum
is in the range. -/
theorem of_stays_of_perm {ms ns : List Int64} (hlength : ns.length = 2 ∨ ns.length = 3)
    (hperm : ms.Perm ns) (hstays : Stays ms) (hleaves : ¬ Stays ns) :
    ns.length = 3 ∧ InRange (total ns) := by
  have htotal : InRange (total ns) := total_perm hperm ▸ hstays ms List.prefix_rfl
  refine ⟨hlength.resolve_left fun htwo => hleaves ?_, htotal⟩
  obtain ⟨a, b, rfl⟩ := List.length_eq_two.1 htwo
  exact (stays_pair a b).2 htotal

/-! ## Calls of the command -/

/-- What is true of a call of `add` with two or three integers. -/
structure AddsFromLeft (w : World Body Arena) (ns : List Int64) : Prop where
  /-- The value is the sum, if this and all sums on the way are in the range. -/
  sum : Stays ns → ∃ s, host.invoke "add".toList (ns.map .int) w = (.ok (.int s), w) ∧
    s.toInt = total ns
  /-- Else the call faults. -/
  overflow : ¬ Stays ns → host.invoke "add".toList (ns.map .int) w =
    (.error (.invocationFault "add".toList ⟨"integer overflow".toList⟩), w)
  pair : ∀ a b, ns = [a, b] → (Stays ns ↔ InRange (total ns))
  triple : ∀ a b c, ns = [a, b, c] → (Stays ns ↔ InRange (total [a, b]) ∧ InRange (total ns))
  /-- Another order of the same integers leads to something else exactly if the sums stay in the
  range in one of the two orders only. -/
  perm : ∀ ms, ms.Perm ns →
    (host.invoke "add".toList (ms.map .int) w = host.invoke "add".toList (ns.map .int) w ↔
      (Stays ms ↔ Stays ns))
  /-- This can be so only if there are three integers and their sum is in the range. -/
  order : ∀ ms, ms.Perm ns → ¬ (Stays ms ↔ Stays ns) → ns.length = 3 ∧ InRange (total ns)

theorem invoke_of_stays {w : World Body Arena} (hw : w.registry = registry) {ns : List Int64}
    (hlength : ns.length = 2 ∨ ns.length = 3) (h : Stays ns) :
    ∃ s, host.invoke "add".toList (ns.map .int) w = (.ok (.int s), w) ∧ s.toInt = total ns := by
  obtain ⟨s, hadd, hs⟩ := add_of_stays h
  refine ⟨s, ?_, hs⟩
  rw [invoke_add hw (by rwa [List.length_map]), hadd]
  rfl

theorem invoke_of_leaves {w : World Body Arena} (hw : w.registry = registry) {ns : List Int64}
    (hlength : ns.length = 2 ∨ ns.length = 3) (h : ¬ Stays ns) :
    host.invoke "add".toList (ns.map .int) w =
      (.error (.invocationFault "add".toList ⟨"integer overflow".toList⟩), w) := by
  rw [invoke_add hw (by rwa [List.length_map]), add_of_leaves h]
  rfl

/-- In every state of the console `add` has the exact sum for a value, or faults because a sum on
the way is out of the range. -/
theorem addsFromLeft {calls : List Call} {w : World Body Arena} (hw : Played calls w)
    {ns : List Int64} (hlength : ns.length = 2 ∨ ns.length = 3) : AddsFromLeft w ns := by
  have hregistry := registry_of_played hw
  refine ⟨invoke_of_stays hregistry hlength, invoke_of_leaves hregistry hlength, ?_, ?_, ?_, ?_⟩
  · rintro a b rfl
    exact stays_pair a b
  · rintro a b c rfl
    exact stays_triple a b c
  · intro ms hperm
    have hlength' : ms.length = 2 ∨ ms.length = 3 := hperm.length_eq.symm ▸ hlength
    by_cases hms : Stays ms <;> by_cases hns : Stays ns
    · -- both have the same sum
      obtain ⟨s, hinvoke, hs⟩ := invoke_of_stays hregistry hlength hns
      obtain ⟨s', hinvoke', hs'⟩ := invoke_of_stays hregistry hlength' hms
      have hsame : s' = s := Int64.toInt_inj.1 (hs'.trans ((total_perm hperm).trans hs.symm))
      exact iff_of_true (by rw [hinvoke, hinvoke', hsame]) (iff_of_true hms hns)
    · obtain ⟨s', hinvoke', -⟩ := invoke_of_stays hregistry hlength' hms
      rw [hinvoke', invoke_of_leaves hregistry hlength hns]
      exact iff_of_false nofun fun h => hns (h.1 hms)
    · obtain ⟨s, hinvoke, -⟩ := invoke_of_stays hregistry hlength hns
      rw [hinvoke, invoke_of_leaves hregistry hlength' hms]
      exact iff_of_false nofun fun h => hms (h.2 hns)
    · rw [invoke_of_leaves hregistry hlength hns, invoke_of_leaves hregistry hlength' hms]
      exact iff_of_true rfl (iff_of_false hms hns)
  · intro ms hperm hdiffer
    by_cases hms : Stays ms
    · exact of_stays_of_perm hlength hperm hms fun hns => hdiffer (iff_of_true hms hns)
    · have hns : Stays ns := by
        by_contra hns
        exact hdiffer (iff_of_false hms hns)
      have hlength' : ms.length = 2 ∨ ms.length = 3 := hperm.length_eq.symm ▸ hlength
      obtain ⟨hthree, htotal⟩ := of_stays_of_perm hlength' hperm.symm hns hms
      exact ⟨hperm.length_eq ▸ hthree, total_perm hperm ▸ htotal⟩

/-- The greatest integer can have one taken away and added again, but not the other way round. -/
theorem addsFromLeft_greatest :
    AddsFromLeft (start {}).world [Int64.maxValue, -1, 1] ∧
      AddsFromLeft (start {}).world [Int64.maxValue, 1, -1] ∧
      Stays [Int64.maxValue, -1, 1] ∧ ¬ Stays [Int64.maxValue, 1, -1] := by
  refine ⟨addsFromLeft (.start {}) (.inr rfl), addsFromLeft (.start {}) (.inr rfl), ?_, ?_⟩
  · rw [stays_triple]
    decide
  · rw [stays_triple]
    decide

/-- A sum in the range is not always found, and the order of the arguments is not always without
effect. -/
theorem not_add_exact :
    (¬ ∀ (w : World Body Arena) (ns : List Int64), (∃ calls, Played calls w) →
      (ns.length = 2 ∨ ns.length = 3) → InRange (total ns) →
        ∃ s, host.invoke "add".toList (ns.map .int) w = (.ok (.int s), w) ∧
          s.toInt = total ns) ∧
      ¬ ∀ (w : World Body Arena) (ms ns : List Int64), (∃ calls, Played calls w) →
        (ns.length = 2 ∨ ns.length = 3) → ms.Perm ns →
          (host.invoke "add".toList (ms.map .int) w).1 =
            (host.invoke "add".toList (ns.map .int) w).1 := by
  have hstart : ∃ calls, Played calls (start {}).world := ⟨[], .start {}⟩
  have hregistry := registry_start {}
  have hleaves : ¬ Stays [Int64.maxValue, 1, -1] := by
    rw [stays_triple]
    decide
  have hfault := invoke_of_leaves hregistry (.inr rfl) hleaves
  constructor
  · intro hexact
    obtain ⟨s, hinvoke, -⟩ := hexact _ [Int64.maxValue, 1, -1] hstart (.inr rfl) (by decide)
    rw [hfault] at hinvoke
    cases hinvoke
  · intro hperm
    have hstays : Stays [Int64.maxValue, -1, 1] := by
      rw [stays_triple]
      decide
    obtain ⟨s, hinvoke, -⟩ := invoke_of_stays hregistry (.inr rfl) hstays
    have hsame := hperm _ [Int64.maxValue, -1, 1] [Int64.maxValue, 1, -1] hstart (.inr rfl)
      (.cons _ (.swap _ _ []))
    rw [hfault, hinvoke] at hsame
    cases hsame

end CommandConsole.Arena

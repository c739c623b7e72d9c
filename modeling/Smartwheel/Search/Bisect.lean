import Mathlib.Order.Defs.LinearOrder
import Mathlib.Data.Nat.Notation
import Mathlib.Data.List.Pairwise
import Mathlib.Order.Lattice

/-! Bisection of a sorted list. -/
namespace Search
variable {α : Type} [LinearOrder α]

/-- The loop: what is before `lo` is less than `x`, and what is from `hi` on is not. -/
def narrow (list : List α) (x : α) : Nat → Nat → Nat → Nat
  | 0, lo, _ => lo
  | fuel + 1, lo, hi =>
    if lo < hi then
      if list[(lo + hi) / 2]?.any (· < x) then narrow list x fuel ((lo + hi) / 2 + 1) hi
      else narrow list x fuel lo ((lo + hi) / 2)
    else lo

/-- The first position of a sorted list whose element is not less than `x`. -/
def bisectLeft (list : List α) (x : α) : Nat := narrow list x list.length 0 list.length

variable {list : List α} {x y : α}

structure Between (list : List α) (x : α) (lo hi : Nat) : Prop where
  order : lo ≤ hi
  inside : hi ≤ list.length
  below : ∀ i a, list[i]? = some a → i < lo → a < x
  above : ∀ i a, list[i]? = some a → hi ≤ i → x ≤ a

theorem sorted_le (sorted : list.Pairwise (· ≤ ·)) {i j : Nat} {a b : α} (first : list[i]? = some a) (second : list[j]? = some b)
    (order : i ≤ j) : a ≤ b := by
  rcases Nat.lt_or_eq_of_le order with before | rfl
  · obtain ⟨hi, rfl⟩ := List.getElem?_eq_some_iff.mp first
    obtain ⟨hj, rfl⟩ := List.getElem?_eq_some_iff.mp second
    exact List.pairwise_iff_getElem.mp sorted i j hi hj before
  · rw [first] at second
    exact le_of_eq (Option.some.inj second)

theorem narrow_between (sorted : list.Pairwise (· ≤ ·)) (fuel lo hi : Nat) (enough : hi - lo ≤ fuel) (h : Between list x lo hi) :
    Between list x (narrow list x fuel lo hi) (narrow list x fuel lo hi) := by
  induction fuel generalizing lo hi with
  | zero =>
    have same : hi = lo := Nat.le_antisymm (by omega) h.order
    subst same
    exact h
  | succ fuel ih =>
    unfold narrow
    split
    · next open_ =>
      have middle : (lo + hi) / 2 < hi := by omega
      have there : (lo + hi) / 2 < list.length := Nat.lt_of_lt_of_le middle h.inside
      have known : list[(lo + hi) / 2]? = some list[(lo + hi) / 2] := List.getElem?_eq_getElem there
      rw [known, Option.any_some]
      split
      · next less =>
        refine ih _ _ (by omega) ⟨by omega, h.inside, fun i a here before => ?_, h.above⟩
        exact lt_of_le_of_lt (sorted_le sorted here known (by omega)) (of_decide_eq_true less)
      · next more =>
        refine ih _ _ (by omega) ⟨by omega, by omega, h.below, fun i a here after => ?_⟩
        exact le_trans (not_lt.mp fun less => more (decide_eq_true less)) (sorted_le sorted known here after)
    · next closed =>
      have same : hi = lo := Nat.le_antisymm (by omega) h.order
      subst same
      exact h

theorem bisectLeft_between (sorted : list.Pairwise (· ≤ ·)) (x : α) :
    Between list x (bisectLeft list x) (bisectLeft list x) := by
  refine narrow_between sorted list.length 0 list.length (by omega) ⟨by omega, by omega, fun _ _ _ h => by omega, fun i a here after => ?_⟩
  obtain ⟨inside, -⟩ := List.getElem?_eq_some_iff.mp here
  omega

theorem lt_bisectLeft_iff (sorted : list.Pairwise (· ≤ ·)) {i : Nat} {a : α} (here : list[i]? = some a) :
    i < bisectLeft list x ↔ a < x := by
  have h := bisectLeft_between sorted x
  constructor
  · exact h.below i a here
  · intro less
    by_contra after
    exact absurd (h.above i a here (Nat.not_lt.mp after)) (not_le.mpr less)

theorem bisectLeft_mono (sorted : list.Pairwise (· ≤ ·)) (order : x ≤ y) : bisectLeft list x ≤ bisectLeft list y := by
  by_contra after
  have less := Nat.not_le.mp after
  have inside := (bisectLeft_between sorted x).inside
  have there : bisectLeft list y < list.length := by omega
  have here : list[bisectLeft list y]? = some list[bisectLeft list y] := List.getElem?_eq_getElem there
  have below := (lt_bisectLeft_iff sorted here).mp less
  exact Nat.lt_irrefl _ ((lt_bisectLeft_iff sorted here).mpr (lt_of_lt_of_le below order))

end Search

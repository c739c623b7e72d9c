import Mathlib.Data.List.Pairwise
import Mathlib.Order.Lattice
import Mathlib.Order.Max
import Mathlib.Order.Basic

/-! The points of an interval, and the steps of a list in order that cover them. -/
namespace Cover
variable {α : Type} [LinearOrder α]

def steps {β : Type} (list : List β) : List (β × β) := list.zip list.tail

theorem steps_cons_cons {β : Type} (a b : β) (rest : List β) : steps (a :: b :: rest) = (a, b) :: steps (b :: rest) := rfl

theorem steps_map {β γ : Type} (f : β → γ) (list : List β) : steps (list.map f) = (steps list).map (Prod.map f f) := by
  unfold steps
  rw [← List.map_tail, List.zip_map]

variable {list : List α} {first last t start stop : α} {p q : α × α}

theorem steps_sorted (sorted : list.Pairwise (· ≤ ·)) (h : p ∈ steps list) : p.1 ≤ p.2 := by
  induction list with
  | nil => cases h
  | cons a list ih =>
    cases list with
    | nil => cases h
    | cons b rest =>
      rw [steps_cons_cons, List.mem_cons] at h
      rcases h with rfl | h
      · exact (List.pairwise_cons.mp sorted).1 b List.mem_cons_self
      · exact ih (List.pairwise_cons.mp sorted).2 h

theorem head_le_steps (sorted : (first :: list).Pairwise (· ≤ ·)) (h : p ∈ steps (first :: list)) : first ≤ p.1 := by
  have inside : p.1 ∈ first :: list := (List.of_mem_zip h).1
  rcases List.mem_cons.mp inside with same | later
  · exact le_of_eq same.symm
  · exact (List.pairwise_cons.mp sorted).1 _ later

theorem exists_step (head : list.head? = some first) (final : list.getLast? = some last) (from_ : first ≤ t) (until_ : t < last) :
    ∃ p ∈ steps list, p.1 ≤ t ∧ t ≤ p.2 := by
  induction list generalizing first with
  | nil => cases head
  | cons a list ih =>
    cases head
    cases list with
    | nil =>
      cases final
      exact absurd until_ (not_lt.mpr from_)
    | cons b rest =>
      rw [steps_cons_cons]
      by_cases here : t ≤ b
      · exact ⟨(a, b), List.mem_cons_self, from_, here⟩
      · rw [List.getLast?_cons_cons] at final
        obtain ⟨p, inside, bounds⟩ := ih rfl final (le_of_not_ge here)
        exact ⟨p, List.mem_cons_of_mem _ inside, bounds⟩

theorem step_unique (sorted : list.Pairwise (· ≤ ·)) (hp : p ∈ steps list) (hq : q ∈ steps list) (left : p.1 < t) (right : t < p.2)
    (left' : q.1 ≤ t) (right' : t ≤ q.2) : p = q := by
  induction list with
  | nil => cases hp
  | cons a list ih =>
    cases list with
    | nil => cases hp
    | cons b rest =>
      obtain ⟨-, tail⟩ := List.pairwise_cons.mp sorted
      rw [steps_cons_cons, List.mem_cons] at hp hq
      rcases hp with rfl | hp
      · rcases hq with rfl | hq
        · rfl
        · exact absurd (lt_of_lt_of_le right (head_le_steps tail hq)) (not_lt.mpr left')
      · rcases hq with rfl | hq
        · exact absurd (lt_of_le_of_lt (head_le_steps tail hp) left) (not_lt.mpr right')
        · exact ih tail hp hq

theorem good_iff [DenselyOrdered α] {P : α × α → Prop} (flat : ∀ a, P (a, a)) (sorted : list.Pairwise (· ≤ ·))
    (head : list.head? = some first) (final : list.getLast? = some last) (from_ : first ≤ start) (until_ : stop ≤ last) (some_ : start < stop) :
    (∀ p ∈ steps list, p.1 < stop → start < p.2 → P p) ↔
      ∀ t, start < t → t < stop → ∃ p ∈ steps list, p.1 ≤ t ∧ t ≤ p.2 ∧ P p := by
  constructor
  · intro good t after before
    obtain ⟨p, inside, left, right⟩ := exists_step head final (le_trans from_ after.le) (lt_of_lt_of_le before until_)
    exact ⟨p, inside, left, right, good p inside (lt_of_le_of_lt left before) (lt_of_lt_of_le after right)⟩
  · intro covered p inside left right
    rcases eq_or_lt_of_le (steps_sorted sorted inside) with same | wide
    · obtain ⟨a, b⟩ := p
      cases same
      exact flat a
    · obtain ⟨t, low, high⟩ := exists_between (max_lt (lt_min wide left) (lt_min right some_))
      obtain ⟨q, inside', left', right', good⟩ := covered t (lt_of_le_of_lt (le_max_right ..) low) (lt_of_lt_of_le high (min_le_right ..))
      have same := step_unique sorted inside inside' (lt_of_le_of_lt (le_max_left ..) low) (lt_of_lt_of_le high (min_le_left ..)) left' right'
      rwa [same]

end Cover

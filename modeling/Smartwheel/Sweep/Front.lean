import Mathlib.Order.Bounds.Basic
import Mathlib.Logic.Relation

/-! Several increasing sequences of events are taken in groups: the least event that is left, and of every sequence its next
event where that is tied to it. Groups come in order where no event of a group is past the second one of a sequence. -/
namespace Smartwheel.Sweep
open Relation

variable {ι μ : Type} [LinearOrder μ]

structure Events (ι μ : Type) [LinearOrder μ] where
  event : ι → ℕ → μ
  live : ι → Prop
  tie : μ → μ → Prop
  stop : μ
  increasing : ∀ i, live i → StrictMono (event i)
  tie_self : ∀ m, tie m m
  tie_below : ∀ {m c d}, tie m c → d ≤ c → tie m d

namespace Events

variable (E : Events ι μ)

/-- The first event of a sequence from `m` on is its `n`th one. -/
def FirstFrom (m : μ) (i : ι) (n : ℕ) : Prop := m ≤ E.event i n ∧ ∀ l < n, E.event i l < m

/-- `m` is taken together with the `n`th event of a sequence. -/
def Takes (m : μ) (i : ι) (n : ℕ) : Prop := E.live i ∧ E.FirstFrom m i n ∧ E.tie m (E.event i n)

/-- What is taken with `m` is not past the end, and not past the second event of a sequence. -/
def Clean (m : μ) : Prop :=
  ∀ i n, E.Takes m i n → E.event i n ≤ E.stop ∧ ∀ j l, E.Takes m j l → E.event i n < E.event j (l + 1)

/-- The group of `m'` comes right after the one of `m`. -/
def Follows (m m' : μ) : Prop :=
  m ≤ E.stop ∧ IsLeast {x | ∃ i n, E.live i ∧ E.event i n = x ∧ ∀ j l, E.Takes m j l → E.event j l < x} m'

def Instant (m : μ) : Prop :=
  ∃ first, IsLeast {x | ∃ i n, E.live i ∧ E.event i n = x} first ∧ ReflTransGen E.Follows first m

def Clear : Prop := ∀ m, E.Instant m → m ≤ E.stop → E.Clean m

/-- `k` events of every sequence are taken, and they come before what is left. -/
def Front (k : ι → ℕ) : Prop := ∀ i j n, E.live i → E.live j → n < k i → E.event i n < E.event j (k j)

def Next (k : ι → ℕ) (m : μ) : Prop := IsLeast {x | ∃ i, E.live i ∧ E.event i (k i) = x} m

/-- `k'` is what is taken after the group of `m`. -/
def Advances (m : μ) (k k' : ι → ℕ) : Prop := ∀ i, E.live i → (E.tie m (E.event i (k i)) ∧ k' i = k i + 1) ∨
  (¬E.tie m (E.event i (k i)) ∧ k' i = k i)

variable {E} {k k' : ι → ℕ} {m : μ} {i j : ι} {n : ℕ}

theorem Front.lt_iff (front : E.Front k) (next : E.Next k m) (live : E.live i) : E.event i n < m ↔ n < k i := by
  obtain ⟨⟨j, liveJ, rfl⟩, least⟩ := next
  constructor
  · intro before
    by_contra late
    have later := (E.increasing i live).monotone (Nat.not_lt.mp late)
    exact absurd (lt_of_lt_of_le before (least ⟨i, live, rfl⟩)) (not_lt.mpr later)
  · exact front i j n live liveJ

theorem Front.firstFrom_iff (front : E.Front k) (next : E.Next k m) (live : E.live i) :
    E.FirstFrom m i n ↔ n = k i := by
  constructor
  · rintro ⟨from_, before⟩
    refine Nat.le_antisymm ?_ ?_
    · by_contra late
      have least := next.2 ⟨i, live, rfl⟩
      exact absurd (before (k i) (Nat.not_le.mp late)) (not_lt.mpr least)
    · by_contra early
      exact absurd ((front.lt_iff next live).mpr (Nat.not_le.mp early)) (not_lt.mpr from_)
  · rintro rfl
    exact ⟨next.2 ⟨i, live, rfl⟩, fun l before => (front.lt_iff next live).mpr before⟩

theorem Front.takes_iff (front : E.Front k) (next : E.Next k m) :
    E.Takes m i n ↔ E.live i ∧ n = k i ∧ E.tie m (E.event i (k i)) := by
  constructor
  · rintro ⟨live, first, tied⟩
    obtain rfl := (front.firstFrom_iff next live).mp first
    exact ⟨live, rfl, tied⟩
  · rintro ⟨live, rfl, tied⟩
    exact ⟨live, (front.firstFrom_iff next live).mpr rfl, tied⟩

theorem Front.advances_iff (front : E.Front k) (next : E.Next k m) (advances : E.Advances m k k') :
    E.Front k' ↔ ∀ i n, E.Takes m i n → ∀ j l, E.Takes m j l → E.event i n < E.event j (l + 1) := by
  constructor
  · intro front' i n takesI j l takesJ
    obtain ⟨liveI, rfl, tiedI⟩ := (front.takes_iff next).mp takesI
    obtain ⟨liveJ, rfl, tiedJ⟩ := (front.takes_iff next).mp takesJ
    rcases advances i liveI with ⟨-, stepI⟩ | ⟨free, -⟩
    · rcases advances j liveJ with ⟨-, stepJ⟩ | ⟨free, -⟩
      · have order := front' i j (k i) liveI liveJ (by omega)
        rwa [stepJ] at order
      · exact absurd tiedJ free
    · exact absurd tiedI free
  · intro clean i j n liveI liveJ before
    have atLeast : k j ≤ k' j := by
      rcases advances j liveJ with ⟨-, step⟩ | ⟨-, step⟩ <;> omega
    have pending : E.event j (k j) ≤ E.event j (k' j) := (E.increasing j liveJ).monotone atLeast
    by_cases old : n < k i
    · exact lt_of_lt_of_le (front i j n liveI liveJ old) pending
    -- the event is one of the group
    rcases advances i liveI with ⟨tiedI, stepI⟩ | ⟨-, stepI⟩
    · obtain rfl : n = k i := by omega
      have takesI := (front.takes_iff next).mpr ⟨liveI, rfl, tiedI⟩
      rcases advances j liveJ with ⟨tiedJ, stepJ⟩ | ⟨free, stepJ⟩
      · rw [stepJ]
        exact clean i (k i) takesI j (k j) ((front.takes_iff next).mpr ⟨liveJ, rfl, tiedJ⟩)
      · rw [stepJ]
        by_contra late
        exact free (E.tie_below tiedI (not_lt.mp late))
    · omega

theorem Front.follows_iff (front : E.Front k) (next : E.Next k m) (advances : E.Advances m k k') (front' : E.Front k')
    (before : m ≤ E.stop) {m' : μ} : E.Follows m m' ↔ E.Next k' m' := by
  have taken {i : ι} {n : ℕ} (live : E.live i) : (∀ j l, E.Takes m j l → E.event j l < E.event i n) ↔ k' i ≤ n := by
    constructor
    · intro past
      by_contra early
      by_cases old : n < k i
      · obtain ⟨j, liveJ, same⟩ := next.1
        have first : E.Takes m j (k j) := (front.takes_iff next).mpr ⟨liveJ, rfl, by rw [same]; exact E.tie_self m⟩
        exact absurd (past j (k j) first) (not_lt.mpr (le_of_lt (front i j n live liveJ old)))
      · rcases advances i live with ⟨tied, step⟩ | ⟨-, step⟩
        · obtain rfl : n = k i := by omega
          exact lt_irrefl _ (past i (k i) ((front.takes_iff next).mpr ⟨live, rfl, tied⟩))
        · omega
    · intro late j l takes
      obtain ⟨liveJ, rfl, tied⟩ := (front.takes_iff next).mp takes
      rcases advances j liveJ with ⟨-, step⟩ | ⟨free, -⟩
      · exact lt_of_lt_of_le (front' j i (k j) liveJ live (by omega)) ((E.increasing i live).monotone late)
      · exact absurd tied free
  have least {x : μ} : (∃ i n, E.live i ∧ E.event i n = x ∧ ∀ j l, E.Takes m j l → E.event j l < x) ↔
      ∃ i n, E.live i ∧ E.event i n = x ∧ k' i ≤ n := by
    constructor <;> rintro ⟨i, n, live, rfl, past⟩
    · exact ⟨i, n, live, rfl, (taken live).mp past⟩
    · exact ⟨i, n, live, rfl, (taken live).mpr past⟩
  constructor
  · rintro ⟨-, atMost, lower⟩
    obtain ⟨i, n, live, rfl, past⟩ := least.mp atMost
    have same : E.event i (k' i) = E.event i n :=
      le_antisymm ((E.increasing i live).monotone past) (lower (least.mpr ⟨i, k' i, live, rfl, le_rfl⟩))
    refine ⟨⟨i, live, same⟩, ?_⟩
    rintro x ⟨j, liveJ, rfl⟩
    exact lower (least.mpr ⟨j, k' j, liveJ, rfl, le_rfl⟩)
  · rintro ⟨⟨i, live, rfl⟩, lower⟩
    refine ⟨before, least.mpr ⟨i, k' i, live, rfl, le_rfl⟩, ?_⟩
    rintro x mem
    obtain ⟨j, n, liveJ, rfl, past⟩ := least.mp mem
    exact (lower ⟨j, liveJ, rfl⟩).trans ((E.increasing j liveJ).monotone past)

/-- Every group from `m` on is clean. -/
def ClearFrom (E : Events ι μ) (m : μ) : Prop := ∀ m', ReflTransGen E.Follows m m' → m' ≤ E.stop → E.Clean m'

theorem clear_iff (next : E.Next (fun _ => 0) m) : E.Clear ↔ E.ClearFrom m := by
  have least : IsLeast {x | ∃ i n, E.live i ∧ E.event i n = x} m := by
    obtain ⟨⟨i, live, same⟩, lower⟩ := next
    refine ⟨⟨i, 0, live, same⟩, ?_⟩
    rintro x ⟨j, n, liveJ, rfl⟩
    exact (lower ⟨j, liveJ, rfl⟩).trans ((E.increasing j liveJ).monotone (Nat.zero_le n))
  constructor
  · intro clear m' path
    exact clear m' ⟨m, least, path⟩
  · rintro clear m' ⟨first, least', path⟩
    obtain rfl := least.unique least'
    exact clear m' path

theorem clearFrom_past (past : E.stop < m) : E.ClearFrom m := fun m' path before => by
  rcases path.cases_head with rfl | ⟨m₁, ⟨early, -⟩, -⟩
  · exact absurd before (not_le.mpr past)
  · exact absurd early (not_le.mpr past)

theorem clearFrom_iff (before : m ≤ E.stop) :
    E.ClearFrom m ↔ E.Clean m ∧ ∀ m', E.Follows m m' → E.ClearFrom m' := by
  constructor
  · intro clear
    exact ⟨clear m .refl before, fun m' follows m'' path => clear m'' (.head follows path)⟩
  · rintro ⟨clean, rest⟩ m' path before'
    rcases path.cases_head with rfl | ⟨m₁, follows, path'⟩
    · exact clean
    · exact rest m₁ follows m' path' before'

end Events

end Smartwheel.Sweep

import Mathlib.Algebra.Order.Field.Basic
import Mathlib.Data.Finset.Max
import Mathlib.Data.Prod.Lex
import Mathlib.Tactic.Linarith
import Mathlib.Tactic.FieldSimp
import Mathlib.Tactic.Ring
import Smartwheel.Maps.Rays
import Smartwheel.Sweep.Front

/-! The crossings of a ray with the faces of the voxels, and the voxels that it meets. -/
namespace Smartwheel.Maps
open Sweep

structure Ray where
  origin : Vec
  endpoint : Vec
  resolution : ℚ
  positive : 0 < resolution

namespace Ray
variable (ρ : Ray) (a : Axis)

def d : ℚ := ρ.endpoint a - ρ.origin a

def moving : Prop := sign (ρ.d a) ≠ 0

def point (t : ℚ) : Vec := fun a => ρ.origin a + t * ρ.d a

def Meets (cell : Voxel) : Prop := ∃ t, 0 ≤ t ∧ t ≤ 1 ∧ voxel ρ.resolution (ρ.point t) = cell

/-- The face of the `n`th crossing. -/
def face (n : ℕ) : ℚ :=
  (voxel ρ.resolution ρ.origin a + (if 0 < sign (ρ.d a) then 1 else 0) + sign (ρ.d a) * n : ℤ) * ρ.resolution

def crossingTime (n : ℕ) : ℚ := (ρ.face a n - ρ.origin a) / ρ.d a

def crossing (n : ℕ) : ℚ ×ₗ Bool := toLex (ρ.crossingTime a n, decide (ρ.d a < 0))

def moment (t : ℚ) : ℚ ×ₗ Bool := toLex (t, false)

variable {ρ a} {n : ℕ} {t : ℚ}

theorem sign_cases (moves : ρ.moving a) : (0 < ρ.d a ∧ sign (ρ.d a) = 1) ∨ (ρ.d a < 0 ∧ sign (ρ.d a) = -1) := by
  unfold moving sign at *
  split at moves
  · rename_i up
    exact .inl ⟨up, if_pos up⟩
  · split at moves
    · rename_i not_ down
      exact .inr ⟨down, by rw [if_neg not_, if_pos down]⟩
    · exact absurd rfl moves

theorem voxel_point : voxel ρ.resolution (ρ.point t) a = ⌊(ρ.origin a + t * ρ.d a) / ρ.resolution⌋ := rfl

theorem crossed_iff (moves : ρ.moving a) :
    ρ.crossing a n ≤ moment t ↔ (n : ℤ) < sign (ρ.d a) * (voxel ρ.resolution (ρ.point t) a - voxel ρ.resolution ρ.origin a) := by
  have r := ρ.positive
  unfold crossing moment crossingTime face
  rw [Prod.Lex.toLex_le_toLex, voxel_point]
  set v := voxel ρ.resolution ρ.origin a
  set w := ⌊(ρ.origin a + t * ρ.d a) / ρ.resolution⌋ with floor
  rcases sign_cases moves with ⟨up, sign_⟩ | ⟨down, sign_⟩
  · have passed : ((v + 1 + 1 * n : ℤ) * ρ.resolution - ρ.origin a) / ρ.d a ≤ t ↔ v + 1 + 1 * n ≤ w := by
      rw [div_le_iff₀ up, sub_le_iff_le_add', ← le_div_iff₀ r, floor, Int.le_floor]
    rw [sign_, if_pos (by decide), decide_eq_false (not_lt.mpr up.le)]
    have lex : ∀ x : ℚ, (x < t ∨ x = t ∧ false ≤ false) ↔ x ≤ t := fun x =>
      (or_congr_right (and_iff_left le_rfl)).trans le_iff_lt_or_eq.symm
    rw [lex, passed]
    omega
  · have passed : ((v + 0 + -1 * n : ℤ) * ρ.resolution - ρ.origin a) / ρ.d a < t ↔ w < v + 0 + -1 * n := by
      rw [div_lt_iff_of_neg down, lt_sub_iff_add_lt', ← div_lt_iff₀ r, floor, Int.floor_lt]
    rw [sign_, if_neg (by decide), decide_eq_true down]
    have lex : ∀ x : ℚ, (x < t ∨ x = t ∧ true ≤ false) ↔ x < t := fun x => by simp
    rw [lex, passed]
    omega

theorem forward (moves : ρ.moving a) (after : 0 ≤ t) :
    0 ≤ sign (ρ.d a) * (voxel ρ.resolution (ρ.point t) a - voxel ρ.resolution ρ.origin a) := by
  have r := ρ.positive
  rw [voxel_point]
  unfold voxel
  rcases sign_cases moves with ⟨up, sign_⟩ | ⟨down, sign_⟩
  · have grows : ρ.origin a / ρ.resolution ≤ (ρ.origin a + t * ρ.d a) / ρ.resolution :=
      div_le_div_of_nonneg_right (by nlinarith) r.le
    have order := Int.floor_le_floor grows
    rw [sign_]
    omega
  · have shrinks : (ρ.origin a + t * ρ.d a) / ρ.resolution ≤ ρ.origin a / ρ.resolution :=
      div_le_div_of_nonneg_right (by nlinarith) r.le
    have order := Int.floor_le_floor shrinks
    rw [sign_]
    omega

theorem crossingTime_succ (moves : ρ.moving a) :
    ρ.crossingTime a (n + 1) = ρ.crossingTime a n + ρ.resolution / |ρ.d a| := by
  unfold crossingTime face
  rcases sign_cases moves with ⟨up, sign_⟩ | ⟨down, sign_⟩
  · rw [sign_, abs_of_pos up]
    push_cast
    field_simp
    ring
  · rw [sign_, abs_of_neg down]
    have nonzero := down.ne
    push_cast
    field_simp
    ring

theorem crossing_strictMono (moves : ρ.moving a) : StrictMono (ρ.crossing a) := by
  refine strictMono_nat_of_lt_succ fun n => ?_
  have nonzero : ρ.d a ≠ 0 := by
    rcases sign_cases moves with ⟨up, -⟩ | ⟨down, -⟩
    · exact up.ne'
    · exact down.ne
  have gap : 0 < ρ.resolution / |ρ.d a| := div_pos ρ.positive (abs_pos.mpr nonzero)
  have later : ρ.crossingTime a n < ρ.crossingTime a (n + 1) := by
    rw [crossingTime_succ moves]
    linarith
  exact Prod.Lex.toLex_lt_toLex.mpr (.inl later)

variable (ρ) in
def events : Events Axis (ℚ ×ₗ Bool) where
  event := ρ.crossing
  live := ρ.moving
  tie m c := (ofLex c).1 ≤ (ofLex m).1 + tolerance
  stop := moment 1
  increasing _ moves := crossing_strictMono moves
  tie_self m := by
    unfold tolerance
    linarith
  tie_below {m c d} tied below := by
    have order : (ofLex d).1 ≤ (ofLex c).1 := by
      rcases Prod.Lex.toLex_le_toLex.mp below with before | ⟨same, -⟩
      · exact before.le
      · exact same.le
    exact order.trans tied

variable (ρ) in
def cellAt (k : Axis → ℕ) : Voxel := fun a => voxel ρ.resolution ρ.origin a + sign (ρ.d a) * k a

variable (ρ a) in
def count : ℕ := (voxel ρ.resolution ρ.endpoint a - voxel ρ.resolution ρ.origin a).natAbs

theorem point_zero : ρ.point 0 = ρ.origin := by
  funext a
  simp [point]

theorem point_one : ρ.point 1 = ρ.endpoint := by
  funext a
  simp [point, d]

theorem crossing_pos (moves : ρ.moving a) : moment 0 < ρ.crossing a n := by
  refine not_le.mp fun passed => ?_
  have crossed := (crossed_iff moves).mp passed
  rw [point_zero, sub_self, mul_zero] at crossed
  omega

theorem voxel_iff (moves : ρ.moving a) (after : 0 ≤ t) {k : ℕ} :
    voxel ρ.resolution (ρ.point t) a = voxel ρ.resolution ρ.origin a + sign (ρ.d a) * k ↔
      ∀ n, ρ.crossing a n ≤ moment t ↔ n < k := by
  have grows := forward moves after
  have unit : sign (ρ.d a) = 1 ∨ sign (ρ.d a) = -1 := (sign_cases moves).imp And.right And.right
  have exact_ : (∀ n, ρ.crossing a n ≤ moment t ↔ n < k) ↔
      sign (ρ.d a) * (voxel ρ.resolution (ρ.point t) a - voxel ρ.resolution ρ.origin a) = k := by
    constructor
    · intro passes
      have first := (passes k).not.mpr (lt_irrefl k)
      rw [crossed_iff moves] at first
      by_contra other
      obtain ⟨l, size⟩ := Int.eq_ofNat_of_zero_le grows
      have last := (passes l).mpr (by omega)
      rw [crossed_iff moves] at last
      omega
    · intro same n
      rw [crossed_iff moves, same]
      exact Int.ofNat_lt
  rw [exact_]
  rcases unit with unit | unit <;> rw [unit] <;> omega

theorem needed_iff (moves : ρ.moving a) : ρ.crossing a n ≤ moment 1 ↔ n < ρ.count a := by
  have grows := forward moves (t := 1) zero_le_one
  have unit : sign (ρ.d a) = 1 ∨ sign (ρ.d a) = -1 := (sign_cases moves).imp And.right And.right
  rw [crossed_iff moves, point_one] at *
  unfold count
  rcases unit with unit | unit <;> rw [unit] at grows ⊢ <;> omega

theorem resting (rests : ¬ρ.moving a) : ρ.d a = 0 ∧ sign (ρ.d a) = 0 := by
  have zero : sign (ρ.d a) = 0 := not_not.mp rests
  refine ⟨?_, zero⟩
  unfold sign at zero
  split at zero
  · cases zero
  · split at zero
    · cases zero
    · linarith

theorem cellAt_count : ρ.cellAt ρ.count = voxel ρ.resolution ρ.endpoint := by
  funext a
  unfold cellAt
  by_cases moves : ρ.moving a
  · have exact_ := (voxel_iff moves (t := 1) zero_le_one (k := ρ.count a)).mpr fun n => needed_iff moves
    rw [point_one] at exact_
    exact exact_.symm
  · obtain ⟨zero, still⟩ := resting moves
    have same : ρ.endpoint a = ρ.origin a := sub_eq_zero.mp zero
    unfold voxel
    rw [still, same]
    omega

theorem exists_time {x : ℚ} {ahead : Axis → ℚ} (later : ∀ a, x < ahead a) : ∃ t, x < t ∧ ∀ a, t < ahead a := by
  obtain ⟨t, after, before⟩ := exists_between (lt_min (lt_min (later .x) (later .y)) (later .z))
  obtain ⟨beforeXy, beforeZ⟩ := lt_min_iff.mp before
  obtain ⟨beforeX, beforeY⟩ := lt_min_iff.mp beforeXy
  refine ⟨t, after, ?_⟩
  rintro (_ | _ | _)
  · exact beforeX
  · exact beforeY
  · exact beforeZ

section meets
variable {k : Axis → ℕ}

theorem voxel_point_iff (after : 0 ≤ t) :
    voxel ρ.resolution (ρ.point t) = ρ.cellAt k ↔ ∀ a, ρ.moving a → ∀ n, ρ.crossing a n ≤ moment t ↔ n < k a := by
  constructor
  · intro same a moves
    exact (voxel_iff moves after).mp (congrFun same a)
  · intro passes
    funext a
    by_cases moves : ρ.moving a
    · exact (voxel_iff moves after).mpr (passes a moves)
    · obtain ⟨zero, still⟩ := resting moves
      rw [voxel_point, zero]
      unfold cellAt voxel
      rw [still, mul_zero, add_zero, zero_mul, add_zero]

theorem front_of_meets (meets : ρ.Meets (ρ.cellAt k)) : ρ.events.Front k := by
  obtain ⟨t, after, -, same⟩ := meets
  have passes := (voxel_point_iff after).mp same
  intro i j n movesI movesJ taken
  have passed := (passes i movesI n).mpr taken
  have left := (passes j movesJ (k j)).not.mpr (lt_irrefl _)
  exact lt_of_le_of_lt passed (not_le.mp left)

theorem moment_le {s t : ℚ} : moment s ≤ moment t ↔ s ≤ t := by
  unfold moment
  rw [Prod.Lex.toLex_le_toLex]
  exact (or_congr_right (and_iff_left (le_refl false))).trans le_iff_lt_or_eq.symm

theorem meets_of_front (front : ρ.events.Front k) (within : ∀ a, ρ.moving a → k a ≤ ρ.count a) : ρ.Meets (ρ.cellAt k) := by
  suffices ∃ t, 0 ≤ t ∧ t ≤ 1 ∧ ∀ a, ρ.moving a → (∀ n < k a, ρ.crossing a n ≤ moment t) ∧ moment t < ρ.crossing a (k a) by
    obtain ⟨t, after, before, between⟩ := this
    refine ⟨t, after, before, (voxel_point_iff after).mpr fun a moves n => ⟨fun passed => ?_, (between a moves).1 n⟩⟩
    have ahead := lt_of_le_of_lt passed (between a moves).2
    exact (crossing_strictMono moves).lt_iff_lt.mp ahead
  classical
  let taken := Finset.univ.filter fun a => ρ.moving a ∧ 0 < k a
  rcases taken.eq_empty_or_nonempty with none_ | some_
  · refine ⟨0, le_rfl, zero_le_one, fun a moves => ⟨fun n before => ?_, crossing_pos moves⟩⟩
    have mem : a ∈ taken := by simp [taken, moves, Nat.lt_of_le_of_lt (Nat.zero_le n) before]
    rw [none_] at mem
    cases mem
  obtain ⟨i, mem, most⟩ := taken.exists_max_image (fun a => ρ.crossing a (k a - 1)) some_
  obtain ⟨movesI, someI⟩ : ρ.moving i ∧ 0 < k i := by simpa [taken] using mem
  have passed : ∀ a, ρ.moving a → ∀ n < k a, ρ.crossing a n ≤ ρ.crossing i (k i - 1) := fun a moves n before => by
    have memA : a ∈ taken := by simp [taken, moves, Nat.lt_of_le_of_lt (Nat.zero_le n) before]
    exact ((crossing_strictMono moves).monotone (by omega)).trans (most a memA)
  have ahead : ∀ a, ρ.moving a → ρ.crossing i (k i - 1) < ρ.crossing a (k a) := fun a moves =>
    front i a (k i - 1) movesI moves (by omega)
  have start : moment 0 < ρ.crossing i (k i - 1) := crossing_pos movesI
  have finish : ρ.crossing i (k i - 1) ≤ moment 1 := (needed_iff movesI).mpr (by have bound := within i movesI; omega)
  generalize ρ.crossing i (k i - 1) = last at passed ahead start finish
  obtain ⟨x, down⟩ := last
  cases down with
  | false =>
    change moment 0 < moment x at start
    change moment x ≤ moment 1 at finish
    exact ⟨x, moment_le.mp start.le, moment_le.mp finish, fun a moves => ⟨passed a moves, ahead a moves⟩⟩
  | true =>
    change toLex (0, false) < toLex (x, true) at start
    change toLex (x, true) ≤ toLex (1, false) at finish
    have nonneg : 0 ≤ x := by
      rcases Prod.Lex.toLex_lt_toLex.mp start with after | ⟨same, -⟩
      · exact after.le
      · exact same.le
    have early : x < 1 := by
      rcases Prod.Lex.toLex_le_toLex.mp finish with before | ⟨-, wrong⟩
      · exact before
      · cases wrong rfl
    have later : ∀ a, ρ.moving a → x < ρ.crossingTime a (k a) := fun a moves => by
      rcases Prod.Lex.toLex_lt_toLex.mp (ahead a moves) with after | ⟨-, wrong⟩
      · exact after
      · exact absurd wrong (not_lt.mpr (Bool.le_true _))
    let bound : Axis → ℚ := fun a => if ρ.moving a then min 1 (ρ.crossingTime a (k a)) else 1
    have room : ∀ a, x < bound a := fun a => by
      dsimp only [bound]
      split
      · exact lt_min early (later a ‹_›)
      · exact early
    obtain ⟨t, after, before⟩ := exists_time room
    have inside : ∀ a, ρ.moving a → t < 1 ∧ t < ρ.crossingTime a (k a) := fun a moves => by
      have below := before a
      dsimp only [bound] at below
      rw [if_pos moves] at below
      exact lt_min_iff.mp below
    have lower : toLex (x, true) ≤ moment t := Prod.Lex.toLex_le_toLex.mpr (.inl after)
    refine ⟨t, nonneg.trans after.le, (inside i movesI).1.le, fun a moves => ⟨fun n before => ?_, ?_⟩⟩
    · exact (passed a moves n before).trans lower
    · exact Prod.Lex.toLex_lt_toLex.mpr (.inl (inside a moves).2)

end meets

end Ray
end Smartwheel.Maps

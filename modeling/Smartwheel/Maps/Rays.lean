import Mathlib.Algebra.Order.AddGroupWithTop
import Mathlib.Algebra.Order.Floor.Semiring
import Mathlib.Data.Fintype.Pi
import Mathlib.Data.Rat.Floor

/-! `_ray_cells` in exact arithmetic: the voxels between an origin and an endpoint. -/
namespace Smartwheel.Maps

inductive Axis where
  | x | y | z
deriving DecidableEq, Repr

instance : Fintype Axis := ⟨{.x, .y, .z}, by rintro (_ | _ | _) <;> decide⟩

/-- A point of the map. -/
abbrev Vec := Axis → ℚ

/-- The index of a voxel. -/
abbrev Voxel := Axis → ℤ

/-- `math.floor` of every coordinate. -/
def voxel (resolution : ℚ) (p : Vec) : Voxel := fun a => ⌊p a / resolution⌋

def sign (d : ℚ) : ℤ := if 0 < d then 1 else if d < 0 then -1 else 0

def tolerance : ℚ := 1 / 10 ^ 12

/-- `t == next_time or abs(t - next_time) <= 1e-12`; the infinite time of a resting axis is near to no finite one. -/
def tied (t next : WithTop ℚ) : Prop := t = next ∨ (t ≤ next + tolerance ∧ next ≤ t + tolerance)

instance (t next : WithTop ℚ) : Decidable (tied t next) := inferInstanceAs (Decidable (_ ∨ _))

/-- `min(tx, ty, tz)`. -/
def nextTime (t : Axis → WithTop ℚ) : WithTop ℚ := min (min (t .x) (t .y)) (t .z)

/-- The loop of `_ray_cells`, with the rounds that are left. -/
def traverse (finish : Voxel) (step : Axis → ℤ) (delta : Axis → WithTop ℚ) :
    ℕ → Voxel → (Axis → WithTop ℚ) → List Voxel → Except String (List Voxel)
  | 0, _, _, _ => .error "ray traversal did not reach its endpoint"
  | rounds + 1, cell, t, cells =>
    if cell = finish then .ok cells
    else
      let next := nextTime t
      let cell' := fun a => if tied (t a) next then cell a + step a else cell a
      let t' := fun a => if tied (t a) next then t a + delta a else t a
      traverse finish step delta rounds cell' t' (if cell' = finish then cells else cells ++ [cell'])

/-- `count_bound`. -/
def countBound (cell finish : Voxel) : ℕ :=
  (finish .x - cell .x).natAbs + (finish .y - cell .y).natAbs + (finish .z - cell .z).natAbs + 1

/-- `_ray_cells`. No time is `nan` in exact arithmetic. -/
def rayCells (origin endpoint : Vec) (resolution : ℚ) (maxCells : ℕ) : Except String (List Voxel) :=
  let cell := voxel resolution origin
  let finish := voxel resolution endpoint
  if maxCells < countBound cell finish then .error "ray exceeds max_ray_cells resource bound"
  else
    let d := fun a => endpoint a - origin a
    let step := fun a => sign (d a)
    let t : Axis → WithTop ℚ := fun a =>
      if step a = 0 then ⊤ else ↑(((cell a + if 0 < step a then 1 else 0 : ℤ) * resolution - origin a) / d a)
    let delta : Axis → WithTop ℚ := fun a => if step a = 0 then ⊤ else ↑(resolution / |d a|)
    traverse finish step delta (countBound cell finish) cell t []

def vec (x y z : ℚ) : Vec
  | .x => x
  | .y => y
  | .z => z

end Smartwheel.Maps

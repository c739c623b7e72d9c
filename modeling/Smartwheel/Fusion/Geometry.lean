import Mathlib.LinearAlgebra.Matrix.Adjugate
import Smartwheel.Effect.Check
import Smartwheel.Instances

/-! The numerical part of `wc_fusion.core` in exact arithmetic: validated homogeneous transforms and the
transformation of points. A coordinate of a raw return may be no finite number. -/
namespace Smartwheel.Fusion
open Effect

/-- A `FusionError` with its code, or any other exception. -/
inductive Failure where
  | fusion (code : String)
  | other (text : String)
deriving DecidableEq, Repr

def reject {α : Type} (code : String) : Except Failure α := .error (.fusion code)

/-- Nothing where `c` is false. -/
def rejectIf (c : Prop) [Decidable c] (code : String) : Except Failure Unit :=
  if c then reject code else .ok ()

/-- The value of `o`, or the rejection where there is none. -/
def needs {α : Type} (o : Option α) (code : String) : Except Failure α :=
  match o with
  | some a => .ok a
  | none => reject code

theorem needs_error {α : Type} {o : Option α} {code : String} {e : Failure} (h : needs o code = .error e) :
    e = .fusion code := by
  cases o with
  | some a => cases h
  | none => exact (Except.error.inj h).symm

theorem rejectIf_ok {c : Prop} [Decidable c] {code : String} {u : Unit} (h : rejectIf c code = .ok u) : ¬c := by
  intro hc
  rw [rejectIf, if_pos hc] at h
  cases h

theorem rejectIf_error {c : Prop} [Decidable c] {code : String} {e : Failure}
    (h : rejectIf c code = .error e) : e = .fusion code := by
  unfold rejectIf at h
  split at h
  · exact (Except.error.inj h).symm
  · cases h

abbrev Transform := Matrix (Fin 4) (Fin 4) ℚ

def rotation (t : Transform) : Matrix (Fin 3) (Fin 3) ℚ := t.submatrix Fin.castSucc Fin.castSucc

/-- `np.isclose` with its default relative tolerance. -/
def isclose (a b atol : ℚ) : Bool := |a - b| ≤ atol + 1/100000 * |b|

/-- `np.allclose` on two arrays of one shape. -/
def allclose {m n : Nat} (a b : Matrix (Fin m) (Fin n) ℚ) (atol : ℚ) : Bool :=
  (List.finRange m).all fun i => (List.finRange n).all fun j => isclose (a i j) (b i j) atol

/-- `matrix`: a value that is no 4×4 array of finite numbers is `none`. -/
def matrix (value : Option Transform) : Except Failure Transform := do
  let t ← needs value "INVALID_TRANSFORM"
  rejectIf (!allclose (t.submatrix (fun _ : Fin 1 => 3) id) !![0, 0, 0, 1] (1/10^9))
    "INVALID_HOMOGENEOUS_ROW"
  rejectIf (!allclose ((rotation t).transpose * rotation t) 1 (1/10^7)) "ROTATION_NOT_ORTHONORMAL"
  rejectIf (!isclose (rotation t).det 1 (1/10^7)) "ROTATION_REFLECTION"
  return t

structure Point where
  x : ℚ
  y : ℚ
  z : ℚ
deriving DecidableEq, Repr

structure Return where
  x : Option ℚ
  y : Option ℚ
  z : Option ℚ
deriving DecidableEq, Repr

def Return.point (r : Return) : Option Point := do
  let x ← r.x
  let y ← r.y
  let z ← r.z
  return ⟨x, y, z⟩

def Point.squared (p : Point) : ℚ := p.x^2 + p.y^2 + p.z^2

def Point.move (t : Transform) (p : Point) : Point :=
  let row (i : Fin 4) : ℚ := t i 0 * p.x + t i 1 * p.y + t i 2 * p.z + t i 3
  ⟨row 0, row 1, row 2⟩

/-- `transform`. -/
def transform (t : Transform) (points : List Point) : Except Failure (List Point) := do
  let t ← matrix (some t)
  return points.map (Point.move t)

/-- The inverse, as `np.linalg.inv` has it. -/
def inverse (t : Transform) : Transform := t.det⁻¹ • t.adjugate

/-- `matrix` returns its argument, or a code. -/
theorem matrix_error {value : Option Transform} {e : Failure} (h : matrix value = .error e) :
    ∃ code, e = .fusion code := by
  unfold matrix at h
  rcases bind_eq_error h with h | ⟨t, -, h⟩
  · exact ⟨_, needs_error h⟩
  rcases bind_eq_error h with h | ⟨-, -, h⟩
  · exact ⟨_, rejectIf_error h⟩
  rcases bind_eq_error h with h | ⟨-, -, h⟩
  · exact ⟨_, rejectIf_error h⟩
  rcases bind_eq_error h with h | ⟨-, -, h⟩
  · exact ⟨_, rejectIf_error h⟩
  cases h

theorem transform_error {t : Transform} {points : List Point} {e : Failure}
    (h : transform t points = .error e) : ∃ code, e = .fusion code := by
  rcases bind_eq_error h with h | ⟨t', -, returned⟩
  · exact matrix_error h
  · cases returned

theorem transform_length {t : Transform} {points moved : List Point} (h : transform t points = .ok moved) :
    moved.length = points.length := by
  obtain ⟨t', -, h⟩ := bind_eq_ok h
  obtain rfl : points.map (Point.move t') = moved := Except.ok.inj h
  exact List.length_map _

end Smartwheel.Fusion

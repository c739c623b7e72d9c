import Mathlib.Analysis.Matrix.Order

/-! What exact factors, singular values and least squares say of lists of rows. -/
namespace Polar
open Matrix
open scoped MatrixOrder

variable {ι : Type} {rows : List (ι → ℝ)}

def gram (rows cols : List (ι → ℝ)) : Matrix ι ι ℝ := (List.zipWith vecMulVec rows cols).sum

theorem gram_transpose : (gram rows rows)ᵀ = gram rows rows := by
  induction rows with
  | nil => simp [gram]
  | cons row rows ih =>
    simp only [gram, List.zipWith_cons_cons, List.sum_cons] at ih ⊢
    rw [transpose_add, ih, transpose_vecMulVec]

variable [Fintype ι] {r s u vt : Matrix ι ι ℝ} {x : ι → ℝ} {c : ℝ}

def spread (rows : List (ι → ℝ)) (x : ι → ℝ) : ℝ := (rows.map fun row => (row ⬝ᵥ x) ^ 2).sum

theorem gram_turned : gram rows (rows.map (r *ᵥ ·)) = gram rows rows * rᵀ := by
  induction rows with
  | nil => simp [gram]
  | cons row rows ih =>
    simp only [gram, List.map_cons, List.zipWith_cons_cons, List.sum_cons] at ih ⊢
    rw [ih, Matrix.add_mul, vecMulVec_mul, vecMul_transpose]

theorem gram_spread : x ⬝ᵥ gram rows rows *ᵥ x = spread rows x := by
  induction rows with
  | nil => simp [gram, spread]
  | cons row rows ih =>
    simp only [gram, spread, List.zipWith_cons_cons, List.sum_cons, List.map_cons] at ih ⊢
    rw [add_mulVec, dotProduct_add, ih, vecMulVec_mulVec]
    simp [dotProduct_comm x row, sq]

def Conditioned (c : ℝ) (rows : List (ι → ℝ)) : Prop :=
  ∃ least : ℝ, 0 < least ∧ ∀ x, least ^ 2 * (x ⬝ᵥ x) ≤ spread rows x ∧ spread rows x ≤ (c * least) ^ 2 * (x ⬝ᵥ x)

theorem Conditioned.definite (h : Conditioned c rows) : (gram rows rows).PosDef := by
  obtain ⟨least, positive, within⟩ := h
  refine .of_dotProduct_mulVec_pos (by simpa [IsHermitian] using gram_transpose) fun x nonzero => ?_
  have size : 0 < x ⬝ᵥ x := (by simpa using dotProduct_star_self_nonneg x : 0 ≤ x ⬝ᵥ x).lt_of_ne' fun zero => nonzero (dotProduct_self_eq_zero.mp zero)
  rw [star_trivial, gram_spread]
  exact (by positivity : 0 < least ^ 2 * (x ⬝ᵥ x)).trans_le (within x).1

def Least (rows : List (ι → ℝ)) (values : List ℝ) (x : ι → ℝ) : Prop :=
  ∀ y, (List.zipWith (fun row value => (row ⬝ᵥ x - value) ^ 2) rows values).sum ≤
    (List.zipWith (fun row value => (row ⬝ᵥ y - value) ^ 2) rows values).sum

theorem Least.exact {t : ι → ℝ} (h : Least rows (rows.map (· ⬝ᵥ t)) x) (conditioned : Conditioned c rows) : x = t := by
  obtain ⟨least, positive, within⟩ := conditioned
  have off (y : ι → ℝ) : (List.zipWith (fun row value => (row ⬝ᵥ y - value) ^ 2) rows (rows.map (· ⬝ᵥ t))).sum = spread rows (y - t) := by
    simp [List.zipWith_map_right, List.zipWith_self, spread, dotProduct_sub]
  have none := h t
  rw [off, off, sub_self] at none
  have zero : spread rows (0 : ι → ℝ) = 0 := by simp [spread]
  have size : least ^ 2 * ((x - t) ⬝ᵥ (x - t)) ≤ 0 := (within (x - t)).1.trans (none.trans zero.le)
  have length : (x - t) ⬝ᵥ (x - t) = 0 := le_antisymm (nonpos_of_mul_nonpos_right size (by positivity)) (by simpa using dotProduct_star_self_nonneg (x - t))
  exact sub_eq_zero.mp (dotProduct_self_eq_zero.mp length)

variable [DecidableEq ι]

structure Factors (a u vt : Matrix ι ι ℝ) : Prop where
  left : u * uᵀ = 1
  right : vt * vtᵀ = 1
  values : ∃ σ : ι → ℝ, 0 ≤ σ ∧ a = u * diagonal σ * vt

theorem Factors.turn {a : Matrix ι ι ℝ} (h : Factors a u vt) (turned : a = s * rᵀ) (definite : s.PosDef) (orthogonal : r * rᵀ = 1) :
    vtᵀ * uᵀ = r := by
  obtain ⟨σ, nonneg, product⟩ := h.values
  rw [turned] at product
  have semidefinite : (u * diagonal σ * uᵀ).PosSemidef := by
    simpa using (PosSemidef.diagonal nonneg).mul_mul_conjTranspose_same u
  have symmetric : sᵀ = s := by simpa using definite.isHermitian.eq
  have squares : s * s = u * diagonal σ * uᵀ * (u * diagonal σ * uᵀ) := calc
    s * s = s * rᵀ * (s * rᵀ)ᵀ := by
      rw [transpose_mul, transpose_transpose, symmetric, Matrix.mul_assoc, ← Matrix.mul_assoc rᵀ, mul_eq_one_comm.mp orthogonal, Matrix.one_mul]
    _ = u * diagonal σ * (vt * vtᵀ) * (diagonal σ * uᵀ) := by
      rw [product, transpose_mul, transpose_mul, diagonal_transpose]
      simp only [Matrix.mul_assoc]
    _ = u * diagonal σ * (uᵀ * u) * (diagonal σ * uᵀ) := by rw [h.right, mul_eq_one_comm.mp h.left]
    _ = u * diagonal σ * uᵀ * (u * diagonal σ * uᵀ) := by simp only [Matrix.mul_assoc]
  have root : s = u * diagonal σ * uᵀ :=
    (CFC.mul_self_eq_mul_self_iff _ _ definite.posSemidef.nonneg semidefinite.nonneg).mp squares
  have turned : s * rᵀ = s * (u * vt) := by
    rw [product]
    conv_rhs => rw [root]
    rw [Matrix.mul_assoc _ uᵀ, ← Matrix.mul_assoc uᵀ, mul_eq_one_comm.mp h.left, Matrix.one_mul]
  have same : rᵀ = u * vt := definite.isUnit.mul_left_cancel turned
  rw [← transpose_mul, ← same, transpose_transpose]

theorem spread_turned (orthogonal : r * rᵀ = 1) : spread (rows.map (r *ᵥ ·)) (r *ᵥ x) = spread rows x := by
  simp only [spread, List.map_map]
  refine congrArg List.sum (List.map_congr_left fun row _ => ?_)
  simp [dotProduct_mulVec, vecMul_mulVec, mul_eq_one_comm.mp orthogonal]

theorem Conditioned.turned (h : Conditioned c (rows.map (r *ᵥ ·))) (orthogonal : r * rᵀ = 1) : Conditioned c rows := by
  obtain ⟨least, positive, within⟩ := h
  refine ⟨least, positive, fun x => ?_⟩
  have size : r *ᵥ x ⬝ᵥ r *ᵥ x = x ⬝ᵥ x := by simp [dotProduct_mulVec, vecMul_mulVec, mul_eq_one_comm.mp orthogonal]
  simpa only [spread_turned orthogonal, size] using within (r *ᵥ x)

structure Singular (rows : List (Fin 3 → ℝ)) (values : List ℝ) : Prop where
  values : ∃ (vt : Matrix (Fin 3) (Fin 3) ℝ) (σ : Fin 3 → ℝ), vt * vtᵀ = 1 ∧ 0 ≤ σ ∧ Antitone σ ∧
    gram rows rows = vtᵀ * diagonal (σ ^ 2) * vt ∧ values = [σ 0, σ 1, σ 2]

theorem Singular.within {rows : List (Fin 3 → ℝ)} {values : List ℝ} (h : Singular rows values) (conditioned : Conditioned c rows)
    (nonneg : 0 ≤ c) {row : Fin 3 → ℝ} (member : row ∈ rows) (unit : row ⬝ᵥ row = 1) :
    ∃ first second last, values = [first, second, last] ∧ last ≤ second ∧ second ≤ first ∧ 1 ≤ c * last ∧ first ≤ c * last := by
  obtain ⟨vt, σ, orthogonal, positive, descending, product, rfl⟩ := h.values
  obtain ⟨least, above, within⟩ := conditioned
  have axis (i : Fin 3) : least ≤ σ i ∧ σ i ≤ c * least := by
    have length : vtᵀ *ᵥ Pi.single i 1 ⬝ᵥ vtᵀ *ᵥ Pi.single i 1 = 1 := by
      rw [mulVec_single_one]
      exact (congrFun (congrFun orthogonal i) i).trans (one_apply_eq i)
    have stretched : spread rows (vtᵀ *ᵥ Pi.single i 1) = σ i ^ 2 := by
      rw [← gram_spread, product, mulVec_mulVec, Matrix.mul_assoc, orthogonal, Matrix.mul_one, ← mulVec_mulVec, dotProduct_mulVec,
        vecMul_mulVec]
      simp [orthogonal]
    have bounds := within (vtᵀ *ᵥ Pi.single i 1)
    rw [length, stretched, mul_one, mul_one] at bounds
    exact ⟨(sq_le_sq₀ above.le (positive i)).mp bounds.1, (sq_le_sq₀ (positive i) (by positivity)).mp bounds.2⟩
  have long : 1 ≤ c * least := by
    have first : 1 ≤ spread rows row := by
      have one := List.single_le_sum (fun y there => by
        obtain ⟨row, -, rfl⟩ := List.mem_map.mp there
        positivity) _ (List.mem_map_of_mem (f := fun other => (other ⬝ᵥ row) ^ 2) member)
      rwa [unit, one_pow] at one
    have all := first.trans (within row).2
    rw [unit, mul_one] at all
    exact (one_le_sq_iff₀ (by positivity)).mp all
  have last : c * least ≤ c * σ 2 := mul_le_mul_of_nonneg_left (axis 2).1 nonneg
  exact ⟨_, _, _, rfl, descending (by decide), descending (by decide), long.trans last, (axis 0).2.trans last⟩

end Polar

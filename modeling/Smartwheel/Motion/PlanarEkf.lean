import Mathlib.Algebra.BigOperators.Fin
import Mathlib.Analysis.Matrix.Order
import Mathlib.Analysis.SpecialFunctions.Trigonometric.Basic
import Smartwheel.Effect.Check
import Smartwheel.Effect.History
import Smartwheel.Instances

/-! The planar filter in exact arithmetic: its covariance stays positive definite, and how a gap is cut does not matter. -/
namespace Smartwheel.PlanarEkf
open Effect Matrix

/-- `planar_ekf`. -/
structure Config where
  wheelV : ℝ
  wheelW : ℝ
  gyroW : ℝ
  linearAcceleration : ℝ
  angularAcceleration : ℝ
  initialPose : Fin 3 → ℝ
  initialVelocity : Fin 2 → ℝ
  gateSigma : ℝ

def Config.entries (c : Config) : List (String × List ℝ) :=
  [("wheel_v_variance", [c.wheelV]), ("wheel_w_variance", [c.wheelW]), ("gyro_w_variance", [c.gyroW]),
    ("linear_acceleration_variance", [c.linearAcceleration]), ("angular_acceleration_variance", [c.angularAcceleration]),
    ("initial_pose_variance", List.ofFn c.initialPose), ("initial_velocity_variance", List.ofFn c.initialVelocity),
    ("innovation_gate_sigma", [c.gateSigma])]

open Classical in
/-- `validate_planar_config`, of the numbers that it was given. -/
noncomputable def validatePlanarConfig (c : Config) : Except String Config := do
  c.entries.forM fun entry =>
    require (∀ v ∈ entry.2, 0 < v ∧ v < 10 ^ 4) (entry.1 ++ " must contain finite positive model variances below 10000")
  return c

/-- The spectral densities of a continuous noise. -/
structure Noise where
  linear : ℝ
  angular : ℝ

/-- A `PlanarEKF`, or a `ContinuousPlanarEKF` where there is a noise. -/
structure Ekf where
  config : Config
  noise : Option Noise
  x : Fin 5 → ℝ
  P : Matrix (Fin 5) (Fin 5) ℝ
  wheelSequence : ℤ
  imuSequence : ℤ
  gapIntervals : ℕ
  gapS : ℝ

noncomputable def Ekf.start (config : Config) (noise : Option Noise) (axleX axleY : ℝ) : Ekf where
  config
  noise
  x := ![axleX, axleY, 0, 0, 0]
  P := diagonal ![config.initialPose 0, config.initialPose 1, config.initialPose 2, config.initialVelocity 0, config.initialVelocity 1]
  wheelSequence := -1
  imuSequence := -1
  gapIntervals := 0
  gapS := 0

open Classical in
/-- `sinc` and `dsinc`. -/
noncomputable def sinc (angle : ℝ) : ℝ × ℝ :=
  if |angle| < 1 / 10 ^ 4 then (1 - angle * angle / 6 + angle ^ 4 / 120, -angle / 3 + angle ^ 3 / 30 - angle ^ 5 / 840)
  else (Real.sin angle / angle, (angle * Real.cos angle - Real.sin angle) / (angle * angle))

/-- `transition`. -/
noncomputable def transition (x : Fin 5 → ℝ) (dt : ℝ) : (Fin 5 → ℝ) × Matrix (Fin 5) (Fin 5) ℝ :=
  let angle := x 4 * dt / 2
  let a := dt * (sinc angle).1
  let da := dt * dt * (1 / 2) * (sinc angle).2
  let c := Real.cos (x 2 + angle)
  let s := Real.sin (x 2 + angle)
  let dx := x 3 * a * c
  let dy := x 3 * a * s
  (![x 0 + dx, x 1 + dy, x 2 + x 4 * dt, x 3, x 4],
    !![1, 0, -dy, a * c, x 3 * (da * c - a * s * dt / 2);
       0, 1, dx, a * s, x 3 * (da * s + a * c * dt / 2);
       0, 0, 1, 0, dt;
       0, 0, 0, 1, 0;
       0, 0, 0, 0, 1])

/-- `decorrelate_gap`. -/
def decorrelateGap (P : Matrix (Fin 5) (Fin 5) ℝ) : Matrix (Fin 5) (Fin 5) ℝ :=
  of fun i j => if (i < 3) = (j < 3) then P i j else 0

noncomputable def symmetric (P : Matrix (Fin 5) (Fin 5) ℝ) : Matrix (Fin 5) (Fin 5) ℝ := (1 / 2 : ℝ) • (P + Pᵀ)

/-- The noise of an interval, and what a gap adds. -/
noncomputable def Ekf.intervalNoise (s : Ekf) (dt : ℝ) : Matrix (Fin 5) (Fin 5) ℝ :=
  match s.noise with
  | none =>
    let F := (transition s.x dt).2
    let G : Matrix (Fin 5) (Fin 2) ℝ := of ![![1 / 2 * dt * F 0 3, 1 / 2 * dt * F 0 4], ![1 / 2 * dt * F 1 3, 1 / 2 * dt * F 1 4],
      ![1 / 2 * dt * F 2 3, 1 / 2 * dt * F 2 4], ![dt, 0], ![0, dt]]
    G * diagonal ![s.config.linearAcceleration, s.config.angularAcceleration] * Gᵀ
  | some noise =>
    let part (fraction weight : ℝ) : Matrix (Fin 5) (Fin 5) ℝ :=
      let J : Matrix (Fin 5) (Fin 2) ℝ := (transition (transition s.x (dt * fraction)).1 (dt * (1 - fraction))).2.submatrix id ![3, 4]
      (weight * dt) • (J * diagonal ![noise.linear, noise.angular] * Jᵀ)
    part (1 / 2 - √15 / 10) (5 / 18) + part (1 / 2) (4 / 9) + part (1 / 2 + √15 / 10) (5 / 18)

noncomputable def Ekf.gapNoise (s : Ekf) (dt : ℝ) : Fin 5 → ℝ :=
  match s.noise with
  | none =>
    let qv := s.config.linearAcceleration
    let qw := s.config.angularAcceleration
    ![qv * dt ^ 4 / 4, qv * dt ^ 4 / 4, qw * dt ^ 4 / 4, qv * dt ^ 2, qw * dt ^ 2]
  | some noise =>
    let cubicIncrement := ((s.gapS + dt) ^ 3 - s.gapS ^ 3) / 3
    ![noise.linear * cubicIncrement, noise.linear * cubicIncrement, noise.angular * cubicIncrement, noise.linear * dt, noise.angular * dt]

open Classical in
noncomputable def Ekf.predict (s : Ekf) (dt : ℝ) (observed : Bool) : Except String Ekf := do
  refuse (dt < 0) "nonnegative finite prediction interval required"
  if dt = 0 then return s
  else if ¬observed then
    return { s with P := decorrelateGap s.P + diagonal (s.gapNoise dt), gapIntervals := s.gapIntervals + 1, gapS := s.gapS + dt }
  else
    let F := (transition s.x dt).2
    return { s with P := symmetric (F * s.P * Fᵀ + s.intervalNoise dt), x := (transition s.x dt).1, gapS := 0 }

open Classical in
/-- `_update`: the state, and whether the measurement is accepted. -/
noncomputable def Ekf.update {m : ℕ} (s : Ekf) (z : Fin m → ℝ) (H : Matrix (Fin m) (Fin 5) ℝ) (R : Matrix (Fin m) (Fin m) ℝ) : Ekf :=
  let innovation := z - H *ᵥ s.x
  let S := H * s.P * Hᵀ + R
  if innovation ⬝ᵥ S⁻¹ *ᵥ innovation ≤ s.config.gateSigma ^ 2 then
    let K := (S⁻¹ * (H * s.P))ᵀ
    let residual := 1 - K * H
    { s with x := s.x + K *ᵥ innovation, P := symmetric (residual * s.P * residualᵀ + K * R * Kᵀ) }
  else s

noncomputable def Ekf.wheel (s : Ekf) (sequence : ℤ) (velocity yawRate : ℝ) : Ekf :=
  if sequence ≤ s.wheelSequence then s
  else { s.update ![velocity, yawRate] !![0, 0, 0, 1, 0; 0, 0, 0, 0, 1] (diagonal ![s.config.wheelV, s.config.wheelW]) with
    wheelSequence := sequence }

noncomputable def Ekf.gyro (s : Ekf) (sequence : ℤ) (yawRate : ℝ) : Ekf :=
  if sequence ≤ s.imuSequence then s
  else { s.update ![yawRate] !![0, 0, 0, 0, 1] (diagonal ![s.config.gyroW]) with imuSequence := sequence }

/-- The covariances of `output`, of the pose and of the twist of a reference. -/
noncomputable def Ekf.output (s : Ekf) (tx ty : ℝ) : Matrix (Fin 6) (Fin 6) ℝ × Matrix (Fin 6) (Fin 6) ℝ :=
  let c := Real.cos (s.x 2)
  let n := Real.sin (s.x 2)
  let J : Matrix (Fin 6) (Fin 5) ℝ := !![1, 0, -(c * -ty - n * tx), 0, 0; 0, 1, -(n * -ty + c * tx), 0, 0; 0, 0, 0, 0, 0;
    0, 0, 0, 0, 0; 0, 0, 0, 0, 0; 0, 0, 1, 0, 0]
  let B : Matrix (Fin 6) (Fin 5) ℝ := !![0, 0, 0, 1, ty; 0, 0, 0, 0, -tx; 0, 0, 0, 0, 0; 0, 0, 0, 0, 0; 0, 0, 0, 0, 0; 0, 0, 0, 0, 1]
  (J * s.P * Jᵀ, B * s.P * Bᵀ)

variable {m k : ℕ}

/-- What one matrix leaves out has to be in the other. -/
theorem posDef_add {A : Matrix (Fin k) (Fin k) ℝ} {B : Matrix (Fin m) (Fin k) ℝ} {C : Matrix (Fin m) (Fin m) ℝ} (hA : A.PosDef)
    (hC : C.PosSemidef) (whole : ∀ x, Bᵀ *ᵥ x = 0 → x ⬝ᵥ C *ᵥ x = 0 → x = 0) : (B * A * Bᵀ + C).PosDef := by
  have first : (B * A * Bᵀ).PosSemidef := by simpa using hA.posSemidef.mul_mul_conjTranspose_same B
  refine .of_dotProduct_mulVec_pos (first.add hC).isHermitian fun x nonzero => ?_
  have split : x ⬝ᵥ (B * A * Bᵀ + C) *ᵥ x = (Bᵀ *ᵥ x) ⬝ᵥ A *ᵥ (Bᵀ *ᵥ x) + x ⬝ᵥ C *ᵥ x := by
    rw [add_mulVec, dotProduct_add, ← mulVec_mulVec, ← mulVec_mulVec, dotProduct_mulVec x B, ← mulVec_transpose]
  have rest : 0 ≤ x ⬝ᵥ C *ᵥ x := by simpa using hC.dotProduct_mulVec_nonneg x
  rw [star_trivial, split]
  by_cases left : Bᵀ *ᵥ x = 0
  · rw [left, zero_dotProduct, zero_add]
    exact rest.lt_of_ne' fun zero => nonzero (whole x left zero)
  · have positive : 0 < (Bᵀ *ᵥ x) ⬝ᵥ A *ᵥ (Bᵀ *ᵥ x) := by simpa using hA.dotProduct_mulVec_pos left
    exact add_pos_of_pos_of_nonneg positive rest

variable {P : Matrix (Fin 5) (Fin 5) ℝ}

theorem symmetric_definite (h : P.PosDef) : symmetric P = P := by
  have same : Pᵀ = P := by simpa using h.isHermitian.eq
  rw [symmetric, same, ← two_smul ℝ P, smul_smul]
  norm_num

theorem noise_semidefinite {J : Matrix (Fin 5) (Fin 2) ℝ} {qv qw : ℝ} (hv : 0 < qv) (hw : 0 < qw) :
    (J * diagonal ![qv, qw] * Jᵀ).PosSemidef := by
  have nonneg : 0 ≤ ![qv, qw] := fun i => by fin_cases i <;> simp [hv.le, hw.le]
  simpa using (PosSemidef.diagonal nonneg).mul_mul_conjTranspose_same J

/-- The jacobian of a transition loses nothing. -/
theorem transition_whole (x : Fin 5 → ℝ) (dt : ℝ) (y : Fin 5 → ℝ) (h : (transition x dt).2ᵀ *ᵥ y = 0) : y = 0 := by
  have parts (i : Fin 5) := congrFun h i
  have h0 := parts 0
  have h1 := parts 1
  have h2 := parts 2
  have h3 := parts 3
  have h4 := parts 4
  simp [transition, mulVec, dotProduct, Fin.sum_univ_five] at h0 h1 h2 h3 h4
  rw [h0, h1] at h2 h3 h4
  simp at h2 h3
  rw [h2] at h4
  simp at h4
  ext i
  fin_cases i <;> simp [h0, h1, h2, h3, h4]

theorem decorrelateGap_semidefinite (h : P.PosDef) : (decorrelateGap P).PosSemidef := by
  have parts : decorrelateGap P = diagonal ![1, 1, 1, 0, 0] * P * (diagonal ![1, 1, 1, 0, 0])ᵀ +
      diagonal ![0, 0, 0, 1, 1] * P * (diagonal ![0, 0, 0, 1, 1])ᵀ := by
    ext i j
    fin_cases i <;> fin_cases j <;> simp [decorrelateGap]
  rw [parts]
  exact .add (by simpa using h.posSemidef.mul_mul_conjTranspose_same (diagonal ![1, 1, 1, 0, 0]))
    (by simpa using h.posSemidef.mul_mul_conjTranspose_same (diagonal ![0, 0, 0, 1, 1]))

/-! ### The calls -/

structure Config.Positive (c : Config) : Prop where
  wheelV : 0 < c.wheelV
  wheelW : 0 < c.wheelW
  gyroW : 0 < c.gyroW
  linearAcceleration : 0 < c.linearAcceleration
  angularAcceleration : 0 < c.angularAcceleration
  initialPose : ∀ i, 0 < c.initialPose i
  initialVelocity : ∀ i, 0 < c.initialVelocity i

/-- Noises of a filter that was accepted, and a definite covariance. -/
structure Sound (s : Ekf) : Prop where
  positive : s.config.Positive
  noise : ∀ noise ∈ s.noise, 0 < noise.linear ∧ 0 < noise.angular
  gap : 0 ≤ s.gapS
  definite : s.P.PosDef

/-- The calls of a filter that return; a measurement of any kind has a definite covariance. -/
inductive Called : Ekf → Ekf → Prop
  | predict {s s' : Ekf} {dt : ℝ} {observed : Bool} (h : s.predict dt observed = .ok s') : Called s s'
  | wheel (s : Ekf) (sequence : ℤ) (velocity yawRate : ℝ) : Called s (s.wheel sequence velocity yawRate)
  | gyro (s : Ekf) (sequence : ℤ) (yawRate : ℝ) : Called s (s.gyro sequence yawRate)
  | update {m : ℕ} (s : Ekf) (z : Fin m → ℝ) (H : Matrix (Fin m) (Fin 5) ℝ) {R : Matrix (Fin m) (Fin m) ℝ} (definite : R.PosDef) :
      Called s (s.update z H R)

variable {s s' : Ekf}

variable {R : Matrix (Fin m) (Fin m) ℝ}

theorem zero_of_definite (h : R.PosDef) {y : Fin m → ℝ} (zero : y ⬝ᵥ R *ᵥ y = 0) : y = 0 := by
  by_contra nonzero
  have positive : 0 < y ⬝ᵥ R *ᵥ y := by simpa using h.dotProduct_mulVec_pos nonzero
  exact positive.ne' zero

theorem Sound.update (h : Sound s) (z : Fin m → ℝ) (H : Matrix (Fin m) (Fin 5) ℝ) (hR : R.PosDef) :
    Sound (s.update z H R) := by
  unfold Ekf.update
  dsimp only
  split
  · refine ⟨h.positive, h.noise, h.gap, ?_⟩
    generalize (H * s.P * Hᵀ + R)⁻¹ * (H * s.P) = gain
    have joseph : ((1 - gainᵀ * H) * s.P * (1 - gainᵀ * H)ᵀ + gainᵀ * R * gainᵀᵀ).PosDef := by
      refine posDef_add h.definite (by simpa using hR.posSemidef.mul_mul_conjTranspose_same gainᵀ) fun x left right => ?_
      -- what the residual leaves out has passed through the gain
      rw [← mulVec_mulVec, ← mulVec_mulVec, dotProduct_mulVec, ← mulVec_transpose, transpose_transpose] at right
      have gained : gain *ᵥ x = 0 := zero_of_definite hR right
      rw [transpose_sub, transpose_one, transpose_mul, transpose_transpose, sub_mulVec, one_mulVec, ← mulVec_mulVec, gained, mulVec_zero,
        sub_zero] at left
      exact left
    exact (symmetric_definite joseph).symm ▸ joseph
  · exact h

theorem Ekf.intervalNoise_semidefinite (h : Sound s) {dt : ℝ} (nonneg : 0 ≤ dt) : (s.intervalNoise dt).PosSemidef := by
  unfold Ekf.intervalNoise
  split
  · exact noise_semidefinite h.positive.linearAcceleration h.positive.angularAcceleration
  next noise known =>
    obtain ⟨linear, angular⟩ := h.noise noise known
    exact .add (.add (.smul (noise_semidefinite linear angular) (by positivity)) (.smul (noise_semidefinite linear angular) (by positivity)))
      (.smul (noise_semidefinite linear angular) (by positivity))

theorem Ekf.gapNoise_definite (h : Sound s) {dt : ℝ} (positive : 0 < dt) : (diagonal (s.gapNoise dt)).PosDef := by
  refine .diagonal fun i => ?_
  unfold Ekf.gapNoise
  cases known : s.noise with
  | none =>
    have linear := h.positive.linearAcceleration
    have angular := h.positive.angularAcceleration
    fin_cases i <;> simp <;> positivity
  | some noise =>
    obtain ⟨linear, angular⟩ := h.noise noise known
    have cubic : 0 < ((s.gapS + dt) ^ 3 - s.gapS ^ 3) / 3 := by
      have gap := h.gap
      have longer : (s.gapS + dt) ^ 3 - s.gapS ^ 3 = dt * (3 * s.gapS ^ 2 + 3 * s.gapS * dt + dt ^ 2) := by ring
      rw [longer]
      positivity
    fin_cases i <;> simp <;> positivity

theorem Sound.predict (h : Sound s) {dt : ℝ} {observed : Bool} (predicted : s.predict dt observed = .ok s') : Sound s' := by
  obtain ⟨_, nonneg, predicted⟩ := bind_eq_ok predicted
  have nonneg := not_lt.mp (refuse_ok nonneg)
  split at predicted
  · cases predicted
    exact h
  next nonzero =>
  have positive : 0 < dt := nonneg.lt_of_ne' nonzero
  split at predicted
  · cases predicted
    exact ⟨h.positive, h.noise, add_nonneg h.gap nonneg,
      .posSemidef_add (decorrelateGap_semidefinite h.definite) (Ekf.gapNoise_definite h positive)⟩
  · cases predicted
    have moved := posDef_add h.definite (Ekf.intervalNoise_semidefinite h nonneg) fun x left _ => transition_whole s.x dt x left
    exact ⟨h.positive, h.noise, le_rfl, (symmetric_definite moved).symm ▸ moved⟩

theorem Sound.called (h : Sound s) (called : Called s s') : Sound s' := by
  cases called with
  | predict predicted => exact h.predict predicted
  | wheel _ sequence velocity yawRate =>
    unfold Ekf.wheel
    split
    · exact h
    · have noise : (diagonal ![s.config.wheelV, s.config.wheelW]).PosDef := .diagonal fun i => by
        fin_cases i
        · exact h.positive.wheelV
        · exact h.positive.wheelW
      have updated := h.update ![velocity, yawRate] !![0, 0, 0, 1, 0; 0, 0, 0, 0, 1] noise
      exact ⟨updated.positive, updated.noise, updated.gap, updated.definite⟩
  | gyro _ sequence yawRate =>
    unfold Ekf.gyro
    split
    · exact h
    · have noise : (diagonal ![s.config.gyroW]).PosDef := .diagonal fun i => by
        fin_cases i
        exact h.positive.gyroW
      have updated := h.update ![yawRate] !![0, 0, 0, 0, 1] noise
      exact ⟨updated.positive, updated.noise, updated.gap, updated.definite⟩
  | update _ z H definite => exact h.update z H definite

/-- `DEFAULT_PLANAR`. -/
noncomputable def defaultPlanar : Config :=
  ⟨25 / 10 ^ 4, 25 / 10 ^ 4, 4 / 10 ^ 4, 1 / 4, 1 / 4, fun _ => 1 / 10 ^ 6, fun _ => 4 / 100, 5⟩

noncomputable def Ekf.gap (s : Ekf) (dt : ℝ) (intervals : ℕ) : Ekf :=
  { s with P := decorrelateGap s.P + diagonal (s.gapNoise dt), gapIntervals := s.gapIntervals + intervals, gapS := s.gapS + dt }

theorem Ekf.predict_gap (s : Ekf) {dt : ℝ} (positive : 0 < dt) : s.predict dt false = .ok (s.gap dt 1) := by
  unfold Ekf.predict
  rw [refuse, if_neg positive.not_gt]
  exact (if_neg positive.ne').trans (if_pos Bool.false_ne_true)

theorem decorrelateGap_add (P : Matrix (Fin 5) (Fin 5) ℝ) (d : Fin 5 → ℝ) :
    decorrelateGap (decorrelateGap P + diagonal d) = decorrelateGap P + diagonal d := by
  ext i j
  simp only [decorrelateGap, of_apply, Matrix.add_apply]
  by_cases same : i = j
  · simp [same]
  · rw [diagonal_apply_ne _ same]
    split <;> simp

/-- The pose takes up the cube of the whole gap, the velocity its length. -/
theorem Ekf.gapNoise_add {s : Ekf} {noise : Noise} (continuous : s.noise = some noise) (a b : ℝ) (intervals : ℕ) :
    s.gapNoise a + (s.gap a intervals).gapNoise b = s.gapNoise (a + b) := by
  unfold Ekf.gap Ekf.gapNoise
  rw [continuous]
  ext i
  fin_cases i <;> simp <;> ring

theorem Ekf.gap_gap {s : Ekf} {noise : Noise} (continuous : s.noise = some noise) (a b : ℝ) (m n : ℕ) :
    (s.gap a m).gap b n = s.gap (a + b) (m + n) := by
  have covariance : decorrelateGap (s.gap a m).P + diagonal ((s.gap a m).gapNoise b) = (s.gap (a + b) (m + n)).P := by
    show decorrelateGap (decorrelateGap s.P + diagonal (s.gapNoise a)) + _ = _
    rw [decorrelateGap_add, add_assoc, diagonal_add, ← Pi.add_def, Ekf.gapNoise_add continuous]
    rfl
  unfold Ekf.gap at covariance ⊢
  rw [covariance]
  simp [add_assoc]

theorem Ekf.predicts_gap {s : Ekf} {noise : Noise} (continuous : s.noise = some noise) (a : ℝ) (m : ℕ) {parts : List ℝ}
    (positive : ∀ dt ∈ parts, 0 < dt) :
    parts.foldlM (fun s dt => s.predict dt false) (s.gap a m) = .ok (s.gap (a + parts.sum) (m + parts.length)) := by
  induction parts generalizing a m with
  | nil => simp [pure, Except.pure]
  | cons dt rest ih =>
    obtain ⟨first, later⟩ := List.forall_mem_cons.mp positive
    rw [List.foldlM_cons, Ekf.predict_gap _ first, Ekf.gap_gap continuous]
    refine (ih (a + dt) (m + 1) later).trans ?_
    rw [List.sum_cons, List.length_cons, add_assoc, Nat.add_assoc, Nat.add_comm 1]

/-- However a gap is cut, the filter is the one of a single interval but for the number of the intervals. -/
theorem gap_additive (s : Ekf) (noise : Noise) (continuous : s.noise = some noise) (parts : List ℝ) (positive : ∀ dt ∈ parts, 0 < dt) :
    ∃ whole, s.predict parts.sum false = .ok whole ∧
      parts.foldlM (fun s dt => s.predict dt false) s = .ok { whole with gapIntervals := s.gapIntervals + parts.length } := by
  cases parts with
  | nil =>
    refine ⟨s, ?_, rfl⟩
    unfold Ekf.predict
    rw [List.sum_nil, refuse, if_neg (lt_irrefl _)]
    exact if_pos rfl
  | cons dt rest =>
    obtain ⟨first, later⟩ := List.forall_mem_cons.mp positive
    have long : 0 < (dt :: rest).sum := List.sum_pos _ positive (List.cons_ne_nil _ _)
    refine ⟨_, s.predict_gap long, ?_⟩
    rw [List.foldlM_cons, s.predict_gap first]
    refine (Ekf.predicts_gap continuous dt 1 later).trans ?_
    rw [List.length_cons, Nat.add_comm 1]
    rfl

theorem gap_additive_halves : ∃ whole, (Ekf.start defaultPlanar (some ⟨1, 1⟩) 0 0).predict [1 / 2, 1 / 2].sum false = .ok whole ∧
    [1 / 2, 1 / 2].foldlM (fun s dt => s.predict dt false) (Ekf.start defaultPlanar (some ⟨1, 1⟩) 0 0) =
      .ok { whole with gapIntervals := 0 + 2 } :=
  gap_additive (.start defaultPlanar (some ⟨1, 1⟩) 0 0) ⟨1, 1⟩ rfl [1 / 2, 1 / 2] (by simp)

end Smartwheel.PlanarEkf

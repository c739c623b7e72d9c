import Mathlib.Tactic.FieldSimp
import Mathlib.Tactic.Linarith
import Mathlib.Tactic.Ring
import Smartwheel.Manual.Bench
import Smartwheel.Modbus.Exchange

/-! The encoder and the validator of velocity frames: what the encoder makes of a request within its limits passes the
validator, and what passes the validator is a velocity frame within the limits, but for the rounding of a register. -/
namespace Smartwheel

theorem roundHalfEven_near (q : ℚ) : |(roundHalfEven q : ℚ) - q| ≤ 1/2 := by
  have floor := Int.floor_le q
  have above := Int.lt_floor_add_one q
  unfold roundHalfEven
  dsimp only
  rw [abs_le]
  split
  · constructor <;> linarith
  · split
    · push_cast
      constructor <;> linarith
    · split
      · constructor <;> linarith
      · push_cast
        constructor <;> linarith

theorem roundHalfEven_abs_le {q : ℚ} {n : ℤ} (h : |q| ≤ n) : |roundHalfEven q| ≤ n := by
  have near := roundHalfEven_near q
  rw [abs_le] at h near ⊢
  have upper : (roundHalfEven q : ℚ) < n + 1 := by linarith
  have lower : -(n : ℚ) - 1 < roundHalfEven q := by linarith
  have upper' : roundHalfEven q < n + 1 := by exact_mod_cast upper
  have lower' : -n - 1 < roundHalfEven q := by exact_mod_cast lower
  omega

namespace Manual
open Modbus

namespace ManualContract
variable (c : ManualContract)

def wheelSpeed (value sign : ℤ) : ℚ := value / c.profile.rpmToRegisterScale * sign * 2 * c.pi * c.profile.wheelRadiusM / 60

def quantum : ℚ := 1/2 / c.profile.rpmToRegisterScale * 2 * c.pi * c.profile.wheelRadiusM / 60

def linearSpeed (left right : Word) : ℚ :=
  (c.wheelSpeed (signed left) c.profile.leftSign + c.wheelSpeed (signed right) c.profile.rightSign) / 2

def angularSpeed (left right : Word) : ℚ :=
  (c.wheelSpeed (signed right) c.profile.rightSign - c.wheelSpeed (signed left) c.profile.leftSign) / c.profile.trackWidthM

def wheelRpm (speed : ℚ) : ℚ := speed * 60 / (2 * c.pi * c.profile.wheelRadiusM)

structure Passes (left right : Word) : Prop where
  registers : max |signed left| |signed right| ≤ ⌈c.profile.maxWheelRpm * c.profile.rpmToRegisterScale⌉
  linear : |c.linearSpeed left right| ≤ c.profile.maxLinearMS + c.quantum + 1/10^12
  angular : |c.angularSpeed left right| ≤ c.profile.maxAngularRadS + 2 * c.quantum / c.profile.trackWidthM + 1/10^12

structure Within (linear angular : ℚ) : Prop where
  linear_le : |linear| ≤ c.profile.maxLinearMS
  angular_le : |angular| ≤ c.profile.maxAngularRadS
  left_le : |c.wheelRpm (linear - angular * c.profile.trackWidthM / 2)| ≤ c.profile.maxWheelRpm
  right_le : |c.wheelRpm (linear + angular * c.profile.trackWidthM / 2)| ≤ c.profile.maxWheelRpm

variable {c} {linear angular : ℚ} {left right : Word} {request : Bytes}

theorem radius_pos : 0 < c.profile.wheelRadiusM := by
  have bound := c.profile.wheelRadius_bounds.1
  linarith

theorem track_pos : 0 < c.profile.trackWidthM := by
  have bound := c.profile.trackWidth_bounds.1
  linarith

theorem scale_pos : 0 < c.profile.rpmToRegisterScale := by
  have bound := c.profile.rpmToRegister_bounds.1
  linarith

theorem quantum_pos : 0 < c.quantum := by
  have radius := c.radius_pos
  have scale := c.scale_pos
  have pi := c.pi_pos
  unfold quantum
  positivity

def registerValue (c : ManualContract) (speed : ℚ) (sign : ℤ) : ℤ :=
  roundHalfEven (c.wheelRpm speed * sign * c.profile.rpmToRegisterScale)

variable (c) in
theorem wheelSpeed_registerValue (speed : ℚ) {sign : ℤ} (unit : sign = -1 ∨ sign = 1) :
    |c.wheelSpeed (c.registerValue speed sign) sign - speed| ≤ c.quantum := by
  have radius := c.radius_pos.ne'
  have scale := c.scale_pos.ne'
  have pi := c.pi_pos.ne'
  have near := roundHalfEven_near (c.wheelRpm speed * sign * c.profile.rpmToRegisterScale)
  have square : (sign : ℚ) * sign = 1 := by rcases unit with rfl | rfl <;> norm_num
  have size : |(sign : ℚ)| = 1 := by rcases unit with rfl | rfl <;> norm_num
  have exact_ : c.wheelRpm speed * sign * c.profile.rpmToRegisterScale / c.profile.rpmToRegisterScale * sign * 2 * c.pi *
      c.profile.wheelRadiusM / 60 = speed := by
    unfold wheelRpm
    field_simp
    rw [sq, square, mul_one]
  have error : c.wheelSpeed (c.registerValue speed sign) sign - speed =
      (c.registerValue speed sign - c.wheelRpm speed * sign * c.profile.rpmToRegisterScale) * sign * (2 * c.quantum) := by
    calc
      _ = c.wheelSpeed (c.registerValue speed sign) sign - c.wheelRpm speed * sign * c.profile.rpmToRegisterScale /
          c.profile.rpmToRegisterScale * sign * 2 * c.pi * c.profile.wheelRadiusM / 60 := by rw [exact_]
      _ = _ := by
        unfold wheelSpeed quantum
        ring
  rw [error, abs_mul, abs_mul, size, mul_one, abs_of_pos (by linarith [c.quantum_pos] : 0 < 2 * c.quantum)]
  have step := mul_le_mul_of_nonneg_right near (by linarith [c.quantum_pos] : 0 ≤ 2 * c.quantum)
  have last : |(c.registerValue speed sign : ℚ) - c.wheelRpm speed * sign * c.profile.rpmToRegisterScale| * (2 * c.quantum) ≤
      1/2 * (2 * c.quantum) := step
  linarith

theorem registerValue_le {speed : ℚ} {sign : ℤ} (unit : sign = -1 ∨ sign = 1) (bound : |c.wheelRpm speed| ≤ c.profile.maxWheelRpm) :
    |c.registerValue speed sign| ≤ ⌈c.profile.maxWheelRpm * c.profile.rpmToRegisterScale⌉ := by
  have scale := c.scale_pos
  have size : |(sign : ℚ)| = 1 := by rcases unit with rfl | rfl <;> norm_num
  refine roundHalfEven_abs_le ?_
  rw [abs_mul, abs_mul, size, mul_one, abs_of_pos scale]
  exact (mul_le_mul_of_nonneg_right bound scale.le).trans (Int.le_ceil _)

theorem ceil_le : ⌈c.profile.maxWheelRpm * c.profile.rpmToRegisterScale⌉ ≤ 3000 := by
  have wheel := c.profile.maxWheel_bounds
  have scale := c.profile.rpmToRegister_bounds
  rw [Int.ceil_le]
  push_cast
  nlinarith

theorem signed_ofInt {value : ℤ} (bound : |value| ≤ 3000) : signed (.ofInt 16 value) = value := by
  rw [abs_le] at bound
  rw [signed, BitVec.toInt_ofInt, Int.bmod_eq_of_le (by omega) (by omega)]

theorem velocityRequest_within (within : c.Within linear angular) :
    c.velocityRequest linear angular = .ok (speedWrite
      (.ofInt 16 (c.registerValue (linear - angular * c.profile.trackWidthM / 2) c.profile.leftSign))
      (.ofInt 16 (c.registerValue (linear + angular * c.profile.trackWidthM / 2) c.profile.rightSign))) := by
  have left := (registerValue_le c.profile.leftSign_unit within.left_le).trans c.ceil_le
  have right := (registerValue_le c.profile.rightSign_unit within.right_le).trans c.ceil_le
  have first : bounded linear "linear velocity" (-c.profile.maxLinearMS) c.profile.maxLinearMS = .ok () :=
    if_pos (abs_le.mp within.linear_le)
  have second : bounded angular "angular velocity" (-c.profile.maxAngularRadS) c.profile.maxAngularRadS = .ok () :=
    if_pos (abs_le.mp within.angular_le)
  have wheels := max_le within.left_le within.right_le
  rw [abs_le] at left right
  unfold registerValue at left right ⊢
  unfold wheelRpm at left right wheels ⊢
  unfold velocityRequest
  simp only [first, second, bind, Except.bind, if_neg (not_lt.mpr wheels)]
  rw [if_neg (by omega)]

theorem chassis_near
    (first : |c.wheelSpeed (signed left) c.profile.leftSign - (linear - angular * c.profile.trackWidthM / 2)| ≤ c.quantum)
    (second : |c.wheelSpeed (signed right) c.profile.rightSign - (linear + angular * c.profile.trackWidthM / 2)| ≤ c.quantum) :
    |c.linearSpeed left right - linear| ≤ c.quantum ∧
      |c.angularSpeed left right - angular| ≤ 2 * c.quantum / c.profile.trackWidthM := by
  have track := c.track_pos
  constructor
  · rw [linearSpeed]
    rw [abs_le] at first second ⊢
    constructor <;> linarith
  · rw [angularSpeed, div_sub' track.ne', abs_div, abs_of_pos track]
    refine div_le_div_of_nonneg_right ?_ track.le
    rw [abs_le] at first second ⊢
    constructor <;> linarith

theorem within_encoded (within : c.Within linear angular) :
    ∃ left right, c.velocityRequest linear angular = .ok (speedWrite left right) ∧ c.Passes left right ∧
      |c.linearSpeed left right - linear| ≤ c.quantum ∧
      |c.angularSpeed left right - angular| ≤ 2 * c.quantum / c.profile.trackWidthM := by
  have leftBound := registerValue_le c.profile.leftSign_unit within.left_le
  have rightBound := registerValue_le c.profile.rightSign_unit within.right_le
  have leftWord := signed_ofInt (leftBound.trans c.ceil_le)
  have rightWord := signed_ofInt (rightBound.trans c.ceil_le)
  have encoded := velocityRequest_within within
  generalize BitVec.ofInt 16 (c.registerValue (linear - angular * c.profile.trackWidthM / 2) c.profile.leftSign) = left
    at leftWord encoded
  generalize BitVec.ofInt 16 (c.registerValue (linear + angular * c.profile.trackWidthM / 2) c.profile.rightSign) = right
    at rightWord encoded
  rw [← leftWord] at leftBound
  rw [← rightWord] at rightBound
  have leftSpeed := c.wheelSpeed_registerValue (linear - angular * c.profile.trackWidthM / 2) c.profile.leftSign_unit
  have rightSpeed := c.wheelSpeed_registerValue (linear + angular * c.profile.trackWidthM / 2) c.profile.rightSign_unit
  rw [← leftWord] at leftSpeed
  rw [← rightWord] at rightSpeed
  obtain ⟨linearNear, angularNear⟩ := chassis_near leftSpeed rightSpeed
  have slack : (0 : ℚ) < 1/10^12 := by norm_num
  refine ⟨left, right, encoded, ⟨max_le leftBound rightBound, ?_, ?_⟩, linearNear, angularNear⟩
  · have limit := within.linear_le
    rw [abs_le] at limit linearNear ⊢
    constructor <;> linarith
  · have limit := within.angular_le
    rw [abs_le] at limit angularNear ⊢
    constructor <;> linarith

theorem speedWrite_of_shape (checked : checkedFrame request = .ok request) (length : request.length = 13)
    (head : request.take 7 = zeroRequest.take 7) :
    request = speedWrite (word (request.getD 7 0) (request.getD 8 0)) (word (request.getD 9 0) (request.getD 10 0)) := by
  have whole := (checkedFrame_eq_ok_iff.mp checked).2.2
  match request, length with
  | [b₀, b₁, b₂, b₃, b₄, b₅, b₆, b₇, b₈, b₉, b₁₀, b₁₁, b₁₂], _ =>
    have before : [b₀, b₁, b₂, b₃, b₄, b₅, b₆] = [1, 0x10, 0x20, 0x88, 0, 2, 4] := head
    have payload : [b₀, b₁, b₂, b₃, b₄, b₅, b₆] ++ [b₇, b₈] ++ [b₉, b₁₀] = [1, 0x10, 0x20, 0x88, 0, 2, 4] ++
        bigEndian (word b₇ b₈) ++ bigEndian (word b₉ b₁₀) := by rw [before, bigEndian_word, bigEndian_word]
    exact whole.trans (congrArg withCrc payload)

theorem validateWrite_eq_ok_iff :
    c.validateWrite request = .ok request ↔ ∃ left right, request = speedWrite left right ∧ c.Passes left right := by
  constructor
  · intro accepted
    unfold validateWrite at accepted
    cases checked : checkedFrame request with
    | error e =>
      rw [checked] at accepted
      cases accepted
    | ok frame =>
      obtain rfl := checkedFrame_eq_ok checked
      rw [checked] at accepted
      simp only [bind, Except.bind] at accepted
      split at accepted
      · cases accepted
      · rename_i shape
        simp only [not_or, ne_eq, not_not] at shape
        split at accepted
        · cases accepted
        · rename_i registers
          split at accepted
          · cases accepted
          · rename_i speeds
            rw [not_or, not_lt, not_lt] at speeds
            exact ⟨_, _, speedWrite_of_shape checked shape.1 shape.2, not_lt.mp registers, speeds.1, speeds.2⟩
  · rintro ⟨left, right, rfl, passes⟩
    have checked : checkedFrame (speedWrite left right) = .ok (speedWrite left right) :=
      checkedFrame_withCrc _ (by simp [bigEndian]) (by simp [bigEndian])
    have first : word ((speedWrite left right).getD 7 0) ((speedWrite left right).getD 8 0) = left := word_bigEndian left
    have second : word ((speedWrite left right).getD 9 0) ((speedWrite left right).getD 10 0) = right := word_bigEndian right
    have shape : ¬((speedWrite left right).length ≠ 13 ∨ (speedWrite left right).take 7 ≠ zeroRequest.take 7) := by
      have length : (speedWrite left right).length = 13 := rfl
      have head : (speedWrite left right).take 7 = zeroRequest.take 7 := rfl
      exact fun wrong => wrong.elim (· length) (· head)
    have registers := passes.registers
    have linear := passes.linear
    have angular := passes.angular
    unfold linearSpeed wheelSpeed quantum at linear
    unfold angularSpeed wheelSpeed quantum at angular
    unfold validateWrite
    simp only [checked, bind, Except.bind, if_neg shape, first, second, if_neg (not_lt.mpr registers)]
    exact if_neg (not_or.mpr ⟨not_lt.mpr linear, not_lt.mpr angular⟩)

/-- A request within the limits is encoded in a frame that passes the validator and says the request up to a half of a
register for each wheel; and what passes is a velocity frame with its CRC, its registers within the bound that is
rounded up, and its speeds within theirs by a half of a register. -/
theorem encoder_and_validator (c : ManualContract) :
    (∀ linear angular, c.Within linear angular →
      ∃ left right, c.velocityRequest linear angular = .ok (speedWrite left right) ∧
        c.validateWrite (speedWrite left right) = .ok (speedWrite left right) ∧
        |c.linearSpeed left right - linear| ≤ c.quantum ∧
        |c.angularSpeed left right - angular| ≤ 2 * c.quantum / c.profile.trackWidthM) ∧
    ∀ request checked, c.validateWrite request = .ok checked ↔
      checked = request ∧ ∃ left right, request = speedWrite left right ∧ c.Passes left right := by
  constructor
  · intro linear angular within
    obtain ⟨left, right, encoded, passes, near⟩ := within_encoded within
    exact ⟨left, right, encoded, validateWrite_eq_ok_iff.mpr ⟨left, right, rfl, passes⟩, near⟩
  · intro request checked
    constructor
    · intro accepted
      obtain rfl := validateWrite_eq_ok accepted
      exact ⟨rfl, validateWrite_eq_ok_iff.mp accepted⟩
    · rintro ⟨rfl, accepted⟩
      exact validateWrite_eq_ok_iff.mpr accepted

/-- The frame of a turn at the limit is accepted, and turns faster than the limit. -/
theorem accepted_beyond :
    Bench.contract.velocityRequest 0 (2/10) = .ok (speedWrite 30 30) ∧
      Bench.contract.validateWrite (speedWrite 30 30) = .ok (speedWrite 30 30) ∧
      Bench.contract.profile.maxAngularRadS < |Bench.contract.angularSpeed 30 30| := by
  refine ⟨?_, ?_, ?_⟩ <;> decide +kernel

end ManualContract
end Manual
end Smartwheel

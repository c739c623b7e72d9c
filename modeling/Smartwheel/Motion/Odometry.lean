import Mathlib.Algebra.Order.Ring.Rat
import Mathlib.Algebra.Group.Int.Defs
import Mathlib.Data.Rat.Floor
import Smartwheel.Effect.Check

/-! `WheelOdometry`: speeds and encoder counts of two wheels, integrated to a planar pose. Numbers are exact; the
functions of `math` are parameters. -/
namespace Smartwheel.Motion
open Effect

/-- What the code takes from `math`. -/
structure Trig where
  pi : ℚ
  sin : ℚ → ℚ
  cos : ℚ → ℚ
  pi_pos : 0 < pi

inductive Given (α : Type) where
  | absent
  | improper
  | value (a : α)
deriving DecidableEq, Repr

def Given.isAbsent {α : Type} : Given α → Bool
  | .absent => true
  | _ => false

structure Geometry where
  leftRadiusM : ℚ
  rightRadiusM : ℚ
  trackWidthM : ℚ
  leftSign : ℤ
  rightSign : ℤ
  leftMotorTurnsPerWheelTurn : ℚ
  rightMotorTurnsPerWheelTurn : ℚ
  countsPerMotorTurn : Option ℤ
  maxWheelSpeedMS : ℚ
  maxGapS : ℚ
  linearVelocityVariance : ℚ
  angularVelocityVariance : ℚ
  radii_pos : 0 < leftRadiusM ∧ 0 < rightRadiusM
  track_pos : 0 < trackWidthM
  turns_pos : 0 < leftMotorTurnsPerWheelTurn ∧ 0 < rightMotorTurnsPerWheelTurn
  limits_pos : 0 < maxWheelSpeedMS ∧ 0 < maxGapS
  variances_pos : 0 < linearVelocityVariance ∧ 0 < angularVelocityVariance
  signs : leftSign ∈ [-1, 1] ∧ rightSign ∈ [-1, 1]
  counts_pos : ∀ counts ∈ countsPerMotorTurn, 1 ≤ counts

/-- `WheelObservation`; an integer or a text that is none is `none`. -/
structure WheelObservation where
  stampNs : Option ℤ
  timeValid : Bool
  timeSource : String
  uncertaintyNs : Option ℤ
  streamEpoch : Option String
  sequence : Option ℤ
  leftVelocityRpm : Given ℚ
  rightVelocityRpm : Given ℚ
  leftPositionCounts : Given ℤ
  rightPositionCounts : Given ℤ
  counterBits : Option ℕ
deriving DecidableEq, Repr

structure Wheels (α : Type) where
  left : α
  right : α
deriving DecidableEq, Repr

structure Valid where
  stampNs : ℤ
  timeSource : String
  uncertaintyNs : ℤ
  streamEpoch : String
  sequence : ℤ
  velocity : Option (Wheels ℚ)
  position : Option (Wheels ℤ)
  counterBits : Option ℕ
deriving DecidableEq, Repr

/-- A bound, as `repr` gives it. -/
def limit (upper : Option ℤ) : String := upper.elim "None" toString

def integer (value : Option ℤ) (name : String) (lower : ℤ) (upper : Option ℤ) : Except String ℤ :=
  match value with
  | some v => do
    refuse (v < lower ∨ ∃ bound ∈ upper, bound < v) s!"{name} must be integer in [{lower}, {limit upper}]"
    return v
  | none => .error s!"{name} must be integer in [{lower}, {limit upper}]"

def countBounds (bits : ℕ) : ℤ × ℤ := (-2 ^ (bits - 1), 2 ^ bits - 1)

def count (value : Given ℤ) (bits : ℕ) : Except String ℤ :=
  integer (match value with
    | .value v => some v
    | _ => none) "position count" (countBounds bits).1 (some (countBounds bits).2)

def velocities (left right : Given ℚ) : Except String (Option (Wheels ℚ)) :=
  match left, right with
  | .absent, _ => return none
  | .value l, .value r => return some ⟨l, r⟩
  | _, _ => .error "finite actual wheel velocities required"

def positions (left right : Given ℤ) (bits : Option ℕ) : Except String (Option (Wheels ℤ)) :=
  if left.isAbsent then return none
  else do
    refuse (bits ≠ some 16 ∧ bits ≠ some 32) "verified position counter width required"
    let l ← count left (bits.getD 0)
    let r ← count right (bits.getD 0)
    return some ⟨l, r⟩

def epochOf (epoch : Option String) : Except String String :=
  match epoch with
  | some e => do
    refuse (e = "") "explicit acquisition epoch required"
    return e
  | none => .error "explicit acquisition epoch required"

/-- `validate`, with what it lets pass. -/
def WheelObservation.validate (o : WheelObservation) : Except String Valid := do
  let stamp ← integer o.stampNs "stamp_ns" 1 none
  let sequence ← integer o.sequence "sequence" 0 none
  refuse (o.timeValid = false ∨ o.timeSource ∉ ["common_measurement", "external_common_time"])
    "common measurement time required; arrival-only feedback cannot produce odometry"
  let uncertainty ← integer o.uncertaintyNs "uncertainty_ns" 0 none
  let epoch ← epochOf o.streamEpoch
  refuse (o.leftVelocityRpm.isAbsent ≠ o.rightVelocityRpm.isAbsent) "both wheel velocities required together"
  refuse (o.leftPositionCounts.isAbsent ≠ o.rightPositionCounts.isAbsent) "both wheel positions required together"
  refuse (o.leftVelocityRpm.isAbsent ∧ o.leftPositionCounts.isAbsent) "no actual wheel feedback"
  let velocity ← velocities o.leftVelocityRpm o.rightVelocityRpm
  let position ← positions o.leftPositionCounts o.rightPositionCounts o.counterBits
  return ⟨stamp, o.timeSource, uncertainty, epoch, sequence, velocity, position, o.counterBits⟩

structure Pose where
  x : ℚ
  y : ℚ
  yaw : ℚ
deriving DecidableEq, Repr

/-- Python's `%` for a positive modulus. -/
def pymod (a m : ℚ) : ℚ := a - m * ⌊a / m⌋

def Pose.integrate (p : Pose) (t : Trig) (travel : Wheels ℚ) (track : ℚ) : Pose :=
  let distance := (travel.left + travel.right) / 2
  let turn := (travel.right - travel.left) / track
  let half := turn / 2
  let sinc := if 1 / 10 ^ 10 < |half| then t.sin half / half else 1 - half * half / 6
  ⟨p.x + distance * sinc * t.cos (p.yaw + half), p.y + distance * sinc * t.sin (p.yaw + half),
    pymod (p.yaw + turn + t.pi) (2 * t.pi) - t.pi⟩

structure MotionEstimate where
  stampNs : ℤ
  streamEpoch : String
  sequence : ℤ
  pose : Pose
  linearVelocityMS : ℚ
  angularVelocityRadS : ℚ
  timeValid : Bool
  timeSource : String
  uncertaintyNs : ℤ
  linearVelocityVariance : ℚ
  angularVelocityVariance : ℚ
  source : String
  frameId : String := "wheel_odom"
  childFrameId : String := "axle_link"
deriving DecidableEq, Repr

def wrappedDelta (now previous : ℤ) (bits : ℕ) : Except String ℤ := do
  let modulus : ℤ := 2 ^ bits
  let delta := (now - previous + modulus / 2) % modulus - modulus / 2
  refuse (|delta| = modulus / 2) "ambiguous half-range counter jump"
  return delta

/-- `WheelOdometry`; `previous` is an observation that passed its checks. -/
structure WheelOdometry where
  previous : Option Valid
  pose : Pose
  blocked : Option String
deriving DecidableEq, Repr

/-- What the constructor makes and `reset` goes back to. -/
def WheelOdometry.initial : WheelOdometry := ⟨none, ⟨0, 0, 0⟩, none⟩

section update
variable (t : Trig) (g : Geometry)

def rpmSpeeds (o : Valid) : Except String (Option (Wheels ℚ)) :=
  match o.velocity with
  | none => return none
  | some rpm => do
    let left := rpm.left * (2 * t.pi / 60) * g.leftRadiusM * g.leftSign / g.leftMotorTurnsPerWheelTurn
    let right := rpm.right * (2 * t.pi / 60) * g.rightRadiusM * g.rightSign / g.rightMotorTurnsPerWheelTurn
    refuse (g.maxWheelSpeedMS < max |left| |right|) "wheel speed exceeds explicit plausibility bound"
    return some ⟨left, right⟩

def resolutions (counts : ℤ) : Wheels ℚ :=
  ⟨2 * t.pi * g.leftRadiusM / g.leftMotorTurnsPerWheelTurn / counts,
    2 * t.pi * g.rightRadiusM / g.rightMotorTurnsPerWheelTurn / counts⟩

def interval (now previous : Valid) : ℚ := (now.stampNs - previous.stampNs : ℤ) * (1 / 10 ^ 9)

def continues (now previous : Valid) : Except String Unit := do
  refuse (now.streamEpoch ≠ previous.streamEpoch ∨ now.sequence ≤ previous.sequence ∨ now.stampNs ≤ previous.stampNs)
    "wheel identity/time discontinuity; explicit reset required"
  refuse (now.position.isSome ≠ previous.position.isSome ∨ now.counterBits ≠ previous.counterBits)
    "feedback mode changed during stream"
  refuse (g.maxGapS < interval now previous) "wheel feedback gap too large"

def countTravel (counts : ℤ) (bits : ℕ) (dt : ℚ) (now previous : Wheels ℤ) : Except String (Wheels ℚ) := do
  let r := resolutions t g counts
  refuse (2 ^ (bits - 1) ≤ g.maxWheelSpeedMS * dt / r.left ∨ 2 ^ (bits - 1) ≤ g.maxWheelSpeedMS * dt / r.right)
    "position interval admits ambiguous counter wrap"
  let left ← wrappedDelta now.left previous.left bits
  let right ← wrappedDelta now.right previous.right bits
  let travel : Wheels ℚ := ⟨left * r.left * g.leftSign, right * r.right * g.rightSign⟩
  refuse (g.maxWheelSpeedMS < max |travel.left / dt| |travel.right / dt|)
    "encoder count discontinuity / implausible wheel travel"
  return travel

/-- The speeds of both ends of an interval; without one the subscript is a `TypeError`. -/
def speedTravel (dt : ℚ) (before speeds : Option (Wheels ℚ)) : Except String (Wheels ℚ) :=
  match before, speeds with
  | some b, some s => return ⟨(b.left + s.left) * (1 / 2) * dt, (b.right + s.right) * (1 / 2) * dt⟩
  | _, _ => .error "'NoneType' object is not subscriptable"

def travelled (now previous : Valid) (speeds : Option (Wheels ℚ)) : Except String (Wheels ℚ × Option (Wheels ℚ)) := do
  continues g now previous
  let dt := interval now previous
  match now.position, previous.position, g.countsPerMotorTurn with
  | some here, some there, some counts =>
    let travel ← countTravel t g counts (now.counterBits.getD 0) dt here there
    return (travel, speeds.or (some ⟨travel.left / dt, travel.right / dt⟩))
  | _, _, _ =>
    let before ← rpmSpeeds t g previous
    let travel ← speedTravel dt before speeds
    return (travel, speeds)

def advanced (s : WheelOdometry) (now : Valid) (speeds : Option (Wheels ℚ)) : Except String (Pose × Option (Wheels ℚ)) :=
  match s.previous with
  | none => return (s.pose, speeds)
  | some previous => do
    let (travel, speeds) ← travelled t g now previous speeds
    return (s.pose.integrate t travel g.trackWidthM, speeds)

def estimate (now : Valid) (pose : Pose) (speeds : Wheels ℚ) : MotionEstimate where
  stampNs := now.stampNs
  streamEpoch := now.streamEpoch
  sequence := now.sequence
  pose := pose
  linearVelocityMS := (speeds.left + speeds.right) / 2
  angularVelocityRadS := (speeds.right - speeds.left) / g.trackWidthM
  timeValid := true
  timeSource := now.timeSource
  uncertaintyNs := now.uncertaintyNs
  linearVelocityVariance := g.linearVelocityVariance
  angularVelocityVariance := g.angularVelocityVariance
  source := if now.position.isSome then "encoder_counts" else "actual_wheel_velocity"

/-- The checks of `_update`, in their order, and the state after them. -/
def WheelOdometry.accept (s : WheelOdometry) (o : WheelObservation) :
    Except String (Option MotionEstimate × WheelOdometry) := do
  let now ← o.validate
  let speeds ← rpmSpeeds t g now
  refuse (now.position.isSome ∧ g.countsPerMotorTurn = none) "position conversion requires encoder counts per motor revolution"
  let (pose, speeds) ← advanced t g s now speeds
  return (speeds.map (estimate g now pose), { s with previous := some now, pose := pose })

/-- `update`. A reason that is empty does not block. -/
def WheelOdometry.update (s : WheelOdometry) (o : WheelObservation) :
    Except String (Option MotionEstimate) × WheelOdometry :=
  match s.blocked.filter (· ≠ "") with
  | some reason => (.error ("motion model blocked: " ++ reason), s)
  | none =>
    match s.accept t g o with
    | .ok (result, s') => (.ok result, s')
    | .error reason => (.error reason, { s with blocked := some reason })

end update

end Smartwheel.Motion

import Mathlib.Data.Rat.Defs
import Mathlib.Algebra.Order.Ring.Rat
import Smartwheel.Effect.Check

/-! What the fusion node and the graph node send each other, and the checks of a message's times, transforms
and cloud. A double or float that is no finite number is `none`. -/
namespace Smartwheel.Graph

abbrev Check (α : Type) := Except String α

/-- Throws `reason` where `condition` is false. -/
def require (condition : Prop) [Decidable condition] (reason : String) : Check Unit :=
  if condition then .ok () else .error reason

theorem require_ok {condition : Prop} [Decidable condition] {reason : String} {u : Unit}
    (h : require condition reason = .ok u) : condition := by
  by_contra missing
  rw [require, if_neg missing] at h
  cases h

structure Stamp where
  sec : Int
  nanosec : Nat
deriving DecidableEq

structure Header where
  stamp : Stamp
  frameId : String
deriving DecidableEq

/-- A position and a quaternion: `Pose` and `Transform` of the messages, and a transform built from them. -/
structure Pose (α : Type) where
  x : α
  y : α
  z : α
  qx : α
  qy : α
  qz : α
  qw : α
deriving DecidableEq

structure PointField where
  name : String
  offset : Nat
  datatype : Nat
  count : Nat
deriving DecidableEq

structure PointCloud2 where
  header : Header
  height : Nat
  width : Nat
  fields : List PointField
  isBigendian : Bool
  pointStep : Nat
  rowStep : Nat
  data : List UInt8
deriving DecidableEq

structure FusionBundle where
  header : Header
  sessionId : String
  bundleId : Nat
  sourceMode : String
  sensorMode : String
  calibrationId : String
  leftClockModelId : String
  rightClockModelId : String
  leftRawKey : String
  rightRawKey : String
  leftTimeNs : Int
  rightTimeNs : Int
  tRefLeftSensor : Pose (Option ℚ)
  tRefRightSensor : Pose (Option ℚ)
  tRefRigAtLeftTime : Pose (Option ℚ)
  tRefRigAtRightTime : Pose (Option ℚ)
  compensationMode : String
  temporalErrorBoundValid : Bool
  temporalErrorBoundM : Option ℚ
  leftRetainedCount : Nat
  rightRetainedCount : Nat
  cloud : PointCloud2
  sourceCodes : List Nat
  calibrationValid : Bool
  timeValid : Bool
  dualValid : Bool
  rejectionReasons : List String
deriving DecidableEq

structure Odometry where
  header : Header
  childFrameId : String
  pose : Pose (Option ℚ)
  covariance : List (Option ℚ)
  twist : List (Option ℚ)
deriving DecidableEq

structure TrackingAssessment where
  header : Header
  sessionId : String
  bundleId : Nat
  odomEpoch : String
  trackingState : String
  accepted : Bool
  rejectionReasons : List String
  leftSolverInputCount : Nat
  rightSolverInputCount : Nat
  inliersAvailable : Bool
  inliers : Nat
  residualAvailable : Bool
  residual : Option ℚ
  degeneracyAvailable : Bool
  degeneracyMetric : Option ℚ
  odometry : Odometry
deriving DecidableEq

structure AcceptedBundle where
  bundle : FusionBundle
  tracking : TrackingAssessment
deriving DecidableEq

structure GraphNode where
  nodeId : Int
  odomEpoch : String
  bundleId : Nat
  rawKeys : List String
deriving DecidableEq

structure GraphSnapshot where
  header : Header
  sessionId : String
  graphEpoch : String
  sourceMode : String
  calibrationId : String
  leftClockModelId : String
  rightClockModelId : String
  revision : Nat
  nodes : List GraphNode
  rawIndexComplete : Bool
  rawIndexHash : String
deriving DecidableEq

def nanos (stamp : Stamp) : Check Int := do
  require (0 ≤ stamp.sec ∧ stamp.nanosec < 1000000000) "noncanonical or negative ROS time"
  return stamp.sec * 1000000000 + stamp.nanosec

def Pose.finite (p : Pose (Option ℚ)) : Option (Pose ℚ) := do
  return ⟨← p.x, ← p.y, ← p.z, ← p.qx, ← p.qy, ← p.qz, ← p.qw⟩

def transform (p : Pose (Option ℚ)) : Check (Pose ℚ) :=
  match p.finite with
  | none => .error "nonfinite pose or sensor transform"
  | some t => do
    require (|t.qx * t.qx + t.qy * t.qy + t.qz * t.qz + t.qw * t.qw - 1| ≤ 1/100000)
      "unnormalized transform quaternion"
    return t

/-- The value of a `float` with these 32 bits. -/
def float32 (bits : Nat) : Option ℚ :=
  let sign : ℚ := if bits.testBit 31 then -1 else 1
  let exponent : Nat := bits / 2^23 % 256
  let mantissa : Nat := bits % 2^23
  if exponent = 255 then none
  else if exponent = 0 then some (sign * mantissa / 2^149)
  else some (sign * (2^23 + mantissa) * 2^exponent / 2^150)

/-- The `float` that stands at `offset` in little-endian bytes. -/
def floatAt (data : List UInt8) (offset : Nat) : Option ℚ :=
  float32 (((data.drop offset).take 4).foldr (fun byte rest => byte.toNat + 256 * rest) 0)

/-- Where the field `name` stands in a point. -/
def axisOffset (cloud : PointCloud2) (name : String) : Check Nat := do
  match cloud.fields.find? (·.name = name) with
  | none => .error "scan requires real FLOAT32 xyz fields"
  | some found =>
    require (found.count = 1 ∧ found.datatype = 7 ∧ found.offset + 4 ≤ cloud.pointStep)
      "scan requires real FLOAT32 xyz fields"
    return found.offset

structure Scan where
  left : Nat := 0
  right : Nat := 0
  points : List (List ℚ) := []

def Scan.read (message : AcceptedBundle) (offsets : List Nat) (s : Scan) (index : Nat) : Check Scan := do
  let cloud := message.bundle.cloud
  let source := message.bundle.sourceCodes.getD index 0
  require (1 ≤ source ∧ source ≤ 3) "invalid point source mask"
  let offset := index / cloud.width * cloud.rowStep + index % cloud.width * cloud.pointStep
  match offsets.mapM fun axis => floatAt cloud.data (offset + axis) with
  | none => .error "accepted cloud contains invalid depth"
  | some point =>
    return { left := s.left + source % 2
             right := s.right + source / 2 % 2
             points := s.points ++ [point] }

def scan (maxPoints : Nat) (message : AcceptedBundle) : Check (List (List ℚ)) := do
  let cloud := message.bundle.cloud
  let count := cloud.width * cloud.height
  require (!cloud.isBigendian ∧ 20 ≤ count ∧ count ≤ maxPoints) "invalid scan endian/count"
  require (12 ≤ cloud.pointStep ∧ cloud.pointStep * cloud.width ≤ cloud.rowStep ∧
    cloud.data.length = cloud.rowStep * cloud.height) "invalid PointCloud2 byte layout"
  let offsets ← ["x", "y", "z"].mapM (axisOffset cloud)
  require (message.bundle.sourceCodes.length = count) "source provenance length differs from point count"
  let s ← (List.range count).foldlM (Scan.read message offsets) {}
  require (s.left ≠ 0 ∧ s.right ≠ 0 ∧ message.tracking.leftSolverInputCount ≠ 0 ∧
    message.tracking.rightSolverInputCount ≠ 0)
    "both sensors must actually participate in the common registration"
  return s.points

end Smartwheel.Graph

import Mathlib.LinearAlgebra.Matrix.Notation
import Smartwheel.Fusion.Core

/-! `MotionHistory` and `WheelTfBridge`: private wheel guesses for the native ICP, and the one relay of its poses. -/
namespace Smartwheel.Fusion.WheelTf

abbrev Rotation := Matrix (Fin 3) (Fin 3) ℚ
abbrev Vector := Fin 3 → ℚ

/-- What `scipy.spatial.transform.Rotation` computes, in exact arithmetic; it may refuse a matrix. -/
structure Rotations where
  magnitude : Rotation → Except Failure ℚ
  asRotvec : Rotation → Except Failure Vector
  fromRotvec : Vector → Rotation

/-- What only the motion history and the bridge read of `Policy`. -/
structure MotionPolicy where
  maxPredictionNs : Int := 150000000
  maxMotionSpeedMps : ℚ := 1/2
  maxMotionAngularRadps : ℚ := 1/2
  positive : 0 < maxPredictionNs ∧ 0 < maxMotionSpeedMps ∧ 0 < maxMotionAngularRadps

structure Config where
  policy : Policy
  motion : MotionPolicy
  rotations : Rotations
  rigAxle : Transform
  maxUncertaintyNs : Int
  placed : matrix (some rigAxle) = .ok rigAxle
  uncertainty_pos : 0 < maxUncertaintyNs

def Config.axleRig (c : Config) : Transform := inverse c.rigAxle
def Config.speedBound (c : Config) : ℚ := min c.policy.velocityBoundMps c.motion.maxMotionSpeedMps
def Config.angularBound (c : Config) : ℚ := min c.policy.angularBoundRadps c.motion.maxMotionAngularRadps

def position (t : Transform) : Vector := fun i => t i.castSucc 3

def squared (v : Vector) : ℚ := v 0 ^ 2 + v 1 ^ 2 + v 2 ^ 2

/-- The rows 0 to 2 are those of `r` and `p`. -/
def placed (t : Transform) (r : Rotation) (p : Vector) : Transform :=
  !![r 0 0, r 0 1, r 0 2, p 0; r 1 0, r 1 1, r 1 2, p 1; r 2 0, r 2 1, r 2 2, p 2; t 3 0, t 3 1, t 3 2, t 3 3]

/-- `_ns` as seconds. -/
def seconds (ns : Int) : ℚ := ns / 1000000000

structure Record where
  stampNs : Int
  parentFrame : String
  childFrame : String
  transform : Transform
  source : String
deriving DecidableEq

/-- A record as a caller gives it: a stamp that is no integer and a transform that is no array are `none`. -/
structure Given where
  stampNs : Option Int
  parentFrame : String
  childFrame : String
  transform : Option Transform
  source : String

def Record.given (r : Record) : Given := ⟨some r.stampNs, r.parentFrame, r.childFrame, some r.transform, r.source⟩

/-- `geometry_msgs/Pose`; a number that is not finite is `none`. -/
structure Pose where
  x : Option ℚ
  y : Option ℚ
  z : Option ℚ
  qx : Option ℚ
  qy : Option ℚ
  qz : Option ℚ
  qw : Option ℚ

/-- What the bridge reads of `nav_msgs/Odometry`. -/
structure Odometry where
  sec : Option Int
  nanosec : Option Int
  frameId : String
  childFrameId : String
  pose : Pose

/-- The dictionary of the diagnostics; a value that is absent or of another type is `none`. -/
structure Diagnostic where
  schema : Option String
  timeValid : Bool
  state : Option String
  timeSource : Option String
  stampNs : Option Int
  uncertaintyNs : Option Int
  streamEpoch : Option String
  sequence : Option Int

def positiveNs (value : Option Int) (name : String) (least : Int) : Except Failure Int := do
  let value ← needs value "TIME_MUST_BE_INTEGER_NS"
  rejectIf (value < least) (name ++ "_INVALID")
  return value

def Pose.values (p : Pose) : Option (Vector × ℚ × ℚ × ℚ × ℚ) := do
  return (![← p.x, ← p.y, ← p.z], ← p.qx, ← p.qy, ← p.qz, ← p.qw)

/-- `ros_pose_matrix`. The norm of the quaternion is compared by its square. -/
def rosPoseMatrix (pose : Pose) : Except Failure Transform := do
  let (p, x, y, z, w) ← needs pose.values "TF_POSE_NONFINITE"
  let n := x ^ 2 + y ^ 2 + z ^ 2 + w ^ 2
  rejectIf (n < (1 - 1/1000000) ^ 2 ∨ (1 + 1/1000000) ^ 2 < n) "TF_POSE_QUATERNION_INVALID"
  let r : Rotation := n⁻¹ • !![x ^ 2 - y ^ 2 - z ^ 2 + w ^ 2, 2 * (x * y - z * w), 2 * (x * z + y * w);
    2 * (x * y + z * w), - x ^ 2 + y ^ 2 - z ^ 2 + w ^ 2, 2 * (y * z - x * w);
    2 * (x * z - y * w), 2 * (y * z + x * w), - x ^ 2 - y ^ 2 + z ^ 2 + w ^ 2]
  return placed 1 r p

def messageStamp (message : Odometry) : Except Failure Int := do
  let sec ← needs message.sec "TIME_MUST_BE_INTEGER_NS"
  let nsec ← needs message.nanosec "TIME_MUST_BE_INTEGER_NS"
  rejectIf (¬(-2 ^ 31 ≤ sec ∧ sec < 2 ^ 31) ∨ ¬(0 ≤ nsec ∧ nsec < 1000000000)) "TF_ROS_STAMP_INVALID"
  positiveNs (some (sec * 1000000000 + nsec)) "STAMP" 1

/-- `MotionHistory`, oldest pose first. -/
structure History where
  poses : List (Int × Transform)
  epoch : Option String

/-- `MotionHistory.add`. -/
def History.add (h : History) (stamp : Int) (pose : Transform) (epoch : String) : Except Failure Unit × History :=
  match matrix (some pose) with
  | .error e => (.error e, h)
  | .ok pose =>
    if h.epoch.any (· ≠ epoch) then (reject "ODOM_EPOCH_CHANGED", ⟨[], some epoch⟩)
    else if h.poses.getLast?.any (stamp ≤ ·.1) then
      (reject "ODOM_TIME_NOT_INCREASING", { h with epoch := some epoch })
    else
      let poses := h.poses ++ [(stamp, pose)]
      (.ok (), ⟨poses.drop (poses.length - 3), some epoch⟩)

/-- `MotionHistory.predict`. -/
def History.predict (c : Config) (h : History) (stamp : Int) : Except Failure Transform :=
  match h.poses.reverse with
  | (t₁, p₁) :: (t₀, p₀) :: _ => do
    rejectIf (stamp < t₀ ∨ c.motion.maxPredictionNs < stamp - t₁) "PREDICTION_EXPIRED"
    let dt := seconds (t₁ - t₀)
    let velocity : Vector := dt⁻¹ • (position p₁ - position p₀)
    let delta ← c.rotations.asRotvec ((rotation p₀).transpose * rotation p₁)
    rejectIf (c.speedBound ^ 2 < squared velocity) "PREDICTION_SPEED_EXCEEDED"
    rejectIf ((c.angularBound * dt) ^ 2 < squared delta) "PREDICTION_ROTATION_EXCEEDED"
    let ratio : ℚ := (stamp - t₁ : Int) / (t₁ - t₀ : Int)
    return placed p₁ (rotation p₁ * c.rotations.fromRotvec (ratio • delta))
      (position p₁ + seconds (stamp - t₁) • velocity)
  | _ => reject "PREDICTION_NEEDS_COMPLETED_HISTORY"

section
variable {β : Type}

/-- `entries[stamp] = value`. -/
def put (entries : List (Int × β)) (stamp : Int) (value : β) : List (Int × β) :=
  if entries.any (·.1 = stamp) then entries.map fun e => if e.1 = stamp then (stamp, value) else e
  else entries ++ [(stamp, value)]

/-- `del entries[stamp]`. -/
def del (entries : List (Int × β)) (stamp : Int) : List (Int × β) := entries.filter (·.1 ≠ stamp)

end

/-- The attributes that change; `prepared` and `pending` have the oldest entry first. -/
structure State where
  history : History
  epoch : Option String
  sequence : Option Int
  latestReceiveMonotonicNs : Option Int
  blocked : Option String
  prepared : List (Int × Option String × Transform)
  pending : List (Int × Option String)
  lastPreparedNs : Option Int
  lastRegisteredNs : Option Int
  lastRelayedNs : Option Int

/-- `bool(self.blocked)`. -/
def State.isBlocked (s : State) : Bool := s.blocked.any (· ≠ "")

/-- `str(error)`. -/
def text : Failure → String
  | .fusion code => code
  | .other text => text

def guess (stamp : Int) (pose : Transform) : Record :=
  ⟨stamp, "wheel_odom", "rig_link", pose, "wheel_prediction_private_only"⟩

structure Observation where
  stamp : Int
  pose : Transform
  epoch : String
  sequence : Int
  monotonic : Int

section
variable (c : Config)

def State.active (s : State) : Except Failure Unit :=
  rejectIf s.isBlocked ("WHEEL_TF_BLOCKED:" ++ s.blocked.getD "")

/-- `_fresh`, with the time now. -/
def State.fresh (s : State) (now monotonic : Option Int) : Except Failure Int := do
  let now ← positiveNs now "NOW" 1
  let monotonic ← positiveNs monotonic "MONOTONIC" 0
  let received ← needs s.latestReceiveMonotonicNs "WHEEL_TF_NO_OBSERVATIONS"
  let (measured, _) ← needs s.history.poses.getLast? "WHEEL_TF_NO_OBSERVATIONS"
  rejectIf (¬(0 ≤ monotonic - received ∧ monotonic - received ≤ c.policy.maxAgeNs) ∨
    ¬(0 ≤ now - measured ∧ now - measured ≤ c.policy.maxAgeNs)) "WHEEL_TF_STALE_OR_CLOCK_JUMP"
  return now

def State.follows (s : State) (stamp : Int) (pose : Transform) : Except Failure Unit :=
  match s.history.poses.getLast? with
  | none => .ok ()
  | some (before, latest) => do
    rejectIf (stamp ≤ before ∨ c.policy.maxAgeNs < stamp - before) "WHEEL_TF_TIME_GAP_OR_RESET"
    let dt := seconds (stamp - before)
    rejectIf ((c.speedBound * dt) ^ 2 < squared (position pose - position latest)) "WHEEL_TF_MOTION_SPEED_EXCEEDED"
    let angle ← c.rotations.magnitude ((rotation latest).transpose * rotation pose)
    rejectIf (c.angularBound < angle / dt) "WHEEL_TF_MOTION_ROTATION_EXCEEDED"

/-- The checks of `observe_wheel`. -/
def State.observation (s : State) (message : Odometry) (d : Diagnostic) (now monotonic : Option Int) :
    Except Failure Observation := do
  let stamp ← messageStamp message
  let now ← positiveNs now "NOW" 1
  let monotonic ← positiveNs monotonic "MONOTONIC" 0
  rejectIf (message.frameId ≠ "wheel_odom" ∨ message.childFrameId ≠ "axle_link") "WHEEL_TF_FRAME_MISMATCH"
  rejectIf (d.schema ≠ some "wc_wheel_diagnostics_v1" ∨ d.timeValid = false ∨ d.state ≠ some "FEEDBACK")
    "WHEEL_TF_DIAGNOSTIC_INVALID"
  rejectIf (d.timeSource ≠ some "common_measurement" ∧ d.timeSource ≠ some "external_common_time")
    "WHEEL_TF_COMMON_TIME_MISMATCH"
  let measured ← positiveNs d.stampNs "DIAGNOSTIC_STAMP" 1
  rejectIf (measured ≠ stamp) "WHEEL_TF_COMMON_TIME_MISMATCH"
  let uncertainty ← positiveNs d.uncertaintyNs "UNCERTAINTY" 0
  rejectIf (c.maxUncertaintyNs < uncertainty ∨ ¬(0 ≤ now - stamp ∧ now - stamp ≤ c.policy.maxAgeNs))
    "WHEEL_TF_TIME_BUDGET_EXCEEDED"
  let sequence ← positiveNs d.sequence "SEQUENCE" 0
  let epoch ← needs (d.streamEpoch.filter (· ≠ "")) "WHEEL_TF_EPOCH_REQUIRED"
  rejectIf (s.epoch.any (· ≠ epoch) ∨ s.epoch.isSome ∧ s.sequence.any (sequence ≤ ·))
    "WHEEL_TF_EPOCH_OR_SEQUENCE_RESET"
  rejectIf (s.latestReceiveMonotonicNs.any (monotonic < ·)) "WHEEL_TF_MONOTONIC_CLOCK_RESET"
  let native ← rosPoseMatrix message.pose
  let pose := native * c.axleRig
  s.follows c stamp pose
  return ⟨stamp, pose, epoch, sequence, monotonic⟩

/-- `observe_wheel`, with what it returns or raises. -/
def State.observeWheel (s : State) (message : Odometry) (d : Diagnostic) (now monotonic : Option Int) :
    Except Failure Record × State :=
  match s.active with
  | .error e => (.error e, s)
  | .ok () =>
    match s.observation c message d now monotonic with
    | .error e => (.error e, { s with blocked := some (text e) })
    | .ok o =>
      match s.history.add o.stamp o.pose o.epoch with
      | (.error e, history) => (.error e, { s with history, blocked := some (text e) })
      | (.ok (), history) =>
        (.ok ⟨o.stamp, "wheel_odom", "rig_link", o.pose, "validated_wheel_pose_private_only"⟩,
          { s with
            history
            epoch := some o.epoch
            sequence := some o.sequence
            latestReceiveMonotonicNs := some o.monotonic })

/-- The checks of `prepare_guess`, and its prediction. -/
def State.prediction (s : State) (stamp now monotonic : Option Int) : Except Failure (Int × Transform) := do
  s.active
  let now ← s.fresh c now monotonic
  let stamp ← positiveNs stamp "ICP_INPUT_STAMP" 1
  rejectIf (s.lastPreparedNs.any (stamp ≤ ·)) "WHEEL_TF_ICP_INPUT_NOT_INCREASING"
  rejectIf (c.policy.maxQueue ≤ s.prepared.length + s.pending.length) "WHEEL_TF_PREPARED_QUEUE_FULL"
  rejectIf (¬(0 ≤ now - stamp ∧ now - stamp ≤ c.policy.maxAgeNs)) "WHEEL_TF_ICP_INPUT_STALE_OR_FUTURE"
  let pose ← s.history.predict c stamp
  return (stamp, pose)

/-- `prepare_guess`. -/
def State.prepareGuess (s : State) (stamp now monotonic : Option Int) : Except Failure Record × State :=
  match s.prediction c stamp now monotonic with
  | .error e => (.error e, s)
  | .ok (stamp, pose) =>
    (.ok (guess stamp pose), { s with
      prepared := put s.prepared stamp (s.epoch, pose)
      lastPreparedNs := some stamp })

/-- The oldest entry of `prepared`, if it has the stamp. -/
def State.oldest (s : State) (stamp : Int) : Option (Option String × Transform) :=
  match s.prepared with
  | [] => none
  | (first, entry) :: _ => if stamp = first then some entry else none

/-- The checks of `register_guess`, and the entry that was prepared. -/
def State.registration (s : State) (record : Given) : Except Failure (Int × Option String × Transform) := do
  s.active
  let stamp ← positiveNs record.stampNs "ICP_INPUT_STAMP" 1
  rejectIf (s.pending ≠ []) "WHEEL_TF_ICP_INPUT_ALREADY_IN_FLIGHT"
  let (epoch, pose) ← needs (s.oldest stamp) "WHEEL_TF_UNPREPARED_OR_REORDERED_GUESS"
  rejectIf (epoch ≠ s.epoch ∨ record.parentFrame ≠ "wheel_odom" ∨ record.childFrame ≠ "rig_link" ∨
    record.source ≠ "wheel_prediction_private_only") "WHEEL_TF_FROZEN_GUESS_CHANGED"
  let transform ← matrix record.transform
  rejectIf (transform ≠ pose) "WHEEL_TF_FROZEN_GUESS_CHANGED"
  rejectIf (s.lastRegisteredNs.any (stamp ≤ ·)) "WHEEL_TF_ICP_INPUT_NOT_INCREASING"
  return (stamp, epoch, pose)

/-- `register_guess`. -/
def State.registerGuess (s : State) (record : Given) : Except Failure Record × State :=
  match s.registration record with
  | .error e => (.error e, s)
  | .ok (stamp, epoch, pose) =>
    (.ok { guess stamp pose with source := record.source }, { s with
      prepared := del s.prepared stamp
      pending := put s.pending stamp epoch
      lastRegisteredNs := some stamp })

/-- The checks of `relay_native_odometry`. -/
def State.native (s : State) (message : Odometry) : Except Failure (Int × Transform) := do
  s.active
  let stamp ← messageStamp message
  rejectIf (message.frameId ≠ "odom" ∨ message.childFrameId ≠ "rig_link") "NATIVE_ICP_TF_FRAME_MISMATCH"
  rejectIf (s.pending.lookup stamp ≠ some s.epoch) "NATIVE_ICP_TF_UNEXPECTED_STAMP"
  rejectIf (s.lastRelayedNs.any (stamp ≤ ·)) "NATIVE_ICP_TF_DUPLICATE_OR_REVERSED"
  let pose ← rosPoseMatrix message.pose
  return (stamp, pose)

/-- `relay_native_odometry`. -/
def State.relayNativeOdometry (s : State) (message : Odometry) : Except Failure Record × State :=
  match s.native message with
  | .error e => (.error e, s)
  | .ok (stamp, pose) =>
    (.ok ⟨stamp, "odom", "rig_link", pose, "native_icp_pose_relay"⟩, { s with
      pending := del s.pending stamp
      lastRelayedNs := some stamp })

end

inductive Call where
  | observe (message : Odometry) (d : Diagnostic) (now monotonic : Option Int)
  | prepare (stamp now monotonic : Option Int)
  | register (record : Given)
  | guess (stamp now monotonic : Option Int)
  | relay (message : Odometry)

inductive Event where
  | prepared (record : Record) (seen : History)
  | registered (record : Record)
  | relayed (record : Record)

structure World where
  state : State
  log : List Event

section
variable (c : Config)

def World.prepare (w : World) (stamp now monotonic : Option Int) : Except Failure Record × World :=
  match w.state.prepareGuess c stamp now monotonic with
  | (.ok record, state) => (.ok record, ⟨state, .prepared record w.state.history :: w.log⟩)
  | (.error e, state) => (.error e, { w with state })

def World.register (w : World) (record : Given) : World :=
  match w.state.registerGuess record with
  | (.ok record, state) => ⟨state, .registered record :: w.log⟩
  | (.error _, state) => { w with state }

def World.relay (w : World) (message : Odometry) : World :=
  match w.state.relayNativeOdometry message with
  | (.ok record, state) => ⟨state, .relayed record :: w.log⟩
  | (.error _, state) => { w with state }

/-- A call of one of the methods; `guess_for_cloud` registers what it has prepared. -/
def World.call (w : World) : Call → World
  | .observe message d now monotonic => { w with state := (w.state.observeWheel c message d now monotonic).2 }
  | .prepare stamp now monotonic => (w.prepare c stamp now monotonic).2
  | .register record => w.register record
  | .guess stamp now monotonic =>
    match w.prepare c stamp now monotonic with
    | (.ok record, w) => w.register record.given
    | (.error _, w) => w
  | .relay message => w.relay message

def initial : World := ⟨⟨⟨[], none⟩, none, none, none, none, [], [], none, none, none⟩, []⟩

def run (calls : List Call) : World := calls.foldl (World.call c) initial

end

def Event.prepared? : Event → Option Record
  | .prepared record _ => some record
  | _ => none

def Event.registered? : Event → Option Record
  | .registered record => some record
  | _ => none

def Event.relayed? : Event → Option Record
  | .relayed record => some record
  | _ => none

def World.records (w : World) (stage : Event → Option Record) : List Record := (w.log.filterMap stage).reverse

def World.prepared (w : World) : List Record := w.records Event.prepared?
def World.registered (w : World) : List Record := w.records Event.registered?
def World.relayed (w : World) : List Record := w.records Event.relayed?

def State.waiting (s : State) : List Record := s.prepared.map fun (stamp, _, pose) => guess stamp pose

end Smartwheel.Fusion.WheelTf

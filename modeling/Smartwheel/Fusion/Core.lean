import Mathlib.Data.Finset.Basic
import Mathlib.Data.List.Sort
import Mathlib.Logic.Function.Basic
import Smartwheel.Effect.Program
import Smartwheel.Fusion.Geometry

/-! `DualFusion`: the checks of an arriving frame, two bounded sorted queues, the pairing of their heads and
the fusion of a pair. The history of what happened is kept beside the state, newest event first. -/
namespace Smartwheel.Fusion
open Effect

/-- `Policy`; what only the motion history reads is left out. -/
structure Policy where
  maxPairNs : Int := 20000000
  maxQueue : Nat := 8
  maxAgeNs : Int := 300000000
  minPointsPerSource : Nat := 20
  minRangeM : ℚ := 1/10
  maxRangeM : ℚ := 10
  velocityBoundMps : ℚ := 2/10
  angularBoundRadps : ℚ := 2/10
  maxTimeErrorM : ℚ := 2/100
  predictionErrorBoundM : ℚ := 3/1000
  counts_pos : 0 < maxPairNs ∧ 0 < maxQueue ∧ 0 < maxAgeNs ∧ 0 < minPointsPerSource
  ranges_pos : 0 < minRangeM ∧ 0 < maxRangeM
  bounds_pos : 0 < velocityBoundMps ∧ 0 < angularBoundRadps ∧ 0 < maxTimeErrorM ∧ 0 < predictionErrorBoundM
  range_lt : minRangeM < maxRangeM

inductive Side where
  | left | right
deriving DecidableEq, Repr

def Side.other : Side → Side
  | .left => .right
  | .right => .left

def Side.name : Side → String
  | .left => "left"
  | .right => "right"

inductive SourceMode where
  | real | synthetic
deriving DecidableEq, Repr

inductive Unread where
  | missing | malformed
deriving DecidableEq, Repr

abbrev Field (α : Type) := Except Unread α

/-- `frame[key]`, where `code` is raised for a value that is malformed. -/
def read {α : Type} (field : Field α) (code : String) : Except Failure α :=
  match field with
  | .ok a => .ok a
  | .error .missing => .error (.other "KeyError")
  | .error .malformed => reject code

def integerNs (field : Field Int) : Except Failure Int := read field "TIME_MUST_BE_INTEGER_NS"

/-- A frame as it arrives. `side` is `none` for any other side, `uncertaintyNs` for a value that is `None`,
and `streamEpoch` is empty where there is none. -/
structure Frame where
  side : Option Side
  sensorId : Field String
  sessionId : Field String
  clockModelId : Field String
  timeValid : Field Bool
  uncertaintyNs : Option (Field Int)
  timeSource : Field String
  commonTimeNs : Field Int
  hostMonotonicNs : Field Int
  streamEpoch : String
  frameSequence : Field Int
  points : Field (List Return)
  originalPoints : Field (List Return)
  representation : Option String
  filterConfigHash : Option String
  originalConfigHash : Option String
  sourceConfigHash : Option String

/-- A frame that `_check` accepted. -/
structure Checked where
  sensorId : String
  streamEpoch : String
  frameSequence : Int
  rawKey : String
  commonTimeNs : Int
  uncertaintyNs : Int
  hostMonotonicNs : Int
  points : List Point
  rawPoints : List Return
  rawCount : Nat
  validCount : Nat
  validIndices : List Nat
  originalPoints : List Return
  rayPoints : List Point
  rayIndices : List Nat
  filterConfigHash : Option String
  originalConfigHash : Option String
  sourceConfigHash : Option String

structure Config where
  policy : Policy
  sessionId : String
  sensorIds : Side → String
  clockModelIds : Side → String
  calibrationId : String
  sourceMode : SourceMode
  leftRight : Transform
  sensors_ne : sensorIds .left ≠ sensorIds .right
  calibrated : matrix (some leftRight) = .ok leftRight

def Config.extrinsics (c : Config) : Side → Transform
  | .left => 1
  | .right => c.leftRight

/-- The motion history that is attached while a frame is pushed; `predict` may reject with a code. -/
structure History where
  requiresPrediction : Bool
  mode : String
  predict : Int → Except String Transform

structure Observation where
  rawKey : String
  sensorId : String
  side : Side
  stampNs : Int
  points : List Point
  rawPoints : List Return
  refSensor : Transform
  refRigAtSource : Transform
  validIndices : List Nat
  originInRef : Point
  rawCount : Nat
  validCount : Nat
  solverInputCount : Nat
  sourceConfigHash : Option String
  filterConfigHash : Option String
  uncertaintyNs : Int

structure Bundle where
  sessionId : String
  bundleId : Nat
  tRefNs : Int
  sourceMode : SourceMode
  sensorMode : String
  calibrationId : String
  clockModelIds : Side → String
  frameId : String
  compensationMode : String
  temporalErrorBoundM : ℚ
  points : List Point
  sourceCodes : List Nat
  observations : List Observation
  sourceCounts : Side → Nat

/-- The attributes of `DualFusion` that change. `seenOrder` has the oldest key first. -/
structure State where
  queues : Side → List Checked
  epochs : Side → Option String
  seen : Finset String
  seenOrder : List String
  sequenceHighwater : Side × String → Option Int
  sequenceStampHighwater : Side × String → Option (Int × Int)
  lastSeenMonotonicNs : Side → Option Int
  startedMonotonicNs : Option Int
  lastBundleMonotonicNs : Option Int
  counts : String → Nat
  bundleCounter : Nat
  latchedReason : Option String

/-- `bool(self.latched_reason)`. -/
def State.latched (s : State) : Bool := s.latchedReason.any (· ≠ "")

inductive Event where
  | pushed (frame : Frame) (now : Int) (seen : State)
  | enqueued (side : Side) (f : Checked)
  | overflowed (side : Side) (f : Checked)
  | dropped (side : Side) (f : Checked) (opposite : List Checked)
  | emitted (bundle : Bundle) (l r : Checked) (now : Int) (seen : State)
  | cleared (counts : String → Nat)

structure World where
  state : State
  log : List Event

abbrev Act := Program World Failure

def World.onState (w : World) (f : State → State) : World := { w with state := f w.state }
def World.note (w : World) (e : Event) : World := { w with log := e :: w.log }

def change (f : State → State) : Act Unit := .modify fun w => w.onState f

def lift {α : Type} (x : Except Failure α) : Act α :=
  match x with
  | .ok a => return a
  | .error e => .raise e

def counted (reason : String) (s : State) : State :=
  { s with counts := Function.update s.counts reason (s.counts reason + 1) }

def emptied (s : State) : State := { s with queues := fun _ => [] }

def noteCleared : Act Unit := .modify fun w => w.note (.cleared w.state.counts)

def latch (reason : String) : Act Unit := do
  change fun s => counted reason (emptied { s with latchedReason := some reason })
  noteCleared

section
variable (c : Config)

/-- What `_check` has found before it looks at the stream. -/
structure Head where
  side : Side
  stamp : Int
  uncertainty : Int
  host : Int
  epoch : String

/-- `frame[key]` where `None` is rejected and nothing else is looked at yet. -/
def present (value : Option (Field Int)) (code : String) : Except Failure (Field Int) :=
  match value with
  | some (.error .missing) => .error (.other "KeyError")
  | some field => .ok field
  | none => reject code

def liveTime (frame : Frame) : Except Failure Unit :=
  if c.sourceMode = .real then do
    let source ← read frame.timeSource "LIVE_TIME_SOURCE_UNVALIDATED"
    rejectIf (source ≠ "validated_model") "LIVE_TIME_SOURCE_UNVALIDATED"
  else .ok ()

/-- The identity, time and age checks of `_check`. -/
def header (frame : Frame) (now : Int) : Except Failure Head := do
  let side ← needs frame.side "SOURCE_IDENTITY_MISMATCH"
  let sensor ← read frame.sensorId "SOURCE_IDENTITY_MISMATCH"
  rejectIf (sensor ≠ c.sensorIds side) "SOURCE_IDENTITY_MISMATCH"
  let session ← read frame.sessionId "SOURCE_SESSION_MISMATCH"
  rejectIf (session ≠ c.sessionId) "SOURCE_SESSION_MISMATCH"
  let clockModel ← read frame.clockModelId "CLOCK_MODEL_MISMATCH"
  rejectIf (clockModel ≠ c.clockModelIds side) "CLOCK_MODEL_MISMATCH"
  let valid ← read frame.timeValid "TIME_UNVALIDATED"
  rejectIf (!valid) "TIME_UNVALIDATED"
  let uncertainty ← present frame.uncertaintyNs "TIME_UNVALIDATED"
  liveTime c frame
  let stamp ← integerNs frame.commonTimeNs
  let uncertainty ← integerNs uncertainty
  rejectIf (uncertainty < 0) "NEGATIVE_UNCERTAINTY"
  let host ← integerNs frame.hostMonotonicNs
  rejectIf (now - host < 0 ∨ c.policy.maxAgeNs < now - host) "SOURCE_STALE_OR_MONOTONIC_DOMAIN_MISMATCH"
  rejectIf (frame.streamEpoch = "") "MISSING_STREAM_EPOCH"
  return ⟨side, stamp, uncertainty, host, frame.streamEpoch⟩

def rawKey (side : Side) (epoch : String) (seq : Int) : String :=
  let sensor := c.sensorIds side
  s!"{sensor}/{epoch}/{seq}"

def State.tooOld (s : State) (p : Policy) (stream : Side × String) (seq : Int) : Prop :=
  seq ≤ (s.sequenceHighwater stream).getD (-1) - p.maxQueue * 4

instance (s : State) (p : Policy) (stream : Side × String) (seq : Int) :
    Decidable (s.tooOld p stream seq) := inferInstanceAs (Decidable (_ ≤ _))

/-- The frame is recorded, and the oldest keys beyond `max_queue * 16` are forgotten. -/
def recorded (p : Policy) (stream : Side × String) (seq stamp : Int) (key : String) (s : State) : State :=
  let order := s.seenOrder ++ [key]
  let excess := order.length - p.maxQueue * 16
  { s with
    sequenceHighwater := Function.update s.sequenceHighwater stream
      (some (max seq ((s.sequenceHighwater stream).getD (-1))))
    sequenceStampHighwater :=
      if (s.sequenceStampHighwater stream).all fun high => high.1 < seq then
        Function.update s.sequenceStampHighwater stream (some (seq, stamp))
      else s.sequenceStampHighwater
    seen := (order.take excess).foldl Finset.erase (insert key s.seen)
    seenOrder := order.drop excess }

/-- The stream checks of `_check`: epoch, sequence, time jump, duplicates. -/
def enroll (frame : Frame) (head : Head) : Act (Int × String) := do
  let w ← .get
  change fun s => { s with epochs := Function.update s.epochs head.side (some head.epoch) }
  .raiseIf ((w.state.epochs head.side).any (· ≠ head.epoch)) (.fusion "STREAM_EPOCH_CHANGED")
  let seq ← lift (integerNs frame.frameSequence)
  .raiseIf (seq < 0) (.fusion "NEGATIVE_SEQUENCE")
  let key := rawKey c head.side head.epoch seq
  let stream := (head.side, head.epoch)
  .raiseIf ((w.state.sequenceStampHighwater stream).any fun high => high.1 < seq ∧ head.stamp ≤ high.2)
    (.fusion "SOURCE_TIME_JUMP")
  .raiseIf (key ∈ w.state.seen ∨ w.state.tooOld c.policy stream seq) (.fusion "DUPLICATE_OR_TOO_OLD_FRAME")
  change (recorded c.policy stream seq head.stamp key)
  return (seq, key)

def within (p : Policy) (points : List Return) : List (Point × Nat) :=
  points.zipIdx.filterMap fun (row, i) => do
    let point ← row.point
    if p.minRangeM^2 ≤ point.squared ∧ point.squared ≤ p.maxRangeM^2 then return (point, i) else none

/-- `frame.get('original_points', points)`. -/
def originals (frame : Frame) (points : List Return) : Except Failure (List Return) :=
  match frame.originalPoints with
  | .error .missing => .ok points
  | field => read field "INVALID_ORIGINAL_POINTS_SHAPE"

/-- The point checks of `_check`, and its result. -/
def measured (frame : Frame) (head : Head) (seq : Int) (key : String) : Except Failure Checked := do
  let points ← read frame.points "INVALID_POINTS_SHAPE"
  let kept := within c.policy points
  rejectIf (kept.length < c.policy.minPointsPerSource) "SOURCE_TOO_FEW_VALID_POINTS"
  rejectIf ((frame.representation = some "host_filtered" ∨ frame.filterConfigHash.any (· ≠ "")) ∧
    frame.originalPoints matches .error .missing) "FILTERED_INPUT_REQUIRES_ORIGINAL_RAYS"
  let original ← originals frame points
  let rays := within c.policy original
  rejectIf (rays.length < c.policy.minPointsPerSource) "SOURCE_TOO_FEW_ORIGINAL_RETURNS"
  return {
    sensorId := c.sensorIds head.side
    streamEpoch := head.epoch
    frameSequence := seq
    rawKey := key
    commonTimeNs := head.stamp
    uncertaintyNs := head.uncertainty
    hostMonotonicNs := head.host
    points := kept.map (·.1)
    rawPoints := points
    rawCount := points.length
    validCount := kept.length
    validIndices := kept.map (·.2)
    originalPoints := original
    rayPoints := rays.map (·.1)
    rayIndices := rays.map (·.2)
    filterConfigHash := frame.filterConfigHash
    originalConfigHash := frame.originalConfigHash
    sourceConfigHash := frame.sourceConfigHash }

/-- `_check`. -/
def check (frame : Frame) (now : Int) : Act (Side × Checked) := do
  let head ← lift (header c frame now)
  let (seq, key) ← enroll c frame head
  let checked ← lift (measured c frame head seq key)
  return (head.side, checked)

end
end Smartwheel.Fusion

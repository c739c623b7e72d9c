import Smartwheel.Sensors.ClockAdapter
import Smartwheel.Sensors.PointCloud

/-! `SourceGate` and `forward_frame`: frames of one source are checked, archived and published; the first failure ends it. -/
namespace Smartwheel.Mapping.Gate
open Effect
open Smartwheel.Calibration (strip)
open Smartwheel.Sensors (PointCloud.Message PointCloud.validate PointCloud.decode PointCloud.Layout)
open Smartwheel.Sensors.ClockAdapter (isHash)

def maxFrames : ℕ := 12000

def maxCloudPoints : ℕ := 320 * 240

def maxCloudBytes : ℕ := maxCloudPoints * 16

def staleNs : ℤ := 3000000000

def startupNs : ℤ := 15000000000

/-- `_uint`. -/
def uint (value : ℤ) (reason : String) : Except String ℤ := do
  require (0 ≤ value) reason
  return value

structure Stamp where
  sec : ℤ
  nanosec : ℤ

/-- `_stamp`. -/
def stampOf (value : Stamp) : Except String ℤ := do
  let sec ← uint value.sec "INVALID_HEADER_SECONDS"
  let nsec ← uint value.nanosec "INVALID_HEADER_NANOSECONDS"
  require (nsec < 1000000000) "INVALID_HEADER_NANOSECONDS"
  return sec * 1000000000 + nsec

/-- `wc_interfaces/msg/SourceFrame`. -/
structure SourceFrame where
  sessionId : String
  side : String
  sensorId : String
  units : String
  coordinateConvention : String
  timeSource : String
  commonTimeValid : Bool
  uncertaintyValid : Bool
  clockModelId : String
  frameId : String
  stamp : Stamp
  cloudFrameId : String
  cloudStamp : Stamp
  cloud : PointCloud.Message
  isDense : Bool
  hostReceiveTime : Stamp
  commonTimeNs : ℤ
  hostMonotonicNs : ℤ
  frameSequence : ℤ
  streamEpoch : String
  sourceConfigHash : String
  rawCount : ℤ
  validCount : ℤ

structure Accepted where
  streamEpoch : String
  sourceConfigHash : String
  sequence : ℤ
  host : ℤ
  stamp : ℤ
deriving DecidableEq

structure Metadata where
  rawKey : String × String × String × ℤ
  side : String
  frameId : String
  accepted : Accepted
  guardReceiveMonotonicNs : ℤ
  rawCount : ℤ
  validCount : ℤ
  cloudDataSha256 : String

inductive State
  | starting
  | running
  | failed
  | stopped
deriving DecidableEq

structure SourceGate where
  continuousMapping : Bool
  sessionId : String
  side : String
  sensorId : String
  /-- Nothing is dropped where it is zero. -/
  periodNs : ℕ
  startedNs : ℤ
  failureReason : Option String
  state : State
  last : Option Accepted
  lastReceivedMonotonicNs : Option ℤ
  lastPublishedStampNs : Option ℤ
  lastForwardedHostNs : Option ℤ
  receivedFrames : ℕ
  validatedFrames : ℕ
  throttledFrames : ℕ
  archivedFrames : ℕ
  publishedFrames : ℕ
  sequenceGaps : ℤ
  invalidXyzPoints : ℤ

structure SourceGate.Fresh (g : SourceGate) : Prop where
  failureReason : g.failureReason = none
  state : g.state = .starting
  last : g.last = none
  forwarded : g.lastForwardedHostNs = none

inductive Event
  | accepted (frame : Accepted)
  | archived (frame : Accepted)
  | published (frame : Accepted)
deriving DecidableEq

structure World where
  gate : SourceGate
  events : List Event

abbrev Act := Program World String

def lift {α : Type} (x : Except String α) : Act α :=
  match x with
  | .ok a => pure a
  | .error e => .raise e

def update (f : SourceGate → SourceGate) : Act Unit := .modify fun w => { w with gate := f w.gate }

def log (e : Event) : Act Unit := .modify fun w => { w with events := w.events ++ [e] }

namespace SourceGate

/-- `fail`: the first reason stays. -/
def fail (g : SourceGate) (reason : String) : SourceGate :=
  { g with failureReason := g.failureReason.or (some reason), state := .failed }

def active (g : SourceGate) : Except String Unit := do
  match g.failureReason with
  | some reason => .error (if reason = "" then "INPUT_FAILED" else reason)
  | none => require (g.state ≠ .stopped) "INPUT_ALREADY_STOPPED"

def staleReason (g : SourceGate) (nowNs : ℤ) : Option String :=
  match g.last with
  | none => if startupNs < nowNs - g.startedNs then some "SOURCE_STARTUP_TIMEOUT" else none
  | some last => if staleNs < nowNs - last.host then some "SOURCE_STALE" else none

def accept (g : SourceGate) (frame : Accepted) (invalidXyz : ℤ) : SourceGate :=
  { g with
    sequenceGaps := g.sequenceGaps + (g.last.map fun last => frame.sequence - last.sequence - 1).getD 0
    last := some frame
    validatedFrames := g.validatedFrames + 1
    invalidXyzPoints := g.invalidXyzPoints + invalidXyz
    state := .running }

def receive (g : SourceGate) (nowNs : ℤ) : SourceGate :=
  { g with receivedFrames := g.receivedFrames + 1, lastReceivedMonotonicNs := some nowNs }

def throttle (g : SourceGate) : SourceGate := { g with throttledFrames := g.throttledFrames + 1 }

def archive (g : SourceGate) : SourceGate := { g with archivedFrames := g.archivedFrames + 1 }

def publish (g : SourceGate) (host stamp : ℤ) : SourceGate :=
  { g with publishedFrames := g.publishedFrames + 1, lastForwardedHostNs := some host, lastPublishedStampNs := some stamp }

def tooEarly (g : SourceGate) (host : ℤ) : Bool :=
  g.periodNs ≠ 0 && g.lastForwardedHostNs.any fun forwarded => decide (host - forwarded < g.periodNs)

end SourceGate

section inspect
variable {F : Type} (number : ℕ → ℕ → F) (finite : F → Bool) (sha256 : List UInt8 → String)

def times (g : SourceGate) (m : SourceFrame) (nowNs : ℤ) : Except String (ℤ × ℤ × ℤ) := do
  require (m.sessionId = g.sessionId ∧ m.side = g.side ∧ m.sensorId = g.sensorId) "SOURCE_IDENTITY_MISMATCH"
  require (m.units = "m" ∧ m.coordinateConvention = "FLU") "SOURCE_UNITS_OR_AXES_MISMATCH"
  require (m.timeSource = "arrival_only" ∧ m.commonTimeValid = false ∧ m.uncertaintyValid = false ∧ m.clockModelId = "")
    "SOURCE_NOT_EXPLICIT_ARRIVAL_ONLY"
  require (m.frameId = "lidar_" ++ g.side ∧ m.cloudFrameId = m.frameId) "SOURCE_FRAME_ID_MISMATCH"
  let stamp ← stampOf m.stamp
  require (0 < stamp) "SOURCE_HEADER_TIME_MISMATCH"
  let cloud ← stampOf m.cloudStamp
  require (cloud = stamp) "SOURCE_HEADER_TIME_MISMATCH"
  let received ← stampOf m.hostReceiveTime
  require (received = stamp) "SOURCE_HEADER_TIME_MISMATCH"
  require (m.commonTimeNs = stamp) "ARRIVAL_TIME_METADATA_MISMATCH"
  let host ← uint m.hostMonotonicNs "INVALID_HOST_MONOTONIC"
  require (0 ≤ nowNs - host ∧ (g.continuousMapping ∨ nowNs - host ≤ staleNs)) "SOURCE_STALE_OR_FUTURE"
  require (g.last.isSome ∨ g.continuousMapping ∨ nowNs - g.startedNs ≤ startupNs) "SOURCE_STARTUP_TIMEOUT"
  let seq ← uint m.frameSequence "INVALID_SEQUENCE"
  return (stamp, host, seq)

def order (last : Option Accepted) (frame : Accepted) : Except String Unit :=
  match last with
  | none => return ()
  | some last => do
    require (frame.streamEpoch = last.streamEpoch ∧ frame.sourceConfigHash = last.sourceConfigHash)
      "STREAM_EPOCH_OR_CONFIG_CHANGED"
    require (last.sequence < frame.sequence) "NONMONOTONIC_SOURCE_SEQUENCE"
    require (last.host < frame.host ∧ last.stamp < frame.stamp) "NONMONOTONIC_SOURCE_TIME"

def cloudCounts (m : SourceFrame) : Except String (ℤ × ℤ) := do
  let layout ← PointCloud.validate m.cloud
  require (0 < layout.pointCount ∧ layout.pointCount ≤ maxCloudPoints ∧ m.cloud.data.length ≤ maxCloudBytes)
    "CLOUD_SIZE_OUT_OF_BOUNDS"
  require (∃ intensity ∈ layout.fields.lookup "intensity", intensity.count = 1 ∧ intensity.datatype ∈ [7, 8])
    "INTENSITY_SCHEMA_REQUIRED"
  let rawCount ← uint m.rawCount "INVALID_RAW_COUNT"
  let validCount ← uint m.validCount "INVALID_VALID_COUNT"
  require (rawCount = layout.pointCount ∧ 0 < validCount ∧ validCount ≤ rawCount) "SOURCE_POINT_COUNTS_MISMATCH"
  let xyz ← PointCloud.decode number m.cloud
  let measured : ℤ := xyz.countP fun p => finite p.1 && finite p.2.1 && finite p.2.2
  require (measured = validCount) "FINITE_XYZ_COUNT_MISMATCH"
  require (m.isDense = false ∨ measured = rawCount) "CLOUD_DENSITY_FLAG_MISMATCH"
  return (rawCount, validCount)

def checks (g : SourceGate) (m : SourceFrame) (nowNs : ℤ) : Except String (Accepted × ℤ × ℤ) := do
  let (stamp, host, seq) ← times g m nowNs
  require (0 < (strip m.streamEpoch).length ∧ (strip m.streamEpoch).length ≤ 256) "EMPTY_OR_INVALID_STREAM_EPOCH"
  require (isHash m.sourceConfigHash) "INVALID_SOURCE_CONFIG_HASH"
  let frame : Accepted := ⟨m.streamEpoch, m.sourceConfigHash, seq, host, stamp⟩
  order g.last frame
  let (rawCount, validCount) ← cloudCounts number finite m
  return (frame, rawCount, validCount)

/-- The end of an `except` block. -/
def failWith {α : Type} (e : String) : Act α := do
  update fun g => g.fail e
  let w ← .get
  .raise (w.gate.failureReason.getD e)

/-- The part of `inspect` under `try`. -/
def inspected (m : SourceFrame) (nowNs : ℤ) : Act (Option Metadata) := do
  let w ← .get
  let (frame, rawCount, validCount) ← lift (checks number finite w.gate m nowNs)
  update fun g => g.accept frame (rawCount - validCount)
  log (.accepted frame)
  let w ← .get
  if w.gate.tooEarly frame.host then do
    update fun g => g.throttle
    return none
  else do
    .raiseIf (¬(w.gate.continuousMapping ∨ w.gate.archivedFrames < maxFrames)) "FRAME_ARCHIVE_LIMIT_REACHED"
    return some {
      rawKey := (w.gate.sessionId, w.gate.sensorId, frame.streamEpoch, frame.sequence)
      side := w.gate.side
      frameId := m.frameId
      accepted := frame
      guardReceiveMonotonicNs := nowNs
      rawCount := rawCount
      validCount := validCount
      cloudDataSha256 := sha256 m.cloud.data }

def ensureActive : Act Unit := do
  let w ← .get
  lift w.gate.active

def inspect (m : SourceFrame) (nowNs : ℤ) : Act (Option Metadata) := do
  ensureActive
  update fun g => g.receive nowNs
  (inspected number finite sha256 m nowNs).handle failWith

def checkStale (nowNs : ℤ) : Act Unit := do
  ensureActive
  let w ← .get
  if w.gate.continuousMapping then return ()
  else
    match w.gate.staleReason nowNs with
    | some reason => do
      update fun g => g.fail reason
      .raise reason
    | none => return ()

structure Surroundings where
  first : ℤ
  second : ℤ
  serialize : Option String
  append : Option String
  publish : Option String

def attempt (failure : Option String) : Act Unit :=
  match failure with
  | some e => .raise e
  | none => return ()

/-- The part of `forward_frame` under `try`. -/
def forwarded (m : SourceFrame) (s : Surroundings) : Act Bool := do
  match ← inspect number finite sha256 m s.first with
  | none => return false
  | some metadata => do
    attempt s.serialize
    attempt s.append
    log (.archived metadata.accepted)
    update fun g => g.archive
    checkStale s.second
    attempt s.publish
    log (.published metadata.accepted)
    update fun g => g.publish m.hostMonotonicNs metadata.accepted.stamp
    return true

/-- `forward_frame`. -/
def forwardFrame (m : SourceFrame) (s : Surroundings) : Act Bool := (forwarded number finite sha256 m s).handle failWith

end inspect

inductive Input
  | forward (m : SourceFrame) (s : Surroundings)
  | stale (nowNs : ℤ)
  | fail (reason : String)
  | stop

section run
variable {F : Type} (number : ℕ → ℕ → F) (finite : F → Bool) (sha256 : List UInt8 → String)

def act : Input → Act Unit
  | .forward m s => do
    let _ ← forwardFrame number finite sha256 m s
    return ()
  | .stale nowNs => checkStale nowNs
  | .fail reason => update fun g => g.fail reason
  | .stop => update fun g => if g.failureReason = none then { g with state := .stopped } else g

def run (w : World) (inputs : List Input) : World := inputs.foldl (fun w input => (act number finite sha256 input w).2) w

end run

end Smartwheel.Mapping.Gate

import Smartwheel.Mapping.Gate
import Smartwheel.Modbus.Exchange

/-! `GravityBootstrap`: a window of resting IMU samples, each with a fresh zero feedback of the wheels, and the owner that the
first failure ends. -/
namespace Smartwheel.Mapping.Bootstrap
open Effect
open Smartwheel.Calibration (Value Fields strip)
open Smartwheel.Mapping.Gate (Stamp stampOf uint startupNs)
open Smartwheel.Modbus (Word parseExchange query)
open Smartwheel.Sensors.ClockAdapter (isFalse)

def bootWindowNs : ℤ := 2000000000

def bootGapNs : ℤ := 500000000

def maxWindowSamples : ℕ := 2000

structure Config where
  sessionId : String
  imuSensorId : String
  wheelDeviceId : String
  continuousMapping : Bool
  manualArmAllowed : Bool

structure Numbers (F : Type) where
  finite : F → Bool
  norm : F × F × F → F
  le : F → F → Bool
  /-- The bounds of a gyro norm and of an acceleration norm: .05, 8 and 12. -/
  maxGyro : F
  lowGravity : F
  highGravity : F
  sum : List (F × F × F) → F × F × F
  divide : F × F × F → ℕ → F × F × F

/-- `np.mean(.., axis=0)`. -/
def Numbers.mean {F : Type} (numbers : Numbers F) (rows : List (F × F × F)) : F × F × F :=
  numbers.divide (numbers.sum rows) rows.length

structure Wheel where
  words : List Word
  host : ℤ
  stamp : ℤ
  sequence : ℤ
  epoch : String
deriving DecidableEq

def Wheel.zero (w : Wheel) : Bool := w.words = [0, 0]

structure ImuFrame (F : Type) where
  sessionId : String
  sensorId : String
  frameId : String
  imuFrameId : String
  coordinateConvention : String
  timeSource : String
  commonTimeValid : Bool
  uncertaintyValid : Bool
  commonTimeNs : ℤ
  stamp : Stamp
  imuStamp : Stamp
  hostReceiveTime : Stamp
  hostMonotonicNs : ℤ
  frameSequence : ℤ
  streamEpoch : String
  angularVelocityValid : Bool
  linearAccelerationValid : Bool
  angularVelocity : F × F × F
  linearAcceleration : F × F × F
  rawPacket : List UInt8

structure Sample (F : Type) where
  epoch : String
  sequence : ℤ
  stamp : ℤ
  host : ℤ
  gyro : F × F × F
  acceleration : F × F × F
  raw : List UInt8

structure Ready (F T : Type) where
  windowHostSpanNs : Option ℤ
  windowResets : ℕ
  imuSequenceGaps : ℤ
  wheelSequenceGaps : ℤ
  samples : List (Sample F)
  wheels : List Wheel
  mean : Option (F × F × F)
  transforms : T

structure Boot (F T : Type) where
  startedNs : ℤ
  lastImu : Option (Sample F)
  lastWheel : Option Wheel
  window : List (Sample F)
  /-- By sequence, in the order in which they came. -/
  wheels : List Wheel
  ready : Option (Ready F T)
  resets : ℕ
  imuSequenceGaps : ℤ
  wheelSequenceGaps : ℤ

inductive Event (F : Type)
  | imu (sample : Sample F) (nowNs : ℤ) (wheel : Option Wheel)
  | wheel (record : Wheel)

structure World (F T : Type) where
  boot : Boot F T
  failure : Option String
  events : List (Event F)

abbrev Act (F T : Type) := Program (World F T) String

namespace Boot
variable {F T : Type}

/-- `reset`. -/
def reset (b : Boot F T) : Boot F T :=
  { b with resets := if b.window.isEmpty then b.resets else b.resets + 1, window := [], wheels := [] }

/-- `self.wheels[sequence] = record`. -/
def keep (wheels : List Wheel) (record : Wheel) : List Wheel :=
  if wheels.any fun w => w.sequence = record.sequence then
    wheels.map fun w => if w.sequence = record.sequence then record else w
  else wheels ++ [record]

def append (b : Boot F T) (sample : Sample F) (record : Wheel) : Boot F T :=
  { b with window := b.window ++ [sample], wheels := keep b.wheels record }

def follow (b : Boot F T) (sequence host : ℤ) : Boot F T :=
  match b.lastImu with
  | none => b
  | some last =>
    let counted := { b with imuSequenceGaps := b.imuSequenceGaps + (sequence - last.sequence - 1) }
    if bootGapNs < host - last.host ∧ b.ready.isNone then counted.reset else counted

def turn (b : Boot F T) (record : Wheel) : Boot F T :=
  let counted := { b with
    wheelSequenceGaps := b.wheelSequenceGaps + (b.lastWheel.map fun last => record.sequence - last.sequence - 1).getD 0
    lastWheel := some record }
  if record.zero = false ∧ b.ready.isNone then counted.reset else counted

end Boot

section parts
variable {F T : Type}

def lift {α : Type} (x : Except String α) : Act F T α :=
  match x with
  | .ok a => pure a
  | .error e => .raise e

def update (f : Boot F T → Boot F T) : Act F T Unit := .modify fun w => { w with boot := f w.boot }

def log (e : Event F) : Act F T Unit := .modify fun w => { w with events := w.events ++ [e] }

end parts

/-- `value[key]`. -/
def item (value : Fields) (key : String) : Except String Value :=
  match value.lookup key with
  | some v => .ok v
  | none => .error ("'" ++ key ++ "'")

def uintValue (value : Value) (reason : String) : Except String ℤ :=
  match value with
  | .int n => uint n reason
  | _ => .error reason

def epochOf (value : Value) (reason : String) : Except String String :=
  match value with
  | .text s => do
    require (0 < (strip s).length ∧ (strip s).length ≤ 256) reason
    return s
  | _ => .error reason

def sameWord : Value → Word → Bool
  | .int n, w => n == w.toNat
  | .float q, w => q == w.toNat
  | .bool b, w => (if b then 1 else 0) == w.toNat
  | _, _ => false

def sameWords : Value → List Word → Bool
  | .list items, words => items.length == words.length && (items.zip words).all fun p => sameWord p.1 p.2
  | _, _ => false

section wheel
-- `json.loads`, `bytes.fromhex` and the SHA256 of bytes
variable (loads : String → Except String Value) (fromHex : Value → Except String (List Modbus.Byte))
  (sha256 : List Modbus.Byte → String) (config : Config)

def dictOf (value : Value) : Except String Fields := do
  let value ← match value with
    | .text s => do
      require (s.utf8ByteSize ≤ 16384) "WHEEL_RECORD_OVERSIZED"
      loads s
    | value => .ok value
  match value with
  | .object fields => return fields
  | _ => .error "WHEEL_IDENTITY_MISMATCH"

def transmissionsAllowed (value : Fields) : Bool :=
  match value.get "control_transmissions" with
  | .int n =>
    let manual := config.manualArmAllowed && (value.get "control_context").isText "user_manual_mapping" &&
      (value.get "session_id").isText config.sessionId
    decide (0 ≤ n) && (decide (n = 0) || manual)
  | _ => false

def wheelRecord (value : Value) (nowNs : ℤ) : Except String Wheel := do
  let value ← dictOf loads value
  require ((value.get "schema").isText "wc_wheel_feedback_v1" ∧ (value.get "device_id").isText config.wheelDeviceId)
    "WHEEL_IDENTITY_MISMATCH"
  require ((value.get "status").isText "RESPONSE_VALID" ∧ (value.get "time_source").isText "arrival_only" ∧
      isFalse (value.get "time_valid") ∧ isFalse (value.get "formal_odometry_eligible") ∧ transmissionsAllowed config value)
    "WHEEL_NOT_READ_ONLY_ARRIVAL_FEEDBACK"
  require ((value.get "request_hex").isText "010320ab0002be2b") "WHEEL_REQUEST_MISMATCH"
  let response ← fromHex (← item value "response_hex")
  let words ← (parseExchange query response).mapError Fault.text
  require ((value.get "response_sha256").isText (sha256 response) ∧ sameWords (value.get "register_words_u16") words)
    "WHEEL_RESPONSE_METADATA_MISMATCH"
  let host ← uintValue (← item value "receive_monotonic_ns") "INVALID_WHEEL_HOST_TIME"
  let stamp ← uintValue (← item value "stamp_ns") "INVALID_WHEEL_STAMP"
  let seq ← uintValue (← item value "sequence") "INVALID_WHEEL_SEQUENCE"
  let epoch ← epochOf (value.get "stream_epoch") "INVALID_WHEEL_EPOCH"
  require (0 ≤ nowNs - host ∧ (config.continuousMapping ∨ nowNs - host ≤ bootGapNs)) "WHEEL_STALE_OR_FUTURE"
  return ⟨words, host, stamp, seq, epoch⟩

def wheelOrder (last : Option Wheel) (record : Wheel) : Except String Unit :=
  match last with
  | none => return ()
  | some last =>
    require (record.epoch = last.epoch ∧ last.sequence < record.sequence ∧ last.host < record.host ∧ last.stamp < record.stamp)
      "WHEEL_EPOCH_OR_TIME_CHANGED"

/-- `wheel`. -/
def wheel {F T : Type} (value : Value) (nowNs : ℤ) : Act F T Unit := do
  let record ← lift (wheelRecord loads fromHex sha256 config value nowNs)
  let w ← .get
  lift (wheelOrder w.boot.lastWheel record)
  log (.wheel record)
  update fun b => b.turn record

end wheel

section imu
variable {F T : Type} (numbers : Numbers F) (transforms : F × F × F → Except String T) (config : Config)

def finiteVector (v : F × F × F) (reason : String) : Except String Unit :=
  require (numbers.finite v.1 ∧ numbers.finite v.2.1 ∧ numbers.finite v.2.2) reason

def imuSample (m : ImuFrame F) (nowNs : ℤ) : Except String (Sample F) := do
  require (m.sessionId = config.sessionId ∧ m.sensorId = config.imuSensorId) "IMU_IDENTITY_MISMATCH"
  require (m.frameId = "imu_h30_native" ∧ m.imuFrameId = "imu_h30_native" ∧
    m.coordinateConvention = "H30_NATIVE_UNVALIDATED") "IMU_AXES_OR_FRAME_MISMATCH"
  require (m.timeSource = "arrival_only" ∧ m.commonTimeValid = false ∧ m.uncertaintyValid = false ∧ m.commonTimeNs = 0)
    "IMU_NOT_EXPLICIT_ARRIVAL_ONLY"
  let stamp ← stampOf m.stamp
  require (0 < stamp) "IMU_HEADER_TIME_MISMATCH"
  let imu ← stampOf m.imuStamp
  require (imu = stamp) "IMU_HEADER_TIME_MISMATCH"
  let received ← stampOf m.hostReceiveTime
  require (received = stamp) "IMU_HEADER_TIME_MISMATCH"
  let host ← uint m.hostMonotonicNs "INVALID_IMU_HOST_TIME"
  let seq ← uint m.frameSequence "INVALID_IMU_SEQUENCE"
  require (0 < (strip m.streamEpoch).length ∧ (strip m.streamEpoch).length ≤ 256) "INVALID_IMU_EPOCH"
  require (0 ≤ nowNs - host ∧ (config.continuousMapping ∨ nowNs - host ≤ bootGapNs)) "IMU_STALE_OR_FUTURE"
  require (m.angularVelocityValid ∧ m.linearAccelerationValid) "IMU_REQUIRED_FIELDS_INVALID"
  finiteVector numbers m.angularVelocity "INVALID_IMU_GYRO"
  finiteVector numbers m.linearAcceleration "INVALID_IMU_ACCELERATION"
  return ⟨m.streamEpoch, seq, stamp, host, m.angularVelocity, m.linearAcceleration, m.rawPacket⟩

def imuOrder (last : Option (Sample F)) (sample : Sample F) : Except String Unit :=
  match last with
  | none => return ()
  | some last =>
    require (sample.epoch = last.epoch ∧ last.sequence < sample.sequence ∧ last.host ≤ sample.host ∧ last.stamp ≤ sample.stamp)
      "IMU_EPOCH_OR_TIME_CHANGED"

def resting (sample : Sample F) : Bool :=
  numbers.le (numbers.norm sample.gyro) numbers.maxGyro && numbers.le numbers.lowGravity (numbers.norm sample.acceleration) &&
    numbers.le (numbers.norm sample.acceleration) numbers.highGravity

def standing (nowNs : ℤ) (record : Wheel) : Bool :=
  record.zero && decide (0 ≤ nowNs - record.host) && decide (nowNs - record.host ≤ bootGapNs)

def complete (nowNs span : ℤ) : Act F T Bool := do
  let w ← .get
  .raiseIf (¬nowNs - w.boot.startedNs ≤ startupNs) "BOOTSTRAP_STARTUP_TIMEOUT"
  let mean := numbers.mean (w.boot.window.map Sample.acceleration)
  let made ← lift (transforms mean)
  update fun b => { b with
    ready := some {
      windowHostSpanNs := some span
      windowResets := b.resets
      imuSequenceGaps := b.imuSequenceGaps
      wheelSequenceGaps := b.wheelSequenceGaps
      samples := b.window
      wheels := b.wheels
      mean := some mean
      transforms := made } }
  return true

def gather (sample : Sample F) (nowNs : ℤ) : Act F T Bool := do
  let w ← .get
  match w.boot.lastWheel.filter (standing nowNs), resting numbers sample with
  | some record, true => do
    update fun b => b.append sample record
    let w ← .get
    .raiseIf (maxWindowSamples < w.boot.window.length) "BOOTSTRAP_SAMPLE_BOUND_EXCEEDED"
    let span := sample.host - (w.boot.window.head?.map Sample.host).getD sample.host
    if span < bootWindowNs then return false else complete numbers transforms nowNs span
  | _, _ => do
    update fun b => b.reset
    return false

/-- `imu`: whether it completes the bootstrap. -/
def imu (m : ImuFrame F) (nowNs : ℤ) : Act F T Bool := do
  let sample ← lift (imuSample numbers config m nowNs)
  let w ← .get
  lift (imuOrder w.boot.lastImu sample)
  update fun b => b.follow sample.sequence sample.host
  .raiseIf (¬(0 < sample.raw.length ∧ sample.raw.length ≤ 4096)) "IMU_RAW_PACKET_REQUIRED"
  let w ← .get
  log (.imu sample nowNs w.boot.lastWheel)
  update fun b => { b with lastImu := some sample }
  if w.boot.ready.isSome then return false else gather numbers transforms sample nowNs

end imu

/-! ### The owner -/

/-- `self.failure_reason or str(reason)`. -/
def firstReason : Option String → String → String
  | some held, reason => if held = "" then reason else held
  | none, reason => reason

/-- `fail` and the `raise` after it. -/
def failWith {F T α : Type} (e : String) : Act F T α := do
  .modify fun w => { w with failure := some (firstReason w.failure e) }
  let w ← .get
  .raise (w.failure.getD e)

/-- `ensure_active`; `other` is what else does not let the input go on. -/
def ensureActive {F T : Type} (other : Option String) : Act F T Unit := do
  let w ← .get
  match w.failure with
  | some held => .raise (if held = "" then "MAPPING_INPUT_FAILED" else held)
  | none =>
    match other with
    | some e => .raise e
    | none => return ()

inductive Input (F : Type)
  | wheel (value : Value) (nowNs : ℤ) (other : Option String)
  | imu (m : ImuFrame F) (nowNs : ℤ) (other submit : Option String)
  | fail (reason : String)

structure Env (F T : Type) where
  loads : String → Except String Value
  fromHex : Value → Except String (List Modbus.Byte)
  sha256 : List Modbus.Byte → String
  numbers : Numbers F
  transforms : F × F × F → Except String T
  config : Config

section owner
variable {F T : Type} (env : Env F T)

def receiveWheel (value : Value) (nowNs : ℤ) (other : Option String) : Act F T Unit :=
  Program.handle (do
    ensureActive other
    wheel env.loads env.fromHex env.sha256 env.config value nowNs) failWith

def receiveImu (m : ImuFrame F) (nowNs : ℤ) (other submit : Option String) : Act F T Bool :=
  Program.handle (do
    ensureActive other
    if ← imu env.numbers env.transforms env.config m nowNs then
      match submit with
      | some e => .raise e
      | none => return true
    else return false) failWith

def act : Input F → Act F T Unit
  | .wheel value nowNs other => receiveWheel env value nowNs other
  | .imu m nowNs other submit => do
    let _ ← receiveImu env m nowNs other submit
    return ()
  | .fail reason => .modify fun w => { w with failure := some (firstReason w.failure reason) }

def run (w : World F T) (inputs : List (Input F)) : World F T := inputs.foldl (fun w input => (act env input w).2) w

def Boot.init (startedNs : ℤ) (fixed : T) : Boot F T where
  startedNs := startedNs
  lastImu := none
  lastWheel := none
  window := []
  wheels := []
  ready :=
    if env.config.continuousMapping then
      some ⟨none, 0, 0, 0, [], [], none, fixed⟩
    else none
  resets := 0
  imuSequenceGaps := 0
  wheelSequenceGaps := 0

def World.init (startedNs : ℤ) (fixed : T) : World F T := ⟨.init env startedNs fixed, none, []⟩

inductive Call (F : Type)
  | wheel (value : Value) (nowNs : ℤ)
  | imu (m : ImuFrame F) (nowNs : ℤ)

def serve : Call F → Act F T Unit
  | .wheel value nowNs => wheel env.loads env.fromHex env.sha256 env.config value nowNs
  | .imu m nowNs => do
    let _ ← imu env.numbers env.transforms env.config m nowNs
    return ()

def calls (w : World F T) (made : List (Call F)) : World F T := made.foldl (fun w call => (serve env call w).2) w

end owner

end Smartwheel.Mapping.Bootstrap

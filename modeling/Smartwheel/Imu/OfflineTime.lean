import Mathlib.Data.List.Sort
import Mathlib.Data.Prod.Lex
import Mathlib.Data.String.Basic
import Smartwheel.Calibration.Value
import Smartwheel.Effect.Check
import Smartwheel.Effect.Program
import Smartwheel.Imu.DeviceTime

/-! `build_model` of the offline IMU time: the samples of a recording get stamps from the counter of the device, anchored where the
delay to the host is least. -/
namespace Smartwheel.OfflineTime
open Effect
open Smartwheel.Calibration (Value Fields)
open Smartwheel.Imu (Field TimingProfile advanceDeviceCounter)

/-- An event of the recording. The last two fields are those that `build_model` attaches. -/
structure Event where
  category : String
  monotonicNs : ℤ
  sequence : ℤ
  stampNs : ℤ
  bag : String
  messageId : ℤ
  cdrSha256 : String
  imuDeviceTime : Fields
  measurementStampNs : Option ℤ
  modelSha256 : Option String

/-- What does not come from `build_model`. -/
def Event.original (e : Event) : Event := { e with measurementStampNs := none, modelSha256 := none }

def Event.key (e : Event) : ℤ ×ₗ ℤ ×ₗ String ×ₗ ℤ := toLex (e.monotonicNs, toLex (e.sequence, toLex (e.bag, e.messageId)))

def sortedRows (events : List Event) : List Event :=
  (events.filter fun e => e.category == "imu").insertionSort fun a b => a.key ≤ b.key

structure Config where
  offlineImuTimeMode : String
  imuSensorId : String
  sessionId : String

structure SequenceEvidence where
  sequence : ℤ
  monotonicNs : ℤ
  stampNs : ℤ
  measurementStampNs : Option ℤ
  cdrSha256 : String
  raw : Field → Value

structure Report where
  timingProfileSha256 : String
  sensorId : String
  sessionId : String
  streamEpoch : Value
  deviceTimestampUnit : String
  tickNs : ℤ
  first : Field → Option ℤ
  anchorRosNs : ℤ
  sampleCount : ℕ
  derivedSequenceSha256 : String
  counterWrapCounts : Field → ℤ
  deviceElapsedTicks : Field → ℤ

/-- The frozen timing profile of the recording, and `_sha` of the two documents. -/
structure Env where
  profileExists : Bool
  loadTimingProfile : String → Except String TimingProfile
  shaSequence : List SequenceEvidence → String
  shaReport : Report → String

def fieldNames : List Field := [.sample, .dataready]

def validName : Field → String
  | .sample => "sample_timestamp_valid"
  | .dataready => "dataready_timestamp_valid"

structure Scan where
  first : Field → Option ℤ
  previous : Option Event
  accumulated : Field → ℤ
  wraps : Field → ℤ
  relative : List ℤ

def Scan.fresh : Scan := ⟨fun _ => none, none, fun _ => 0, fun _ => 0, []⟩

section build
variable (env : Env) (config : Config)

def resolvedMode : Except String String := do
  require (config.offlineImuTimeMode ∈ ["auto", "arrival", "device_relative"])
    "offline IMU time mode must be auto, arrival or device_relative"
  return if config.offlineImuTimeMode = "auto" then (if env.profileExists then "device_relative" else "arrival")
    else config.offlineImuTimeMode

def nonemptyText : Value → Bool
  | .text s => s != ""
  | _ => false

def sameText : Value → Value → Bool
  | .text a, v => v.isText a
  | _, _ => false

def isTrue : Value → Bool
  | .bool b => b
  | _ => false

def uint32 : Value → Option ℤ
  | .int n => if 0 ≤ n ∧ n < 2^32 then some n else none
  | _ => none

def scanField (profile : TimingProfile) (row : Event) (scan : Scan) (field : Field) : Except String Scan := do
  match uint32 (row.imuDeviceTime.get field.name) with
  | none => .error ("valid uint32 device timestamp required: " ++ field.name)
  | some raw => do
    require (isTrue (row.imuDeviceTime.get (validName field)) = true) ("valid uint32 device timestamp required: " ++ field.name)
    let first := Function.update scan.first field ((scan.first field).or (some raw))
    match scan.previous with
    | none => return { scan with first := first }
    | some previous => do
      let hostElapsed := row.monotonicNs - previous.monotonicNs
      match uint32 (previous.imuDeviceTime.get field.name) with
      | none => .error "IMU_DEVICE_TIME_RANGE"
      | some before => do
        let (delta, wrapped) ← advanceDeviceCounter before raw (some hostElapsed) profile
        -- a jump must not pass for motion
        require (delta * profile.tickNs ≤ hostElapsed + 250000000) ("device timestamp advance inconsistent with host elapsed: " ++ field.name)
        return { scan with
          first := first
          accumulated := Function.update scan.accumulated field (scan.accumulated field + delta)
          wraps := Function.update scan.wraps field (scan.wraps field + if wrapped then 1 else 0) }

def continues (row : Event) (previous : Event) : Except String Unit :=
  require (previous.monotonicNs ≤ row.monotonicNs ∧ previous.sequence < row.sequence ∧
    sameText (row.imuDeviceTime.get "stream_epoch") (previous.imuDeviceTime.get "stream_epoch") = true)
    "device timing host/sequence/epoch discontinuity"

def scanRow (profile : TimingProfile) (scan : Scan) (row : Event) : Except String Scan := do
  let info := row.imuDeviceTime
  require ((info.get "sensor_id").isText config.imuSensorId ∧ (info.get "session_id").isText config.sessionId ∧
    nonemptyText (info.get "stream_epoch") = true) "device timing identity/session/epoch mismatch"
  require ((info.get "device_time_status").isText "VALID_DEVICE_RELATIVE_TIME" ∧
    (info.get "timing_profile_sha256").isText profile.profileSha256 ∧
    (info.get "device_timestamp_unit").isText profile.deviceTimestampUnit) "device timing message must bind the frozen verified profile"
  scan.previous.forM (continues row)
  let scan ← scanField profile row scan .sample
  let scan ← scanField profile row scan .dataready
  return { scan with relative := scan.relative ++ [scan.accumulated .sample * profile.tickNs], previous := some row }

def scanRows (profile : TimingProfile) : List Event → Scan → Except String Scan
  | [], scan => .ok scan
  | row :: rest, scan => do
    let scan ← scanRow config profile scan row
    scanRows profile rest scan

def spanAgrees (profile : TimingProfile) (scan : Scan) (hostSpan : ℤ) (field : Field) : Except String Unit :=
  require (|scan.accumulated field * profile.tickNs - hostSpan| ≤ max 250000000 (hostSpan / 100))
    ("device/host elapsed span inconsistent with frozen unit: " ++ field.name)

structure Plan where
  profile : TimingProfile
  scan : Scan
  anchor : ℤ
  head : Event

def check (rows : List Event) : Except String Plan := do
  let mode ← resolvedMode env config
  require (mode = "device_relative") "device-relative mode required"
  let profile ← env.loadTimingProfile config.imuSensorId
  require (∀ field ∈ fieldNames, field ∈ profile.requiredFields) "offline device timing requires sample and dataready"
  match rows, rows.getLast? with
  | head :: _ :: _, some last => do
    let scan ← scanRows config profile rows .fresh
    let hostSpan := last.monotonicNs - head.monotonicNs
    fieldNames.forM (spanAgrees profile scan hostSpan)
    match (List.zipWith (fun row delta => row.stampNs - delta) rows scan.relative).min? with
    | none => .error "min() iterable argument is empty"
    | some anchor => do
      require (0 ≤ anchor) "device-relative anchor predates supported ROS epoch"
      return ⟨profile, scan, anchor, head⟩
  | _, _ => .error "device timing requires at least two actual IMU samples"

def Event.evidence (row : Event) : SequenceEvidence :=
  ⟨row.sequence, row.monotonicNs, row.stampNs, row.measurementStampNs, row.cdrSha256, fun field => row.imuDeviceTime.get field.name⟩

/-- The loop that attaches the stamps, from the `k`th row on. -/
def attachStamps (anchor : ℤ) : ℕ → List ℤ → Program (List Event) String (List SequenceEvidence)
  | _, [] => pure []
  | k, delta :: rest => do
    .modify fun rows => rows.modify k fun row => { row with measurementStampNs := some (anchor + delta) }
    let rows ← .get
    let row ← .need rows[k]? "list index out of range"
    let others ← attachStamps anchor (k + 1) rest
    return row.evidence :: others

/-- `build_model`, of the rows. -/
def attachModel (plan : Plan) : Program (List Event) String Report := do
  let evidence ← attachStamps plan.anchor 0 plan.scan.relative
  let rows ← .get
  let report : Report := ⟨plan.profile.profileSha256, config.imuSensorId, config.sessionId, plan.head.imuDeviceTime.get "stream_epoch",
    plan.profile.deviceTimestampUnit, plan.profile.tickNs, plan.scan.first, plan.anchor, rows.length,
    env.shaSequence evidence, plan.scan.wraps, plan.scan.accumulated⟩
  .modify fun rows => rows.map fun row => { row with modelSha256 := some (env.shaReport report) }
  return report

/-- `build_model`: its outcome, and the rows as they are then. -/
def buildModel (events : List Event) : Outcome String Report × List Event :=
  let rows := sortedRows events
  match check env config rows with
  | .error e => (.raised e, rows)
  | .ok plan => attachModel env config plan rows

end build

end Smartwheel.OfflineTime

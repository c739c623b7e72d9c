import Mathlib.Data.Rat.Defs

/-! `SourceFrameBuilder`: frames of one sensor stream with their epoch, their place in it and their times. Ids of epochs
come from `fresh`, which stands for `uuid4().hex`. -/
namespace Smartwheel.Sensors

structure ClockModel where
  modelId : String
  deviceTimestampUnit : String
  scaleNumerator : ℤ
  scaleDenominator : ℤ
  offsetNs : ℤ
  uncertaintyNs : Option ℤ
  validated : Bool
  validRawMin : ℤ
  validRawMax : Option ℤ
  unit_known : deviceTimestampUnit ≠ "" ∧ deviceTimestampUnit.startsWith "UNKNOWN" = false
  scale_pos : 1 ≤ scaleNumerator ∧ 1 ≤ scaleDenominator
  uncertainty_nonneg : ∀ u ∈ uncertaintyNs, 0 ≤ u
  validRaw_nonneg : 0 ≤ validRawMin
  validRaw_le : ∀ top ∈ validRawMax, validRawMin ≤ top

/-- `_integer` with the minimum zero. -/
def integer (value : ℤ) (name : String) : Except String ℤ :=
  if value < 0 then .error (name ++ " below minimum") else .ok value

def ClockModel.convert (m : ClockModel) (raw : ℤ) (unit : String) : Except String ℤ := do
  let raw ← integer raw "raw"
  if unit ≠ m.deviceTimestampUnit then .error "clock model source unit mismatch"
  else if raw < m.validRawMin ∨ ∃ top ∈ m.validRawMax, raw > top then .error "clock model outside validity interval"
  else if (raw * m.scaleNumerator).fdiv m.scaleDenominator + m.offsetNs < 0 then .error "clock model produced negative time"
  else .ok ((raw * m.scaleNumerator).fdiv m.scaleDenominator + m.offsetNs)

structure Source where
  sessionId : String
  side : String
  sensorId : String
  frameId : String
  sourceConfigHash : String

/-- A coordinate; not finite where there is none. -/
abbrev Coordinate := Option ℚ

abbrev Point := Coordinate × Coordinate × Coordinate

def Point.finite (p : Point) : Bool := p.1.isSome && p.2.1.isSome && p.2.2.isSome

/-- The arguments of `build`. Points that `copy_sdk_points` refuses are an error. -/
structure Input where
  points : Except String (List Point)
  deviceTimestampRaw : Option ℤ
  deviceTimestampUnit : String
  hostReceiveNs : ℤ
  hostMonotonicNs : ℤ

structure Frame where
  source : Source
  streamEpoch : String
  frameSequence : ℕ
  points : List Point
  deviceTimestampRaw : Option ℤ
  deviceTimestampUnit : String
  hostReceiveNs : ℤ
  hostMonotonicNs : ℤ
  commonTimeNs : ℤ
  clockModelId : Option String
  timeValid : Bool
  uncertaintyNs : Option ℤ
  timeSource : String
  rawKey : String
  rawPointCount : ℕ
  validPointCount : ℕ
  diagnosticFlags : List String
  epochReason : String

structure Builder where
  source : Source
  clockModel : Option ClockModel
  streamEpoch : String
  frameSequence : ℕ
  lastRaw : Option ℤ
  lastHost : Option ℤ
  lastMonotonic : Option ℤ
  lastUnit : Option String
  epochReason : String
  /-- How many ids were drawn. -/
  drawn : ℕ

def Builder.create (fresh : ℕ → String) (source : Source) (clockModel : Option ClockModel) : Builder where
  source := source
  clockModel := clockModel
  streamEpoch := fresh 0
  frameSequence := 0
  lastRaw := none
  lastHost := none
  lastMonotonic := none
  lastUnit := none
  epochReason := "stream_start"
  drawn := 1

def Builder.renew (fresh : ℕ → String) (b : Builder) (reason : String) : Builder where
  source := b.source
  clockModel := none
  streamEpoch := fresh b.drawn
  frameSequence := 0
  lastRaw := none
  lastHost := none
  lastMonotonic := none
  lastUnit := none
  epochReason := reason
  drawn := b.drawn + 1

def Builder.restart (fresh : ℕ → String) (b : Builder) (reason : String) : Except String Builder :=
  if reason = "" then .error "restart reason required" else .ok (b.renew fresh reason)

structure Reception where
  points : List Point
  raw : Option ℤ
  unit : String
  host : ℤ
  monotonic : ℤ

def optionalInteger (value : Option ℤ) (name : String) : Except String (Option ℤ) :=
  match value with
  | none => .ok none
  | some v => (integer v name).map some

def Input.read (input : Input) : Except String Reception := do
  let host ← integer input.hostReceiveNs "host_receive_ns"
  let monotonic ← integer input.hostMonotonicNs "host_monotonic_ns"
  let raw ← optionalInteger input.deviceTimestampRaw "device_timestamp_raw"
  if input.deviceTimestampUnit = "" then .error "device_timestamp_unit required, UNKNOWN is allowed"
  else do
    let owned ← input.points
    .ok ⟨owned, raw, input.deviceTimestampUnit, host, monotonic⟩

def flagIf (c : Prop) [Decidable c] (flag : String) : List String := if c then [flag] else []

def Builder.backward (b : Builder) (r : Reception) : List String :=
  flagIf (∃ last ∈ b.lastUnit, r.unit ≠ last) "device_timestamp_unit_changed" ++
  flagIf (∃ raw ∈ r.raw, ∃ last ∈ b.lastRaw, raw < last) "device_time_backward_or_wrap" ++
  flagIf (∃ last ∈ b.lastHost, r.host < last) "host_clock_backward" ++
  flagIf (∃ last ∈ b.lastMonotonic, r.monotonic < last) "monotonic_clock_backward"

structure Timing where
  common : ℤ
  valid : Bool
  uncertainty : Option ℤ
  modelId : Option String
  timeSource : String
  flags : List String

def timing (clockModel : Option ClockModel) (r : Reception) : Timing :=
  match clockModel, r.raw with
  | some m, some raw =>
    match m.convert raw r.unit, m.validated, m.uncertaintyNs with
    | .ok converted, true, some uncertainty => ⟨converted, true, some uncertainty, some m.modelId, "validated_model", []⟩
    | .ok _, _, _ =>
      ⟨r.host, false, none, some m.modelId, "arrival_only", ["clock_model_unvalidated_or_uncertainty_unknown"]⟩
    | .error _, _, _ => ⟨r.host, false, none, some m.modelId, "arrival_only", ["clock_model_not_applicable"]⟩
  | _, _ => ⟨r.host, false, none, none, "arrival_only", []⟩

def Builder.frame (b : Builder) (r : Reception) (flags : List String) : Frame where
  source := b.source
  streamEpoch := b.streamEpoch
  frameSequence := b.frameSequence
  points := r.points
  deviceTimestampRaw := r.raw
  deviceTimestampUnit := r.unit
  hostReceiveNs := r.host
  hostMonotonicNs := r.monotonic
  commonTimeNs := (timing b.clockModel r).common
  clockModelId := (timing b.clockModel r).modelId
  timeValid := (timing b.clockModel r).valid
  uncertaintyNs := (timing b.clockModel r).uncertainty
  timeSource := (timing b.clockModel r).timeSource
  rawKey := b.source.sensorId ++ "/" ++ b.streamEpoch ++ "/" ++ toString b.frameSequence
  rawPointCount := r.points.length
  validPointCount := r.points.countP Point.finite
  diagnosticFlags := flags ++ (timing b.clockModel r).flags
  epochReason := b.epochReason

def Builder.advance (b : Builder) (r : Reception) : Builder :=
  { b with
    frameSequence := b.frameSequence + 1
    lastRaw := r.raw
    lastHost := some r.host
    lastMonotonic := some r.monotonic
    lastUnit := some r.unit }

def Builder.settle (fresh : ℕ → String) (b : Builder) (r : Reception) : Builder × List String :=
  if b.backward r ≠ [] then (b.renew fresh (";".intercalate (b.backward r)), b.backward r)
  else (b, flagIf (∃ raw ∈ r.raw, b.lastRaw = some raw) "duplicate_device_timestamp")

def Builder.receive (fresh : ℕ → String) (b : Builder) (r : Reception) : Frame × Builder :=
  let (settled, flags) := b.settle fresh r
  (settled.frame r flags, settled.advance r)

def Builder.build (fresh : ℕ → String) (b : Builder) (input : Input) : Except String (Frame × Builder) := do
  let r ← input.read
  .ok (b.receive fresh r)

inductive Operation where
  | build (input : Input)
  | restart (reason : String)

def Builder.operate (fresh : ℕ → String) (b : Builder) : Operation → List Frame × Builder
  | .build input =>
    match b.build fresh input with
    | .ok (frame, b') => ([frame], b')
    | .error _ => ([], b)
  | .restart reason =>
    match b.restart fresh reason with
    | .ok b' => ([], b')
    | .error _ => ([], b)

def Builder.run (fresh : ℕ → String) (b : Builder) : List Operation → List Frame
  | [] => []
  | op :: rest => (b.operate fresh op).1 ++ Builder.run fresh (b.operate fresh op).2 rest

end Smartwheel.Sensors

import Mathlib.Algebra.Order.Ring.Int
import Smartwheel.Imu.H30

/-! `DeviceTimeValidator`: the raw counters of the H30, unwrapped. A mapping of the source with the two timestamps as
keys is a function of the field. -/
namespace Smartwheel.Imu

inductive Field where
  | sample | dataready
deriving DecidableEq

def Field.name : Field → String
  | .sample => "sample_timestamp_raw"
  | .dataready => "dataready_timestamp_raw"

inductive BackwardPolicy where
  | reject | guardedUint32Wrap
deriving DecidableEq

/-- What `load_timing_profile` lets pass, as far as the validator reads it. -/
structure TimingProfile where
  deviceTimestampUnit : String
  tickNs : ℤ
  requiredFields : List Field
  backwardPolicy : BackwardPolicy
  maxGapTicks : Option ℤ
  wrapHostToleranceNs : Option ℤ
  profileSha256 : String
  unit_scale : (deviceTimestampUnit, tickNs) ∈ [("us", (1000 : ℤ)), ("100us", 100000)]
  sample_required : Field.sample ∈ requiredFields
  maxGap_pos : ∀ gap ∈ maxGapTicks, 0 < gap
  wrap_guards : backwardPolicy = .guardedUint32Wrap →
    (∃ gap ∈ maxGapTicks, gap < 2^31) ∧ ∃ tolerance ∈ wrapHostToleranceNs, 0 ≤ tolerance

/-- The value of `host_delta_ns`, `max_gap_ticks` or `wrap_host_tolerance_ns`, or the error where there is none. -/
def required (value : Option ℤ) (error : String) : Except String ℤ :=
  match value with
  | some v => .ok v
  | none => .error error

def wrapDelta (previous current hostDelta bound tolerance tickNs : ℤ) : Except String (ℤ × Bool) :=
  let delta := current - previous + 2^32
  if previous < 2^32 - bound ∨ current > bound ∨ ¬(0 < delta ∧ delta ≤ bound) ∨ |delta * tickNs - hostDelta| > tolerance then
    .error "IMU_DEVICE_TIME_UNPROVEN_WRAP_OR_RESET"
  else .ok (delta, true)

def nonnegative (value : ℤ) (error : String) : Except String ℤ := if value < 0 then .error error else .ok value

def advanceDeviceCounter (previous current : ℤ) (hostDelta : Option ℤ) (profile : TimingProfile) : Except String (ℤ × Bool) :=
  if ¬(0 ≤ previous ∧ previous < 2^32) ∨ ¬(0 ≤ current ∧ current < 2^32) then .error "IMU_DEVICE_TIME_RANGE"
  else if current - previous = 0 then .error "IMU_DEVICE_TIME_DUPLICATE"
  else if current - previous > 0 then
    if ∃ gap ∈ profile.maxGapTicks, current - previous > gap then .error "IMU_DEVICE_TIME_GAP_EXCEEDED"
    else .ok (current - previous, false)
  else if profile.backwardPolicy ≠ .guardedUint32Wrap then .error "IMU_DEVICE_TIME_BACKWARD_RESET_OR_WRAP"
  else do
    let bound ← required profile.maxGapTicks "'max_gap_ticks'"
    let given ← required hostDelta "IMU_DEVICE_TIME_WRAP_HOST_DELTA_REQUIRED"
    let elapsed ← nonnegative given "IMU_DEVICE_TIME_WRAP_HOST_DELTA_REQUIRED"
    let tolerance ← required profile.wrapHostToleranceNs "'wrap_host_tolerance_ns'"
    wrapDelta previous current elapsed bound tolerance profile.tickNs

structure Sample where
  frame : H30Frame
  hostMonotonicNs : Option ℤ

structure Validator where
  previous : Field → Option ℤ
  error : Option String
  accepted : ℕ
  first : Field → Option ℤ
  last : Field → Option ℤ
  previousHost : Option ℤ
  wraps : Field → Option ℤ
  elapsedTicks : Field → Option ℤ

def Validator.fresh : Validator where
  previous _ := none
  error := none
  accepted := 0
  first _ := none
  last _ := none
  previousHost := none
  wraps _ := none
  elapsedTicks _ := none

structure Advance where
  value : ℤ
  delta : ℤ
  wrapped : Bool

section observe
variable (profile : TimingProfile) (v : Validator) (s : Sample)

/-- The first check of `observe`. -/
def hostChecked : Except String Unit :=
  if profile.backwardPolicy = .guardedUint32Wrap ∧
      ¬∃ host ∈ s.hostMonotonicNs, 0 ≤ host ∧ ∀ previous ∈ v.previousHost, previous ≤ host then
    .error "IMU_DEVICE_TIME_HOST_MONOTONIC_REQUIRED"
  else .ok ()

def hostDelta : Option ℤ := do
  let previous ← v.previousHost
  let host ← s.hostMonotonicNs
  return host - previous

def advanceField (field : Field) (value : ℤ) : Except String Advance :=
  match v.previous field with
  | none => .ok ⟨value, 0, false⟩
  | some previous => do
    let (delta, wrapped) ← advanceDeviceCounter previous value (hostDelta v s) profile
    .ok ⟨value, delta, wrapped⟩

def observeField (field : Field) : Except String (Option Advance) :=
  match s.frame.fields.lookup field.name with
  | none =>
    if field ∈ profile.requiredFields then .error ("IMU_DEVICE_TIME_MISSING: " ++ field.name) else .ok none
  | some (.int value) =>
    if 0 ≤ value ∧ value < 2^32 then (advanceField profile v s field value).map some
    else .error ("IMU_DEVICE_TIME_RANGE: " ++ field.name)
  | some _ => .error ("IMU_DEVICE_TIME_RANGE: " ++ field.name)

def observeFields : Except String (Field → Option Advance) := do
  hostChecked profile v s
  let sample ← observeField profile v s .sample
  let dataready ← observeField profile v s .dataready
  .ok fun | .sample => sample | .dataready => dataready

def Validator.accept (advances : Field → Option Advance) : Validator where
  previous field := ((advances field).map (·.value)).or (v.previous field)
  error := v.error
  accepted := v.accepted + 1
  first := if v.accepted = 0 then fun field => (advances field).map (·.value) else v.first
  last field := (advances field).map (·.value)
  previousHost := s.hostMonotonicNs
  wraps field := ((advances field).map fun a => (v.wraps field).getD 0 + if a.wrapped then 1 else 0).or (v.wraps field)
  elapsedTicks field := ((advances field).map fun a => (v.elapsedTicks field).getD 0 + a.delta).or (v.elapsedTicks field)

/-- What `observe` returns. -/
structure Timing where
  deviceTimestampUnit : String
  deviceTimeStatus : String
  timingProfileSha256 : String
  raw : Field → ℤ
  valid : Field → Bool

def timingOf (advances : Field → Option Advance) : Timing where
  deviceTimestampUnit := profile.deviceTimestampUnit
  deviceTimeStatus := "VALID_DEVICE_RELATIVE_TIME"
  timingProfileSha256 := profile.profileSha256
  raw field := ((advances field).map (·.value)).getD 0
  valid field := (advances field).isSome

def observe : Except String Timing × Validator :=
  match v.error with
  | some error => (.error ("IMU_DEVICE_TIME_LATCHED: " ++ error), v)
  | none =>
    match observeFields profile v s with
    | .error error => (.error error, { v with error := some error })
    | .ok advances => (.ok (timingOf profile advances), v.accept s advances)

end observe

def runSamples (profile : TimingProfile) : List Sample → Validator × List Sample → Validator × List Sample
  | [], state => state
  | s :: rest, (v, accepted) =>
    match observe profile v s with
    | (.ok _, v') => runSamples profile rest (v', s :: accepted)
    | (.error _, v') => runSamples profile rest (v', accepted)

end Smartwheel.Imu

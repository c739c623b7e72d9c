import Smartwheel.Arithmetic.Extended
import Smartwheel.Calibration.Value
import Smartwheel.Effect.Check

/-! `CausalBiasEstimator`: windows of quiet samples are candidates for a bias, and change it where independent evidence covers them. -/
namespace Smartwheel.CausalBias
open Effect
open Extended (Number)
open Smartwheel.Calibration (Value)

/-! ### Axes -/

structure Axes (K : Type) where
  x : K
  y : K
  z : K
deriving DecidableEq

/-- `np.linalg.norm` and the 95% quantile of the angles to the mean direction, in degrees, where it is a number. -/
structure Numerics (K : Type) where
  root : K → K
  directionP95 : List (Axes K) → Axes K → Option K

section axes
variable {K : Type} [Field K] [LinearOrder K]

namespace Axes

def map (f : K → K) (a : Axes K) : Axes K := ⟨f a.x, f a.y, f a.z⟩

def sub (a b : Axes K) : Axes K := ⟨a.x - b.x, a.y - b.y, a.z - b.z⟩

def add (a b : Axes K) : Axes K := ⟨a.x + b.x, a.y + b.y, a.z + b.z⟩

def scale (c : K) (a : Axes K) : Axes K := a.map (c * ·)

def square (a : Axes K) : K := a.x * a.x + a.y * a.y + a.z * a.z

/-- `np.linalg.norm`. -/
def norm (n : Numerics K) (a : Axes K) : K := n.root a.square

/-- `np.max`. -/
def largest (a : Axes K) : K := max (max a.x a.y) a.z

def each (f : List K → K) (rows : List (Axes K)) : Axes K := ⟨f (rows.map x), f (rows.map y), f (rows.map z)⟩

end Axes

def mean (l : List K) : K := l.sum / l.length

def std (n : Numerics K) (l : List K) : K := n.root (mean (l.map fun a => (a - mean l) * (a - mean l)))

/-- `np.median`. -/
def median (l : List K) : K :=
  let sorted := l.mergeSort fun a b => decide (a ≤ b)
  (sorted.getD ((l.length - 1) / 2) 0 + sorted.getD (l.length / 2) 0) / (1 + 1)

end axes

/-! ### Inputs -/

/-- `_stamp`. -/
def stamp : Value → Except String ℤ
  | .int n => if n < 0 then .error "source stamp must be a nonnegative integer" else .ok n
  | _ => .error "source stamp must be a nonnegative integer"

/-- `_vector(value, 3)`. -/
def vector3 {K : Type} : List (Number K) → Except String (Axes K)
  | [.finite x, .finite y, .finite z] => .ok ⟨x, y, z⟩
  | _ => .error "finite native-axis vector required"

/-- `_vector(value, 2)`. -/
def vector2 {K : Type} : List (Number K) → Except String (K × K)
  | [.finite left, .finite right] => .ok (left, right)
  | _ => .error "finite native-axis vector required"

/-- `BiasPolicy`, with what its constructor checks. -/
structure Policy (K : Type) [Field K] [LinearOrder K] where
  windowS : K
  minSamples : ℕ
  maxSamples : ℕ
  maxImuGapS : K
  maxWheelAgeS : K
  maxWheelSpeedMS : K
  maxGyroSampleRadS : K
  maxGyroMeanRadS : K
  maxGyroAxisStdRadS : K
  gravityMS2 : K
  maxAccelNormErrorMS2 : K
  maxAccelAxisStdMS2 : K
  maxAccelDirectionP95Deg : K
  robustWindows : ℕ
  minConfirmedWindows : ℕ
  maxBiasNormRadS : K
  maxUpdateNormRadS : K
  maxPendingWindows : ℕ
  maxVersions : ℕ
  positive : 0 < windowS ∧ 0 < maxImuGapS ∧ 0 < maxWheelAgeS ∧ 0 < maxWheelSpeedMS ∧ 0 < maxGyroSampleRadS ∧ 0 < maxGyroMeanRadS ∧
    0 < maxGyroAxisStdRadS ∧ 0 < gravityMS2 ∧ 0 < maxAccelNormErrorMS2 ∧ 0 < maxAccelAxisStdMS2 ∧ 0 < maxAccelDirectionP95Deg ∧
    0 < maxBiasNormRadS ∧ 0 < maxUpdateNormRadS
  counted : 3 ≤ minSamples ∧ minSamples ≤ maxSamples ∧ 0 < minConfirmedWindows ∧ minConfirmedWindows ≤ robustWindows ∧
    0 < maxPendingWindows ∧ 0 < maxVersions

/-! ### State -/

structure Row (K : Type) where
  sample : ℕ
  stampNs : ℤ
  gyro : Axes K
  accel : Axes K

structure Candidate (K : Type) where
  candidateId : ℕ
  samples : List ℕ
  startStampNs : ℤ
  endStampNs : ℤ
  sampleCount : ℕ
  biasNative : Axes K
  gyroAxisStd : Axes K
  meanAcceleration : Axes K
  accelAxisStd : Axes K
  accelDirectionP95Deg : Option K
  screeningPassed : Bool

structure Confirmed (K : Type) where
  candidate : Candidate K
  evidenceId : String
  source : String

structure Version (K : Type) where
  version : ℕ
  effectiveStampNs : ℤ
  biasNative : Axes K
  evidenceIds : List String
deriving DecidableEq

structure Estimator (K : Type) where
  rows : List (Row K)
  candidates : List (Candidate K)
  confirmed : List (Confirmed K)
  versions : List (Version K)
  lastStampNs : Option ℤ
  retainedFromNs : ℤ
  lastReason : String
  candidateCount : ℕ
  rejectedWindows : ℕ
  gapResets : ℕ
  nextCandidateId : ℕ

/-- What a `deque` with `maxlen` keeps. -/
def keepLast {α : Type} (maxlen : ℕ) (l : List α) : List α := l.drop (l.length - maxlen)

/-- `bisect_right` of the effective stamps. -/
def bisectRight {K : Type} (versions : List (Version K)) (stampNs : ℤ) : ℕ :=
  (versions.takeWhile fun v => decide (v.effectiveStampNs ≤ stampNs)).length

def indexBefore (position length : ℕ) : ℕ := if position = 0 then length - 1 else position - 1

section estimator
variable {K : Type} [Field K] [LinearOrder K]

namespace Estimator

def new (confirmedBias : Option (Axes K × String)) : Estimator K where
  rows := []
  candidates := []
  confirmed := []
  versions :=
    match confirmedBias with
    | none => [⟨0, 0, ⟨0, 0, 0⟩, []⟩]
    | some (bias, evidenceId) => [⟨1, 0, bias, [evidenceId]⟩]
  lastStampNs := none
  retainedFromNs := 0
  lastReason := if confirmedBias.isNone then "NO_OBSERVATIONS_UNESTIMATED_ZERO" else "EXPLICIT_EXTERNAL_CALIBRATION_DECLARATION"
  candidateCount := 0
  rejectedWindows := 0
  gapResets := 0
  nextCandidateId := 1

def versionAt (s : Estimator K) (stampNs : ℤ) : Option (Version K) :=
  s.versions[indexBefore (bisectRight s.versions stampNs) s.versions.length]?

def biasAt (s : Estimator K) (stampNs : Value) : Except String (Axes K) := do
  let stampNs ← stamp stampNs
  refuse (stampNs < s.retainedFromNs) "bias query predates explicitly retained history"
  match s.versionAt stampNs with
  | some v => .ok v.biasNative
  | none => .error "IndexError"

def observedBy (s : Estimator K) (stampNs : ℤ) : Bool := s.lastStampNs.any fun last => decide (stampNs ≤ last)

def pruneBefore (s : Estimator K) (anchorStampNs : Value) : Except String (Estimator K) := do
  let anchor ← stamp anchorStampNs
  refuse (anchor < s.retainedFromNs ∨ ¬s.observedBy anchor) "bias history retirement must follow an observed integrator anchor"
  return { s with
    versions := s.versions.drop (indexBefore (bisectRight s.versions anchor) s.versions.length)
    retainedFromNs := anchor }

/-- `_reset`. -/
def reset (s : Estimator K) (reason : String) : Estimator K := { s with rows := [], lastReason := reason }

def resetObservations (s : Estimator K) (reason : String) : Estimator K :=
  { s.reset reason with gapResets := s.gapResets + 1 }

end Estimator

variable (n : Numerics K) (p : Policy K)

def longer (ns : ℤ) (seconds : K) : Prop := seconds * 10^9 < (ns : K)

instance longer.decidable (ns : ℤ) (seconds : K) : Decidable (longer ns seconds) := inferInstanceAs (Decidable (_ < _))

def motion (stampNs wheelStampNs : ℤ) (gyro accel : Axes K) (wheel : K × K) : Option String :=
  if longer (stampNs - wheelStampNs) p.maxWheelAgeS then some "WHEEL_COVERAGE_MISSING"
  else if p.maxWheelSpeedMS < max |wheel.1| |wheel.2| then some "WHEEL_MOTION"
  else if p.maxGyroSampleRadS < gyro.norm n then some "GYRO_MOTION_OR_OUTLIER"
  else if p.maxAccelNormErrorMS2 < |accel.norm n - p.gravityMS2| then some "ACCELERATION_NOT_GRAVITY_LIKE"
  else none

/-- The candidate of a window that begins with `first` and ends at `stampNs`. -/
def candidateOf (candidateId : ℕ) (first stampNs : ℤ) (rows : List (Row K)) : Candidate K :=
  let gyros := rows.map Row.gyro
  let accels := rows.map Row.accel
  let bias := Axes.each mean gyros
  let amean := Axes.each mean accels
  let gstd := Axes.each (std n) gyros
  let astd := Axes.each (std n) accels
  let directionP95 := if 1 / 10^12 < amean.norm n then n.directionP95 accels amean else none
  { candidateId := candidateId
    samples := rows.map Row.sample
    startStampNs := first
    endStampNs := stampNs
    sampleCount := rows.length
    biasNative := bias
    gyroAxisStd := gstd
    meanAcceleration := amean
    accelAxisStd := astd
    accelDirectionP95Deg := directionP95
    screeningPassed :=
      bias.norm n ≤ p.maxGyroMeanRadS && gstd.largest ≤ p.maxGyroAxisStdRadS && astd.largest ≤ p.maxAccelAxisStdMS2 &&
        directionP95.any fun angle => angle ≤ p.maxAccelDirectionP95Deg }

def collect (s : Estimator K) (row : Row K) : Estimator K × Option (Candidate K) :=
  let rows := s.rows ++ [row]
  let first := (rows.head?.getD row).stampNs
  if p.maxSamples < rows.length then (s.reset "WINDOW_SAMPLE_CAPACITY_NO_ESTIMATE", none)
  else if rows.length < p.minSamples ∨ ((row.stampNs - first : ℤ) : K) < p.windowS * 10^9 then
    ({ s with rows := rows, lastReason := "COLLECTING_BACKGROUND_WINDOW" }, none)
  else
    let candidate := candidateOf n p s.nextCandidateId first row.stampNs rows
    let cleared := { s with rows := [], nextCandidateId := s.nextCandidateId + 1 }
    if candidate.screeningPassed then
      ({ cleared with
        candidates := keepLast p.maxPendingWindows (s.candidates ++ [candidate])
        candidateCount := s.candidateCount + 1
        lastReason := "CANDIDATE_ONLY_AWAITING_INDEPENDENT_STATIONARITY" }, some candidate)
    else
      ({ cleared with rejectedWindows := s.rejectedWindows + 1, lastReason := "WINDOW_STATISTICS_REJECTED" }, some candidate)

def advanced (s : Estimator K) (stampNs : ℤ) : Estimator K :=
  { if s.lastStampNs.any fun last => decide (longer (stampNs - last) p.maxImuGapS) then s.resetObservations "IMU_GAP_WINDOW_RESET" else s with
    lastStampNs := some stampNs }

/-- `observe`; `sample` is which call it is. -/
def observe (s : Estimator K) (sample : ℕ) (stampNs : Value) (gyro accel : List (Number K)) (wheelStampNs : Value)
    (wheelSpeeds : List (Number K)) : Except String (Estimator K × Option (Candidate K)) := do
  let stampNs ← stamp stampNs
  let gyro ← vector3 gyro
  let accel ← vector3 accel
  let wheel ← vector2 wheelSpeeds
  let wheelStampNs ← stamp wheelStampNs
  refuse (s.lastStampNs.any fun last => decide (stampNs < last)) "bias observations must have nondecreasing source time"
  refuse (stampNs < wheelStampNs) "future wheel observation cannot establish stationary evidence"
  return match motion n p stampNs wheelStampNs gyro accel wheel with
    | some reason => ((advanced p s stampNs).reset reason, none)
    | none => collect n p (advanced p s stampNs) ⟨sample, stampNs, gyro, accel⟩

/-! ### Evidence -/

structure Evidence where
  startNs : ℤ
  endNs : ℤ
  observedNs : ℤ
  evidenceId : String
  source : String
  independent : Bool

def textOf : Value → Except String String
  | .text t => if t.isEmpty then .error "stationarity evidence needs a source and unique identifier" else .ok t
  | _ => .error "stationarity evidence needs a source and unique identifier"

/-- `value is True`. -/
def isTrue : Value → Bool
  | .bool b => b
  | _ => false

def evidenceOf (s : Estimator K) (startNs endNs observedNs evidenceId source independent : Value) : Except String Evidence := do
  let startNs ← stamp startNs
  let endNs ← stamp endNs
  let observedNs ← stamp observedNs
  let evidenceId ← textOf evidenceId
  let source ← textOf source
  refuse (endNs < startNs ∨ observedNs < endNs ∨ ¬s.lastStampNs.any fun last => decide (last ≤ observedNs))
    "stationarity evidence cannot be future-dated or retroactively applied"
  return ⟨startNs, endNs, observedNs, evidenceId, source, isTrue independent⟩

def matching (s : Estimator K) (e : Evidence) : List (Candidate K) :=
  s.candidates.filter fun row => decide (e.startNs ≤ row.startStampNs ∧ row.endStampNs ≤ e.endNs)

def Evidence.isIndependent (e : Evidence) : Bool :=
  e.independent && !(["wheel_imu_prior", "copied_prior_graph", "wheel_zero"].contains e.source)

def isKnown (s : Estimator K) (evidenceId : String) : Bool := s.confirmed.any fun row => evidenceId == row.evidenceId

def refusal (s : Estimator K) (e : Evidence) : Option String :=
  if !e.isIndependent then some "NONINDEPENDENT_EVIDENCE_NO_UPDATE"
  else if isKnown s e.evidenceId then some "DUPLICATE_EVIDENCE_NO_UPDATE"
  else if (matching s e).isEmpty then some "NO_COMPLETE_SCREENED_WINDOW_IN_EVIDENCE"
  else none

def fresh (s : Estimator K) (e : Evidence) : List (Candidate K) :=
  (matching s e).filter fun c => !(s.confirmed.any fun row => row.candidate.candidateId == c.candidateId)

def accept (s : Estimator K) (e : Evidence) : Estimator K :=
  { s with
    confirmed := (fresh s e).foldl (fun rows c => keepLast p.robustWindows (rows ++ [⟨c, e.evidenceId, e.source⟩])) s.confirmed
    candidates := keepLast p.maxPendingWindows
      (s.candidates.filter fun row => !((matching s e).any fun c => c.candidateId == row.candidateId)) }

def Estimator.current (s : Estimator K) : Axes K := (s.versions.getLast?.map Version.biasNative).getD ⟨0, 0, 0⟩

def target (s : Estimator K) : Axes K := Axes.each median (s.confirmed.map fun row => row.candidate.biasNative)

def unchanged (s : Estimator K) : Option String :=
  if s.confirmed.length < p.minConfirmedWindows then some "MORE_CONFIRMED_WINDOWS_REQUIRED"
  else if p.maxBiasNormRadS < (target s).norm n then some "ROBUST_BIAS_MAGNITUDE_REJECTED"
  else if ((target s).sub s.current).norm n < 1 / 10^12 then some "NO_BIAS_CHANGE"
  else if p.maxVersions ≤ s.versions.length then some "HISTORY_CAPACITY_NO_UPDATE_UNTIL_ANCHORED"
  else none

def effective (s : Estimator K) (observedNs : ℤ) : ℤ :=
  match s.versions.getLast? with
  | some last => max observedNs (last.effectiveStampNs + 1)
  | none => observedNs

def nextVersion (s : Estimator K) (observedNs : ℤ) : Version K :=
  let delta := (target s).sub s.current
  { version := (s.versions.getLast?.map Version.version).getD 0 + 1
    effectiveStampNs := effective s observedNs
    biasNative := s.current.add (delta.scale (min 1 (p.maxUpdateNormRadS / delta.norm n)))
    evidenceIds := (s.confirmed.map Confirmed.evidenceId).eraseDups }

def update (s : Estimator K) (observedNs : ℤ) : Estimator K × Option (Version K) :=
  match unchanged n p s with
  | some reason => ({ s with lastReason := reason }, none)
  | none =>
    ({ s with versions := s.versions ++ [nextVersion n p s observedNs], lastReason := "INDEPENDENTLY_CORROBORATED_BOUNDED_UPDATE" },
      some (nextVersion n p s observedNs))

/-- `confirm_stationary`, of evidence that its checks let pass. -/
def confirm (s : Estimator K) (e : Evidence) : Estimator K × Option (Version K) :=
  match refusal s e with
  | some reason => ({ s with lastReason := reason }, none)
  | none => update n p (accept p s e) e.observedNs

def confirmStationary (s : Estimator K) (startNs endNs observedNs evidenceId source independent : Value) :
    Except String (Estimator K × Option (Version K)) := do
  let e ← evidenceOf s startNs endNs observedNs evidenceId source independent
  return confirm n p s e

end estimator

end Smartwheel.CausalBias

import Mathlib.Data.List.Chain
import Mathlib.Data.List.Dedup
import Mathlib.Data.List.Sort
import Mathlib.Data.Real.Basic
import Smartwheel.Parameters.Groups
import Smartwheel.Sweep.Cover

/-! The audit of a capture window: `collect_source_evidence` passes over the rows of all sources, and `evaluate_capture_window`
decides from what it has gathered. -/
namespace Smartwheel.CaptureWindow
open Effect
open Cover (steps)
open Smartwheel.Calibration (Value)
open Smartwheel.Parameters (same)

inductive Kind where
  | lidar | imu | wheel | camera | ultrasonic
deriving DecidableEq, Repr

/-- `GAP_NS`. -/
def gapNs : Kind → ℤ
  | .lidar => 500000000
  | .imu => 100000000
  | .wheel => 500000000
  | .camera => 200000000
  | .ultrasonic => 3000000000

structure Spec where
  kind : Kind
  sourceId : String
  maxGapNs : ℤ
  registerIndex : Option ℤ
  address : Option ℤ

structure Contract where
  schemaVersion : ℤ
  sessionId : String
  sources : List (String × Spec)
  nodup : (sources.map Prod.fst).Nodup

/-- A row of `iter_source_samples`. -/
structure Row where
  logicalSource : String
  sourceId : Value
  streamEpoch : Value
  sequence : Value
  hostMonotonicNs : Value
  sessionId : Value
  rawValidCount : Value
  filteredValidCount : Value

/-- `[A-Za-z0-9][A-Za-z0-9_.-]{0,119}`. -/
def isIdentifier (s : String) : Bool :=
  match s.toList with
  | [] => false
  | c :: rest => c.isAlphanum && decide (rest.length ≤ 119) && rest.all fun d => d.isAlphanum || d == '_' || d == '.' || d == '-'

def validateSource (entry : String × Spec) : Except String Unit := do
  require (isIdentifier entry.1 = true) "invalid logical source"
  require (isIdentifier entry.2.sourceId = true) "invalid source_id"
  require (0 < entry.2.maxGapNs ∧ entry.2.maxGapNs ≤ gapNs entry.2.kind) "explicit identity and reviewed or stricter gap bound required"
  require (entry.2.kind = .wheel → entry.2.registerIndex = some 0 ∨ entry.2.registerIndex = some 1) "wheel register index required"
  require (entry.2.kind = .ultrasonic → entry.2.address.isSome = true) "ultrasonic address required"

/-- `validate_contract`. -/
def validateContract (c : Contract) : Except String Unit := do
  require (c.schemaVersion = 1) "capture contract schema_version 1 required"
  require (isIdentifier c.sessionId = true) "invalid session_id"
  require (c.sources ≠ []) "nonempty contract sources required"
  c.sources.forM validateSource

/-- `_ns`. -/
def ns (value : Value) (label : String) (least : ℤ) : Except String ℤ :=
  match value with
  | .int n => if least ≤ n then .ok n else .error (label ++ " must be integer host monotonic nanoseconds")
  | _ => .error (label ++ " must be integer host monotonic nanoseconds")

structure Evidence where
  count : ℕ
  observedCount : ℕ
  unavailableCount : ℕ
  samples : List ℤ
  firstValid : Option ℤ
  lastValid : Option ℤ
  streamEpoch : Value
  sequenceFirst : Option ℤ
  sequenceLast : Option ℤ
  lastObserved : Option ℤ
  maxGap : ℤ
  issues : List String

def Evidence.empty : Evidence := ⟨0, 0, 0, [], none, none, .null, none, none, none, 0, []⟩

def nonemptyText : Value → Bool
  | .text s => s != ""
  | _ => false

def faults (c : Contract) (spec : Spec) (source : Evidence) (row : Row) (stamp sequence : ℤ) : List String :=
  (if row.sourceId.isText spec.sourceId then [] else ["SOURCE_IDENTITY_MISMATCH"]) ++
  (if row.sessionId.isNull || row.sessionId.isText c.sessionId then [] else ["SOURCE_SESSION_MISMATCH"]) ++
  (if nonemptyText row.streamEpoch then [] else ["SOURCE_EPOCH_MISSING"]) ++
  (if source.observedCount = 0 then [] else
    (if same row.streamEpoch source.streamEpoch then [] else ["SOURCE_EPOCH_CHANGED"]) ++
    -- the addresses share one sequence
    (if sequence = source.sequenceLast.getD 0 + 1 ∨ (spec.kind = .ultrasonic ∧ source.sequenceLast.getD 0 < sequence) then []
      else ["SOURCE_SEQUENCE_GAP_OR_REORDER"]) ++
    (if stamp < source.lastObserved.getD 0 then ["SOURCE_MONOTONIC_REORDER"] else []))

def Evidence.observe (source : Evidence) (found : List String) (row : Row) (stamp sequence : ℤ) : Evidence :=
  { source with
    issues := source.issues ++ found
    streamEpoch := if source.observedCount = 0 then row.streamEpoch else source.streamEpoch
    sequenceFirst := if source.observedCount = 0 then some sequence else source.sequenceFirst
    observedCount := source.observedCount + 1
    sequenceLast := some sequence
    lastObserved := some stamp }

def Evidence.admit (source : Evidence) (stamp : ℤ) : Evidence :=
  { source with
    firstValid := if source.count = 0 then some stamp else source.firstValid
    maxGap := if source.count = 0 then source.maxGap else max source.maxGap (stamp - source.lastValid.getD 0)
    count := source.count + 1
    samples := source.samples ++ [stamp]
    lastValid := some stamp }

def isCount : Value → Bool
  | .int n => decide (0 ≤ n)
  | _ => false

def isZero : Value → Bool
  | .int n => decide (n = 0)
  | _ => false

def Row.countsValid (row : Row) : Bool := isCount row.rawValidCount && isCount row.filteredValidCount

def Row.usable (row : Row) (kind : Kind) : Bool :=
  if kind = .lidar then row.countsValid && !(isZero row.rawValidCount || isZero row.filteredValidCount) else true

def note (c : Contract) (logical : String) (spec : Spec) (source : Evidence) (row : Row) : Except String Evidence := do
  let stamp ← ns row.hostMonotonicNs (logical ++ " stamp") 1
  let sequence ← ns row.sequence (logical ++ " sequence") 0
  let observed := source.observe (faults c spec source row stamp sequence) row stamp sequence
  if spec.kind = .lidar ∧ row.countsValid = false then
    return { observed with
      issues := observed.issues ++ ["SOURCE_VALID_COUNT_MISSING_OR_INVALID"], unavailableCount := observed.unavailableCount + 1 }
  else if spec.kind = .lidar ∧ (isZero row.rawValidCount || isZero row.filteredValidCount) = true then
    return { observed with unavailableCount := observed.unavailableCount + 1 }
  else return observed.admit stamp

def noteRow (c : Contract) (evidence : String → Evidence) (row : Row) : Except String (String → Evidence) :=
  match c.sources.lookup row.logicalSource with
  | none => .error ("'" ++ row.logicalSource ++ "'")
  | some spec => do
    let source ← note c row.logicalSource spec (evidence row.logicalSource) row
    return Function.update evidence row.logicalSource source

def noteAll (c : Contract) : List Row → (String → Evidence) → Except String (String → Evidence)
  | [], evidence => .ok evidence
  | row :: rest, evidence => do
    let evidence ← noteRow c evidence row
    noteAll c rest evidence

/-- `sorted(set(..))`. -/
def sortedSet (issues : List String) : List String := issues.dedup.insertionSort (· ≤ ·)

/-- `collect_source_evidence`, of the rows that it iterates. -/
def collectSourceEvidence (c : Contract) (rows : List Row) : Except String (List (String × Evidence)) := do
  validateContract c
  let evidence ← noteAll c rows fun _ => .empty
  return c.sources.map fun entry => (entry.1, { evidence entry.1 with issues := sortedSet (evidence entry.1).issues })

structure SourceReport where
  windowComplete : Bool
  count : ℕ
  firstValid : Option ℤ
  lastValid : Option ℤ
  maximumWindowGap : ℤ
  maxAllowedGap : ℤ
  issues : List String

structure Report where
  windowComplete : Bool
  fullWindowVerified : Bool
  sources : List (String × SourceReport)
  issues : List (String × String)
  start : ℤ
  stop : ℤ
  requestedDuration : ℤ
  observedCommonStart : Option ℤ
  observedCommonEnd : Option ℤ

def maximumGap (stamps : List ℤ) (start stop : ℤ) : ℤ :=
  (((steps stamps).filter fun p => p.1 < stop ∧ start < p.2).map fun p => p.2 - p.1).max?.getD 0

def evaluateSource (spec : Spec) (source : Evidence) (start stop : ℤ) : SourceReport :=
  let stamps := source.samples
  let uncovered := stamps.head?.all (start < ·) || stamps.getLast?.all (· < stop)
  let maximum := maximumGap stamps start stop
  let failures := sortedSet (source.issues ++ (if uncovered then ["REQUESTED_WINDOW_NOT_COVERED"] else []) ++
    if spec.maxGapNs < maximum then ["MAX_SOURCE_GAP_EXCEEDED"] else [])
  ⟨failures.isEmpty, source.count, stamps.head?, stamps.getLast?, maximum, spec.maxGapNs, failures⟩

def common (pick : ℤ → ℤ → ℤ) (values : List (Option ℤ)) : Option ℤ :=
  match values.mapM id with
  | some (first :: rest) => some (rest.foldl pick first)
  | _ => none

/-- `evaluate_capture_window`. -/
def evaluateCaptureWindow (evidence : List (String × Evidence)) (c : Contract) (start stop : ℤ) : Except String Report := do
  validateContract c
  let start ← ns (.int start) "window start" 1
  let stop ← ns (.int stop) "window end" 1
  refuse (stop ≤ start) "capture window must have positive duration"
  let reports := c.sources.map fun entry =>
    (entry.1, evaluateSource entry.2 ((evidence.lookup entry.1).getD .empty) start stop)
  let issues := (reports.map fun report => report.2.issues.map fun code => (code, report.1)).flatten
  return ⟨issues.isEmpty, issues.isEmpty, reports, issues, start, stop, stop - start,
    common max (evidence.map fun e => e.2.firstValid), common min (evidence.map fun e => e.2.lastValid)⟩

end Smartwheel.CaptureWindow

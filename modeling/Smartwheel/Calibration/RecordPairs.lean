import Mathlib.Algebra.Order.Group.Int
import Mathlib.Data.List.Sort
import Smartwheel.Effect.Check
import Smartwheel.Instances
import Smartwheel.Sweep.Matching

/-! `iter_paired_records`: the frames of two sides are queued in the order of their stamps, and the heads of the queues are paired where they
are near. -/
namespace Smartwheel.RecordPairs
open Effect

inductive Side where
  | left
  | right
deriving DecidableEq, Repr

structure Stream where
  streamEpoch : String
  clockModelId : String
  sourceConfigHash : String
deriving DecidableEq, Repr

structure Frame where
  side : String
  sessionId : String
  rawKey : List String
  stream : Stream
  commonTimeValid : Bool
  commonTimeNs : ℤ
  hostReceiveTimeNs : ℤ
  frameSequence : ℤ
  sensorId : String
  coordinateConvention : String
deriving DecidableEq, Repr

/-- A frame with its `pairing_stamp_ns`, and how often a stream had changed when it came, which the code does not keep. -/
structure Queued where
  frame : Frame
  stampNs : ℤ
  changes : ℕ
deriving DecidableEq, Repr

structure Counters where
  oldStreamLate : ℕ
  streamBoundaryFlush : ℕ
  invalidCommonTime : ℕ
  queueOverflow : ℕ
  outsidePairWindow : ℕ
  paired : ℕ
  unmatchedEnd : ℕ
deriving DecidableEq, Repr

inductive TimeBasis where
  | common
  | hostReceive
deriving DecidableEq, Repr

structure Pair where
  left : Queued
  right : Queued
  tRefNs : ℤ
  pairDtNs : ℤ
  timeBasis : TimeBasis
deriving DecidableEq, Repr

structure Policy where
  maxPairNs : ℤ
  timeBasis : TimeBasis
  maxQueue : ℤ
  maxFrames : ℤ
  valid : 0 ≤ maxPairNs ∧ 1 ≤ maxQueue ∧ 1 ≤ maxFrames

structure Sides (α : Type) where
  left : α
  right : α
deriving DecidableEq, Repr

namespace Sides
variable {α : Type}

def get (s : Sides α) : Side → α
  | .left => s.left
  | .right => s.right

def set (s : Sides α) (side : Side) (a : α) : Sides α :=
  match side with
  | .left => { s with left := a }
  | .right => { s with right := a }

@[simp] theorem get_set (s : Sides α) (side : Side) (a : α) : (s.set side a).get side = a := by cases side <;> rfl

end Sides

structure State where
  index : ℕ
  session : Option String
  seen : List (List String)
  queues : Sides (List Queued)
  active : Sides (Option Stream)
  oldEpochs : Sides (List Stream)
  changes : ℕ
  counters : Counters
  pairs : List Pair
deriving DecidableEq, Repr

def State.start (diagnostics : Counters) : State :=
  ⟨0, none, [], ⟨[], []⟩, ⟨none, none⟩, ⟨[], []⟩, 0, diagnostics, []⟩

def sideOf : String → Except String Side
  | "left" => .ok .left
  | "right" => .ok .right
  | _ => .error "invalid source side"

def before (a b : Queued) : Bool := decide (a.stampNs < b.stampNs ∨ (a.stampNs = b.stampNs ∧ a.frame.frameSequence ≤ b.frame.frameSequence))

variable (p : Policy)

def pairOf (left right : Queued) : Pair :=
  ⟨left, right, max left.stampNs right.stampNs, |left.stampNs - right.stampNs|, p.timeBasis⟩

structure Drained where
  left : List Queued
  right : List Queued
  pairs : List Pair
  outside : ℕ

def drain : ℕ → Drained → Except String Drained
  | 0, d => .ok d
  | fuel + 1, d =>
    match d.left, d.right with
    | left :: lefts, right :: rights =>
      let delta := left.stampNs - right.stampNs
      if p.maxPairNs < |delta| then
        if delta < 0 then drain fuel { d with left := lefts, outside := d.outside + 1 }
        else drain fuel { d with right := rights, outside := d.outside + 1 }
      else if left.frame.sensorId = right.frame.sensorId then .error "paired sources share the same device identity"
      else if left.frame.coordinateConvention ≠ right.frame.coordinateConvention then .error "paired cloud axis conventions differ"
      else drain fuel { d with left := lefts, right := rights, pairs := d.pairs ++ [pairOf p left right] }
    | _, _ => .ok d

def pairHeads (s : State) : Except String State := do
  let d ← drain p (s.queues.left.length + s.queues.right.length) ⟨s.queues.left, s.queues.right, [], 0⟩
  return { s with
    queues := ⟨d.left, d.right⟩
    pairs := s.pairs ++ d.pairs
    counters := { s.counters with
      outsidePairWindow := s.counters.outsidePairWindow + d.outside
      paired := s.counters.paired + d.pairs.length } }

def enqueue (s : State) (side : Side) (q : Queued) : State :=
  let queue := (s.queues.get side ++ [q]).mergeSort before
  if p.maxQueue < queue.length then
    { s with queues := s.queues.set side queue.tail, counters := { s.counters with queueOverflow := s.counters.queueOverflow + 1 } }
  else { s with queues := s.queues.set side queue }

def activate (s : State) (side : Side) (stream : Stream) : State :=
  let s :=
    match s.active.get side with
    | some old =>
      if stream = old then s
      else { s with
        oldEpochs := s.oldEpochs.set side (old :: s.oldEpochs.get side)
        counters := { s.counters with
          streamBoundaryFlush := s.counters.streamBoundaryFlush + (s.queues.left.length + s.queues.right.length) }
        queues := ⟨[], []⟩
        changes := s.changes + 1 }
    | none => s
  { s with active := s.active.set side (some stream) }

def stampOf (frame : Frame) : Option ℤ :=
  match p.timeBasis with
  | .common => if frame.commonTimeValid ∧ frame.stream.clockModelId ≠ "" then some frame.commonTimeNs else none
  | .hostReceive => some frame.hostReceiveTimeNs

def accept (s : State) (side : Side) (frame : Frame) : Except String State :=
  if frame.stream ∈ s.oldEpochs.get side then
    .ok { s with counters := { s.counters with oldStreamLate := s.counters.oldStreamLate + 1 } }
  else
    let s := activate s side frame.stream
    match stampOf p frame with
    | none => .ok { s with counters := { s.counters with invalidCommonTime := s.counters.invalidCommonTime + 1 } }
    | some stamp => pairHeads p (enqueue p s side ⟨frame, stamp, s.changes⟩)

def consume (s : State) (frame : Frame) : Except String State := do
  refuse (p.maxFrames ≤ s.index) "bounded offline pairing frame budget exceeded"
  let side ← sideOf frame.side
  let session := s.session.getD frame.sessionId
  refuse (frame.sessionId ≠ session) "do not pair across recording sessions"
  refuse (frame.rawKey ∈ s.seen) "duplicate authoritative raw frame key"
  accept p { s with index := s.index + 1, session := some session, seen := frame.rawKey :: s.seen } side frame

def consumeAll (diagnostics : Counters) (records : List Frame) : Except String State := records.foldlM (consume p) (State.start diagnostics)

def State.finish (s : State) : State :=
  { s with counters := { s.counters with unmatchedEnd := s.counters.unmatchedEnd + (s.queues.left.length + s.queues.right.length) } }

/-- `iter_paired_records`: the pairs, and the counters of the diagnostics. -/
def iterPairedRecords (diagnostics : Counters) (records : List Frame) : Except String (List Pair × Counters) := do
  let s ← consumeAll p diagnostics records
  return (s.pairs, s.finish.counters)

end Smartwheel.RecordPairs

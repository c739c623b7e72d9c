import Mathlib.Algebra.GroupWithZero.Nat
import Smartwheel.Effect.Guarantee
import Mathlib.Data.List.MinMax

/-! `MappingInput` with its `ArchiveWorker`: outputs are reserved and submitted on the callback thread, archived by
the worker, and released when their results are polled. Every step is what one thread does between two calls that
the other can see. -/
namespace Smartwheel.Mapping
open Effect

def maxPendingOutputs : Nat := 10
def maxRealtimePendingOutputs : Nat := 100
def maxPendingBytes : Nat := 128 * 1024 * 1024
def queuedObjectAllowanceBytes : Nat := 4096
def maxUncheckpointedOutputs : Nat := 256
def maxFrames : Nat := 12000
def maxCdrBytes : Nat := 8000000

inductive Side where
  | left | right
deriving DecidableEq, Repr

def Side.other : Side → Side
  | .left => .right
  | .right => .left

structure Member where
  side : Side
  stamp : Int
  host : Int
  rawCount : Nat
deriving DecidableEq, Repr

structure Report where
  enabled : Bool
  publishable : Bool
deriving DecidableEq, Repr

/-- `number` counts the accepted outputs. -/
structure Output where
  number : Nat
  members : List Member
  reference : Int
  host : Int
  reservation : Nat
  report : Report
deriving DecidableEq, Repr

inductive Job where
  | bootstrap
  | output (o : Output)
deriving DecidableEq, Repr

inductive Result where
  | bootstrap
  | output (o : Output) (index : Nat)
deriving DecidableEq, Repr

inductive Main where
  | idle
  | submitting (o : Output)
  | submitted (o : Output)
  | offering (o : Output)
  | polling (publish : Bool)
  | publishing (o : Output)
  | finishing (publish : Bool)
  | joining
  | settling
deriving DecidableEq, Repr

inductive Worker where
  | waiting
  | working (job : Job)
  | putting (result : Result)
  | exited
deriving DecidableEq, Repr

structure Config where
  sides : List Side
  realtime : Bool
  continuous : Bool
  periodic : Bool
  maxPairDelta : Int
  period : Int

def Config.pendingOutputLimit (c : Config) : Nat :=
  if c.realtime then maxRealtimePendingOutputs else maxPendingOutputs

/-- The owner, its worker with both queues, and the checkpoint. `acknowledged` lists the archive results applied,
`published` lists the outputs given to the publisher with whether a result did it, and `full` says that a bounded
queue has raised. -/
structure Input where
  failureReason : Option String
  closing : Bool
  closed : Bool
  transforms : Bool
  ready : Bool
  buffers : Side → List Member
  lastEnqueuedHost : Option Int
  lastEnqueuedStamp : Option Int
  enqueuedOutputs : Nat
  pending : List (Int × Nat)
  pendingBytes : Nat
  publishedFrames : Nat
  archivedOutputs : Nat
  filteredEmptyOutputs : Nat
  unpairedDiscarded : Nat
  bootstrapDiscarded : Nat
  outputsDiscardedOnClose : Int
  main : Main
  workerClosing : Bool
  workerError : Option String
  outputs : Nat
  emptyOutputs : Nat
  jobs : List Job
  results : List Result
  worker : Worker
  written : Nat
  synced : Nat
  checkpointError : Option String
  statusError : Option String
  acknowledged : List Nat
  published : List (Nat × Bool)
  full : Bool

structure Frozen where
  cdrs : List Nat
  outputData : Nat
  metadataBytes : Nat
  report : Report

/-- What a callback meets outside: `should_stop`, the gate, and in the realtime mode the building of the cloud. -/
structure Source where
  message : Side
  stopped : Bool
  mismatch : Bool
  inspected : Except String (Option Member)
  frozen : Except String Frozen
  stoppedLater : Bool

inductive Check where
  | pass
  | stop
  | raised (reason : String)

namespace Input

abbrev Callback (α : Type) := Program Input String α

/-- `_require`. -/
def require (c : Prop) [Decidable c] (reason : String) : Callback Unit := .raiseIf (¬c) reason

def fail (j : Input) (reason : String) : Input := { j with failureReason := some (j.failureReason.getD reason) }

/-- What `ensure_active` raises. -/
def inactive (j : Input) : Option String :=
  match j.failureReason with
  | some reason => some reason
  | none =>
    if j.closing then some "MAPPING_INPUT_STOPPED"
    else j.workerError.or j.checkpointError

def ensureActive : Callback Unit := do
  let j ← .get
  match j.inactive with
  | some reason => .raise reason
  | none => return ()

def near (delta stamp : Int) (row : Member) : Bool := ((row.stamp - stamp).natAbs : Int) ≤ delta

def nearest (stamp : Int) (rows : List Member) : Option Member :=
  rows.argmin fun row => (row.stamp - stamp).natAbs

/-- `_members`: the frame alone, or with the nearest one of the other side; else it waits for one. -/
def members (c : Config) (member : Member) : Callback (Option (List Member)) := do
  if c.sides.length = 1 then return some [member]
  else
    let j ← .get
    let side := member.side
    let opposite := (j.buffers side.other).dropWhile fun row => row.stamp < member.stamp - c.maxPairDelta
    let dropped := (j.buffers side.other).length - opposite.length
    match nearest member.stamp (opposite.filter (near c.maxPairDelta member.stamp)) with
    | none =>
      let own := j.buffers side ++ [member]
      .modify fun j => { j with
        buffers := Function.update (Function.update j.buffers side.other opposite) side (own.drop (own.length - 32))
        unpairedDiscarded := j.unpairedDiscarded + dropped + (own.length - 32) }
      return none
    | some partner =>
      .modify fun j => { j with
        buffers := Function.update j.buffers side.other (opposite.erase partner)
        unpairedDiscarded := j.unpairedDiscarded + dropped }
      return some (if side = .left then [member, partner] else [partner, member])

def reservation (members : List Member) : Option Frozen → Nat
  | some frozen =>
    frozen.cdrs.sum + frozen.outputData + frozen.metadataBytes + queuedObjectAllowanceBytes * (1 + members.length)
  | none => members.length * maxCdrBytes + (members.map fun row => row.rawCount * 32).sum

def liftCheck {α : Type} : Except String α → Callback α
  | .ok a => return a
  | .error reason => .raise reason

def freeze (c : Config) (s : Source) : Callback (Option Frozen) := do
  if c.realtime then
    let frozen ← liftCheck s.frozen
    require (∀ size ∈ frozen.cdrs, 0 < size ∧ size ≤ maxCdrBytes) "INVALID_CDR_ENVELOPE"
    return some frozen
  else return none

/-- `receive_source` up to the submission: the output that may be submitted, if any. -/
def admission (c : Config) (s : Source) : Callback (Option Output) := do
  if s.stopped then return none
  else
    ensureActive
    require (s.message ∈ c.sides) "UNREQUESTED_LIDAR_SIDE"
    require (¬s.mismatch) "CLOUD_SOURCE_REPRESENTATION_MISMATCH"
    match ← liftCheck s.inspected with
    | none => return none
    | some member =>
      let j ← .get
      if !j.transforms then
        .modify fun j => { j with bootstrapDiscarded := j.bootstrapDiscarded + 1 }
        return none
      else
        match ← members c member with
        | none => return none
        | some rows =>
          let j ← .get
          let stamps := rows.map (·.stamp)
          let reference := stamps.foldl max member.stamp
          let host := (rows.map (·.host)).foldl max member.host
          require (reference - stamps.foldl min member.stamp ≤ c.maxPairDelta) "PAIR_TIME_DELTA_EXCEEDED"
          if c.period ≠ 0 ∧ j.lastEnqueuedHost.any (fun last => host - last < c.period) then
            .modify fun j => { j with unpairedDiscarded := j.unpairedDiscarded + rows.length }
            return none
          else
            require (j.lastEnqueuedStamp.all (· < reference)) "NONMONOTONIC_OUTPUT_TIMESTAMP"
            require (j.pending.length < c.pendingOutputLimit) "ARCHIVE_QUEUE_FULL"
            require (c.periodic → j.enqueuedOutputs < j.synced + maxUncheckpointedOutputs) "STORAGE_CHECKPOINT_BACKLOG"
            require (c.continuous ∨ j.enqueuedOutputs < maxFrames) "FRAME_ARCHIVE_LIMIT_REACHED"
            let frozen ← freeze c s
            let reserved := reservation rows frozen
            require (j.pendingBytes + reserved ≤ maxPendingBytes) "ARCHIVE_QUEUE_FULL"
            if s.stoppedLater then return none
            else
              return some {
                number := j.enqueuedOutputs + 1
                members := rows
                reference := reference
                host := host
                reservation := reserved
                report := (frozen.map (·.report)).getD ⟨false, true⟩ }

/-- The first part of `receive_source`. -/
def receiveSource (c : Config) (s : Source) (j : Input) : Input :=
  match admission c s j with
  | (.value (some o), j') => { j' with main := .submitting o }
  | (.value none, j') => j'
  | (.raised reason, j') => j'.fail reason
  | (.cut, j') => j'

/-- `worker.submit`: what it raises, if anything. -/
def submit (c : Config) (job : Job) (j : Input) : Option String × Input :=
  if j.workerClosing ∨ j.workerError.isSome then (some (j.workerError.getD "ARCHIVE_WORKER_CLOSED"), j)
  else if c.pendingOutputLimit + 1 ≤ j.jobs.length then (some "ARCHIVE_QUEUE_FULL", { j with full := true })
  else (none, { j with jobs := j.jobs ++ [job] })

def submitOutput (c : Config) (o : Output) (j : Input) : Input :=
  match j.submit c (.output o) with
  | (none, j) => { j with main := .submitted o }
  | (some reason, j) => { j.fail reason with main := .idle }

/-- `_observe_filter`. -/
def observeFilter (j : Input) (report : Report) : Input :=
  if report.enabled ∧ !report.publishable then { j with filteredEmptyOutputs := j.filteredEmptyOutputs + 1 } else j

def recount (j : Input) : Input :=
  { j with outputsDiscardedOnClose := j.enqueuedOutputs - j.publishedFrames - j.filteredEmptyOutputs }

def accept (o : Output) (j : Input) : Input :=
  { j with
    pending := j.pending ++ [(o.host, o.reservation)]
    pendingBytes := j.pendingBytes + o.reservation
    enqueuedOutputs := j.enqueuedOutputs + 1
    lastEnqueuedHost := some o.host
    lastEnqueuedStamp := some o.reference }

def account (c : Config) (o : Output) (j : Input) : Input :=
  if c.realtime then { ((j.accept o).observeFilter o.report).recount with main := .offering o }
  else { j.accept o with main := .idle }

/-- The end of `receive_source` in the realtime mode: the cloud is published while it is fresh. -/
def offer (o : Output) (check : Check) (j : Input) : Input :=
  if !o.report.publishable then { j with main := .idle }
  else
    match check, j.inactive.or j.statusError with
    | .stop, _ => { j with main := .idle }
    | _, some reason => { j.fail reason with main := .idle }
    | .raised reason, none => { j.fail reason with main := .idle }
    | .pass, none =>
      let j := { j with publishedFrames := j.publishedFrames + 1, published := j.published ++ [(o.number, false)] }
      { j.recount with main := .idle }

/-- Where the thread goes on after `poll_io`: it was called by `close` where it does not publish. -/
def polled (publish : Bool) : Main := if publish then .idle else .settling

def release (j : Input) : Input :=
  match j.pending with
  | [] => j
  | (_, reserved) :: rest => { j with pending := rest, pendingBytes := j.pendingBytes - reserved }

def acknowledge (o : Output) (index : Nat) (rest : List Result) (j : Input) : Input :=
  { j with results := rest, archivedOutputs := index, acknowledged := j.acknowledged ++ [o.number] }.release

/-- One round of the loop of `poll_io`. -/
def pollRound (c : Config) (publish stop : Bool) (j : Input) : Input :=
  match j.results with
  | [] => { j with main := .finishing publish }
  | .bootstrap :: rest => { j with results := rest, transforms := true }
  | .output o index :: rest =>
    let j := j.acknowledge o index rest
    if c.realtime then j
    else
      let j := j.observeFilter o.report
      if !o.report.publishable then j
      else if !publish ∨ j.failureReason.isSome ∨ stop then
        { j with outputsDiscardedOnClose := j.outputsDiscardedOnClose + 1 }
      else
        match j.inactive with
        | some reason => { j.fail reason with main := polled publish }
        | none => { j with main := .publishing o }

def publish (o : Output) (check : Check) (j : Input) : Input :=
  match check with
  | .stop => { j with outputsDiscardedOnClose := j.outputsDiscardedOnClose + 1, main := .polling true }
  | .raised reason => { j.fail reason with main := .idle }
  | .pass =>
    { j with
      publishedFrames := j.publishedFrames + 1
      published := j.published ++ [(o.number, true)]
      main := .polling true }

/-- The end of `poll_io`: the written prefix, and the errors of the other threads. -/
def finish (publish : Bool) (j : Input) : Input :=
  let j := { j with archivedOutputs := j.written }
  match j.workerError.or (j.statusError.or j.checkpointError) with
  | some reason => { j.fail reason with main := polled publish }
  | none => { j with main := polled publish }

/-- `close` up to the join of the worker. -/
def close (j : Input) : Input :=
  if j.closed then j else { j with closing := true, workerClosing := true, main := .joining }

def join (j : Input) : Input :=
  if j.worker = .exited then { j with main := .polling false }
  else { j.fail "ARCHIVE_CLOSE_TIMEOUT" with main := .settling }

/-- The rest of `close`: the other threads are joined, perhaps with an error. -/
def settle (failure : Option String) (j : Input) : Input :=
  match failure with
  | some reason => { j.fail reason with closed := true, main := .idle }
  | none => { j with closed := true, main := .idle }

def proceed (c : Config) (check : Check) (stop : Bool) (failure : Option String) (j : Input) : Input :=
  match j.main with
  | .idle => j
  | .submitting o => j.submitOutput c o
  | .submitted o => j.account c o
  | .offering o => j.offer o check
  | .polling publish => j.pollRound c publish stop
  | .publishing o => j.publish o check
  | .finishing publish => j.finish publish
  | .joining => j.join
  | .settling => j.settle failure

/-- `receive_imu`: the bootstrap is submitted once. -/
def receiveImu (c : Config) (completed : Except String Bool) (j : Input) : Input :=
  match j.inactive, completed with
  | some reason, _ => j.fail reason
  | none, .error reason => j.fail reason
  | none, .ok completed =>
    if !completed ∨ j.ready then j
    else
      match { j with ready := true }.submit c .bootstrap with
      | (none, j) => j
      | (some reason, j) => j.fail reason

def failWorker (j : Input) (reason : String) : Input :=
  { j with workerError := some ("ARCHIVE_WRITE_FAILED: " ++ reason), worker := .exited }

def archive (c : Config) (o : Output) (report : Report) (j : Input) : Input :=
  let o := if c.realtime then o else { o with report }
  { j with
    outputs := j.outputs + 1
    emptyOutputs := j.emptyOutputs + if o.report.publishable then 0 else 1
    written := j.outputs + 1
    worker := .putting (.output o (j.outputs + 1)) }

def work (c : Config) (archived : Except String Report) (j : Input) : Input :=
  match j.worker with
  | .waiting =>
    match j.jobs with
    | job :: rest => { j with jobs := rest, worker := .working job }
    | [] => if j.workerClosing then { j with worker := .exited } else j
  | .working job =>
    match archived, job with
    | .error reason, _ => j.failWorker reason
    | .ok _, .bootstrap => { j with worker := .putting .bootstrap }
    | .ok report, .output o => j.archive c o report
  | .putting result =>
    if c.pendingOutputLimit + 2 ≤ j.results.length then { j.failWorker "" with full := true }
    else { j with results := j.results ++ [result], worker := .waiting }
  | .exited => j

end Input

def Input.initial (c : Config) : Input where
  failureReason := none
  closing := false
  closed := false
  transforms := false
  ready := c.continuous
  buffers := fun _ => []
  lastEnqueuedHost := none
  lastEnqueuedStamp := none
  enqueuedOutputs := 0
  pending := []
  pendingBytes := 0
  publishedFrames := 0
  archivedOutputs := 0
  filteredEmptyOutputs := 0
  unpairedDiscarded := 0
  bootstrapDiscarded := 0
  outputsDiscardedOnClose := 0
  main := .idle
  workerClosing := false
  workerError := none
  outputs := 0
  emptyOutputs := 0
  jobs := if c.continuous then [.bootstrap] else []
  results := []
  worker := .waiting
  written := 0
  synced := 0
  checkpointError := none
  statusError := none
  acknowledged := []
  published := []
  full := false

/-- A callback, a poll or `close` begins on the idle thread, the thread or the worker goes on, a checkpoint
advances, or another thread has failed. -/
inductive Step (c : Config) : Input → Input → Prop
  | receiveSource {j : Input} (s : Source) (idle : j.main = .idle) : Step c j (j.receiveSource c s)
  | receiveImu {j : Input} (completed : Except String Bool) (idle : j.main = .idle) : Step c j (j.receiveImu c completed)
  | poll {j : Input} (idle : j.main = .idle) : Step c j { j with main := .polling true }
  | close {j : Input} (idle : j.main = .idle) : Step c j j.close
  | fail {j : Input} (reason : String) (idle : j.main = .idle) : Step c j (j.fail reason)
  | proceed {j : Input} (check : Check) (stop : Bool) (failure : Option String) :
    Step c j (j.proceed c check stop failure)
  | work {j : Input} (archived : Except String Report) : Step c j (j.work c archived)
  | checkpoint {j : Input} (synced : Nat) (grows : j.synced ≤ synced) (bound : synced ≤ j.written) :
    Step c j { j with synced }
  | error {j : Input} (checkpointError statusError : Option String) : Step c j { j with checkpointError, statusError }

end Smartwheel.Mapping

import Mathlib.Algebra.GroupWithZero.Nat
import Smartwheel.Effect.History

/-! `AsyncJournal`: a bounded queue of encoded records and the one worker that writes them in batches. Every
critical section is one step, and so is every operation on the file; the worker waits inside of one. -/
namespace Smartwheel.Feedback

/-- A record as it stands in the file. -/
abbrev Line := List UInt8

def total (lines : List Line) : Nat := (lines.map List.length).sum

def journalRecordBytes : Nat := 65536
def journalBatchEvents : Nat := 64
def journalBatchBytes : Nat := 65536

inductive Output where
  | batch (lines : List Line) (size : Nat)
  | finalization (line : Line)

def Output.bytes : Output → List UInt8
  | .batch lines _ => lines.flatten
  | .finalization line => line

inductive Worker where
  | waiting
  | gathering (lines : List Line) (size : Nat)
  | writing (output : Output)
  | wrote (output : Output) (failure : Option String)
  | counting (lines : List Line) (size : Nat)
  | finalizing
  | syncing
  | synced
  | failing (reason : String)
  | closing
  | closeFailed (reason : String)
  | exiting
  | exited

/-- The attributes, the worker, the file with what its stream still holds, and what was accepted, counted as
written, and composed as the last record. `torn` says that an operation on the file has failed. -/
structure Journal where
  queue : List Line
  closing : Bool
  workerExited : Bool
  finalFsyncComplete : Bool
  error : Option String
  enqueuedEvents : Nat
  writtenEvents : Nat
  pendingEvents : Nat
  pendingBytes : Nat
  rejectedEvents : Nat
  highWaterEvents : Nat
  highWaterBytes : Nat
  writeCount : Nat
  completedBatches : Nat
  maxBatchEvents : Nat
  maxBatchBytes : Nat
  worker : Worker
  file : List UInt8
  buffer : List UInt8
  torn : Bool
  accepted : List Line
  written : List Line
  finalization : Option Line

structure Config (ρ : Type) where
  maxEvents : Nat
  maxBytes : Nat
  encode : ρ → Nat → Int → Except String Line
  finalize : Journal → Line
  bounds : 1 ≤ maxEvents ∧ 1 ≤ maxBytes

/-- How an operation on the file ends. Where it fails a first part of what it was given has arrived, and a
first part of the rest may be written when the stream is closed. -/
inductive Io where
  | done
  | failed (arrived kept : Nat) (reason : String)

namespace Journal

def failLocked (j : Journal) (reason : String) : Journal :=
  { j with error := some (j.error.getD reason), closing := true }

def accept (j : Journal) (line : Line) : Journal :=
  { j with
    queue := j.queue ++ [line]
    enqueuedEvents := j.enqueuedEvents + 1
    pendingEvents := j.pendingEvents + 1
    pendingBytes := j.pendingBytes + line.length
    highWaterEvents := max j.highWaterEvents (j.pendingEvents + 1)
    highWaterBytes := max j.highWaterBytes (j.pendingBytes + line.length)
    accepted := j.accepted ++ [line] }

section
variable {ρ : Type} (c : Config ρ) (j : Journal)

/-- `__call__`: what it raises, if anything, and what it leaves. -/
def call (record : ρ) (now : Int) : Option String × Journal :=
  if j.error.isSome ∨ j.closing then (some (j.error.getD "ASYNC_JOURNAL_CLOSED"), j)
  else
    match c.encode record (j.enqueuedEvents + 1) now with
    | .error e =>
      let j := j.failLocked ("ASYNC_JOURNAL_ENCODE_FAILED: " ++ e)
      (j.error, j)
    | .ok line =>
      if journalRecordBytes < line.length ∨ c.maxEvents ≤ j.pendingEvents ∨ c.maxBytes < j.pendingBytes + line.length then
        let j := { j with rejectedEvents := j.rejectedEvents + 1 }.failLocked
          (if journalRecordBytes < line.length then "ASYNC_JOURNAL_RECORD_TOO_LARGE" else "ASYNC_JOURNAL_QUEUE_FULL")
        (j.error, j)
      else (none, j.accept line)

def fill : List Line → List Line → Nat → List Line × List Line × Nat
  | [], lines, size => ([], lines, size)
  | next :: rest, lines, size =>
    if journalBatchEvents ≤ lines.length then (next :: rest, lines, size)
    else if lines ≠ [] ∧ journalBatchBytes < size + next.length then (next :: rest, lines, size)
    else fill rest (lines ++ [next]) (size + next.length)

def gather (lines : List Line) (size : Nat) (timedOut : Bool) : Journal :=
  let (queue, lines, size) := fill j.queue lines size
  let byteFull := queue.head?.any fun next => journalBatchBytes < size + next.length
  let j := { j with queue := queue }
  if journalBatchEvents ≤ lines.length ∨ byteFull ∨ j.closing ∨ timedOut then
    { j with
      maxBatchEvents := max j.maxBatchEvents lines.length
      maxBatchBytes := max j.maxBatchBytes size
      worker := .writing (.batch lines size) }
  else { j with worker := .gathering lines size }

/-- The operations of `_write`. -/
def write (output : Output) : Io → Journal
  | .done => { j with file := j.file ++ output.bytes, worker := .wrote output none }
  | .failed arrived kept reason =>
    { j with
      file := j.file ++ output.bytes.take arrived
      buffer := (output.bytes.drop arrived).take kept
      torn := true
      worker := .wrote output (some reason) }

/-- The `finally` of `_write`, and where the worker goes on. -/
def afterWrite (output : Output) (failure : Option String) : Journal :=
  { j with
    writeCount := j.writeCount + 1
    worker :=
      match failure, output with
      | some reason, _ => .failing ("ASYNC_JOURNAL_WRITE_FAILED: " ++ reason)
      | none, .batch lines size => .counting lines size
      | none, .finalization _ => .syncing }

def count (lines : List Line) (size : Nat) : Journal :=
  { j with
    completedBatches := j.completedBatches + 1
    writtenEvents := j.writtenEvents + lines.length
    pendingEvents := j.pendingEvents - lines.length
    pendingBytes := j.pendingBytes - size
    written := j.written ++ lines
    worker := .waiting }

def closeOutput : Io → Journal
  | .done => { j with file := j.file ++ j.buffer, buffer := [], worker := .exiting }
  | .failed arrived _ reason =>
    { j with file := j.file ++ j.buffer.take arrived, buffer := [], worker := .closeFailed reason }

/-- One step of `_run`. -/
def work (timedOut : Bool) (io : Io) : Journal :=
  match j.worker with
  | .waiting =>
    if j.queue = [] then if j.closing then { j with worker := .finalizing } else j
    else j.gather [] 0 timedOut
  | .gathering lines size => j.gather lines size timedOut
  | .writing output => j.write output io
  | .wrote output failure => j.afterWrite output failure
  | .counting lines size => j.count lines size
  | .finalizing =>
    let line := c.finalize j
    { j with finalization := some line, worker := .writing (.finalization line) }
  | .syncing =>
    match io with
    | .done => { j with worker := .synced }
    | .failed _ _ reason => { j with worker := .failing ("ASYNC_JOURNAL_WRITE_FAILED: " ++ reason) }
  | .synced => { j with finalFsyncComplete := true, worker := .closing }
  | .failing reason => { j.failLocked reason with worker := .closing }
  | .closing => j.closeOutput io
  | .closeFailed reason => { j.failLocked ("ASYNC_JOURNAL_CLOSE_FAILED: " ++ reason) with worker := .exiting }
  | .exiting => { j with workerExited := true, worker := .exited }
  | .exited => j

/-- The first critical section of `close`. -/
def closeBegin : Journal := { j with closing := true }

/-- The last one, after the join: what `close` raises, if anything. -/
def closeEnd (alive : Bool) : Option String × Journal :=
  let j := if alive then j.failLocked "ASYNC_JOURNAL_CLOSE_TIMEOUT" else j
  match j.error with
  | some e => (some e, j)
  | none => if j.finalFsyncComplete then (none, j) else (some "ASYNC_JOURNAL_NOT_SYNCED", j)

end

def initial : Journal where
  queue := []
  closing := false
  workerExited := false
  finalFsyncComplete := false
  error := none
  enqueuedEvents := 0
  writtenEvents := 0
  pendingEvents := 0
  pendingBytes := 0
  rejectedEvents := 0
  highWaterEvents := 0
  highWaterBytes := 0
  writeCount := 0
  completedBatches := 0
  maxBatchEvents := 0
  maxBatchBytes := 0
  worker := .waiting
  file := []
  buffer := []
  torn := false
  accepted := []
  written := []
  finalization := none

/-- A producer calls, the worker takes a step, or `close` enters one of its critical sections. A thread that is
not alive has exited. -/
inductive Step {ρ : Type} (c : Config ρ) : Journal → Journal → Prop
  | call {j : Journal} (record : ρ) (now : Int) : Step c j (j.call c record now).2
  | work {j : Journal} (timedOut : Bool) (io : Io) : Step c j (j.work c timedOut io)
  | closeBegin {j : Journal} : Step c j j.closeBegin
  | closeEnd {j : Journal} (alive : Bool) (joined : alive = false → j.workerExited = true) :
    Step c j (j.closeEnd alive).2

end Journal
end Smartwheel.Feedback

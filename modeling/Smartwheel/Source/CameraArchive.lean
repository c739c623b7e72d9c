import Smartwheel.Source.CameraFrame
import Smartwheel.Source.Journal

/-! `CameraArchive`: frames queued by the acquisition thread, and the writer that stores them in chunks and makes a row of
the index for each. The acquisition thread calls `append` and `close` one after the other; between two steps of a call
the writer may take any number of its own. -/
namespace Smartwheel.Source.Camera

structure Config where
  maxItems : Nat
  chunkBytes : Nat
  compression : Compression
  codec : Codec
  bounds : 0 < maxItems ∧ 0 < chunkBytes

def Config.block (c : Config) (f : Frame) : Bytes := stored c.codec c.compression f

structure Chunk where
  content : Bytes
  flushed : Nat
deriving DecidableEq

def Chunk.disk (chunk : Chunk) : Bytes := chunk.content.take chunk.flushed

def Chunk.pass (chunk : Chunk) (passed : Nat) : Chunk :=
  { chunk with flushed := min chunk.content.length (chunk.flushed + passed) }

def Chunk.drained (chunk : Chunk) : Chunk := { chunk with flushed := chunk.content.length }

/-- `chunk.write`: the stream takes more, and passes on some of what it has. -/
def Chunk.write (chunk : Chunk) (bytes : Bytes) (passed : Nat) : Chunk :=
  { chunk with content := chunk.content ++ bytes }.pass passed

/-- What the writer does next. `hand` is the frame it has taken and not counted. -/
inductive Writer where
  | opening
  | waiting
  | empty
  | taken (f : Frame)
  | rolling (f : Frame)
  | creating (f : Frame)
  | writing (f : Frame)
  | indexing (f : Frame) (offset : Nat)
  | finishing
  | flushing
  | syncing (n : Nat)
  | syncingIndex
  | leaving (hand : Option Frame) (reason : String)
  | failing (hand : Option Frame) (reason : String)
  | releasing (hand : Option Frame)
  | exited (hand : Option Frame)
deriving DecidableEq

def Writer.hand : Writer → Option Frame
  | .taken f | .rolling f | .creating f | .writing f | .indexing f _ => some f
  | .leaving hand _ | .failing hand _ | .releasing hand | .exited hand => hand
  | _ => none

/-- Where the acquisition thread is: outside, in `append` before the frame is put, or in `close`. -/
inductive Owner where
  | idle
  | offering (f : Frame)
  | joining (sourceError : Option String)
deriving DecidableEq

def Writer.isExited : Writer → Bool
  | .exited _ => true
  | _ => false

def Owner.hand : Owner → Option Frame
  | .offering f => some f
  | _ => none

inductive Status where
  | complete | incomplete
deriving DecidableEq, Repr

structure Summary where
  captured : Nat
  persisted : Nat
  dropped : Nat
  error : Option String
  sourceError : Option String
  synchronized : Bool
  closedNormally : Bool
  status : Status
  finalFsyncComplete : Bool
  chunksSynchronized : Nat
  indexSynchronized : Bool
deriving DecidableEq

/-- `value.update`. -/
def Summary.failed (value : Summary) (error : Option String) : Summary :=
  { value with error := error, status := .incomplete, synchronized := false, closedNormally := false }

/-- The attributes, both threads, the chunks, the rows given to the index and how many of them are on the disk, the two
summary files, and what was put into the queue. -/
structure State where
  queue : List Frame
  error : Option String
  received : Nat
  persisted : Nat
  dropped : Nat
  closing : Bool
  finished : List Chunk
  current : Option Chunk
  entries : List Entry
  shown : Nat
  chunksSynchronized : Nat
  indexSynchronized : Bool
  finalFsyncComplete : Bool
  closeValue : Option Summary
  summary : Option Summary
  partialSummary : Option Summary
  writer : Writer
  owner : Owner
  puts : List Frame
deriving DecidableEq

/-- How an operation on a file ends: so much of what its stream has arrives; where it fails, the stream has taken so
many of the bytes it was given. -/
inductive Io where
  | done (passed : Nat)
  | failed (accepted passed : Nat) (reason : String)
deriving DecidableEq

/-- How the summary is written: where it fails, whether the file was replaced, whether it could be removed again, and
whether the other one was written. -/
inductive Commit where
  | done
  | failed (replaced removed written : Bool) (reason : String)
deriving DecidableEq

namespace State
variable (s : State)

/-- `_fail`: the first reason stays. -/
def fail (reason : String) : State := { s with error := some (s.error.getD reason) }

def chunks : List Chunk := s.finished ++ s.current.toList

def directory : Directory where
  isDir := true
  isSymlink _ := false
  inside _ := true
  file path := (s.chunks.zipIdx.find? fun (_, n) => decide (path = chunkPath n)).map (·.1.disk)

def index : List Entry := s.entries.take s.shown

def showRows (passed : Nat) : State := { s with shown := min s.entries.length (s.shown + passed) }

/-- `append` up to the queue. -/
def append (given : Given) : State :=
  let s := { s with received := s.received + 1 }
  if s.closing ∨ truthy s.error then { s with dropped := s.dropped + 1 }
  else
    match given.frame with
    | none => { s with dropped := s.dropped + 1 }.fail "BGR_SIZE_MISMATCH"
    | some f => { s with owner := .offering f }

def put (maxItems : Nat) (f : Frame) : State :=
  if maxItems ≤ s.queue.length then
    { s with dropped := s.dropped + 1, owner := .idle }.fail "CAMERA_ARCHIVE_QUEUE_FULL"
  else { s with queue := s.queue ++ [f], puts := s.puts ++ [f], owner := .idle }

/-- `close` up to the join. -/
def close (sourceError : Option String) : State :=
  if s.closeValue.isSome then s else { s with closing := true, owner := .joining sourceError }

/-- The summary as `close` makes it. -/
def value (sourceError : Option String) : Summary :=
  let synchronized := s.finalFsyncComplete && !truthy s.error && decide (s.received = s.persisted) && decide (s.dropped = 0)
  { captured := s.received
    persisted := s.persisted
    dropped := s.dropped
    error := s.error
    sourceError := sourceError
    synchronized := synchronized
    closedNormally := synchronized && !truthy sourceError
    status := if synchronized && !truthy sourceError then .complete else .incomplete
    finalFsyncComplete := s.finalFsyncComplete
    chunksSynchronized := s.chunksSynchronized
    indexSynchronized := s.indexSynchronized }

/-- The end of `close` where the writer has exited. -/
def commit (sourceError : Option String) (outcome : Commit) : State :=
  let value := s.value sourceError
  let s := { s with owner := .idle }
  if s.finalFsyncComplete then
    match outcome with
    | .done => { s with summary := some value, closeValue := some value }
    | .failed replaced removed written reason =>
      let s := s.fail ("CAMERA_ARCHIVE_SUMMARY_SYNC_FAILED: " ++ reason)
      { s with
        summary := if removed then none else if replaced then some value else s.summary
        partialSummary := if removed ∧ written then some (value.failed s.error) else s.partialSummary }
  else
    let s := s.fail "CAMERA_ARCHIVE_DURABILITY_INCOMPLETE"
    match outcome with
    | .done => { s with partialSummary := some (value.failed s.error) }
    | .failed .. => s

/-- The end of `close`. -/
def join (alive : Bool) (sourceError : Option String) (outcome : Commit) : State :=
  if alive then { s with owner := .idle }.fail "CAMERA_ARCHIVE_CLOSE_TIMEOUT" else s.commit sourceError outcome

/-- `finish_chunk`. -/
def finishChunk (chunk : Chunk) (io : Io) (next : Writer) (hand : Option Frame) : State :=
  match io with
  | .done _ => { s with finished := s.finished ++ [chunk.drained], current := none, writer := next }
  | .failed _ passed reason => { s with current := some (chunk.pass passed), writer := .leaving hand reason }

/-- `chunk.write`. -/
def writeChunk (c : Config) (f : Frame) (chunk : Chunk) (io : Io) : State :=
  match io with
  | .done passed =>
    { s with current := some (chunk.write (c.block f) passed), writer := .indexing f chunk.content.length }
  | .failed accepted passed reason =>
    { s with current := some (chunk.write ((c.block f).take accepted) passed), writer := .leaving (some f) reason }

def writeIndex (f : Frame) (offset : Nat) (io : Io) : State :=
  let entry : Entry := ⟨f, s.finished.length, offset⟩
  match io with
  | .done passed =>
    { s with entries := s.entries ++ [entry], persisted := s.persisted + 1, writer := .waiting }.showRows passed
  | .failed accepted passed reason =>
    { s with
      entries := if accepted = 0 then s.entries else s.entries ++ [entry]
      writer := .leaving (some f) reason }.showRows passed

def attempt (io : Io) (next : State) (failed : String → Writer) : State :=
  match io with
  | .done _ => next
  | .failed _ _ reason => { s with writer := failed reason }

def place (c : Config) (f : Frame) : Writer :=
  match s.current with
  | none => .creating f
  | some chunk => if c.chunkBytes < chunk.content.length + (c.block f).length then .rolling f else .writing f

/-- The next step of `_run`. A writer without a chunk is never at one of the steps that need it. -/
def work (c : Config) (io : Io) : State :=
  match s.writer with
  | .opening => s.attempt io { s with writer := .waiting } (.failing none)
  | .waiting =>
    match s.queue with
    | [] => { s with writer := .empty }
    | f :: rest => { s with queue := rest, writer := .taken f }
  | .empty =>
    if s.closing then { s with writer := if s.current.isSome then .finishing else .flushing }
    else { s with writer := .waiting }
  | .taken f => s.attempt io { s with writer := s.place c f } (.leaving (some f))
  | .rolling f =>
    match s.current with
    | some chunk => s.finishChunk chunk io (.creating f) (some f)
    | none => s
  | .creating f => s.attempt io { s with current := some ⟨[], 0⟩, writer := .writing f } (.leaving (some f))
  | .writing f =>
    match s.current with
    | some chunk => s.writeChunk c f chunk io
    | none => s
  | .indexing f offset => s.writeIndex f offset io
  | .finishing =>
    match s.current with
    | some chunk => s.finishChunk chunk io .flushing none
    | none => s
  | .flushing =>
    match io with
    | .done _ => { s with shown := s.entries.length, writer := .syncing 0 }
    | .failed _ passed reason => { s with writer := .leaving none reason }.showRows passed
  | .syncing n =>
    if n < s.finished.length then
      s.attempt io { s with chunksSynchronized := s.chunksSynchronized + 1, writer := .syncing (n + 1) } (.failing none)
    else { s with writer := .syncingIndex }
  | .syncingIndex =>
    s.attempt io { s with indexSynchronized := true, finalFsyncComplete := true, writer := .exited none } (.failing none)
  | .leaving hand reason =>
    match io with
    | .done _ => { s with shown := s.entries.length, writer := .failing hand reason }
    | .failed _ passed reason' => { s with writer := .failing hand reason' }.showRows passed
  | .failing hand reason => { s.fail reason with writer := .releasing hand }
  | .releasing hand =>
    match s.current with
    | none => { s with writer := .exited hand }
    | some chunk =>
      match io with
      | .done _ => { s with current := some chunk.drained, writer := .exited hand }
      | .failed _ passed reason => { s with current := some (chunk.pass passed), writer := .exited hand }.fail reason
  | .exited _ => s

end State

def initial : State where
  queue := []
  error := none
  received := 0
  persisted := 0
  dropped := 0
  closing := false
  finished := []
  current := none
  entries := []
  shown := 0
  chunksSynchronized := 0
  indexSynchronized := false
  finalFsyncComplete := false
  closeValue := none
  summary := none
  partialSummary := none
  writer := .opening
  owner := .idle
  puts := []

inductive Event where
  | append (given : Given)
  | put
  | close (sourceError : Option String)
  | join (alive : Bool) (outcome : Commit)
  | work (io : Io)
deriving DecidableEq

def State.next (c : Config) (s : State) : Event → Option State
  | .append given => if s.owner = .idle then some (s.append given) else none
  | .put =>
    match s.owner with
    | .offering f => some (s.put c.maxItems f)
    | _ => none
  | .close sourceError => if s.owner = .idle then some (s.close sourceError) else none
  | .join alive outcome =>
    match s.owner with
    | .joining sourceError =>
      if alive = true ∨ s.writer.isExited = true then some (s.join alive sourceError outcome) else none
    | _ => none
  | .work io => some (s.work c io)

def Step (c : Config) (s s' : State) : Prop := ∃ event, s.next c event = some s'

end Smartwheel.Source.Camera

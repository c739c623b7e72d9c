import Smartwheel.Effect.History
import Mathlib.Data.List.Infix

/-! `SourceJournal`: records queued by the acquisition thread, and the writer that takes them in batches. The
acquisition thread calls `append` and `close` one after the other; between two steps of a call the writer may take
any number of its own. -/
namespace Smartwheel.Source

structure Record where
  line : List UInt8
  countable : Bool
deriving DecidableEq

abbrev Batch := List Record

def text (batch : Batch) : List UInt8 := (batch.map (·.line)).flatten

def batchMaxItems : Nat := 128
def batchMaxBytes : Nat := 256 * 1024

/-- Exceptions of the operating system have a text. -/
abbrev Reason := { text : String // text ≠ "" }

/-- What the writer does next. `empty` is where the queue was found so, and `closing` where the stream is. -/
inductive Writer where
  | opening
  | taking (pending : Option Record)
  | empty
  | batching (batch : Batch)
  | writing (batch : Batch) (pending : Option Record)
  | counting (batch : Batch) (pending : Option Record)
  | flushing
  | syncing
  | closing (failure : Option Reason)
  | failing (reason : Reason)
  | exited
deriving DecidableEq

/-- Where the acquisition thread is: outside, in `append` before and after the record is put, or in `close`. -/
inductive Owner where
  | idle
  | putting (record : Record)
  | counting
  | joining
deriving DecidableEq

structure Summary where
  accepted : Nat
  persisted : Nat
  rejected : Nat
  error : Option String
  synchronized : Bool
  closedNormally : Bool
deriving DecidableEq

/-- The attributes, both threads, the file with the batches its stream still holds, and what was put, what was
given to the stream and the summaries. `torn` says that an operation on the file has failed. -/
structure Journal where
  queue : List Record
  error : Option String
  accepted : Nat
  persisted : Nat
  rejected : Nat
  closing : Bool
  writer : Writer
  owner : Owner
  file : List UInt8
  buffer : List (List UInt8)
  torn : Bool
  synced : Bool
  puts : List Record
  attempts : List Batch
  summaries : List Summary
deriving DecidableEq

structure Config where
  maxItems : Nat
  bounds : 0 < maxItems

/-- How an operation on the file ends: so many of the batches the stream holds arrive, or it fails where a first
part has arrived and a first part of the rest is still held. -/
inductive Io where
  | done (passed : Nat)
  | failed (arrived kept : Nat) (reason : Reason)
deriving DecidableEq

def truthy (error : Option String) : Bool := error.any (· ≠ "")

def unhashable : Reason := ⟨"unhashable type: 'list'", by decide⟩

namespace Journal
variable (j : Journal)

/-- `append` up to the queue: `check`, and the encoding of what it was given. -/
def append (record : Record) : Journal :=
  if truthy j.error ∨ j.closing then j else { j with owner := .putting record }

def put (maxItems : Nat) (record : Record) : Journal :=
  if maxItems ≤ j.queue.length then
    { j with rejected := j.rejected + 1, error := some "SOURCE_JOURNAL_QUEUE_FULL", owner := .idle }
  else { j with queue := j.queue ++ [record], puts := j.puts ++ [record], owner := .counting }

/-- The end of `close`. -/
def closeEnd (alive : Bool) (sourceError : Option String) : Journal :=
  let error := if alive then some "SOURCE_JOURNAL_CLOSE_TIMEOUT" else j.error
  let summary : Summary :=
    { accepted := j.accepted
      persisted := j.persisted
      rejected := j.rejected
      error := error
      synchronized := !truthy error && decide (j.accepted = j.persisted)
      closedNormally := !truthy error && !truthy sourceError }
  { j with error := error, owner := .idle, summaries := j.summaries ++ [summary] }

/-- An operation on the file fails: of `content`, what the stream has to pass on, a part arrives. -/
def tear (content : List UInt8) (arrived kept : Nat) (writer : Writer) : Journal :=
  { j with
    file := j.file ++ content.take arrived
    buffer := [(content.drop arrived).take kept]
    torn := true
    writer := writer }

def drain (io : Io) (next : Writer) (failed : Reason → Writer) : Journal :=
  match io with
  | .done _ => { j with file := j.file ++ j.buffer.flatten, buffer := [], writer := next }
  | .failed arrived kept reason => j.tear j.buffer.flatten arrived kept (failed reason)

/-- `stream.write`. -/
def write (batch : Batch) (pending : Option Record) (io : Io) : Journal :=
  let j := { j with attempts := j.attempts ++ [batch] }
  let held := j.buffer ++ [text batch]
  match io with
  | .done passed =>
    { j with
      file := j.file ++ (held.take passed).flatten
      buffer := held.drop passed
      writer := .counting batch pending }
  | .failed arrived kept reason => j.tear held.flatten arrived kept (.closing (some reason))

def gather (batch : Batch) : Journal :=
  if batch.length < batchMaxItems ∧ (text batch).length < batchMaxBytes then
    match j.queue with
    | [] => { j with writer := .writing batch none }
    | record :: rest =>
      if batchMaxBytes < (text batch).length + record.line.length then
        { j with queue := rest, writer := .writing batch (some record) }
      else { j with queue := rest, writer := .batching (batch ++ [record]) }
  else { j with writer := .writing batch none }

/-- The next step of `_run`. -/
def work (io : Io) : Journal :=
  match j.writer with
  | .opening =>
    match io with
    | .done _ => { j with writer := .taking none }
    | .failed _ _ reason => { j with writer := .failing reason }
  | .taking (some record) => { j with writer := .batching [record] }
  | .taking none =>
    match j.queue with
    | [] => { j with writer := .empty }
    | record :: rest => { j with queue := rest, writer := .batching [record] }
  | .empty => { j with writer := if j.closing then .flushing else .taking none }
  | .batching batch => j.gather batch
  | .writing batch pending => j.write batch pending io
  | .counting batch pending =>
    if batch.all (·.countable) then { j with persisted := j.persisted + batch.length, writer := .taking pending }
    else { j with writer := .closing (some unhashable) }
  | .flushing => j.drain io .syncing fun reason => .closing (some reason)
  | .syncing =>
    match io with
    | .done _ => { j with synced := true, writer := .closing none }
    | .failed _ _ reason => { j with writer := .closing (some reason) }
  | .closing none => j.drain io .exited .failing
  | .closing (some reason) => j.drain io (.failing reason) .failing
  | .failing reason => { j with error := some reason.1, writer := .exited }
  | .exited => j

end Journal

def initial : Journal where
  queue := []
  error := none
  accepted := 0
  persisted := 0
  rejected := 0
  closing := false
  writer := .opening
  owner := .idle
  file := []
  buffer := []
  torn := false
  synced := false
  puts := []
  attempts := []
  summaries := []

inductive Event where
  | append (record : Record)
  | put
  | count
  | close
  | closeEnd (alive : Bool) (sourceError : Option String)
  | work (io : Io)
deriving DecidableEq

def Journal.next (c : Config) (j : Journal) : Event → Option Journal
  | .append record => if j.owner = .idle then some (j.append record) else none
  | .put =>
    match j.owner with
    | .putting record => some (j.put c.maxItems record)
    | _ => none
  | .count => if j.owner = .counting then some { j with accepted := j.accepted + 1, owner := .idle } else none
  | .close => if j.owner = .idle then some { j with closing := true, owner := .joining } else none
  | .closeEnd alive sourceError =>
    if j.owner = .joining ∧ (alive = true ∨ j.writer = .exited) then some (j.closeEnd alive sourceError) else none
  | .work io => some (j.work io)

def Step (c : Config) (j j' : Journal) : Prop := ∃ event, j.next c event = some j'

end Smartwheel.Source

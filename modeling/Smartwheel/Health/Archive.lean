import Mathlib.Data.Fin.Basic
import Mathlib.Algebra.Order.Ring.Rat
import Smartwheel.Effect.History
import Smartwheel.Instances

/-! `AsyncHealthArchive`: callbacks put tracking records into a bounded queue and snapshots into one slot of each kind;
one worker writes them, taking turns. Every critical section is one step, and so is every operation on a file. -/
namespace Smartwheel.Health

inductive Slot where
  | status
  | cloud
  | grid
deriving DecidableEq

inductive Kind where
  | tracking
  | snapshot (slot : Slot)
deriving DecidableEq

/-- `kinds` of `_next`. -/
def kindAt : Fin 4 → Kind
  | 0 => .tracking
  | 1 => .snapshot .cloud
  | 2 => .snapshot .grid
  | 3 => .snapshot .status

inductive Job (δ : Type) where
  | record (value : δ)
  | snapshot (slot : Slot) (generation : ℕ) (value : δ)
deriving DecidableEq

def Job.kind {δ : Type} : Job δ → Kind
  | .record _ => .tracking
  | .snapshot slot _ _ => .snapshot slot

/-- What `storage` returns, without its two constant texts. -/
structure Storage where
  pendingTracking : ℕ
  trackingAccepted : ℕ
  trackingWritten : ℕ
  pendingSnapshots : List Slot
  generationsReceived : Slot → ℕ
  generationsWritten : Slot → ℕ
  writeInFlight : Option Kind
  maxWriteDuration : ℚ
  final : Bool
  failure : Option String

inductive Document (δ : Type) where
  | snapshot (generation : ℕ) (value : δ)
  | final (value : δ) (storage : Storage)

inductive Worker (δ : Type) where
  | opening
  | waiting
  | writing (job : Job δ)
  | line (value : δ) (left : List UInt8)
  | wrote (job : Job δ)
  | syncing
  | leaving (failure : Option String)
  | syncingMaps
  | certifying
  | publishing (value : δ) (storage : Storage)
  | syncingRoot
  | finishing
  | failing (reason : String)
  | exited

structure Archive (δ : Type) where
  tracking : List δ
  latest : Slot → Option (ℕ × δ)
  generations : Slot → ℕ
  writtenGenerations : Slot → ℕ
  trackingAccepted : ℕ
  trackingWritten : ℕ
  closing : Bool
  finalStatus : Option δ
  final : Bool
  failure : Option String
  inFlight : Option Kind
  maxWriteDuration : ℚ
  cursor : Fin 4
  worker : Worker δ
  job : Option (Job δ)
  file : List UInt8
  buffer : List UInt8
  synced : ℕ
  files : Slot → Option (Document δ)
  accepted : List δ
  received : Slot → List δ
  written : List δ
  taken : List Kind

structure Config (δ : Type) where
  maxTracking : ℕ
  encode : δ → Except String (List UInt8)
  bound : 1 ≤ maxTracking

/-- How an operation on a file goes: `arrives` and goes on with the rest, or ends. Where it fails, some bytes have
arrived, some of the rest may be written when the stream is closed, and a snapshot file may have been replaced. -/
inductive Io where
  | arrives (bytes : ℕ)
  | done
  | failed (arrived kept : ℕ) (replaced : Bool) (reason : String)

/-- `f` with another value at one slot. -/
def put {α : Type} (f : Slot → α) (slot : Slot) (value : α) : Slot → α := fun s => if s = slot then value else f s

@[simp] theorem put_self {α : Type} (f : Slot → α) (slot : Slot) (value : α) : put f slot value slot = value := by
  simp [put]

@[simp] theorem put_other {α : Type} (f : Slot → α) {slot s : Slot} (value : α) (h : s ≠ slot) :
    put f slot value s = f s := by
  simp [put, h]

namespace Archive
variable {δ : Type}

section
variable (c : Config δ) (a : Archive δ)

/-- What `check` raises. -/
def check : Option String := a.failure.map fun reason => "Health archive failed: " ++ reason

/-- `record`: what it raises, if anything, and what it leaves. -/
def record (value : δ) : Option String × Archive δ :=
  match a.check with
  | some e => (some e, a)
  | none =>
    if a.closing then (some "Health archive already closing", a)
    else if c.maxTracking ≤ a.tracking.length then
      (some "Health tracking FIFO full; no accepted record discarded", a)
    else
      (none, { a with
        tracking := a.tracking ++ [value]
        trackingAccepted := a.trackingAccepted + 1
        accepted := a.accepted ++ [value] })

/-- `snapshot`. -/
def snapshot (slot : Slot) (value : δ) : Option String × Archive δ :=
  match a.check with
  | some e => (some e, a)
  | none =>
    if a.closing then (some "Health archive already closing", a)
    else
      (none, { a with
        generations := put a.generations slot (a.generations slot + 1)
        latest := put a.latest slot (some (a.generations slot + 1, value))
        received := put a.received slot (a.received slot ++ [value]) })

/-- `storage`; it changes nothing. -/
def storage : Storage where
  pendingTracking := a.tracking.length
  trackingAccepted := a.trackingAccepted
  trackingWritten := a.trackingWritten
  pendingSnapshots := [.cloud, .grid, .status].filter fun slot => (a.latest slot).isSome
  generationsReceived := a.generations
  generationsWritten := a.writtenGenerations
  writeInFlight := a.inFlight
  maxWriteDuration := a.maxWriteDuration
  final := a.final
  failure := a.failure

def pending : Kind → Bool
  | .tracking => !a.tracking.isEmpty
  | .snapshot slot => (a.latest slot).isSome

/-- What `_next` takes at this index, and what it leaves. -/
def takeAt (index : Fin 4) : Option (Job δ × Archive δ) :=
  let turned := { a with cursor := index + 1, taken := a.taken ++ [kindAt index] }
  match kindAt index with
  | .tracking =>
    match a.tracking with
    | value :: rest => some (.record value, { turned with tracking := rest })
    | [] => none
  | .snapshot slot =>
    match a.latest slot with
    | some (generation, value) =>
      some (.snapshot slot generation value, { turned with latest := put a.latest slot none })
    | none => none

/-- `_next`. -/
def next : Option (Job δ × Archive δ) :=
  [a.cursor, a.cursor + 1, a.cursor + 2, a.cursor + 3].findSome? a.takeAt

def take : Archive δ :=
  match a.next with
  | some (job, left) => { left with inFlight := some job.kind, job := some job, worker := .writing job }
  | none => if a.closing then { a with worker := .syncing } else a

/-- `json.dumps` of a record, before anything of it is written. -/
def encodeRecord (value : δ) : Archive δ :=
  match c.encode value with
  | .ok line => { a with worker := .line value line }
  | .error reason => { a with worker := .leaving (some reason) }

def writeLine (value : δ) (left : List UInt8) : Io → Archive δ
  | .arrives n => { a with file := a.file ++ left.take n, worker := .line value (left.drop n) }
  | .done => { a with file := a.file ++ left, worker := .wrote (.record value) }
  | .failed arrived kept _ reason =>
    { a with
      file := a.file ++ left.take arrived
      buffer := (left.drop arrived).take kept
      worker := .leaving (some reason) }

def replace (slot : Slot) (document : Document δ) : Archive δ := { a with files := put a.files slot (some document) }

/-- `_write_snapshot`. -/
def writeSnapshot (slot : Slot) (document : Document δ) (goes : Worker δ) (fails : String → Worker δ) : Io → Archive δ
  | .arrives _ => a
  | .done => { a.replace slot document with worker := goes }
  | .failed _ _ replaced reason =>
    { if replaced then a.replace slot document else a with worker := fails reason }

def count (job : Job δ) (elapsed : ℚ) : Archive δ :=
  let counted :=
    { a with inFlight := none, job := none, maxWriteDuration := max a.maxWriteDuration elapsed, worker := .waiting }
  match job with
  | .record value => { counted with trackingWritten := a.trackingWritten + 1, written := a.written ++ [value] }
  | .snapshot slot generation _ => { counted with writtenGenerations := put a.writtenGenerations slot generation }

def operate (goes : Worker δ) (fails : String → Worker δ) : Io → Archive δ
  | .arrives _ => a
  | .done => { a with worker := goes }
  | .failed _ _ _ reason => { a with worker := fails reason }

/-- The last flush of the records, and `os.fsync`. -/
def sync : Io → Archive δ
  | .arrives _ => a
  | .done => { a with synced := a.file.length, worker := .leaving none }
  | .failed _ _ _ reason => { a with worker := .leaving (some reason) }

def closeFile (failure : Option String) : Io → Archive δ
  | .arrives _ => a
  | .done =>
    { a with
      file := a.file ++ a.buffer
      buffer := []
      worker := match failure with
        | some reason => .failing reason
        | none => .syncingMaps }
  | .failed arrived _ _ reason =>
    { a with file := a.file ++ a.buffer.take arrived, buffer := [], worker := .failing reason }

/-- The critical section that makes the final status; what `close` was given may be no object. -/
def certify : Io → Archive δ
  | .arrives _ => a
  | .failed _ _ _ reason => { a with worker := .failing reason }
  | .done =>
    match a.finalStatus with
    | some value =>
      let storage := { a.storage with final := true, pendingTracking := 0, pendingSnapshots := [], writeInFlight := none }
      { a with worker := .publishing value storage }
    | none => { a with worker := .failing "TypeError" }

/-- The handler of `_run`. -/
def fail (reason : String) : Archive δ := { a with failure := some reason, inFlight := none, worker := .exited }

/-- One step of `_run`. -/
def work (io : Io) (elapsed : ℚ) : Archive δ :=
  match a.worker with
  | .opening => a.operate .waiting .failing io
  | .waiting => a.take
  | .writing (.record value) => a.encodeRecord c value
  | .writing (.snapshot slot generation value) =>
    a.writeSnapshot slot (.snapshot generation value) (.wrote (.snapshot slot generation value))
      (fun reason => .leaving (some reason)) io
  | .line value left => a.writeLine value left io
  | .wrote job => a.count job elapsed
  | .syncing => a.sync io
  | .leaving failure => a.closeFile failure io
  | .syncingMaps => a.operate .certifying .failing io
  | .certifying => a.certify io
  | .publishing value storage => a.writeSnapshot .status (.final value storage) .syncingRoot .failing io
  | .syncingRoot => a.operate .finishing .failing io
  | .finishing => { a with final := true, worker := .exited }
  | .failing reason => a.fail reason
  | .exited => a

/-- The critical section of `close` before the join. -/
def closeBegin (finalStatus : δ) : Archive δ :=
  if a.closing then a
  else { a with finalStatus := some finalStatus, latest := put a.latest .status none, closing := true }

/-- What the rest of `close` raises after the join. -/
def closeEnd (alive : Bool) : Option String :=
  if alive then some "Health archive close timed out; final persistence incomplete" else a.check

end

def initial : Archive δ where
  tracking := []
  latest _ := none
  generations _ := 0
  writtenGenerations _ := 0
  trackingAccepted := 0
  trackingWritten := 0
  closing := false
  finalStatus := none
  final := false
  failure := none
  inFlight := none
  maxWriteDuration := 0
  cursor := 0
  worker := .opening
  job := none
  file := []
  buffer := []
  synced := 0
  files _ := none
  accepted := []
  received _ := []
  written := []
  taken := []

/-- A callback gives a record or a snapshot, the worker takes a step, or `close` begins. `storage` and the end of
`close` change nothing. -/
inductive Step (c : Config δ) : Archive δ → Archive δ → Prop
  | record {a : Archive δ} (value : δ) : Step c a (a.record c value).2
  | snapshot {a : Archive δ} (slot : Slot) (value : δ) : Step c a (a.snapshot slot value).2
  | work {a : Archive δ} (io : Io) (elapsed : ℚ) : Step c a (a.work c io elapsed)
  | closeBegin {a : Archive δ} (finalStatus : δ) : Step c a (a.closeBegin finalStatus)

end Archive
end Smartwheel.Health

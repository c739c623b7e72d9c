import Smartwheel.Effect.History

/-! `AsyncPriorJournal`: callbacks put initializations and guesses into a bounded queue and status snapshots into a
single slot; one worker writes them, the slot only where the queue is empty. Every critical section is one step, and
so is every operation on a file. -/
namespace Smartwheel.Prior

inductive Ordered (δ : Type) where
  | initialization (value : δ)
  | guess (value : δ)
deriving DecidableEq

inductive Item (δ : Type) where
  | ordered (record : Ordered δ)
  | status (value : δ) (number : Nat)
deriving DecidableEq

/-- Where the worker is: before the file is open, inside its wait, at a file, or before a critical section. What is
left of a line has not reached the file. -/
inductive Worker (δ : Type) where
  | opening
  | waiting
  | writing (item : Item δ)
  | line (value : δ) (left : List UInt8)
  | wrote (item : Item δ)
  | closing (failure : Option String)
  | failing (reason : String)
  | exiting
  | exited
deriving DecidableEq

structure Journal (δ : Type) where
  pending : List (Ordered δ)
  latestStatus : Option (δ × Nat)
  closing : Bool
  failure : Option String
  shutdownError : Option String
  workerExited : Bool
  drainComplete : Bool
  inFlight : Bool
  completedRecords : Nat
  worker : Worker δ
  guesses : List UInt8
  buffer : List UInt8
  initializationFile : Option δ
  statusFile : Option (δ × Nat)
  accepted : List (Ordered δ)
  statuses : List δ
  written : List (Ordered δ)
deriving DecidableEq

structure Config (δ : Type) where
  maxPending : Nat
  encode : δ → Except String (List UInt8)
  bound : 1 ≤ maxPending

/-- How an operation on a file goes: `arrives` and goes on with the rest, or ends. Where it fails, some bytes have
arrived, some of the rest may be written when the stream is closed, and a JSON file may have been replaced. -/
inductive Io where
  | arrives (bytes : Nat)
  | done
  | failed (arrived kept : Nat) (replaced : Bool) (reason : String)

namespace Journal
variable {δ : Type}

section
variable (c : Config δ) (j : Journal δ)

/-- What `check` raises. -/
def check : Option String :=
  (j.failure.or j.shutdownError).map fun reason => "prior journal failed: " ++ reason

/-- What `ensure_capacity` raises. -/
def ensureCapacity : Option String :=
  match j.check with
  | some e => some e
  | none =>
    if j.closing then some "prior journal is closing"
    else if c.maxPending ≤ j.pending.length then some "prior journal bounded write queue is full; no record discarded"
    else none

/-- `initialization` and `guess`: what they raise, if anything, and what they leave. -/
def submit (record : Ordered δ) : Option String × Journal δ :=
  match j.ensureCapacity c with
  | some e => (some e, j)
  | none => (none, { j with pending := j.pending ++ [record], accepted := j.accepted ++ [record] })

/-- `status`. -/
def status (value : δ) : Option String × Journal δ :=
  match j.check with
  | some e => (some e, j)
  | none =>
    if j.closing then (some "prior journal is closing", j)
    else
      (none, { j with
        latestStatus := some (value, j.statuses.length + 1)
        statuses := j.statuses ++ [value] })

def take : Journal δ :=
  match j.pending, j.latestStatus with
  | record :: rest, _ => { j with pending := rest, inFlight := true, worker := .writing (.ordered record) }
  | [], some (value, number) =>
    { j with latestStatus := none, inFlight := true, worker := .writing (.status value number) }
  | [], none => if j.closing then { j with worker := .closing none } else j

def replace (item : Item δ) : Journal δ :=
  match item with
  | .ordered (.initialization value) => { j with initializationFile := some value }
  | .ordered (.guess _) => j
  | .status value number => { j with statusFile := some (value, number) }

/-- `json.dumps` of a guess, before anything of it is written. -/
def encodeGuess (value : δ) : Journal δ :=
  match c.encode value with
  | .ok line => { j with worker := .line value line }
  | .error reason => { j with worker := .closing (some reason) }

/-- `write_json`. -/
def writeJson (item : Item δ) : Io → Journal δ
  | .arrives _ => j
  | .done => { j.replace item with worker := .wrote item }
  | .failed _ _ replaced reason => { if replaced then j.replace item else j with worker := .closing (some reason) }

def writeLine (value : δ) (left : List UInt8) : Io → Journal δ
  | .arrives n => { j with guesses := j.guesses ++ left.take n, worker := .line value (left.drop n) }
  | .done => { j with guesses := j.guesses ++ left, worker := .wrote (.ordered (.guess value)) }
  | .failed arrived kept _ reason =>
    { j with
      guesses := j.guesses ++ left.take arrived
      buffer := (left.drop arrived).take kept
      worker := .closing (some reason) }

def count (item : Item δ) : Journal δ :=
  { j with
    inFlight := false
    completedRecords := j.completedRecords + 1
    written := match item with
      | .ordered record => j.written ++ [record]
      | .status .. => j.written
    worker := .waiting }

def closeGuesses (failure : Option String) : Io → Journal δ
  | .arrives _ => j
  | .done =>
    { j with
      guesses := j.guesses ++ j.buffer
      buffer := []
      worker := match failure with
        | some reason => .failing reason
        | none => .exiting }
  | .failed arrived _ _ reason =>
    { j with guesses := j.guesses ++ j.buffer.take arrived, buffer := [], worker := .failing reason }

/-- The handler of `_run`. -/
def fail (reason : String) : Journal δ :=
  { j with failure := some reason, inFlight := false, worker := .exiting }

def exit : Journal δ :=
  { j with
    workerExited := true
    drainComplete := j.failure.isNone && j.pending.isEmpty && j.latestStatus.isNone && !j.inFlight
    worker := .exited }

/-- One step of `_run`. -/
def work (io : Io) : Journal δ :=
  match j.worker with
  | .opening =>
    match io with
    | .arrives _ => j
    | .done => { j with worker := .waiting }
    | .failed _ _ _ reason => { j with worker := .failing reason }
  | .waiting => j.take
  | .writing (.ordered (.guess value)) => j.encodeGuess c value
  | .writing item => j.writeJson item io
  | .line value left => j.writeLine value left io
  | .wrote item => j.count item
  | .closing failure => j.closeGuesses failure io
  | .failing reason => j.fail reason
  | .exiting => j.exit
  | .exited => j

/-- The critical section of `close` before the join. -/
def closeBegin : Journal δ := { j with closing := true }

/-- The rest of `close` after the join: what it raises, if anything. -/
def closeEnd (alive : Bool) : Option String × Journal δ :=
  if alive then
    let reason := j.shutdownError.getD "prior journal shutdown timed out; final persistence is incomplete"
    (some reason, { j with shutdownError := some reason })
  else (j.check, j)

end

def initial : Journal δ where
  pending := []
  latestStatus := none
  closing := false
  failure := none
  shutdownError := none
  workerExited := false
  drainComplete := false
  inFlight := false
  completedRecords := 0
  worker := .opening
  guesses := []
  buffer := []
  initializationFile := none
  statusFile := none
  accepted := []
  statuses := []
  written := []

/-- A callback gives a record or a snapshot, the worker takes a step, or `close` goes on. A thread that is not alive
has exited. -/
inductive Step (c : Config δ) : Journal δ → Journal δ → Prop
  | submit {j : Journal δ} (record : Ordered δ) : Step c j (j.submit c record).2
  | status {j : Journal δ} (value : δ) : Step c j (j.status value).2
  | work {j : Journal δ} (io : Io) : Step c j (j.work c io)
  | closeBegin {j : Journal δ} : Step c j j.closeBegin
  | closeEnd {j : Journal δ} (alive : Bool) (joined : alive = false → j.worker = .exited) :
    Step c j (j.closeEnd alive).2

end Journal
end Smartwheel.Prior

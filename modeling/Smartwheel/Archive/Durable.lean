import Smartwheel.Effect.History

/-! `DurableArchive`: a bounded queue of files, and the one worker that writes them. A call of a producer holds
the condition throughout; the worker takes one step for each critical section and each operation on the disk. -/
namespace Smartwheel.Archive

structure Path where
  isAbsolute : Bool
  parts : List String
deriving DecidableEq

structure Job where
  key : String
  path : Path
  payload : List UInt8
deriving DecidableEq

structure ArchiveResult where
  key : String
  path : Path
  error : Option String
deriving DecidableEq

structure ArchiveError where
  code : String
  detail : String := ""
deriving DecidableEq

/-- An exception and those it was raised after, each as `_error_text` has it. -/
abbrev Chain := List String

def errorText (chain : Chain) : String := " <- ".intercalate chain

/-- Where the transaction of a file has got to. Temporary files are removed where one was `created`. -/
inductive Stage where
  | start | create | write | sync | link
  | rename (linking : Chain)
  | unlink (created : Bool) (error : Option Chain)
  | syncDirectory
  | close (error : Option Chain)
deriving DecidableEq

/-- Where the worker is: in `wait_for`, with a job and what it read along with it, in its transaction, before
the critical section that reports it, or at its end. -/
inductive Worker where
  | waiting
  | dequeued (job : Job) (prior : Option String) (closing : Bool)
  | committing (job : Job) (stage : Stage)
  | finished (job : Job) (error : Option String)
  | returned
deriving DecidableEq

inductive Event where
  | submitted (job : Job)
  | closed
  | dequeued (job : Job)
  | written (job : Job)
  | fileSynced (job : Job)
  | linked (job : Job)
  | directorySynced (job : Job)
  | result (job : Job) (error : Option String)
  | polled (result : ArchiveResult)
deriving DecidableEq

structure World where
  waiting : List Job
  results : List ArchiveResult
  outstanding : List (String × Path)
  paths : List Path
  closing : Bool
  failure : Option String
  stop : Bool
  worker : Worker
  log : List Event

/-- How an operation on the disk ends; `unsupported` is an error number on which linking is given up. -/
inductive Io where
  | done
  | failed (unsupported : Bool) (text : String)

structure Config where
  capacity : Nat
  bounds : 1 ≤ capacity ∧ capacity ≤ 8

section
variable (c : Config)

def Path.usable (p : Path) : Bool := p.isAbsolute && !p.parts.contains ".." && !p.parts.isEmpty

def World.objection (w : World) (job : Job) : Option ArchiveError :=
  if job.key = "" then some ⟨"ARCHIVE_KEY", "nonempty string required"⟩
  else if job.payload = [] then
    some ⟨"ARCHIVE_PAYLOAD", "nonempty immutable bytes required; encode JSON before submit"⟩
  else if !job.path.usable then
    some ⟨"ARCHIVE_PATH", "absolute destination without parent traversal required"⟩
  else if w.closing then some { code := "ARCHIVE_CLOSED" }
  else
    match w.failure with
    | some failure => some ⟨"ARCHIVE_FAILED", failure⟩
    | none =>
      if (w.outstanding.any (·.1 = job.key)) ∨ job.path ∈ w.paths then
        some ⟨"ARCHIVE_DUPLICATE", "key or path already has an unpolled job"⟩
      else if c.capacity ≤ w.outstanding.length then
        some ⟨"ARCHIVE_QUEUE_FULL", "active, waiting and unpolled total reached capacity"⟩
      else none

def World.enqueue (w : World) (job : Job) : World :=
  { w with
    outstanding := w.outstanding ++ [(job.key, job.path)]
    paths := job.path :: w.paths
    waiting := w.waiting ++ [job]
    log := .submitted job :: w.log }

def World.submit (w : World) (job : Job) : Except ArchiveError Unit × World :=
  match w.objection c job with
  | some error => (.error error, w)
  | none => (.ok (), w.enqueue job)

/-- `_outstanding.pop(result.key)` and `_paths.remove(result.path)`. -/
def World.forget (w : World) (r : ArchiveResult) : Except String World :=
  if !w.outstanding.any (·.1 = r.key) then .error ("KeyError: " ++ r.key)
  else if r.path ∉ w.paths then .error "KeyError"
  else .ok { w with
    outstanding := w.outstanding.eraseP (·.1 = r.key)
    paths := w.paths.erase r.path }

/-- The loop of `poll` over its results: it ends early where one is not known. -/
def World.forgetAll (w : World) : List ArchiveResult → Except String World × World
  | [] => (.ok w, w)
  | r :: rest =>
    match w.forget r with
    | .error e => (.error e, w)
    | .ok w => w.forgetAll rest

def World.poll (w : World) : Except String (List ArchiveResult) × World :=
  match { w with results := [] }.forgetAll w.results with
  | (.error e, w') => (.error e, w')
  | (.ok _, w') => (.ok w.results, { w' with log := (w.results.map Event.polled).reverse ++ w'.log })

/-- `close`: a bad timeout is refused, and the worker is joined afterwards; whether it still runs is the
caller's error. -/
def World.close (w : World) (timeoutValid : Bool) : World :=
  if timeoutValid then { w with closing := true, stop := true, log := .closed :: w.log } else w

def cancelled : Chain :=
  ["ArchiveError: ARCHIVE_CANCELLED: close or preceding write failure requested cancellation"]

def Event.happen (e : Event) (w : World) : World := { w with log := e :: w.log }

def World.goto (w : World) (job : Job) (stage : Stage) : World := { w with worker := .committing job stage }

def World.finish (w : World) (job : Job) (error : Option String) : World :=
  { w with worker := .finished job error }

/-- One operation of `_commit_bytes`. -/
def World.commit (w : World) (job : Job) (io : Io) : Stage → World
  | .start =>
    if w.stop then w.finish job (some (errorText cancelled))
    else
      match io with
      | .done => w.goto job .create
      | .failed _ e => w.finish job (some (errorText [e]))
  | .create =>
    if w.stop then w.goto job (.unlink false (some cancelled))
    else
      match io with
      | .done => w.goto job .write
      | .failed _ e => w.goto job (.unlink false (some [e]))
  | .write =>
    match io with
    | .done => (Event.written job).happen (w.goto job .sync)
    | .failed _ e => w.goto job (.unlink true (some [e]))
  | .sync =>
    match io with
    | .done => (Event.fileSynced job).happen (w.goto job .link)
    | .failed _ e => w.goto job (.unlink true (some [e]))
  | .link =>
    if w.stop then w.goto job (.unlink true (some cancelled))
    else
      match io with
      | .done => (Event.linked job).happen (w.goto job (.unlink true none))
      | .failed true e => w.goto job (.rename [e])
      | .failed false e => w.goto job (.unlink true (some [e]))
  | .rename linking =>
    match io with
    | .done => (Event.linked job).happen (w.goto job (.unlink false none))
    | .failed _ e => w.goto job (.unlink true (some (e :: linking)))
  | .unlink created error =>
    match created, io with
    | true, .failed _ e => w.goto job (.close (some (e :: error.getD [])))
    | _, _ =>
      match error with
      | some chain => w.goto job (.close (some chain))
      | none => w.goto job .syncDirectory
  | .syncDirectory =>
    match io with
    | .done => (Event.directorySynced job).happen (w.goto job (.close none))
    | .failed _ e => w.goto job (.close (some [e]))
  | .close error =>
    match io with
    | .done => w.finish job (error.map errorText)
    | .failed _ e => w.finish job (some (errorText (e :: error.getD [])))

def World.report (w : World) (job : Job) (error : Option String) : World :=
  { w with
    failure := w.failure.or error
    stop := w.stop || (error.isSome && w.failure.isNone)
    results := w.results ++ [⟨job.key, job.path, error⟩]
    worker := .waiting
    log := .result job error :: w.log }

/-- One step of `_work`. -/
def World.work (w : World) (io : Io) : World :=
  match w.worker with
  | .waiting =>
    match w.waiting with
    | job :: rest =>
      { w with waiting := rest, worker := .dequeued job w.failure w.closing, log := .dequeued job :: w.log }
    | [] => if w.closing then { w with worker := .returned } else w
  | .dequeued job (some prior) _ => w.finish job (some ("ARCHIVE_CANCELLED_AFTER_FAILURE: " ++ prior))
  | .dequeued job none true => w.finish job (some "ARCHIVE_CANCELLED: writer is closing")
  | .dequeued job none false => w.goto job .start
  | .committing job stage => w.commit job io stage
  | .finished job error => w.report job error
  | .returned => w

inductive Step : World → World → Prop
  | submit {w : World} (job : Job) : Step w (w.submit c job).2
  | poll {w : World} : Step w w.poll.2
  | close {w : World} (timeoutValid : Bool) : Step w (w.close timeoutValid)
  | work {w : World} (io : Io) : Step w (w.work io)

end

def initial : World where
  waiting := []
  results := []
  outstanding := []
  paths := []
  closing := false
  failure := none
  stop := false
  worker := .waiting
  log := []

end Smartwheel.Archive

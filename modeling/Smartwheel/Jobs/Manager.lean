import Smartwheel.Effect.History

/-! `JobManager`: jobs of the panel, each run by its own thread over child processes. Every critical section is one
step of a thread, and so is every part of `_run` between two of them; a child exits at any time. Offline jobs run
here where the manager does not detach them, as in the process of a detached worker. -/
namespace Smartwheel.Jobs

inductive Kind where
  | capture | live | offline
deriving DecidableEq, Repr

def Kind.device : Kind → Bool
  | .offline => false
  | _ => true

inductive Status where
  | queued | running | stopping | complete | failed | cancelled | pending | interrupted | skipped
deriving DecidableEq, Repr

/-- `ACTIVE`. -/
def Status.active : Status → Bool
  | .queued | .running | .stopping => true
  | _ => false

/-- What a write raises: an `OSError`, a `ValueError`, another `Exception`, or what is no `Exception`. -/
inductive Raised where
  | os | value | other | base
deriving DecidableEq, Repr

structure Task where
  commands : Nat
  accepted : List Int
deriving DecidableEq, Repr

/-- Where `_run` is in its loops, with their variables. -/
structure Place where
  task : Nat
  command : Nat
  pending : Bool
  completed : Nat
deriving DecidableEq, Repr

/-- What `_run` does next. -/
inductive Thread where
  | unstarted
  | acquiring
  | starting
  | savingRunning
  | task (index : Nat)
  | savingTask (index : Nat)
  | command (p : Place)
  | launching (p : Place)
  | polling (p : Place) (guardError : Bool)
  | reaping (p : Place) (guardError : Bool)
  | ending (p : Place)
  | savingEnd (index : Nat)
  | concluding
  | handling
  | waiting
  | failing
  | final (status : Option Status)
  | releasing
  | ended
deriving DecidableEq, Repr

inductive Child where
  | absent
  | running
  | exited (code : Int)
deriving DecidableEq, Repr

/-- A row with its thread; `saved` is the status in job.json, `locked` says that `_run` holds the offline lock. -/
structure Job where
  kind : Kind
  status : Status
  saved : Option Status
  cancelled : Bool
  thread : Thread
  locked : Bool
  child : Child
  tasks : List Task
  states : List Status
deriving DecidableEq, Repr

/-- What a part of `_run` meets: what `_save` and `_save_result` raise, whether another operation raises an
`Exception`, whether a guard does, whether the child has reported a new stage and if it is one of the last, and
whether the manifest of a capture is complete. -/
structure Answers where
  save : Option Raised
  result : Option Raised
  fault : Bool
  guard : Bool
  progress : Option Bool
  manifest : Bool
deriving DecidableEq, Repr

namespace Job

/-- An exception leaves the body: only an `Exception` is handled. -/
def raise (j : Job) (e : Raised) : Job :=
  { j with thread := if e = .base then .final none else .handling }

/-- `_save`, and where `_run` goes on. -/
def save (j : Job) (a : Answers) (next : Thread) : Job :=
  match a.save with
  | none => { j with saved := some j.status, thread := next }
  | some e => j.raise e

def taskStatus (j : Job) (p : Place) (commands : Nat) : Status :=
  if p.pending then .pending
  else if j.cancelled ∧ (j.kind = .offline ∨ p.completed < commands) then .cancelled
  else .complete

def conclusion (j : Job) : Status :=
  if Status.pending ∈ j.states then .pending
  else if ∀ s ∈ j.states, s = Status.complete then .complete
  else if j.cancelled then .cancelled
  else .failed

def watchGuards (j : Job) (p : Place) (guardError : Bool) (a : Answers) : Job :=
  if !guardError ∧ a.guard then { j with status := .stopping, thread := .polling p true } else j

/-- `_capture_progress` has a new stage. -/
def report (j : Job) (last : Bool) : Job := { j with status := if last then .stopping else j.status }

def poll (j : Job) (p : Place) (guardError : Bool) (a : Answers) : Job :=
  match j.child with
  | .running =>
    match j.kind, a.progress with
    | .capture, some last =>
      match a.save with
      | none => { j.report last with saved := some (j.report last).status }.watchGuards p guardError a
      | some e => (j.report last).raise e
    | _, _ => j.watchGuards p guardError a
  | _ => { j with thread := .reaping p guardError }

def reap (j : Job) (p : Place) (guardError : Bool) (code : Int) (accepted : List Int) : Job :=
  let j := { j with child := .absent }
  if guardError then { j with thread := .handling }
  else if code ∉ accepted ∧ ¬(j.cancelled ∧ j.kind = .offline) then { j with thread := .handling }
  else
    { j with thread := .command { p with
        command := p.command + 1
        pending := p.pending || (code = 3 ∧ 3 ∈ accepted : Bool)
        completed := p.completed + 1 } }

def lastStatus (j : Job) : Option Status → Status
  | some s => s
  | none => if j.cancelled then .cancelled else j.status

def finish (j : Job) (status : Option Status) (a : Answers) : Job :=
  let j := { j with
    status := j.lastStatus status
    states := j.states.map fun s => if s = Status.queued then if j.cancelled then .cancelled else .skipped else s }
  if j.kind = .offline ∧ (a.result = some .other ∨ a.result = some .base) then { j with thread := .ended }
  else
    match a.save with
    | none => { j with saved := some j.status, thread := .releasing }
    | some .os => { j with thread := .releasing }
    | some _ => { j with thread := .ended }

/-- The next part of `_run`; `free` says that the offline lock can be taken. -/
def advance (j : Job) (free : Bool) (a : Answers) : Job :=
  match j.thread with
  | .unstarted | .ended => j
  | .acquiring =>
    if free then { j with locked := true, thread := .starting }
    else if j.cancelled then { j with thread := .final none }
    else j
  | .starting =>
    if j.cancelled then { j with thread := .final none }
    else { j with status := .running, thread := .savingRunning }
  | .savingRunning => j.save a (.task 0)
  | .task index =>
    if j.tasks.length ≤ index ∨ j.cancelled then { j with thread := if a.fault then .handling else .concluding }
    else if a.fault then { j with thread := .handling }
    else { j with states := j.states.set index .running, thread := .savingTask index }
  | .savingTask index => j.save a (.command ⟨index, 0, false, 0⟩)
  | .command p =>
    if ((j.tasks[p.task]?).map Task.commands).getD 0 ≤ p.command ∨ j.cancelled then { j with thread := .ending p }
    else if a.fault then { j with thread := .handling }
    else { j with thread := .launching p }
  | .launching p =>
    if j.cancelled then { j with thread := .ending p }
    else if a.fault then { j with thread := .handling }
    else { j with child := .running }.save a (.polling p false)
  | .polling p guardError => j.poll p guardError a
  | .reaping p guardError =>
    match j.child with
    | .exited code => j.reap p guardError code (((j.tasks[p.task]?).map Task.accepted).getD [])
    | _ => j
  | .ending p =>
    if a.fault ∨ j.kind = .capture ∧ 0 < p.completed ∧ !a.manifest then { j with thread := .handling }
    else
      let status := j.taskStatus p (((j.tasks[p.task]?).map Task.commands).getD 0)
      { j with states := j.states.set p.task status, thread := .savingEnd p.task }
  | .savingEnd index => j.save a (.task (index + 1))
  | .concluding => { j with thread := .final (some j.conclusion) }
  | .handling =>
    match j.child with
    | .running => { j with status := .stopping, thread := .waiting }
    | _ => { j with thread := .failing }
  | .waiting => if j.child = .running then j else { j with thread := .failing }
  | .failing =>
    { j with
      child := .absent
      states := j.states.map fun s => if s = Status.running then .failed else s
      thread := .final (some .failed) }
  | .final status => j.finish status a
  | .releasing => { j with locked := false, thread := .ended }

/-- `cancel` of a job that is active. -/
def cancel (j : Job) (save : Option Raised) : Job :=
  let j := { j with cancelled := true, status := if j.status = .running then .stopping else j.status }
  match save with
  | none => { j with saved := some j.status }
  | some _ => j

def exit (j : Job) (code : Int) : Job :=
  if j.child = .running then { j with child := .exited code } else j

def busy (j : Job) : Bool := j.kind.device && j.status.active

end Job

/-- Why `submit` takes no job: there is no task, the guard of the log disk raises, or the devices are in use. -/
inductive Refusal where
  | noTasks
  | log (message : String)
  | device
deriving DecidableEq, Repr

def Refusal.message : Refusal → String
  | .noTasks => "任务必须包含至少一个执行步骤"
  | .log message => message
  | .device => "已有实时或录制任务使用设备，请先正常结束当前任务"

/-- What `submit` meets: what the guard of the log disk raises, what the first `_save` raises, whether the rest of the launch
raises an `Exception`, and what the `_save` of a failed launch raises. -/
structure Submission where
  log : Option String
  save : Option Raised
  fault : Bool
  failedSave : Option Raised
deriving DecidableEq, Repr

structure Manager where
  jobs : List Job
  offlineLock : Option Nat
deriving DecidableEq, Repr

namespace Manager

def queued (kind : Kind) (tasks : List Task) : Job where
  kind := kind
  status := .queued
  saved := none
  cancelled := false
  thread := .unstarted
  locked := false
  child := .absent
  tasks := tasks
  states := tasks.map fun _ => .queued

/-- The handler of `submit`. -/
def failed (j : Job) (failedSave : Option Raised) : Job :=
  { j with
    status := .failed
    states := j.states.map fun _ => .skipped
    saved := if failedSave = none then some .failed else j.saved }

/-- The row that `submit` leaves, once it has one. -/
def launched (kind : Kind) (tasks : List Task) (a : Submission) : Job :=
  let j := queued kind tasks
  match a.save with
  | some .base => j
  | some _ => failed j a.failedSave
  | none =>
    let j := { j with saved := some .queued }
    if a.fault then failed j a.failedSave
    else { j with thread := if kind = .offline then .acquiring else .starting }

/-- What `submit` refuses with before it has a row. -/
def refusal (m : Manager) (kind : Kind) (tasks : List Task) (a : Submission) : Option Refusal :=
  if tasks = [] then some .noTasks
  else match a.log with
  | some message => some (.log message)
  | none => if kind.device ∧ m.jobs.any Job.busy then some .device else none

def submit (m : Manager) (kind : Kind) (tasks : List Task) (a : Submission) : Manager :=
  match m.refusal kind tasks a with
  | some _ => m
  | none => { m with jobs := m.jobs ++ [launched kind tasks a] }

/-- Who holds the offline lock after a part of `_run`. -/
def lockAfter (m : Manager) (index : Nat) (j j' : Job) : Option Nat :=
  if !j.locked ∧ j'.locked then some index
  else if j.locked ∧ !j'.locked then none
  else m.offlineLock

inductive Event where
  | submit (kind : Kind) (tasks : List Task) (a : Submission)
  | cancel (index : Nat) (save : Option Raised)
  | run (index : Nat) (a : Answers)
  | exit (index : Nat) (code : Int)
deriving DecidableEq, Repr

def next (m : Manager) : Event → Manager
  | .submit kind tasks a => m.submit kind tasks a
  | .cancel index save =>
    match m.jobs[index]? with
    | some j => if j.status.active then { m with jobs := m.jobs.set index (j.cancel save) } else m
    | none => m
  | .run index a =>
    match m.jobs[index]? with
    | some j =>
      let j' := j.advance m.offlineLock.isNone a
      { jobs := m.jobs.set index j', offlineLock := m.lockAfter index j j' }
    | none => m
  | .exit index code =>
    match m.jobs[index]? with
    | some j => { m with jobs := m.jobs.set index (j.exit code) }
    | none => m

def initial : Manager := ⟨[], none⟩

end Manager
end Smartwheel.Jobs

import Mathlib.Data.List.Basic
import Smartwheel.Effect.History

/-! Live maps: a worker thread that rebuilds the latest graph it was given, and the node that publishes what the worker
completes. Each section under the lock of the worker is one move. -/
namespace Smartwheel.Maps.Live

/-- `LatestRebuildWorker`: one running rebuild, one pending request, one completed result. -/
structure Worker (α β : Type) where
  generation : ℕ
  pending : Option (ℕ × α)
  /-- What the thread took and builds, without the lock. -/
  active : Option (ℕ × α)
  result : Option (ℕ × Except String β)
  stopping : Bool

def Worker.init (α β : Type) : Worker α β := ⟨0, none, none, none, false⟩

inductive Move (α β : Type)
  | submit (payload : α)
  | take
  | finish (outcome : Except String β)
  | poll
  | close

namespace Worker
variable {α β : Type}

def submit (w : Worker α β) (payload : α) : Worker α β :=
  { w with generation := w.generation + 1, pending := some (w.generation + 1, payload) }

/-- The first section of `_run`. -/
def take (w : Worker α β) : Option (Worker α β) :=
  match w.active, w.pending with
  | none, some job => if w.stopping then none else some { w with pending := none, active := some job }
  | _, _ => none

def unpolledError (w : Worker α β) : Bool :=
  match w.result with
  | some (_, .error _) => true
  | _ => false

/-- The second section of `_run`: a result takes the place of another, an error stays. -/
def finish (w : Worker α β) (outcome : Except String β) : Option (Worker α β) :=
  w.active.map fun job =>
    { w with active := none, result := if w.stopping || w.unpolledError then w.result else some (job.1, outcome) }

def poll (w : Worker α β) : Worker α β := { w with result := none }

def close (w : Worker α β) : Worker α β := { w with stopping := true, pending := none, result := none }

def step (w : Worker α β) : Move α β → Option (Worker α β)
  | .submit payload => some (w.submit payload)
  | .take => w.take
  | .finish outcome => w.finish outcome
  | .poll => some w.poll
  | .close => some w.close

def run (w : Worker α β) (moves : List (Move α β)) : Option (Worker α β) := moves.foldlM step w

def isPoll : Move α β → Bool
  | .poll => true
  | _ => false

def polled (w : Worker α β) : List (Move α β) → List (ℕ × Except String β)
  | [] => []
  | m :: rest => (if isPoll m then w.result.toList else []) ++ ((w.step m).map fun w' => polled w' rest).getD []

end Worker

def Was {α β : Type} (moves : List (Move α β)) (m : Move α β) (P : Worker α β → Prop) : Prop :=
  ∃ before after w, moves = before ++ m :: after ∧ (Worker.init α β).run before = some w ∧ P w

/-! ### The node -/

/-- `GraphSnapshot`, as far as the node reads it. -/
structure Message where
  sessionId : String
  sourceMode : String
  graphEpoch : String
  revision : ℕ
  rawIndexComplete : Bool
  stampNs : ℤ

structure Assembled where
  sessionId : String
  sourceMode : String
  graphEpoch : String
  revision : ℕ

structure Session where
  sessionId : String
  sourceMode : String
  graphEpoch : String
  groundValid : Bool

structure Frontend where
  leftFresh : Bool
  rightFresh : Bool
  calibrationValid : Bool
  timeValid : Bool
  trackingValid : Bool
  latestAcceptedTimeNs : ℤ
  pauseReasons : List String

/-- `MapStatus`, as far as the node computes it. -/
structure Status where
  graphEpoch : String
  graphRevision : ℕ
  completedMapRevision : ℕ
  consistentSnapshot : Bool
  rebuilding : Bool
  pauseReasons : List String
  state : String

structure Node where
  worker : Worker Message Assembled
  requested : Option Message
  completed : Option Assembled
  blockedReason : Option String
  /-- What was published, oldest first: maps that are marked as completed, and statuses. -/
  completions : List Assembled
  statuses : List Status

def Node.init : Node := ⟨.init _ _, none, none, none, [], []⟩

namespace Node

/-- `if self.blocked_reason`: an empty reason does not block. -/
def blocked (n : Node) : Bool := n.blockedReason.any (· ≠ "")

def fail (n : Node) (reason : String) : Node := { n with blockedReason := n.blockedReason.or (some reason) }

def accept (n : Node) (m : Message) : Node :=
  if m.rawIndexComplete then { n with requested := some m, worker := n.worker.submit m }
  else n.fail "GraphSnapshot raw index is incomplete"

def graph (session : Session) (n : Node) (m : Message) : Node :=
  if n.blocked then n
  else if m.sessionId ≠ session.sessionId ∨ m.sourceMode ≠ session.sourceMode then
    n.fail "GraphSnapshot session/source mode mismatch"
  else
    match n.requested with
    | none => n.accept m
    | some requested =>
      if m.graphEpoch ≠ requested.graphEpoch then n.fail "graph epoch changed without an explicit new map session"
      else if m.revision = requested.revision then n
      else if m.revision < requested.revision then n.fail "graph revision moved backwards"
      else n.accept m

/-- A completed map of a poll; `publishing` is how the publication of its geometry fails, if it does. -/
def complete (session : Session) (publishing : Option String) (n : Node) (assembled : Assembled) : Node :=
  let foreign := n.fail "completed map belongs to a different session/epoch or an unrequested graph revision"
  if assembled.sessionId ≠ session.sessionId ∨ assembled.sourceMode ≠ session.sourceMode then foreign
  else
    match n.requested with
    | none => n.fail "'NoneType' object has no attribute 'graph_epoch'"
    | some requested =>
      if assembled.graphEpoch ≠ requested.graphEpoch ∨ requested.revision < assembled.revision then foreign
      else if n.completed.all (·.revision < assembled.revision) then
        match publishing with
        | some e => n.fail e
        | none => { n with completed := some assembled, completions := n.completions ++ [assembled] }
      else n

def finished (session : Session) (publishing : Option String) (n : Node) : Option (ℕ × Except String Assembled) → Node
  | none => n
  | some (_, outcome) =>
    if n.blocked then n
    else
      match outcome with
      | .error e => n.fail (if e = "" then "'NoneType' object is not subscriptable" else e)
      | .ok assembled => n.complete session publishing assembled

def frontendReasons (requested : Option Message) : Option Frontend → List String
  | none => ["FRONTEND_STATUS_UNAVAILABLE_OR_STALE"]
  | some frontend =>
    frontend.pauseReasons ++
      (match requested with
      | none => []
      | some requested =>
        (if requested.stampNs < frontend.latestAcceptedTimeNs then ["GRAPH_BEHIND_ACCEPTED_FRONTEND"] else []) ++
        (if frontend.leftFresh then [] else ["FRONTEND_LEFT_FRESH_FALSE"]) ++
        (if frontend.rightFresh then [] else ["FRONTEND_RIGHT_FRESH_FALSE"]) ++
        (if frontend.calibrationValid then [] else ["FRONTEND_CALIBRATION_VALID_FALSE"]) ++
        (if frontend.timeValid then [] else ["FRONTEND_TIME_VALID_FALSE"]) ++
        (if frontend.trackingValid then [] else ["FRONTEND_TRACKING_VALID_FALSE"]))

/-- The status of a tick; `frontend` is there when it is fresh. -/
def status (session : Session) (n : Node) (frontend : Option Frontend) : Status :=
  let graphRevision := (n.requested.map Message.revision).getD 0
  let completed := (n.completed.map Assembled.revision).getD 0
  let consistent := n.completed.isSome && graphRevision == completed
  let rebuilding := n.requested.isSome && !consistent && !n.blocked
  let behind := n.completed.isSome && completed < graphRevision
  let invalid := frontendReasons n.requested frontend ++ (if n.blocked then n.blockedReason.toList else []) ++
    (if session.groundValid then [] else ["GROUND_REFERENCE_UNVALIDATED"])
  { graphEpoch := (n.requested.map Message.graphEpoch).getD session.graphEpoch
    graphRevision := graphRevision
    completedMapRevision := completed
    consistentSnapshot := consistent
    rebuilding := rebuilding
    pauseReasons := invalid ++ (if behind then ["MAP_BEHIND_GRAPH"] else [])
    state := if invalid ≠ [] then "PAUSED_INVALID" else if rebuilding then "REBUILDING"
      else if consistent then "MAPPING_DUAL" else "PREFLIGHT" }

def tick (session : Session) (publishing : Option String) (frontend : Option Frontend) (n : Node) : Node :=
  let n' := finished session publishing { n with worker := n.worker.poll } n.worker.result
  { n' with statuses := n'.statuses ++ [n'.status session frontend] }

end Node

inductive Event
  | graph (m : Message)
  | tick (publishing : Option String) (frontend : Option Frontend)
  | take
  | finish (outcome : Except String Assembled)
  | destroy

def Node.step (session : Session) (n : Node) : Event → Option Node
  | .graph m => some (n.graph session m)
  | .tick publishing frontend => some (n.tick session publishing frontend)
  | .take => n.worker.take.map fun w => { n with worker := w }
  | .finish outcome => (n.worker.finish outcome).map fun w => { n with worker := w }
  | .destroy => some { n with worker := n.worker.close }

def Node.run (session : Session) (n : Node) (events : List Event) : Option Node := events.foldlM (Node.step session) n

end Smartwheel.Maps.Live

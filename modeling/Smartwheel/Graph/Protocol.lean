import Mathlib.Data.List.Sort
import Smartwheel.Effect.History
import Smartwheel.Graph.Node

/-! `GraphDelivery`: sends one observation at a time to the graph until a snapshot of the graph has it. -/
namespace Smartwheel.Graph

/-- What `submit` is given. -/
structure Observation where
  bundleId : Int
  rawKeys : List String
  odomEpoch : String
  payload : List UInt8

structure Pending where
  observation : Observation
  firstSentNs : Option Int := none
  lastSentNs : Option Int := none

structure Sender where
  sessionId : String
  sourceMode : String
  calibrationId : String
  leftClock : String
  rightClock : String
  graphEpoch : Option String
  capacity : Nat
  retryNs : Int
  timeoutNs : Int
  bounds : 1 ≤ capacity ∧ capacity ≤ 8 ∧ 0 < retryNs ∧ retryNs < timeoutNs

structure Delivery where
  queue : List Pending
  graphEpoch : Option String
  lastEnqueuedId : Int
  lastAckedId : Int
  acknowledged : Nat
  attempts : Nat
  retries : Nat
  failure : Option String

/-- What a method returned or raised, and the state it left. -/
abbrev Result (α : Type) := Check α × Delivery

/-- `fail`: the first failure stays. -/
def Delivery.fail {α : Type} (d : Delivery) (reason : String) : Result α :=
  let failure := d.failure.getD reason
  (.error failure, { d with failure := some failure })

def Delivery.alive {α : Type} (d : Delivery) (rest : Result α) : Result α :=
  match d.failure with
  | some reason => (.error reason, d)
  | none => rest

section
variable (c : Sender)

def Delivery.ensureCapacity (d : Delivery) : Result Unit :=
  d.alive <|
    if c.capacity ≤ d.queue.length then d.fail "GRAPH_DELIVERY_QUEUE_FULL" else (.ok (), d)

/-- What makes an observation one that can be queued after `last`. -/
def Observation.Valid (o : Observation) (last : Int) : Prop :=
  last < o.bundleId ∧ o.rawKeys.length = 2 ∧ o.rawKeys.Nodup ∧ "" ∉ o.rawKeys ∧
    o.odomEpoch ≠ "" ∧ 0 < o.payload.length ∧ o.payload.length ≤ 8 * 1024 * 1024

instance (o : Observation) (last : Int) : Decidable (o.Valid last) := inferInstanceAs (Decidable (_ ∧ _))

def Delivery.enqueue (d : Delivery) (o : Observation) : Delivery :=
  { d with queue := d.queue ++ [{ observation := o }], lastEnqueuedId := o.bundleId }

def Delivery.submit (d : Delivery) (o : Observation) : Result Unit :=
  match d.ensureCapacity c with
  | (.error reason, d) => (.error reason, d)
  | (.ok _, d) =>
    if o.Valid d.lastEnqueuedId then (.ok (), d.enqueue o) else d.fail "GRAPH_DELIVERY_INVALID_OBSERVATION"

def Delivery.send (d : Delivery) (item : Pending) (rest : List Pending) (now : Int) : Delivery :=
  { d with
    queue := { item with firstSentNs := some (item.firstSentNs.getD now), lastSentNs := some now } :: rest
    retries := if item.firstSentNs.isNone then d.retries else d.retries + 1
    attempts := d.attempts + 1 }

def Delivery.nextPayload (d : Delivery) (now : Int) : Result (Option (List UInt8)) :=
  d.alive <|
    match d.queue with
    | [] => (.ok none, d)
    | item :: rest =>
      if item.firstSentNs.any (c.timeoutNs ≤ now - ·) then d.fail "GRAPH_ACK_TIMEOUT"
      else if item.lastSentNs.any (now - · < c.retryNs) then (.ok none, d)
      else (.ok (some item.observation.payload), d.send item rest now)

/-- `sorted` of raw keys. -/
def sorted (keys : List String) : List String := keys.insertionSort (· ≤ ·)

def Delivery.popleft (d : Delivery) (o : Observation) (rest : List Pending) : Delivery :=
  { d with queue := rest, lastAckedId := o.bundleId, acknowledged := d.acknowledged + 1 }

def Delivery.compare (d : Delivery) (s : GraphSnapshot) : Result Bool :=
  match d.queue with
  | [] => (.ok false, d)
  | item :: rest =>
    let o := item.observation
    match s.nodes.filter fun n => (n.bundleId : Int) = o.bundleId with
    | [] =>
      if s.nodes.any fun n => o.bundleId < n.bundleId then d.fail "GRAPH_ACK_SKIPPED_PENDING_BUNDLE"
      else (.ok false, d)
    | found :: more =>
      if item.firstSentNs.isNone ∨ more ≠ [] ∨ found.nodeId ≠ o.bundleId ∨ found.odomEpoch ≠ o.odomEpoch ∨
          sorted found.rawKeys ≠ sorted o.rawKeys then d.fail "GRAPH_ACK_OBSERVATION_MISMATCH"
      else (.ok true, d.popleft o rest)

def Delivery.acknowledge (d : Delivery) (s : GraphSnapshot) : Result Bool :=
  d.alive <|
    if s.sessionId ≠ c.sessionId ∨ s.sourceMode ≠ c.sourceMode ∨ s.calibrationId ≠ c.calibrationId ∨
        s.leftClockModelId ≠ c.leftClock ∨ s.rightClockModelId ≠ c.rightClock ∨ !s.rawIndexComplete ∨
        s.rawIndexHash = "" ∨ s.graphEpoch = "" then d.fail "GRAPH_ACK_PROVENANCE_MISMATCH"
    else
      let epoch := d.graphEpoch.getD s.graphEpoch
      let d := { d with graphEpoch := some epoch }
      if epoch ≠ s.graphEpoch then d.fail "GRAPH_ACK_EPOCH_CHANGED" else d.compare s

end

def Sender.initial (c : Sender) : Delivery where
  queue := []
  graphEpoch := c.graphEpoch
  lastEnqueuedId := 0
  lastAckedId := 0
  acknowledged := 0
  attempts := 0
  retries := 0
  failure := none

/-! ### The delivery and the graph node over channels that may lose, delay, duplicate and reorder: whatever was
once sent may arrive at any later time, any number of times or never. -/


/-- One sender and one node; the epoch the sender is given, if any, is the one of the node. `decode` takes
a message out of its bytes. -/
structure Deployment where
  sender : Sender
  node : Config
  decode : List UInt8 → Option AcceptedBundle
  same_epoch : ∀ epoch, sender.graphEpoch = some epoch → epoch = node.graphEpoch

structure World where
  delivery : Delivery
  node : Node
  sent : List AcceptedBundle
  submitted : List Observation

section
variable (d : Deployment)

def World.submit (w : World) (o : Observation) : World :=
  match w.delivery.submit d.sender o with
  | (.ok _, delivery) => { w with delivery := delivery, submitted := w.submitted ++ [o] }
  | (.error _, delivery) => { w with delivery := delivery }

/-- `deliver_graph`: a payload that is due is decoded and published. -/
def World.deliverGraph (w : World) (now : Int) : World :=
  match w.delivery.nextPayload d.sender now with
  | (.ok (some payload), delivery) => { w with delivery := delivery, sent := (d.decode payload).toList ++ w.sent }
  | (_, delivery) => { w with delivery := delivery }

def World.accepted (w : World) (message : AcceptedBundle) (s : Surroundings) : World :=
  { w with node := w.node.accepted d.node message s }

/-- `graph_ack`. -/
def World.graphAck (w : World) (s : GraphSnapshot) : World :=
  { w with delivery := (w.delivery.acknowledge d.sender s).2 }

inductive Step : World → World → Prop
  | submit {w : World} (o : Observation) : Step w (w.submit d o)
  | ensureCapacity {w : World} : Step w { w with delivery := (w.delivery.ensureCapacity d.sender).2 }
  | deliverGraph {w : World} (now : Int) : Step w (w.deliverGraph d now)
  | accepted {w : World} (message : AcceptedBundle) (s : Surroundings) (arrives : message ∈ w.sent) :
      Step w (w.accepted d message s)
  | graphAck {w : World} (s : GraphSnapshot) (arrives : s ∈ w.node.published) : Step w (w.graphAck d s)
  | pause {w : World} : Step w { w with node := w.node.pause }
  | closeSnapshot {w : World} (closing : Closing) : Step w { w with node := w.node.closeSnapshot closing }

def Deployment.initial : World where
  delivery := d.sender.initial
  node := .initial
  sent := []
  submitted := []

end

end Smartwheel.Graph

/-! ### A sender and a graph on the bench, and one bundle of twenty points at the origin. -/
namespace Smartwheel.Graph.Bench

def header (frameId : String) : Header := ⟨⟨1, 0⟩, frameId⟩

def origin : Pose (Option ℚ) := ⟨some 0, some 0, some 0, some 0, some 0, some 0, some 1⟩

def cloud : PointCloud2 where
  header := header "rig_link"
  height := 1
  width := 20
  fields := [⟨"x", 0, 7, 1⟩, ⟨"y", 4, 7, 1⟩, ⟨"z", 8, 7, 1⟩]
  isBigendian := false
  pointStep := 12
  rowStep := 240
  data := List.replicate 240 0

def bundle : FusionBundle where
  header := header "rig_link"
  sessionId := "bench"
  bundleId := 1
  sourceMode := "synthetic"
  sensorMode := "dual"
  calibrationId := "calibration"
  leftClockModelId := "clock"
  rightClockModelId := "clock"
  leftRawKey := "L1"
  rightRawKey := "R1"
  leftTimeNs := 1000000000
  rightTimeNs := 1000000000
  tRefLeftSensor := origin
  tRefRightSensor := origin
  tRefRigAtLeftTime := origin
  tRefRigAtRightTime := origin
  compensationMode := "history_constant_velocity"
  temporalErrorBoundValid := true
  temporalErrorBoundM := some 0
  leftRetainedCount := 10
  rightRetainedCount := 10
  cloud := cloud
  sourceCodes := List.replicate 10 1 ++ List.replicate 10 2
  calibrationValid := true
  timeValid := true
  dualValid := true
  rejectionReasons := []

def tracking : TrackingAssessment where
  header := header "rig_link"
  sessionId := "bench"
  bundleId := 1
  odomEpoch := "epoch"
  trackingState := "INITIALIZED"
  accepted := true
  rejectionReasons := []
  leftSolverInputCount := 10
  rightSolverInputCount := 10
  inliersAvailable := false
  inliers := 0
  residualAvailable := false
  residual := some 0
  degeneracyAvailable := false
  degeneracyMetric := some 0
  odometry := ⟨header "odom", "rig_link", origin, [], []⟩

def message : AcceptedBundle := ⟨bundle, tracking⟩

def deployment : Deployment where
  sender :=
    { sessionId := "bench", sourceMode := "synthetic", calibrationId := "calibration", leftClock := "clock",
      rightClock := "clock", graphEpoch := some "graph", capacity := 8, retryNs := 500000000,
      timeoutNs := 5000000000, bounds := by decide }
  node :=
    { sessionId := "bench", graphEpoch := "graph", sourceMode := "synthetic", mapFrame := "map",
      odomFrame := "odom", rigFrame := "rig_link", maxPoints := 200000, maxNodes := 20000, noiseModel := "none",
      fingerprint := fun m => [m.bundle.bundleId.toUInt8], textSha256 := fun text => "sha256:" ++ text,
      positiveCovariance := fun _ => true, identified := by decide }
  decode payload := if payload = [1] then some message else none
  same_epoch := fun _ h => (Option.some.inj h).symm

def observation : Observation := ⟨1, ["L1", "R1"], "epoch", [1]⟩

def adds : Surroundings where
  fileSha256 := .ok "digest"
  answer := .graph true 1 ⟨[1], by decide⟩
  writing := none

def submitted : World := deployment.initial.submit deployment observation
def sent : World := submitted.deliverGraph deployment 0
def recorded : World := sent.accepted deployment message adds

def repeated : World := recorded.accepted deployment message adds

def acknowledged : World := repeated.graphAck deployment (repeated.node.published.getLast (by decide +kernel))

end Smartwheel.Graph.Bench

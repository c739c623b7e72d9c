import Smartwheel.Graph.Message

/-! `GraphEngine` and `GraphNode`: the one callback that turns accepted bundles into nodes of the graph, and
the services that pause it and close it. What RTAB-Map and the file system answer is given to each call. -/
namespace Smartwheel.Graph

section
variable {α : Type}

/-- `std::map::emplace` on a map listed in the order of its keys. -/
def emplace (key : Int) (value : α) : List (Int × α) → List (Int × α)
  | [] => [(key, value)]
  | (k, v) :: rest =>
    if key < k then (key, value) :: (k, v) :: rest
    else if key = k then (k, v) :: rest
    else (k, v) :: emplace key value rest

theorem emplace_last {key : Int} {value : α} {l : List (Int × α)} (h : ∀ p ∈ l, p.1 < key) :
    emplace key value l = l ++ [(key, value)] := by
  induction l with
  | nil => rfl
  | cons p rest ih =>
    have less : p.1 < key := h p List.mem_cons_self
    rw [emplace, if_neg (by omega), if_neg (by omega),
      ih fun q hq => h q (List.mem_cons_of_mem p hq), List.cons_append]

end

/-- The keys of a `std::map`. -/
structure Keys where
  ids : List Int
  ascending : ids.Pairwise (· < ·)

/-- What RTAB-Map makes of an observation: its pose or covariance is refused before, something throws while
it is processed, or the graph has the poses of these nodes afterwards. -/
inductive Answer where
  | refused (reason : String)
  | thrown (reason : String)
  | graph (processed : Bool) (lastLocationId : Int) (poses : Keys)

structure Engine where
  closed : Bool
  failed : Bool
  lastId : Int
  odometry : List (Int × Pose ℚ)

/-- The attempt inside `process`, after which a failure latches; the nodes of the new snapshot. -/
def Engine.attempt (e : Engine) (id : Int) (pose : Pose ℚ) : Answer → Check (List Int)
  | .refused reason | .thrown reason => .error reason
  | .graph processed lastLocationId poses => do
    let odometry := emplace id pose e.odometry
    require processed "RTAB-Map process did not add this accepted bundle to the graph"
    require (lastLocationId = id) "RTAB-Map changed the explicit bundle/node ID"
    require (poses.ids.length = odometry.length) "optimized graph lost a raw-frame association"
    require (poses.ids.all fun node => odometry.any (·.1 = node))
      "optimized graph contains an unassociated node"
    return poses.ids

def Engine.process (e : Engine) (maxNodes : Nat) (id : Int) (pose : Pose ℚ) (answer : Answer) :
    Check (List Int) × Engine :=
  if e.closed ∨ e.failed then (.error "graph engine is closed or latched after a failed update", e)
  else if id ≤ e.lastId then (.error "bundle IDs must be positive and strictly increasing", e)
  else if maxNodes ≤ e.odometry.length then (.error "graph max_nodes reached", e)
  else match answer with
    | .refused reason => (.error reason, e)
    | answer =>
      match e.attempt id pose answer with
      | .ok poses => (.ok poses, { e with lastId := id, odometry := emplace id pose e.odometry })
      | .error reason => (.error reason, { e with failed := true })

structure RawRecord where
  acceptedDigest : List UInt8
  odomEpoch : String
  leftKey : String
  rightKey : String
  relativeFile : String
  sha256 : String
  covarianceSource : String
  stampNs : Int
  leftOrigin : Pose ℚ
  rightOrigin : Pose ℚ
  odometry : Pose ℚ

structure Config where
  sessionId : String
  graphEpoch : String
  sourceMode : String
  mapFrame : String
  odomFrame : String
  rigFrame : String
  maxPoints : Nat
  maxNodes : Nat
  noiseModel : String
  fingerprint : AcceptedBundle → List UInt8
  textSha256 : String → String
  positiveCovariance : List (Option ℚ) → Bool
  identified : sessionId ≠ "" ∧ graphEpoch ≠ ""

/-- The members that change and, newest first, what the node has left behind: the observations it gave to
the engine, the revision files that are durable and the snapshots it published. -/
structure Node where
  paused : Bool
  failed : Bool
  records : List (Int × RawRecord)
  usedRawKeys : List String
  odomEpoch : String
  calibrationId : String
  leftClock : String
  rightClock : String
  lastStamp : Int
  revision : Nat
  poses : List Int
  engine : Engine
  closedBarrier : Bool
  diagnostic : String × String
  processed : List Int
  revisions : List GraphSnapshot
  published : List GraphSnapshot

structure Surroundings where
  fileSha256 : Check String
  answer : Answer
  writing : Option String

def intMax : Nat := 2147483647

def sameTimes (stamp : Int) : List Stamp → Check Bool
  | [] => return true
  | s :: rest => do
    let t ← nanos s
    if t = stamp then sameTimes stamp rest else return false

section
variable (c : Config)

def Node.indexHash (n : Node) : String :=
  c.textSha256 (String.join (n.records.map fun e => toString e.1 ++ "\t" ++ e.2.sha256 ++ "\n"))

def Node.graphNode (n : Node) (id : Int) : Check GraphNode :=
  match n.records.lookup id with
  | none => .error "map::at"
  | some record => return ⟨id, record.odomEpoch, id.toNat, [record.leftKey, record.rightKey]⟩

def Node.graphMessage (n : Node) (stamp : Stamp) : Check GraphSnapshot := do
  require (n.poses.length = n.records.length) "graph/raw index is incomplete"
  let nodes ← n.poses.mapM n.graphNode
  return {
    header := ⟨stamp, c.mapFrame⟩
    sessionId := c.sessionId
    graphEpoch := c.graphEpoch
    sourceMode := c.sourceMode
    calibrationId := n.calibrationId
    leftClockModelId := n.leftClock
    rightClockModelId := n.rightClock
    revision := n.revision
    nodes := nodes
    rawIndexComplete := true
    rawIndexHash := n.indexHash c }

def Node.admitted (n : Node) (message : AcceptedBundle) (fileSha256 : Check String) : Check (Int × RawRecord) := do
  let bundle := message.bundle
  let tracking := message.tracking
  require (bundle.sessionId = c.sessionId ∧ tracking.sessionId = c.sessionId) "session mismatch"
  require (bundle.sourceMode = c.sourceMode ∧ bundle.sensorMode = "dual")
    "source mode is not the configured dual session"
  require (tracking.accepted ∧ bundle.dualValid ∧ bundle.calibrationValid ∧ bundle.timeValid ∧
    bundle.rejectionReasons = [] ∧ tracking.rejectionReasons = []) "bundle/tracking acceptance flags disagree"
  require (bundle.temporalErrorBoundValid ∧ bundle.temporalErrorBoundM.any (0 ≤ ·))
    "temporal error budget is unavailable"
  require (0 < bundle.bundleId ∧ bundle.bundleId ≤ intMax ∧ tracking.bundleId = bundle.bundleId)
    "bundle ID invalid, ambiguous or exceeds RTAB-Map int32 range"
  let id : Int := bundle.bundleId
  require (n.records.getLast?.all (·.1 < id)) "duplicate/nonmonotonic bundle ID"
  let stamp ← nanos bundle.header.stamp
  let same ← sameTimes stamp [tracking.header.stamp, tracking.odometry.header.stamp, bundle.cloud.header.stamp]
  require same "exact bundle/assessment/odom/cloud timestamp mismatch"
  require (n.records = [] ∨ n.lastStamp < stamp) "timestamp jump or repeated reference time"
  require (bundle.header.frameId = c.rigFrame ∧ tracking.header.frameId = c.rigFrame ∧
    bundle.cloud.header.frameId = c.rigFrame ∧ tracking.odometry.header.frameId = c.odomFrame ∧
    tracking.odometry.childFrameId = c.rigFrame) "coordinate frame ownership mismatch"
  require (tracking.odomEpoch ≠ "" ∧ (n.odomEpoch = "" ∨ n.odomEpoch = tracking.odomEpoch))
    "odometry epoch changed; explicit new graph/continuity validation is required"
  require (bundle.leftRawKey ≠ "" ∧ bundle.rightRawKey ≠ "" ∧ bundle.leftRawKey ≠ bundle.rightRawKey ∧
    bundle.leftRawKey ∉ n.usedRawKeys ∧ bundle.rightRawKey ∉ n.usedRawKeys) "raw frame key missing/reused"
  require (0 < bundle.leftRetainedCount ∧ 0 < bundle.rightRetainedCount)
    "one sensor has no retained valid observations"
  require (bundle.calibrationId ≠ "" ∧ bundle.leftClockModelId ≠ "" ∧ bundle.rightClockModelId ≠ "")
    "calibration/time model identity missing"
  require (n.calibrationId = "" ∨ (n.calibrationId = bundle.calibrationId ∧
    n.leftClock = bundle.leftClockModelId ∧ n.rightClock = bundle.rightClockModelId))
    "calibration/time model changed within graph epoch"
  let leftOrigin ← transform bundle.tRefLeftSensor
  let rightOrigin ← transform bundle.tRefRightSensor
  let odometry ← transform tracking.odometry.pose
  let sha256 ← fileSha256
  let measured := c.positiveCovariance tracking.odometry.covariance
  require (measured ∨ c.noiseModel = "diagonal_assumption")
    "upstream covariance unavailable; no explicit graph noise assumption configured"
  let _ ← scan c.maxPoints message
  return (id, {
    acceptedDigest := c.fingerprint message
    odomEpoch := tracking.odomEpoch
    leftKey := bundle.leftRawKey
    rightKey := bundle.rightRawKey
    relativeFile := "raw_observations/" ++ toString id ++ ".json"
    sha256 := sha256
    covarianceSource :=
      if measured then "upstream_odometry_covariance"
      else "configured_graph_edge_diagonal_assumption_not_measured_covariance"
    stampNs := stamp
    leftOrigin := leftOrigin
    rightOrigin := rightOrigin
    odometry := odometry })

/-- The handler of everything `accepted` throws. -/
def Node.latch (n : Node) (reason : String) : Node :=
  { n with failed := true, paused := true, diagnostic := ("PAUSED_INVALID", reason) }

def Node.publish (n : Node) (graph : GraphSnapshot) : Node := { n with published := graph :: n.published }

def Node.acknowledge (n : Node) (message : AcceptedBundle) (record : RawRecord) : Node :=
  if c.fingerprint message ≠ record.acceptedDigest then
    n.latch "processed bundle ID reused with different AcceptedBundle content"
  else
    match n.graphMessage c ⟨n.lastStamp / 1000000000, (n.lastStamp % 1000000000).toNat⟩ with
    | .error reason => n.latch reason
    | .ok graph => n.publish graph

def Node.insert (n : Node) (bundle : FusionBundle) (id : Int) (record : RawRecord) (poses : List Int) : Node :=
  { n with
    records := emplace id record n.records
    usedRawKeys := record.rightKey :: record.leftKey :: n.usedRawKeys
    odomEpoch := record.odomEpoch
    calibrationId := bundle.calibrationId
    leftClock := bundle.leftClockModelId
    rightClock := bundle.rightClockModelId
    lastStamp := record.stampNs
    revision := n.revision + 1
    poses := poses }

def Node.commit (n : Node) (stamp : Stamp) (writing : Option String) : Node :=
  match n.graphMessage c stamp with
  | .error reason => n.latch reason
  | .ok graph =>
    match writing with
    | some reason => n.latch reason
    | none =>
      { n.publish graph with
        revisions := graph :: n.revisions
        diagnostic := ("MAPPING_DUAL",
          "RTAB-Map graph revision committed with complete raw-frame associations") }

def Node.extend (n : Node) (message : AcceptedBundle) (s : Surroundings) : Node :=
  match n.admitted c message s.fileSha256 with
  | .error reason => n.latch reason
  | .ok (id, record) =>
    match n.engine.process c.maxNodes id record.odometry s.answer with
    | (.error reason, engine) => { n with engine := engine, processed := id :: n.processed }.latch reason
    | (.ok poses, engine) =>
      ({ n with engine := engine, processed := id :: n.processed }.insert message.bundle id record poses).commit c
        message.bundle.header.stamp s.writing

def Node.accepted (n : Node) (message : AcceptedBundle) (s : Surroundings) : Node :=
  if n.failed then n
  else
    let id := message.bundle.bundleId
    match if 0 < id ∧ id ≤ intMax then n.records.lookup (id : Int) else none with
    | some prior => n.acknowledge c message prior
    | none => if n.paused ∨ n.engine.closed then n else n.extend c message s

end

def Node.pause (n : Node) : Node :=
  { n with
    paused := true
    diagnostic := ("PAUSED",
      "Graph acceptance paused; this is not an actuator stop. Close snapshot or start a new session.") }

inductive Closing where
  | engine (reason : String)
  | barrier (reason : String)
  | done

def Node.blocked (n : Node) (reason : String) : Node := { n with diagnostic := ("SNAPSHOT_BLOCKED", reason) }

def Node.closeSnapshot (n : Node) (closing : Closing) : Node :=
  let n := { n with paused := true }
  if n.failed ∨ n.revision = 0 then n.blocked "no complete graph revision, or graph is latched invalid"
  else if n.closedBarrier then n.blocked "graph was already closed; use its existing immutable snapshot barrier"
  else
    match closing with
    | .engine reason => n.blocked reason
    | .barrier reason => { n with engine := { n.engine with closed := true } }.blocked reason
    | .done =>
      { n with
        engine := { n.engine with closed := true }
        closedBarrier := true
        diagnostic := ("CLOSED_FOR_SNAPSHOT",
          "DB closed and hashes frozen; offline rebuilding can now create a complete map snapshot") }

def Node.initial : Node where
  paused := false
  failed := false
  records := []
  usedRawKeys := []
  odomEpoch := ""
  calibrationId := ""
  leftClock := ""
  rightClock := ""
  lastStamp := 0
  revision := 0
  poses := []
  engine := { closed := false, failed := false, lastId := 0, odometry := [] }
  closedBarrier := false
  diagnostic := ("READY", "New RTAB-Map graph opened; waiting for exact accepted dual bundles")
  processed := []
  revisions := []
  published := []

end Smartwheel.Graph

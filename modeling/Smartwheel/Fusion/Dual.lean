import Smartwheel.Fusion.Core

/-! `DualFusion`, continued: freshness, the queues, pairing and fusion, `push`, `resume`, and runs, in which
any calls follow each other in any order. -/
namespace Smartwheel.Fusion

def before (f g : Checked) : Prop :=
  f.commonTimeNs < g.commonTimeNs ∨ f.commonTimeNs = g.commonTimeNs ∧ f.frameSequence ≤ g.frameSequence

instance (f g : Checked) : Decidable (before f g) := inferInstanceAs (Decidable (_ ∨ _))

def State.setQueue (s : State) (side : Side) (q : List Checked) : State :=
  { s with queues := Function.update s.queues side q }

/-- `queue.append` and `queue.sort`. -/
def inserted (side : Side) (f : Checked) (s : State) : State :=
  s.setQueue side (List.insertionSort before (s.queues side ++ [f]))

/-- `queue.pop(0)`. -/
def popped (side : Side) (s : State) : State := s.setQueue side (s.queues side).tail

def fused (s : State) : State := counted "BUNDLE_DUAL" { s with bundleCounter := s.bundleCounter + 1 }

section
variable (c : Config)

def sideFresh (now started : Int) (side : Side) : Act Bool := do
  let w ← .get
  let age := now - (w.state.lastSeenMonotonicNs side).getD started
  if age < 0 ∨ c.policy.maxAgeNs < age then
    latch ("SOURCE_TIMEOUT:" ++ side.name)
    return false
  else return true

def pairsFresh (now started : Int) : Act Bool := do
  let w ← .get
  if c.policy.maxAgeNs < now - w.state.lastBundleMonotonicNs.getD started then
    latch "PAIR_STREAM_TIMEOUT"
    return false
  else return true

def checkFreshness (now : Int) : Act Bool := do
  let w ← .get
  if w.state.latched then return false
  else match w.state.startedMonotonicNs with
    | none => return true
    | some started => do
      if ← sideFresh c now started .left then
        if ← sideFresh c now started .right then pairsFresh c now started else return false
      else return false

/-- `while len(q) > max_queue`, `rounds` times at most. -/
def overflow (side : Side) : Nat → Act Unit
  | 0 => return ()
  | rounds + 1 => do
    let w ← .get
    match w.state.queues side with
    | [] => return ()
    | f :: rest => .when (c.policy.maxQueue < (f :: rest).length) do
      .modify fun w => (w.onState fun s => counted "QUEUE_OVERFLOW" (popped side s)).note (.overflowed side f)
      overflow side rounds

def Policy.boundPerS (p : Policy) : ℚ := p.velocityBoundMps + p.maxRangeM * p.angularBoundRadps

def compensation (history : History) (l r : Checked) :
    Except Failure ((Side → Transform) × String × ℚ) := do
  let tRef := max l.commonTimeNs r.commonTimeNs
  let uncertainty := l.uncertaintyNs + r.uncertaintyNs
  let static := c.policy.boundPerS * ((|l.commonTimeNs - r.commonTimeNs| + uncertainty : Int) * (1/10^9))
  if c.policy.maxTimeErrorM < static ∨ history.requiresPrediction then
    let predict (stamp : Int) := (history.predict stamp).mapError Failure.fusion
    let reference ← predict tRef
    let left ← predict l.commonTimeNs
    let right ← predict r.commonTimeNs
    let error := c.policy.boundPerS * (uncertainty * (1/10^9)) + c.policy.predictionErrorBoundM
    rejectIf (c.policy.maxTimeErrorM < error) "TIME_ERROR_BUDGET_EXCEEDED"
    let relative : Side → Transform
      | .left => inverse reference * left
      | .right => inverse reference * right
    return (relative, history.mode, error)
  else return (fun _ => 1, "bounded_static", static)

def observation (side : Side) (f : Checked) (relative total : Transform) : Observation where
  rawKey := f.rawKey
  sensorId := f.sensorId
  side := side
  stampNs := f.commonTimeNs
  points := f.rayPoints
  rawPoints := f.originalPoints
  refSensor := total
  refRigAtSource := relative
  validIndices := f.rayIndices
  originInRef := ⟨total 0 3, total 1 3, total 2 3⟩
  rawCount := f.originalPoints.length
  validCount := f.rayPoints.length
  solverInputCount := f.validCount
  sourceConfigHash := f.originalConfigHash.orElse fun _ => f.sourceConfigHash
  filterConfigHash := f.filterConfigHash
  uncertaintyNs := f.uncertaintyNs

/-- What `_fuse` builds. -/
def bundleOf (history : History) (l r : Checked) (bundleId : Nat) : Except Failure Bundle := do
  let (relative, mode, error) ← compensation c history l r
  let total (side : Side) := relative side * c.extrinsics side
  let left ← transform (total .left) l.points
  let right ← transform (total .right) r.points
  return {
    sessionId := c.sessionId
    bundleId := bundleId
    tRefNs := max l.commonTimeNs r.commonTimeNs
    sourceMode := c.sourceMode
    sensorMode := "dual"
    calibrationId := c.calibrationId
    clockModelIds := c.clockModelIds
    frameId := "rig_link"
    compensationMode := mode
    temporalErrorBoundM := error
    points := left ++ right
    sourceCodes := List.replicate l.points.length 1 ++ List.replicate r.points.length 2
    observations := [observation .left l (relative .left) (total .left),
      observation .right r (relative .right) (total .right)]
    sourceCounts := fun
      | .left => left.length
      | .right => right.length }

/-- `_fuse`; the pair leaves the queues when it is fused. -/
def fuse (history : History) (l r : Checked) (now : Int) : Act Bundle := do
  let w ← .get
  let bundle ← lift (bundleOf c history l r (w.state.bundleCounter + 1))
  .modify fun w => (w.onState fused).note (.emitted bundle l r now w.state)
  return bundle

/-- `except FusionError as exc: self.latch(str(exc)); raise`. -/
def latching {α : Type} (x : Act α) : Act α :=
  x.handle fun e => match e with
    | .fusion code => do
      latch code
      .raise e
    | .other _ => .raise e

def dropped (side : Side) (f : Checked) (w : World) : World :=
  (w.onState fun s => counted "PAIR_WINDOW_EXCEEDED" (popped side s)).note
    (.dropped side f (w.state.queues side.other))

/-- `_pair`. Every round pops a frame, so as many rounds as there are frames are enough. -/
def pair (history : History) (now : Int) : Nat → Act (Option Bundle)
  | 0 => return none
  | rounds + 1 => do
    let w ← .get
    match w.state.queues .left, w.state.queues .right with
    | l :: _, r :: _ => do
      .when (c.policy.maxAgeNs < now - min l.hostMonotonicNs r.hostMonotonicNs) do
        latch "PAIR_STALE"
        .raise (.fusion "PAIR_STALE")
      let dt := l.commonTimeNs - r.commonTimeNs
      if c.policy.maxPairNs < |dt| then
        .modify (if dt < 0 then dropped .left l else dropped .right r)
        pair history now rounds
      else
        change fun s => popped .right (popped .left s)
        some <$> latching (fuse c history l r now)
    | _, _ => return none

/-- What `push` does about an error of `_check`. -/
def answered (e : Failure) : Act Unit :=
  match e with
  | .fusion code => if code = "DUPLICATE_OR_TOO_OLD_FRAME" then change (counted code) else latch code
  | .other _ => return ()

def rejected {α : Type} (e : Failure) : Act α := do
  answered e
  .raise e

def arrived (side : Side) (f : Checked) (now : Int) (s : State) : State :=
  { s with
    startedMonotonicNs := some (s.startedMonotonicNs.getD now)
    lastSeenMonotonicNs := Function.update s.lastSeenMonotonicNs side
      (some (max f.hostMonotonicNs ((s.lastSeenMonotonicNs side).getD f.hostMonotonicNs))) }

def enqueue (side : Side) (f : Checked) : Act Unit := do
  .modify fun w => (w.onState (inserted side f)).note (.enqueued side f)
  let w ← .get
  overflow c side (w.state.queues side).length

def push (frame : Frame) (now : Int) (history : History) : Act (Option Bundle) := do
  let w ← .get
  .raiseIf w.state.latched (.fusion ("PAUSED_INVALID:" ++ w.state.latchedReason.getD ""))
  .modify fun w => w.note (.pushed frame now w.state)
  let (side, f) ← (check c frame now).handle rejected
  change (arrived side f now)
  let fresh ← checkFreshness c now
  let w ← .get
  .raiseIf (!fresh) (.fusion (w.state.latchedReason.getD ""))
  enqueue c side f
  let w ← .get
  let result ← pair c history now ((w.state.queues .left).length + (w.state.queues .right).length)
  .when result.isSome (change fun s => { s with lastBundleMonotonicNs := some now })
  return result

/-- What `resume` is asked with. -/
structure Resume where
  explicit : Bool
  stable : Bool
  continuityVerified : Bool
  calibrationId : String
  clockModelIds : Side → String

def resume (request : Resume) : Act Unit := do
  .raiseIf (!(request.explicit && request.stable && request.continuityVerified))
    (.fusion "RESUME_PRECONDITIONS_UNMET")
  .raiseIf (request.calibrationId ≠ c.calibrationId ∨
    ¬∀ side ∈ [Side.left, Side.right], request.clockModelIds side = c.clockModelIds side)
    (.fusion "RESUME_CONFIG_MISMATCH")
  change fun s => { emptied s with
    latchedReason := none
    lastSeenMonotonicNs := fun _ => none
    startedMonotonicNs := none
    lastBundleMonotonicNs := none }
  noteCleared

inductive Operation where
  | push (frame : Frame) (now : Int) (history : History)
  | checkFreshness (now : Int)
  | latch (reason : String)
  | resume (request : Resume)

def perform : Operation → Act Unit
  | .push frame now history => do
    let _ ← push c frame now history
  | .checkFreshness now => do
    let _ ← checkFreshness c now
  | .latch reason => latch reason
  | .resume request => resume c request

def operate (o : Operation) : Act Unit := (perform c o).handle fun _ => return ()

def run : List Operation → Act Unit
  | [] => return ()
  | o :: rest => do
    operate c o
    run rest

end

def initial : World where
  state :=
    { queues := fun _ => []
      epochs := fun _ => none
      seen := ∅
      seenOrder := []
      sequenceHighwater := fun _ => none
      sequenceStampHighwater := fun _ => none
      lastSeenMonotonicNs := fun _ => none
      startedMonotonicNs := none
      lastBundleMonotonicNs := none
      counts := fun _ => 0
      bundleCounter := 0
      latchedReason := none }
  log := []

end Smartwheel.Fusion

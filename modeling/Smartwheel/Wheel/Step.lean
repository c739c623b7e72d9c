import Smartwheel.Wheel.Channel
import Smartwheel.Wheel.Intent

/-! `MappingWheel`: the guards of its control writes, sampling, stopping, releasing, the scheduler step
and closing; and its runs, in which any calls follow each other in any order. -/
namespace Smartwheel.Wheel
open Modbus Serial

def sampled (now : ℚ) (words : List Word) (s : Session) : Session :=
  let s := { s with lastFeedback := some now, samples := ((now, words) :: s.samples).take 3 }
  if s.stopDeadline.isSome then
    { s with stopZeroSamples := if words = [0, 0] then s.stopZeroSamples + 1 else 0 }
  else s

@[simp] theorem sampled_eq (now : ℚ) (words : List Word) (s : Session) :
    sampled now words s = { s with
      lastFeedback := some now
      samples := ((now, words) :: s.samples).take 3
      stopZeroSamples :=
        if s.stopDeadline.isSome then if words = [0, 0] then s.stopZeroSamples + 1 else 0
        else s.stopZeroSamples } := by
  unfold sampled
  cases s.stopDeadline <;> rfl

def released (control : Control) (s : Session) : Session :=
  let s := { s with
    stopDeadline := none
    pushMode := true
    pushModeRequested := false
    servoReleaseAcknowledged := true
    initializedByUser := false }
  if s.state = State.fault then s
  else { s with reason := if control.hybridManual then "HYBRID_HAND_PUSH_ACTIVE" else "USER_HAND_PUSH_ACTIVE" }

@[simp] theorem released_eq (control : Control) (s : Session) :
    released control s = { s with
      stopDeadline := none
      pushMode := true
      pushModeRequested := false
      servoReleaseAcknowledged := true
      initializedByUser := false
      reason :=
        if s.state = State.fault then s.reason
        else if control.hybridManual then "HYBRID_HAND_PUSH_ACTIVE" else "USER_HAND_PUSH_ACTIVE" } := by
  unfold released
  by_cases h : s.state = .fault <;> simp [h]

/-- A nonzero target starts motion from `READY`. -/
def started (now : ℚ) (s : Session) : Session :=
  { s with
    state := if s.initializedByUser then .armed else .initializing
    reason := if s.initializedByUser then "USER_KEYBOARD_INTENT" else "USER_REQUESTED_INITIALIZATION"
    initStep := 0
    nextInit := now
    stopDeadline := none }

def initialized (s : Session) : Session :=
  { s with
    initializedByUser := true
    servoReleaseAcknowledged := false
    state := .armed
    reason := "USER_KEYBOARD_INTENT" }

/-- `self.failure or str(reason)` and `FAULT`. -/
def faulted (reason : String) (s : Session) : Session :=
  { s with failure := some ((s.failure.filter (· ≠ "")).getD reason), state := .fault }

def initialization : List (Bytes × ℚ) :=
  [(singleWrite 0x200D 3, 0), (singleWrite 0x200F 0, 0), (singleWrite 0x200E 6, 1/5),
    (zeroRequest, 0), (enableRequest, 1/5)]

section
variable (env : Env) (control : Control)

/-- The foreground condition of `_guard`. -/
def userFresh : Act Bool := if control.hybridManual then uiFresh env else return true

/-- `_guard`: `expected` is the target a velocity was computed from, `none` for initialization. -/
def guard (expected : Option (ℚ × ℚ)) : Act Unit := do
  pump env control
  let now ← clock env
  let stop ← cancelled env
  let w ← .get
  let s := w.session
  .raiseIf (stop ∨ !s.peerConnected ∨ !control.armAllowed)
    (.cancelled "user control cancelled before write")
  let fresh ← userFresh env control
  .raiseIf (!fresh) (.cancelled "fresh foreground user intent required before write")
  .raiseIf (s.lastFeedback.all fun last => quarter < now - last)
    (.cancelled "fresh wheel feedback required immediately before write")
  .raiseIf (s.keys = ∅ ∨ s.lastKeys.all fun last => quarter ≤ now - last)
    (.cancelled "fresh keyboard intent required before write")
  .raiseIf (control.target s.keys = (0, 0) ∧ s.state = .ready)
    (.superseded "fresh opposing keys replace pending write with zero")
  .raiseIf (control.target s.keys = (0, 0)) (.cancelled "nonzero keyboard intent required before write")
  .raiseIf s.stopRequested (.cancelled "user stop pending before write")
  match expected with
  | none => .raiseIf (s.state ≠ .initializing) (.cancelled "initialization cancelled before write")
  | some target => do
    .raiseIf (s.state ≠ .armed) (.cancelled "keyboard intent cancelled before write")
    .raiseIf (control.target s.keys ≠ target)
      (.superseded "fresh changed keyboard target replaces pending write")

def sample : Act Unit := do
  let w ← .get
  journal env (.requestPlanned w.session.sequence)
  let response ← exchange env control query .query (return ())
  let words ← liftFault (parseExchange query response)
  let now ← clock env
  let w ← .get
  let s := w.session
  session fun s => { s with sequence := s.sequence + 1 }
  journal env (.transactionComplete s.sequence response words s.state w.channel.controlTransmissions
    w.channel.controlAttempts)
  preview env
  journal env .historyPreview
  exceptException (publish env) fun error => do
    session fun s => { s with publicationFailures := s.publicationFailures + 1 }
    .raise error
  session fun s => { s with publishedFeedbackCount := s.publishedFeedbackCount + 1 }
  record (sampled now words) (.sampled now words)
  let w ← .get
  .when (w.session.stopDeadline.isSome ∧ 3 ≤ w.session.stopZeroSamples) do
    channel fun c => { c with
      lastStop := some { acknowledged := true, stationaryFeedbackObserved := true,
                         servoReleased := false, bestEffort := none } }

/-- The zero exchange of `_stop`. -/
def commandZero : Act Unit := do
  let _ ← exchange env control zeroRequest .stop (return ())
  channel fun c => { c with
    lastStop := some { acknowledged := true, stationaryFeedbackObserved := false,
                       servoReleased := false, bestEffort := none } }
  let now ← clock env
  record (fun s => { s with stopDeadline := some now, stopZeroSamples := 0 }) (.deadlineSet true)

/-- `_stop` after it has taken the request. -/
def stopMotion : Act Unit := do
  let w ← .get
  .when (w.channel.motionMayExist ∨ w.session.pushModeRequested) do
    if w.channel.failed then bestEffortZero env
    else
      .when (w.session.stopDeadline = none) do
        exceptException (commandZero env control) fun error => do
          bestEffortZero env
          .raise error

/-- `_stop`. -/
def stop : Act Unit := do
  record (fun s => { s with stopRequested := false }) .stopTaken
  (stopMotion env control).ensure (note .stopDone)

def allFresh : List (ℚ × List Word) → Act Bool
  | [] => return true
  | (stamp, words) :: rest => do
    if words = [0, 0] then
      let now ← clock env
      if 0 ≤ now - stamp ∧ now - stamp ≤ quarter then allFresh rest else return false
    else return false

def stationaryWindowFresh : Act Bool := do
  let w ← .get
  if 3 ≤ w.session.stopZeroSamples ∧ w.session.samples.length = 3 then
    allFresh env w.session.samples.reverse
  else return false

def releaseCancelled : PyError :=
  .cancelled "explicit hand-push intent and fresh stationary feedback required before release"

/-- The guard of `_release`. -/
def releaseGuard (generation : Nat) : Act Unit := do
  pump env control
  let w ← .get
  let s := w.session
  .raiseIf s.closing releaseCancelled
  let stop ← cancelled env
  .raiseIf (stop ∨ !s.peerConnected ∨ !control.armAllowed ∨ !s.pushModeRequested ∨
    generation ≠ s.armGeneration ∨ control.target s.keys ≠ (0, 0) ∨ s.state = .initializing ∨
    s.state = .armed ∨ s.state = .fault ∨ s.stopDeadline = none ∨ s.stopZeroSamples < 3) releaseCancelled
  let still ← stationaryWindowFresh env
  .raiseIf (!still) releaseCancelled
  .when control.hybridManual do
    .raiseIf s.hybridReleaseInhibited releaseCancelled
    let fresh ← uiFresh env
    .raiseIf (!fresh) releaseCancelled
  let last ← .need s.lastFeedback releaseCancelled
  let now ← clock env
  .raiseIf (quarter < now - last) releaseCancelled

/-- The release exchange; `false` when its guard cancelled it. -/
def requestRelease (generation : Nat) : Act Bool :=
  (do
    let _ ← exchange env control releaseRequest .release (releaseGuard env control generation)
    return true).handle fun error => if error.isCancelled then return false else .raise error

/-- `_release`. -/
def release : Act Unit := do
  let w ← .get
  .when (w.session.pushModeRequested ∧ w.session.stopDeadline.isSome) do
    let still ← stationaryWindowFresh env
    .when still do
      let done ← requestRelease env control w.session.armGeneration
      .when done do
        session (released control)
        channel fun c => { c with
          motionMayExist := false
          lastStop := some { acknowledged := c.lastStop.any (·.acknowledged)
                             stationaryFeedbackObserved := c.lastStop.any (·.stationaryFeedbackObserved)
                             servoReleased := true
                             bestEffort := c.lastStop.bind (·.bestEffort) } }
        journal env .handPushReleaseAcknowledged

def fault (reason : String) : Act Unit := do
  session (faulted reason)
  let w ← .get
  let failure := w.session.failure.getD reason
  disarm env control failure
  journalQuietly env (.manualFault failure)

def initializeNext : Act Unit := do
  let w ← .get
  match initialization[w.session.initStep]? with
  | some (request, delay) => do
    let _ ← exchange env control request .initialization (guard env control none)
    session fun s => { s with initStep := s.initStep + 1 }
    let now ← clock env
    session fun s => { s with nextInit := now + delay }
  | none => do
    guard env control none
    session initialized
    let now ← clock env
    session fun s => { s with nextCommand := now }

def sendVelocity : Act Unit := do
  let w ← .get
  let target := control.target w.session.keys
  if target = (0, 0) then
    session fun s => { s with keys := ∅, stopRequested := w.channel.motionMayExist }
  else
    let request ← liftFault (control.velocityRequest target)
    let _ ← exchange env control request (.velocity target) (guard env control (some target))
    let now ← clock env
    session fun s => { s with nextCommand := now + 5/100, reason := "USER_KEYBOARD_INTENT" }

/-- The last part of `step`: motion for a nonzero target. -/
def drive (now : ℚ) : Act Unit := do
  let w ← .get
  .when (w.session.state = .ready ∧ control.target w.session.keys ≠ (0, 0)) do
    session (started now)
    journal env .userMotionRequested
  let w ← .get
  let s := w.session
  if s.state = .initializing ∧ s.nextInit ≤ now then initializeNext env control
  else .when (s.state = .armed ∧ s.keys ≠ ∅ ∧ s.nextCommand ≤ now) (sendVelocity env control)

/-- The middle part of `step`: feedback and release. -/
def feed (now : ℚ) : Act Unit := do
  let w ← .get
  .when (w.session.nextFeedback ≤ now) do
    session fun s => { s with nextFeedback := now + 1/10 }
    sample env control
  let now ← clock env
  let w ← .get
  .when (w.session.stopDeadline.isSome ∧ control.target w.session.keys = (0, 0)) (release env control)
  let stop ← cancelled env
  .when (!stop) (drive env control now)

/-- The disarms that `step` makes by itself. -/
def expire (now : ℚ) : Act Unit := do
  let stop ← cancelled env
  .when stop (disarm env control "SESSION_CANCELLED")
  let w ← .get
  .when (control.hybridManual ∧ w.session.lastUiHeartbeat.isSome) do
    let fresh ← uiFresh env
    .when (!fresh) (disarm env control "UI_HEARTBEAT_TIMEOUT")
  let w ← .get
  let s := w.session
  .when ((s.state = .ready ∨ s.state = .initializing ∨ s.state = .armed) ∧ s.keys ≠ ∅) do
    let last ← .need s.lastKeys (.fault (.other "unsupported operand type(s) for -"))
    .when (quarter ≤ now - last) (disarm env control "KEY_TIMEOUT")

/-- The `try` block of `step`. -/
def stepBody : Act Unit := do
  let now ← clock env
  let w ← .get
  .raiseIf (w.session.lastClock.any fun last => now < last)
    (feedbackError "mapping wheel monotonic clock reversed")
  session fun s => { s with lastClock := some now }
  checkHealth env
  expire env control now
  let w ← .get
  .when w.session.stopRequested (stop env control)
  let w ← .get
  .when (w.session.state ≠ .fault) (feed env control now)

/-- The `except` blocks of `step`; `generation` is the one before the step. -/
def recover (generation : Nat) (error : PyError) : Act Unit :=
  match error with
  | .superseded _ => do
    let now ← clock env
    session fun s => { s with nextCommand := now }
  | .cancelled message => do
    let w ← .get
    .when (w.session.armGeneration = generation) (disarm env control message)
  | error => do
    fault env control error.text
    exceptException (stop env control) fun _ => return ()

def step : Act Unit := do
  let w ← .get
  note (.stepBegin w.machine)
  (stepBody env control).handle (recover env control w.session.armGeneration)

def close : Act Unit := do
  let w ← .get
  .when (!w.session.closed) do
    session fun s => { s with closing := true }
    disarm env control (w.session.failure.getD "SESSION_EXIT")
    (exceptException (stop env control) fun error => do
      fault env control error.text
      bestEffortZero env).ensure (session fun s => { s with closed := true })

inductive Operation where
  | pump
  | step
  | close
  | fault (reason : String)

def perform : Operation → Act Unit
  | .pump => pump env control
  | .step => step env control
  | .close => close env control
  | .fault reason => fault env control reason

def operate (o : Operation) : Act Unit := (perform env control o).handle fun _ => return ()

def run : List Operation → Act Unit
  | [] => return ()
  | o :: rest => do
    operate env control o
    run rest

def initial : World where
  session :=
    { state := idleState control
      reason :=
        if control.armAllowed then
          if control.hybridManual then "READY_FOR_FOREGROUND_HYBRID" else "READY_FOR_WASD_OR_HAND_PUSH"
        else "STARTUP_READ_ONLY"
      failure := none
      keys := ∅
      sequence := 0
      lastKeySequence := 0
      armGeneration := 0
      lastKeys := none
      lastFeedback := none
      lastClock := none
      samples := []
      peerConnected := false
      initializedByUser := false
      initStep := 0
      nextInit := 0
      nextFeedback := 0
      nextCommand := 0
      stopRequested := false
      stopDeadline := none
      stopZeroSamples := 0
      pushMode := false
      pushModeRequested := false
      foreground := false
      lastUiHeartbeat := none
      hybridReleaseInhibited := false
      servoReleaseAcknowledged := false
      publishedFeedbackCount := 0
      publicationFailures := 0
      closed := false
      closing := false }
  channel := { failed := false, controlTransmissions := 0, controlAttempts := 0, controlBytes := 0,
               motionMayExist := false, recoveryAttempted := false, lastStop := none }
  response := []
  sent := 0
  trace := []

end
end Smartwheel.Wheel

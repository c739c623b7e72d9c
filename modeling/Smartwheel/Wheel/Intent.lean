import Smartwheel.Wheel.Machine

/-! What a user may intend: `disarm`, `command` with its packets, and `pump`, which serves the socket
between steps and inside the guards of control writes. None of it writes to the line. -/
namespace Smartwheel.Wheel
open Serial

/-- `KEY_TIMEOUT_S` and `FEEDBACK_FRESH_S`. -/
def quarter : ℚ := 1/4

def idleState (control : Control) : State := if control.armAllowed then .ready else .disarmed

/-- `disarm`, where `normal` is its `normal_release` and `motion` the channel's `motion_may_exist`. -/
def disarmed (control : Control) (reason : String) (normal motion : Bool) (s : Session) : Session :=
  let s := { s with
    keys := ∅
    lastKeys := none
    armGeneration := s.armGeneration + 1
    reason := reason
    state := if s.state = State.fault then .fault else idleState control
    initStep := 0
    pushModeRequested := false }
  let s :=
    if control.hybridManual then
      if normal then
        { s with
          hybridReleaseInhibited := false
          pushModeRequested := true
          stopDeadline := none
          stopRequested := true }
      else { s with hybridReleaseInhibited := true, foreground := false, lastUiHeartbeat := none }
    else s
  { s with stopRequested := s.stopRequested || (motion && s.stopDeadline.isNone) }

@[simp] theorem disarmed_eq (control : Control) (reason : String) (normal motion : Bool) (s : Session) :
    disarmed control reason normal motion s = { s with
      keys := ∅
      lastKeys := none
      armGeneration := s.armGeneration + 1
      reason := reason
      state := if s.state = .fault then .fault else idleState control
      initStep := 0
      pushModeRequested := control.hybridManual && normal
      hybridReleaseInhibited := if control.hybridManual then !normal else s.hybridReleaseInhibited
      stopDeadline := if control.hybridManual && normal then none else s.stopDeadline
      foreground := s.foreground && !(control.hybridManual && !normal)
      lastUiHeartbeat := if control.hybridManual && !normal then none else s.lastUiHeartbeat
      stopRequested :=
        s.stopRequested || control.hybridManual && normal || motion && s.stopDeadline.isNone } := by
  unfold disarmed
  cases control.hybridManual <;> cases normal <;> simp

/-- An accepted `push_mode` packet, after its `disarm`. -/
def pushed (enabled : Bool) (s : Session) : Session :=
  let s := { s with pushMode := false, pushModeRequested := enabled }
  if enabled then { s with stopDeadline := none, stopRequested := true } else s

@[simp] theorem pushed_eq (enabled : Bool) (s : Session) :
    pushed enabled s = { s with
      pushMode := false
      pushModeRequested := enabled
      stopDeadline := if enabled then none else s.stopDeadline
      stopRequested := s.stopRequested || enabled } := by
  unfold pushed
  cases enabled <;> simp

/-- A `keys` heartbeat from the foreground; held keys take over from hand-push. -/
def attended (keys : Finset Key) (now : ℚ) (s : Session) : Session :=
  let s := { s with foreground := true, lastUiHeartbeat := some now }
  if keys = ∅ then s
  else { s with
    hybridReleaseInhibited := false
    pushMode := false
    pushModeRequested := false
    stopDeadline := none
    stopZeroSamples := 0 }

@[simp] theorem attended_eq (keys : Finset Key) (now : ℚ) (s : Session) :
    attended keys now s = { s with
      foreground := true
      lastUiHeartbeat := some now
      hybridReleaseInhibited := decide (keys = ∅) && s.hybridReleaseInhibited
      pushMode := decide (keys = ∅) && s.pushMode
      pushModeRequested := decide (keys = ∅) && s.pushModeRequested
      stopDeadline := if keys = ∅ then s.stopDeadline else none
      stopZeroSamples := if keys = ∅ then s.stopZeroSamples else 0 } := by
  unfold attended
  by_cases h : keys = ∅ <;> simp [h]

def held (keys : Finset Key) (now : ℚ) (s : Session) : Session :=
  { s with keys := keys, lastKeys := some now }

def opposed (keys : Finset Key) (now : ℚ) (motion : Bool) (s : Session) : Session :=
  { s with
    keys := keys
    lastKeys := some now
    state := .ready
    reason := "OPPOSING_KEYS_ZERO"
    initStep := 0
    stopRequested := s.stopRequested || (motion && s.stopDeadline.isNone) }

/-- `_request_hybrid_push`, once it is admissible. -/
def waiting (motion : Bool) (s : Session) : Session :=
  let s := { s with
    pushModeRequested := true
    reason := "HYBRID_WAITING_FRESH_STATIONARY_FEEDBACK"
    stopZeroSamples := 0 }
  if motion then { s with stopDeadline := none, stopRequested := true } else s

@[simp] theorem waiting_eq (motion : Bool) (s : Session) :
    waiting motion s = { s with
      pushModeRequested := true
      reason := "HYBRID_WAITING_FRESH_STATIONARY_FEEDBACK"
      stopZeroSamples := 0
      stopDeadline := if motion then none else s.stopDeadline
      stopRequested := s.stopRequested || motion } := by
  unfold waiting
  cases motion <;> simp

/-- The sequence number and flag of a `push_mode` packet, when it has them and the number increases. -/
def Packet.pushRequest (p : Packet) (last : Int) : Option (Int × Bool) := do
  let sequence ← p.sequence
  let enabled ← p.enabled
  if last < sequence then return (sequence, enabled) else none

/-- The sequence number and key set of a `keys` packet, when they are as required. -/
def Packet.keyRequest (p : Packet) (last : Int) : Option (Int × Finset Key) := do
  let sequence ← p.sequence
  let entries ← p.keys
  let keys ← entries.mapM id
  if last < sequence ∧ keys.length ≤ 4 ∧ keys.Nodup then return (sequence, keys.toFinset) else none

section
variable (env : Env) (control : Control)

def uiFresh : Act Bool := do
  let w ← .get
  match w.session.peerConnected && w.session.foreground, w.session.lastUiHeartbeat with
  | true, some heartbeat => do
    let now ← clock env
    return decide (0 ≤ now - heartbeat ∧ now - heartbeat < quarter)
  | _, _ => return false

/-- `normal_release` of `disarm`. -/
def normalRelease (reason : String) : Act Bool :=
  if reason = "ALL_KEYS_RELEASED" ∧ control.hybridManual then uiFresh env else return false

def disarm (reason : String) : Act Unit := do
  let normal ← normalRelease env control reason
  let w ← .get
  record (disarmed control reason normal w.channel.motionMayExist)
    (.disarmed reason normal (w.session.armGeneration + 1) (w.session.state = .fault))

def connected : Act Unit := session fun s => { s with
  peerConnected := true, lastKeySequence := 0, foreground := false, lastUiHeartbeat := none }

def disconnected : Act Unit := do
  session fun s => { s with peerConnected := false }
  disarm env control "OPERATOR_CONNECTION_CLOSED"

def requestHybridPush : Act Unit := do
  let w ← .get
  .when (control.hybridManual ∧ control.armAllowed ∧ !w.session.hybridReleaseInhibited) do
    let fresh ← uiFresh env
    let s := w.session
    .when (fresh ∧ s.keys = ∅ ∧ !s.pushMode ∧ !s.pushModeRequested ∧ s.state = .ready ∧ !s.closing) do
      let stop ← cancelled env
      .when (!stop) do
        record (waiting w.channel.motionMayExist) (.pushRequested s.armGeneration)
        .when (!w.channel.motionMayExist) do
          let now ← clock env
          record (fun s => { s with stopDeadline := some now }) (.deadlineSet false)

def pushMode (p : Packet) : Act Unit := do
  let w ← .get
  let (sequence, enabled) ← .need (p.pushRequest w.session.lastKeySequence)
    (feedbackError "hand-push mode requires explicit boolean and increasing sequence")
  session fun s => { s with lastKeySequence := sequence }
  let s := w.session
  .when (!s.closed ∧ !s.closing ∧ s.state ≠ .fault ∧ control.armAllowed ∧ s.peerConnected ∧
      p.armGeneration = some (s.armGeneration : Int)) do
    disarm env control (if enabled then "USER_HAND_PUSH_REQUEST" else "USER_LEFT_HAND_PUSH")
    let w ← .get
    record (pushed enabled) (.pushPacket enabled w.session.armGeneration)
    journal env (.userHandPushRequested enabled w.session.armGeneration)

/-- The end of a `keys` packet: the key set becomes the current intent. -/
def intend (p : Packet) (keys : Finset Key) (now : ℚ) : Act Unit := do
  let w ← .get
  let s := w.session
  if s.keys ≠ ∅ ∧ s.lastKeys.any fun last => quarter ≤ now - last then
    disarm env control "KEY_TIMEOUT_BEFORE_REFRESH"
  else if control.target keys = (0, 0) then
    if keys ≠ ∅ then
      record (opposed keys now w.channel.motionMayExist) (.refreshed now p)
    else if s.keys ≠ ∅ ∨ s.state = .initializing ∨ s.state = .armed then
      disarm env control "ALL_KEYS_RELEASED"  -- which clears the keys
    else
      session fun s => { s with keys := ∅, lastKeys := none }
      requestHybridPush env control
  else record (held keys now) (.refreshed now p)

def keysPacket (p : Packet) : Act Unit := do
  let w ← .get
  let (sequence, keys) ← .need (p.keyRequest w.session.lastKeySequence)
    (feedbackError "keys require unique WASD values and an increasing integer sequence")
  session fun s => { s with lastKeySequence := sequence }
  let s := w.session
  .when (!s.closed ∧ !s.closing ∧ (s.state = .ready ∨ s.state = .initializing ∨ s.state = .armed) ∧
      control.armAllowed ∧ p.armGeneration = some (s.armGeneration : Int)) do
    .raiseIf (!s.peerConnected) (feedbackError "manual client disconnected")
    let now ← clock env
    if control.hybridManual then
      let foreground ← .need p.foreground
        (feedbackError "hybrid_manual keys heartbeat requires explicit foreground boolean")
      if foreground then
        record (attended keys now) (.attended (keys ≠ ∅))
        intend env control p keys now
      else
        .when (s.foreground ∨ s.keys ≠ ∅ ∨ s.pushModeRequested) (disarm env control "UI_NOT_FOREGROUND")
    else
      .when (!s.pushMode ∧ !s.pushModeRequested) (intend env control p keys now)

def command (p : Packet) : Act Unit := do
  .raiseIf (p.sessionId ≠ some control.sessionId)
    (feedbackError "manual packet session identity mismatch")
  match p.kind with
  | .disarm => disarm env control "USER_DISARM"
  | .close => disarm env control "USER_CLOSE"
  | .arm => .when (!control.armAllowed) (session fun s => { s with reason := control.reason })
  | .pushMode => pushMode env control p
  | .keys => keysPacket env control p
  | .unknown => .raise (feedbackError "unknown manual packet type")

/-- What `pump` does with input it rejects: the client is disarmed and dropped. -/
def rejected (message : String) : Act Unit := do
  disarm env control ("MANUAL_SOCKET_REJECTED: " ++ message)
  disconnected env control

def serve : SocketEvent → Act Unit
  | .connect => connected
  | .drop => disconnected env control
  | .reject message => rejected env control message
  | .crash message => .raise (.fault (.other message))
  | .packet p =>
    (do
      command env control p
      .when (p.kind = PacketKind.close) (disconnected env control)).handle fun error =>
        match error with
        | .fault (.other message) => .raise (.fault (.other message))
        | _ => rejected env control error.text

def serveAll : List SocketEvent → Act Unit
  | [] => return ()
  | e :: rest => do
    serve env control e
    serveAll rest

/-- `ManualSocket.pump`, called between steps and as `before_control`. -/
def pump : Act Unit := do
  let events ← watch env.pump fun _ => .pump
  serveAll env control events
  note .pumped

end
end Smartwheel.Wheel

import Smartwheel.Manual.Channel

/-! `ManualHardwareSession` over the channel, and its runs: any sequence of operations, each with any
arguments, each of which may raise. -/
namespace Smartwheel.Manual
open Modbus Serial

/-- A timestamp handed in by the caller; `none` is anything that is not a finite number. -/
abbrev Stamp := Option ℚ

def heldKeys (keyTimes : List (Key × ℚ)) : Finset Key := (keyTimes.map Prod.fst).toFinset

/-- `min(self.key_times.values())`. -/
def oldest (keyTimes : List (Key × ℚ)) : Option ℚ := (keyTimes.map Prod.snd).min?

def insertKey (keyTimes : List (Key × ℚ)) (key : Key) (now : ℚ) : List (Key × ℚ) :=
  (key, now) :: keyTimes.filter fun entry => entry.1 ≠ key

def keyOf (text : String) : Option Key :=
  if text = "w" then some .w else if text = "a" then some .a
  else if text = "s" then some .s else if text = "d" then some .d else none

def setState (state : State) : Act Unit := do
  session fun s => { s with state := state }
  note (.stateSet state)

section Operations
variable (env : Env) (contract : ManualContract)

def status : Act Record := do
  let w ← .get
  return .status w.session.state w.session.reason w.session.keys w.channel.motionMayExist
    w.channel.lastStop

def journalStatus : Act Unit := do
  let record ← status
  journal env record

/-- `_clock`: returns the number it has checked. -/
def checkClock (stamp : Stamp) : Act ℚ := do
  let now ← .need stamp (feedbackError "manual monotonic timestamp must be finite in [0, 1e15]")
  liftFault (bounded now "manual monotonic timestamp" 0 (10^15))
  let current ← monotonic env
  .raiseIf (current + 5/1000 < now ∨ contract.keyTimeout < current - now)
    (feedbackError "manual key/tick timestamp is stale or future-dated")
  let w ← .get
  .raiseIf (w.session.lastNow.any fun last => now < last)
    (feedbackError "manual monotonic clock reversed")
  session fun s => { s with lastNow := some now }
  return now

/-- `_feedback`: the two signed wheel speeds of a query reply. -/
def feedback : Act (Int × Int) := do
  let words ← read env contract query
  match words with
  | [left, right] =>
    let p := contract.profile
    .raiseIf (max |signed left| |signed right| > p.maxWheelRpm / p.registerToFeedbackRpm)
      (feedbackError "actual wheel feedback exceeds reviewed manual speed bound")
    note (.feedback (signed left) (signed right))
    return (signed left, signed right)
  | _ => .raise (.fault (.other "not enough values to unpack"))

def replyTo (replies : List (Bytes × List Word)) (request : Bytes) : Act (List Word) :=
  match replies.lookup request with
  | some words => pure words
  | none => read env contract request

/-- `_read_checks` from the replies already at hand. -/
def readChecksFrom (replies : List (Bytes × List Word)) : List Check → Act Unit
  | [] => return ()
  | check :: rest => do
    let words ← replyTo env contract replies check.request
    let value ← .need words[check.wordIndex]? (.fault (.other "tuple index out of range"))
    .raiseIf (value &&& check.mask ≠ check.equals)
      (feedbackError ("required live controller state is not ready: " ++ check.purpose.text))
    readChecksFrom ((check.request, words) :: replies) rest

def readChecks : Act Unit := readChecksFrom env contract [] contract.checks

def withinBound (contract : ManualContract) (reading : Int × Int) : Prop :=
  max |reading.1| |reading.2| ≤ contract.stationaryBound

instance (reading : Int × Int) : Decidable (withinBound contract reading) :=
  inferInstanceAs (Decidable (_ ≤ _))

/-- The three stationary readings of `preflight`, with its pauses. -/
def preflightReadings : List Nat → Act Unit
  | [] => return ()
  | index :: rest => do
    let reading ← feedback env contract
    .raiseIf (¬withinBound contract reading)
      (feedbackError "stationary actual feedback required before user arm")
    .when (index < 2) (sleep env (3/100))
    preflightReadings rest

def preflight : Act Unit := do
  let w ← .get
  .raiseIf (w.session.closed ∨ w.session.state = .fault ∨ !w.channel.leaseOpen)
    (feedbackError "open, nonfaulted serial owner required for manual preflight")
  readChecks env contract
  preflightReadings env contract [0, 1, 2]
  session fun s => { s with reason := "READ_ONLY_PREFLIGHT_PASSED_DRIVE_ALREADY_READY" }
  requireNotCancelled env
  journalStatus env

def arm (operatorKey : String) : Act Unit := do
  let w ← .get
  .raiseIf (operatorKey ≠ "e" ∨ w.session.state ≠ .disarmed ∨ w.session.closed)
    (feedbackError "fresh explicit E arming is required in a disarmed live session")
  preflight env contract
  channel fun c => { c with armed := true, lastNonzeroWriteTime := none }
  setState .armed
  session fun s => { s with keys := ∅, keyTimes := [] }
  let now ← monotonic env
  session fun s => { s with lastKeyTime := some now, reason := "USER_ARMED_NO_ENABLE_COMMAND" }
  journalStatus env

/-- The zero-feedback loop of `stop`; returns the consecutive stationary readings. -/
def awaitStationary (deadline : ℚ) : Nat → Nat → Act Nat
  | 0, _ => .cut
  | rounds + 1, stationary => do
    let now ← monotonic env
    if now < deadline ∧ stationary < 3 then
      let reading ← feedback env contract
      let stationary := if withinBound contract reading then stationary + 1 else 0
      .when (stationary < 3) (sleep env (2/100))
      awaitStationary deadline rounds stationary
    else return stationary

/-- The zero command of `stop` and its confirmation. -/
def confirmZero : Act Unit := do
  let _ ← velocity env contract 0 0
  let now ← monotonic env
  let stationary ← awaitStationary env contract (now + contract.stopTimeout) env.patience 0
  readChecks env contract
  .raiseIf (stationary ≠ 3)
    (feedbackError "zero command ACK without confirmed stationary feedback")
  channel fun c => { c with
    motionMayExist := false, lastNonzeroWriteTime := none, lastStop := some .zeroObserved }
  note .motionCleared

/-- The `try` block of `stop`. -/
def stopMotion : Act Unit := do
  let w ← .get
  .when w.channel.motionMayExist do
    if w.channel.failed then
      bestEffortZero env contract
      setState .fault
    else confirmZero env contract

/-- The `except Exception` block of `stop`. -/
def recover : Act Unit := do
  setState .fault
  fail
  bestEffortZero env contract

/-- The `finally` block of `stop`. -/
def conclude : Act Unit := do
  channel fun c => { c with armed := false, motionDeadline := none, stopping := false }
  exceptException (journalStatus env) fun _ => setState .fault

/-- What `stop` does before its `try` block. -/
def beginStop (reason : String) (fault : Bool) : Act Unit := do
  session fun s => { s with keys := ∅, keyTimes := [], reason := reason }
  let w ← .get
  setState (if fault ∨ w.session.state = .fault then .fault else .disarmed)
  channel fun c => { c with stopping := true }

def stop (reason : String) (fault : Bool) : Act Unit := do
  note .stopBegin
  beginStop reason fault
  (exceptException (stopMotion env contract) fun _ => recover env contract).ensure (conclude env)
  let w ← .get
  note (.stopped w.machine)

/-- The part of `tick` that talks to the controller: `last` is the time of the last key event. -/
def drive (last : ℚ) : Act Unit := do
  let _ ← feedback env contract
  readChecks env contract
  -- Reads can block: an expired intent is not dispatched after they return.
  let now ← monotonic env
  if contract.keyTimeout < now - last then stop env contract "KEY_EXPIRED_DURING_FEEDBACK" false
  else
    requireNotCancelled env
    let w ← .get
    let stamp ← .need (oldest w.session.keyTimes) (.fault (.other "min() iterable argument is empty"))
    channel fun c => { c with motionDeadline := some (stamp + contract.keyTimeout) }
    let p := contract.profile
    let keys := w.session.keys
    let linear := direction (.w ∈ keys) (.s ∈ keys) * p.maxLinearMS
    let angular := direction (.a ∈ keys) (.d ∈ keys) * p.maxAngularRadS
    let _ ← velocity env contract linear angular
    let sent ← monotonic env
    session fun s => { s with lastCommandTime := some sent }

def dropExpired (now : ℚ) (s : Session) : Session :=
  let keyTimes := s.keyTimes.filter fun entry => now - entry.2 < contract.keyTimeout
  { s with keyTimes := keyTimes, keys := heldKeys keyTimes }

/-- The part of `tick` after its key timeout check. -/
def tickKeys (now last : ℚ) (force : Bool) : Act Unit := do
  session (dropExpired contract now)
  let w ← .get
  if w.session.keys = ∅ then
    .when w.channel.motionMayExist (stop env contract "ALL_KEYS_RELEASED" false)
  else
    .when (force ∨ w.session.lastCommandTime.all fun sent => contract.period ≤ now - sent)
      (drive env contract last)

/-- The `try` block of `tick`. -/
def tickBody (stamp : Stamp) (force : Bool) : Act Unit := do
  let now ← checkClock env contract stamp
  requireNotCancelled env
  let w ← .get
  .when (w.session.state = .armed) do
    match w.session.lastKeyTime with
    | none => stop env contract "KEY_TIMEOUT" false
    | some last =>
      if contract.keyTimeout < now - last then stop env contract "KEY_TIMEOUT" false
      else tickKeys env contract now last force

/-- Without a `now` the monotonic clock is read. -/
def tickTime : Option Stamp → Act Stamp
  | some stamp => return stamp
  | none => some <$> monotonic env

/-- `tick(now, force=force)`. -/
def tick (now : Option Stamp) (force : Bool) : Act Unit := do
  note .tick
  let stamp ← tickTime env now
  exceptException (tickBody env contract stamp force) fun e => do
    stop env contract "TRANSACTION_OR_STATE_FAILURE" true
    .raise e

def changeKey (key : Key) (pressed : Bool) (now : ℚ) (s : Session) : Session :=
  if pressed then
    { s with keys := insert key s.keys, keyTimes := insertKey s.keyTimes key now, lastKeyTime := some now }
  else
    { s with keys := s.keys.erase key, keyTimes := s.keyTimes.filter fun entry => entry.1 ≠ key,
             lastKeyTime := some now }

/-- The part of `key_event` that handles a direction key. -/
def directionKey (key : Key) (pressed : Bool) (now : ℚ) : Act Unit := do
  let w ← .get
  .when (w.session.state = .armed) do
    if w.session.lastKeyTime.all fun last => contract.keyTimeout < now - last then
      stop env contract "KEY_TIMEOUT_BEFORE_EVENT" false
    else
      session (changeKey key pressed now)
      tick env contract (some (some now)) true

/-- The `try` block of `key_event`; `pressed` is `none` when it is not a `bool`. -/
def keyEventBody (key : String) (pressed : Option Bool) (stamp : Stamp) : Act Unit := do
  let now ← checkClock env contract stamp
  let w ← .get
  .raiseIf w.session.closed (feedbackError "manual hardware session is closed")
  requireNotCancelled env
  if key = " " then stop env contract "USER_SPACE_STOP" false
  else match keyOf key, pressed with
  | some key, some pressed => directionKey env contract key pressed now
  | _, _ => .raise (feedbackError "explicit WASD event required")

def keyEvent (key : String) (pressed : Option Bool) (stamp : Stamp) : Act Unit :=
  exceptException (keyEventBody env contract key pressed stamp) fun e => do
    stop env contract "KEY_EVENT_FAILURE" true
    .raise e

def terminalKey (key : String) (stamp : Stamp) : Act Unit := do
  session fun s => { s with keys := ∅, keyTimes := [] }
  keyEvent env contract key (some true) stamp

/-- `FeedbackSerialLease.close`. -/
def leaseClose : Act Unit := do
  let w ← .get
  .when w.channel.leaseOpen do
    call .osClose fun w => (env.osClose w.trace).map Raise.error
    channel fun c => { c with leaseOpen := false }
  .when w.channel.lockOpen do
    call .lockClose fun w => (env.lockClose w.trace).map Raise.error
    channel fun c => { c with lockOpen := false }

def close : Act Unit := do
  let w ← .get
  (stop env contract "USER_EXIT" (w.session.state = .fault)).ensure do
    leaseClose env
    session fun s => { s with closed := true }

inductive Operation where
  | preflight
  | arm (operatorKey : String)
  | keyEvent (key : String) (pressed : Option Bool) (now : Stamp)
  | terminalKey (key : String) (now : Stamp)
  | tick (now : Option Stamp) (force : Bool)
  | stop (reason : String) (fault : Bool)
  | close

def perform : Operation → Act Unit
  | .preflight => preflight env contract
  | .arm operatorKey => arm env contract operatorKey
  | .keyEvent key pressed now => keyEvent env contract key pressed now
  | .terminalKey key now => terminalKey env contract key now
  | .tick now force => tick env contract now force
  | .stop reason fault => stop env contract reason fault
  | .close => close env contract

def operate (o : Operation) : Act Unit := do
  note .operation
  (perform env contract o).handle fun _ => return ()

def run : List Operation → Act Unit
  | [] => return ()
  | o :: rest => do
    operate env contract o
    run rest

end Operations

def initial : World where
  session := { state := .disarmed, keys := ∅, keyTimes := [], lastKeyTime := none,
               lastCommandTime := none, lastNow := none, reason := "STARTUP_READ_ONLY", closed := false }
  channel := { leaseOpen := true, lockOpen := true, armed := false, failed := false, motionMayExist := false,
               bestEffortAttempted := false, sequence := 0, lastStop := none, feedbackSequence := 0,
               stopping := false, motionDeadline := none, lastNonzeroWriteTime := none }
  response := []
  sent := 0
  trace := []

end Smartwheel.Manual

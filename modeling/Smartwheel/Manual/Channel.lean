import Mathlib.Data.Finset.Basic
import Smartwheel.Serial.World

/-! The reviewed contract of a manual session: profile, timing, state checks, and the two functions
that build and validate a velocity frame. Arithmetic is exact; `pi` is the value of `math.pi`. -/
namespace Smartwheel.Manual
open Modbus

structure Profile where
  wheelRadiusM : ℚ
  trackWidthM : ℚ
  rpmToRegisterScale : ℚ
  registerToFeedbackRpm : ℚ
  maxLinearMS : ℚ
  maxAngularRadS : ℚ
  maxWheelRpm : ℚ
  leftSign : Int
  rightSign : Int
  wheelRadius_bounds : 1/100 ≤ wheelRadiusM ∧ wheelRadiusM ≤ 1
  trackWidth_bounds : 1/10 ≤ trackWidthM ∧ trackWidthM ≤ 2
  rpmToRegister_bounds : 1/100 ≤ rpmToRegisterScale ∧ rpmToRegisterScale ≤ 100
  registerToFeedback_bounds : 1/10000 ≤ registerToFeedbackRpm ∧ registerToFeedbackRpm ≤ 100
  maxLinear_bounds : 1/1000 ≤ maxLinearMS ∧ maxLinearMS ≤ 15/100
  maxAngular_bounds : 1/1000 ≤ maxAngularRadS ∧ maxAngularRadS ≤ 3/10
  maxWheel_bounds : 1/10 ≤ maxWheelRpm ∧ maxWheelRpm ≤ 30
  leftSign_unit : leftSign = -1 ∨ leftSign = 1
  rightSign_unit : rightSign = -1 ∨ rightSign = 1

/-- The five live readbacks every contract must contain (`REQUIRED_CHECKS`). -/
inductive Purpose where
  | firmware
  | driveEnabled
  | velocityMode
  | controllerWatchdog
  | stopPolicy
deriving DecidableEq, Repr

def Purpose.text : Purpose → String
  | .firmware => "firmware"
  | .driveEnabled => "drive_enabled"
  | .velocityMode => "velocity_mode"
  | .controllerWatchdog => "controller_watchdog"
  | .stopPolicy => "stop_policy"

structure Check where
  purpose : Purpose
  request : Bytes
  wordIndex : Nat
  mask : Word
  equals : Word
  reviewed : ∃ address count : Word, 1 ≤ count.toNat ∧ count.toNat ≤ 8 ∧
    address.toNat + count.toNat ≤ 65536 ∧ request = withCrc (readPayload 1 address count) ∧
    wordIndex < count.toNat
  mask_nonzero : mask ≠ 0
  equals_masked : equals &&& ~~~mask = 0

def Check.matched (check : Check) (words : List Word) : Prop :=
  ∃ value, words[check.wordIndex]? = some value ∧ value &&& check.mask = check.equals

structure ManualContract where
  pi : ℚ
  profile : Profile
  transactionTimeout : ℚ
  keyTimeout : ℚ
  watchdogTimeout : ℚ
  period : ℚ
  stopTimeout : ℚ
  stationaryBound : Nat
  checks : List Check
  pi_pos : 0 < pi
  transactionTimeout_bounds : 1/100 ≤ transactionTimeout ∧ transactionTimeout ≤ 1/10
  keyTimeout_bounds : 5/100 ≤ keyTimeout ∧ keyTimeout ≤ 1/2
  watchdogTimeout_bounds : 5/100 ≤ watchdogTimeout ∧ watchdogTimeout ≤ 1/2
  period_bounds : 2/100 ≤ period ∧ period ≤ 15/100
  stopTimeout_bounds : 1/10 ≤ stopTimeout ∧ stopTimeout ≤ 1
  period_below : period < min keyTimeout watchdogTimeout
  transaction_below : transactionTimeout < watchdogTimeout
  stationaryBound_le : stationaryBound ≤ 10
  checks_required : ∀ purpose, purpose ∈ checks.map Check.purpose
  checks_length : checks.length = 5
  commandBudget_below : ((checks.map Check.request).dedup.length + 2 : ℚ) * (transactionTimeout + 2/1000)
    + period < min keyTimeout watchdogTimeout

namespace ManualContract

def reads (c : ManualContract) : List Bytes := query :: c.checks.map Check.request

def velocityRequest (c : ManualContract) (linear angular : ℚ) : Except Fault Bytes := do
  let p := c.profile
  bounded linear "linear velocity" (-p.maxLinearMS) p.maxLinearMS
  bounded angular "angular velocity" (-p.maxAngularRadS) p.maxAngularRadS
  let rpm (speed : ℚ) : ℚ := speed * 60 / (2 * c.pi * p.wheelRadiusM)
  let left := rpm (linear - angular * p.trackWidthM / 2)
  let right := rpm (linear + angular * p.trackWidthM / 2)
  if max |left| |right| > p.maxWheelRpm then
    .error (.feedback "requested wheel rpm exceeds reviewed bound")
  let leftWord := roundHalfEven (left * p.leftSign * p.rpmToRegisterScale)
  let rightWord := roundHalfEven (right * p.rightSign * p.rpmToRegisterScale)
  if ¬(-32768 ≤ leftWord ∧ leftWord ≤ 32767) ∨ ¬(-32768 ≤ rightWord ∧ rightWord ≤ 32767) then
    .error (.feedback "wheel command cannot be encoded as signed 16-bit value")
  .ok (speedWrite (.ofInt 16 leftWord) (.ofInt 16 rightWord))

def validateWrite (c : ManualContract) (request : Bytes) : Except Fault Bytes := do
  let request ← checkedFrame request
  if request.length ≠ 13 ∨ request.take 7 ≠ zeroRequest.take 7 then
    .error (.feedback "only paired FC10 velocity registers are writable")
  let p := c.profile
  let left := signed (word (request.getD 7 0) (request.getD 8 0))
  let right := signed (word (request.getD 9 0) (request.getD 10 0))
  if max |left| |right| > ⌈p.maxWheelRpm * p.rpmToRegisterScale⌉ then
    .error (.feedback "encoded speed lies above reviewed register bound")
  let speed (value sign : Int) : ℚ :=
    value / p.rpmToRegisterScale * sign * 2 * c.pi * p.wheelRadiusM / 60
  let leftSpeed := speed left p.leftSign
  let rightSpeed := speed right p.rightSign
  let quantum := 1/2 / p.rpmToRegisterScale * 2 * c.pi * p.wheelRadiusM / 60
  if |(leftSpeed + rightSpeed) / 2| > p.maxLinearMS + quantum + 1/10^12 ∨
      |(rightSpeed - leftSpeed) / p.trackWidthM| >
        p.maxAngularRadS + 2 * quantum / p.trackWidthM + 1/10^12 then
    .error (.feedback "encoded chassis motion exceeds reviewed linear/angular bound")
  .ok request

theorem velocityRequest_zero {c : ManualContract} {request : Bytes}
    (h : c.velocityRequest 0 0 = .ok request) : request = zeroRequest := by
  unfold velocityRequest at h
  dsimp only at h
  cases hl : bounded 0 "linear velocity" (-c.profile.maxLinearMS) c.profile.maxLinearMS with
  | error e => rw [hl] at h; cases h
  | ok _ =>
    cases ha : bounded 0 "angular velocity" (-c.profile.maxAngularRadS) c.profile.maxAngularRadS with
    | error e => rw [hl, ha] at h; cases h
    | ok _ =>
      rw [hl, ha] at h
      have hzero : roundHalfEven 0 = 0 := by decide +kernel
      simp only [bind, Except.bind, zero_mul, zero_div, sub_zero, add_zero, hzero] at h
      split at h
      · cases h
      · split at h
        · cases h
        · exact (Except.ok.inj h).symm

theorem validateWrite_eq_ok {c : ManualContract} {request checked : Bytes}
    (h : c.validateWrite request = .ok checked) : checked = request := by
  unfold validateWrite at h
  cases hc : checkedFrame request with
  | error e => rw [hc] at h; cases h
  | ok frame =>
    obtain rfl := checkedFrame_eq_ok hc
    rw [hc] at h
    simp only [bind, Except.bind] at h
    split at h
    · cases h
    · split at h
      · cases h
      · split at h
        · cases h
        · exact (Except.ok.inj h).symm

end ManualContract

def validateAck (request response : Bytes) : Except Fault (Option (List Word)) := do
  let response ← checkedFrame response
  if response.getD 0 0 ≠ 1 then .error (.feedback "manual response slave mismatch")
  if functionCode response = functionCode request ||| 0x80 then
    if response.length ≠ 5 then .error (.feedback "invalid Modbus exception length")
    .error (.feedback s!"manual Modbus exception {(response.getD 2 0).toNat}")
  if functionCode request = 3 then
    return some (← parseExchange request response)
  if functionCode request ≠ 0x10 ∨ response.length ≠ 8 ∨ response.take 6 ≠ request.take 6 then
    .error (.feedback "FC10 ACK does not echo exact slave/function/register/count")
  return none

theorem validateAck_echo {request response : Bytes} {words : Option (List Word)}
    (hf : functionCode request = 0x10) (h : validateAck request response = .ok words) :
    checkedFrame response = .ok response ∧ response.length = 8 ∧ response.take 6 = request.take 6 := by
  unfold validateAck at h
  cases hc : checkedFrame response with
  | error e => rw [hc] at h; cases h
  | ok frame =>
    obtain rfl := checkedFrame_eq_ok hc
    rw [hc] at h
    simp only [bind, Except.bind, hf] at h
    refine ⟨rfl, ?_⟩
    split at h
    · cases h
    · split at h
      · split at h <;> cases h
      · split at h
        · rename_i hn
          exact absurd hn (by decide)
        · split at h
          · cases h
          · rename_i he
            simp only [not_or, not_not] at he
            exact he.2

/-! ### `ManualRtuChannel`: serialized exchanges for feedback and user velocity writes. Clock, journal,
cancellation, `select`, `os.read`, `os.write` and `sleep` are answered by an environment that sees the
whole history, so it may answer every call differently. -/

open Serial

inductive Raise where
  | exception (f : Fault)
  | interrupt
deriving DecidableEq, Repr

def Raise.error : Raise → PyError
  | .exception f => .fault f
  | .interrupt => .interrupt

inductive State where
  | disarmed | armed | fault
deriving DecidableEq, Repr

inductive LastStop where
  | bestEffort (transmitted : Nat) (error : Option String)
  | zeroObserved
deriving DecidableEq, Repr

structure Session where
  state : State
  keys : Finset Key
  keyTimes : List (Key × ℚ)
  lastKeyTime : Option ℚ
  lastCommandTime : Option ℚ
  lastNow : Option ℚ
  reason : String
  closed : Bool

/-- `leaseOpen` is `lease.fd is not None`, `lockOpen` is `lease.lock is not None`. -/
structure Channel where
  leaseOpen : Bool
  lockOpen : Bool
  armed : Bool
  failed : Bool
  motionMayExist : Bool
  bestEffortAttempted : Bool
  sequence : Nat
  lastStop : Option LastStop
  feedbackSequence : Nat
  stopping : Bool
  motionDeadline : Option ℚ
  lastNonzeroWriteTime : Option ℚ

inductive Record where
  | requestPlanned (sequence : Nat) (request : Bytes)
  | transactionComplete (sequence : Nat) (request response : Bytes) (transmitted : Nat)
  | transactionFailed (sequence : Nat) (request response : Bytes) (transmitted : Nat) (error : String)
  | manualFeedback (sequence : Nat) (request response : Bytes) (words : List Word)
  | bestEffortStop (sequence : Nat) (stop : LastStop)
  | status (state : State) (reason : String) (keys : Finset Key) (motionMayExist : Bool)
      (lastStop : Option LastStop)

abbrev Machine := Serial.Machine Session Channel

/-- What happens, as the history records it. The first group are calls answered by the environment;
the second group marks places of the program and adds nothing to what it does. -/
inductive Event where
  | monotonic (now : ℚ)
  | cancelCheck (cancelled : Bool)
  | journal (record : Record)
  | selectRead
  | selectWrite
  | osRead
  | write (request : Bytes) (seen : Machine)
  | sleep
  | osClose
  | lockClose
  | operation
  | tick
  | stateSet (state : State)
  | fresh (now : ℚ)
  | acknowledged (request response : Bytes)
  | read (request : Bytes) (words : List Word)
  | feedback (left right : Int)
  | stopBegin
  | stopped (seen : Machine)
  | motionCleared
  | failure (seen : Machine)
  | recovery

abbrev History := List Event

structure Env where
  monotonic : History → ℚ
  cancelCheck : History → Bool
  journal : History → Record → Option Raise
  selectRead : History → ℚ → Except Raise Bool
  selectWrite : History → ℚ → Except Raise Bool
  osRead : History → Except Raise Bytes
  osWrite : History → Bytes → Except Raise Nat
  sleep : History → ℚ → Option Raise
  osClose : History → Option Raise
  lockClose : History → Option Raise
  /-- How many rounds of the zero-feedback loop are watched before the run is cut. -/
  patience : Nat

/-- No answer is a `BaseException` outside `Exception`. -/
structure Env.ExceptionsOnly (env : Env) : Prop where
  journal : ∀ h r, env.journal h r ≠ some .interrupt
  selectRead : ∀ h t, env.selectRead h t ≠ .error .interrupt
  selectWrite : ∀ h t, env.selectWrite h t ≠ .error .interrupt
  osRead : ∀ h, env.osRead h ≠ .error .interrupt
  osWrite : ∀ h r, env.osWrite h r ≠ .error .interrupt
  sleep : ∀ h t, env.sleep h t ≠ some .interrupt
  osClose : ∀ h, env.osClose h ≠ some .interrupt
  lockClose : ∀ h, env.lockClose h ≠ some .interrupt

abbrev World := Serial.World Session Channel Event

abbrev Act := Serial.Act Session Channel Event

section Calls
variable (env : Env)

def monotonic : Act ℚ := watch env.monotonic .monotonic
def cancelCheck : Act Bool := watch env.cancelCheck .cancelCheck

def journal (record : Record) : Act Unit :=
  call (.journal record) fun w => (env.journal w.trace record).map Raise.error

def sleep (seconds : ℚ) : Act Unit := call .sleep fun w => (env.sleep w.trace seconds).map Raise.error

def selectRead (timeout : ℚ) : Act Bool :=
  ask .selectRead fun w => (env.selectRead w.trace timeout).mapError Raise.error

def selectWrite (timeout : ℚ) : Act Bool :=
  ask .selectWrite fun w => (env.selectWrite w.trace timeout).mapError Raise.error

def osRead : Act Bytes := ask .osRead fun w => (env.osRead w.trace).mapError Raise.error

def osWrite (request : Bytes) : Act Nat := do
  let w ← .get
  ask (.write request w.machine) fun w => (env.osWrite w.trace request).mapError Raise.error

end Calls

section Transactions
variable (env : Env) (contract : ManualContract)

def requireNotCancelled : Act Unit := do
  let w ← .get
  .when (!w.channel.stopping) do
    let cancelled ← cancelCheck env
    .raiseIf cancelled (.motionRejected "operator signal/parent exit cancelled manual motion")

def requireFreshMotion : Act Unit := do
  let w ← .get
  .raiseIf w.channel.stopping (.motionRejected "nonzero commands are prohibited during stopping")
  requireNotCancelled env
  let now ← monotonic env
  note (.fresh now)
  .raiseIf (w.channel.motionDeadline.all fun deadline => deadline ≤ now)
    (.motionRejected "keyboard intent expired before serial write")
  .raiseIf (w.channel.lastNonzeroWriteTime.any fun last => contract.watchdogTimeout ≤ now - last)
    (.motionRejected "controller command gap exceeded watchdog; new arm required")

def expectedLength (request : Bytes) : Nat :=
  if functionCode request = 0x10 then 8 else 5 + 2 * (countOf request).toNat

def receiveErrors : ReceiveErrors where
  timeout := "manual response timeout"
  disconnected := "manual serial disconnected"
  overflow := "manual response overflow / overlapping traffic"

def beginMotion : Act Unit := do
  requireFreshMotion env contract  -- last check immediately before the actuator write
  channel fun c => { c with motionMayExist := true }
  let written ← monotonic env
  channel fun c => { c with lastNonzeroWriteTime := some written }

def transmit (request : Bytes) : Act Unit := do
  .when (functionCode request = 0x10 ∧ request ≠ zeroRequest) (beginMotion env contract)
  let sent ← osWrite env request
  setSent sent
  .raiseIf (sent ≠ request.length) (feedbackError "partial manual request write")

/-- The `try` block of `_exchange`. -/
def transact (request : Bytes) : Act Bytes := do
  let w ← .get
  journal env (.requestPlanned w.channel.sequence request)
  let stray ← selectRead env (2/1000)
  .when stray do
    let chunk ← osRead env
    setResponse chunk
    .raise (feedbackError "unexpected bytes; transaction association unsafe")
  let started ← monotonic env
  let deadline := started + contract.transactionTimeout
  let now ← monotonic env
  let writable ← selectWrite env (max 0 (deadline - now))
  .raiseIf (!writable) (feedbackError "manual request readiness timeout")
  transmit env contract request
  receive (monotonic env) (selectRead env) (osRead env) receiveErrors deadline
    (expectedLength request) (expectedLength request)
  let w ← .get
  let _ ← liftFault (validateAck request w.response)
  note (.acknowledged request w.response)
  journal env (.transactionComplete w.channel.sequence request w.response w.sent)
  channel fun c => { c with sequence := c.sequence + 1 }
  return w.response

/-- `failed = True`. -/
def fail : Act Unit := do
  let w ← .get
  channel fun c => { c with failed := true }
  note (.failure w.machine)

/-- The `except BaseException` block of `_exchange`. -/
def abandon (request : Bytes) (error : PyError) : Act Bytes := do
  let w ← .get
  .when (¬error.isMotionRejected ∨ w.sent ≠ 0) fail
  exceptException
    (journal env (.transactionFailed w.channel.sequence request w.response w.sent error.text))
    fun _ => return ()
  .raise error

/-- The checks `_exchange` makes before its `try` block. -/
def admission (request : Bytes) : Act Unit := do
  let w ← .get
  .raiseIf (!w.channel.leaseOpen || w.channel.failed)
    (feedbackError "manual serial channel is closed/failed")
  requireNotCancelled env
  if functionCode request = 3 then
    .raiseIf (request ∉ contract.reads)
      (feedbackError "read outside reviewed state/feedback allowlist")
  else
    let _ ← liftFault (contract.validateWrite request)
    .raiseIf (!w.channel.armed) (feedbackError "user arming is required before any velocity write")

def exchange (request : Bytes) : Act Bytes := do
  admission env contract request
  setResponse []
  setSent 0
  (transact env contract request).handle (abandon env request)

def read (request : Bytes) : Act (List Word) := do
  let response ← exchange env contract request
  let words ← liftFault (parseExchange request response)
  requireNotCancelled env
  let w ← .get
  .when (request = query) do
    journal env (.manualFeedback w.channel.feedbackSequence request response words)
    channel fun c => { c with feedbackSequence := c.feedbackSequence + 1 }
  note (.read request words)
  return words

def velocity (linear angular : ℚ) : Act Bytes := do
  let request ← liftFault (contract.velocityRequest linear angular)
  exchange env contract request

/-- The zero transmission of `best_effort_zero`, inside its `try`. -/
def transmitZero : Act Unit := do
  let w ← .get
  .raiseIf (!w.channel.leaseOpen) (feedbackError "serial already closed")
  let writable ← selectWrite env contract.transactionTimeout
  .raiseIf (!writable) (feedbackError "stop write readiness timeout")
  let sent ← osWrite env zeroRequest
  setSent sent
  .raiseIf (sent ≠ zeroRequest.length) (feedbackError "partial best-effort zero write")

def bestEffortZero : Act Unit := do
  let w ← .get
  .when (w.channel.motionMayExist && !w.channel.bestEffortAttempted) do
    channel fun c => { c with bestEffortAttempted := true }
    note .recovery
    setSent 0
    let error ← exceptException (transmitZero env contract >>= fun _ => return none)
      fun problem => return some problem.text
    let w ← .get
    let stop := LastStop.bestEffort w.sent error
    channel fun c => { c with lastStop := some stop }
    exceptException (journal env (.bestEffortStop w.channel.sequence stop)) fun _ => return ()

end Transactions
end Smartwheel.Manual

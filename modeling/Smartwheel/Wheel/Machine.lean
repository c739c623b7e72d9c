import Mathlib.Data.Finset.Basic
import Smartwheel.Serial.World

/-! `mapping_wheel`: its request frames, the validated manual controls, and the two functions that
build a velocity frame and validate a reply. Arithmetic is exact; `pi` is the value of `math.pi`. -/
namespace Smartwheel.Wheel
open Modbus

/-- `single_write`: one FC06 register write. -/
def singleWrite (address value : Word) : Bytes :=
  withCrc ([1, 6] ++ bigEndian address ++ bigEndian value)

def releaseRequest : Bytes := singleWrite 0x200E 7

def enableRequest : Bytes := singleWrite 0x200E 8

def initializationWrites : List Bytes :=
  [singleWrite 0x200D 3, singleWrite 0x200F 0, singleWrite 0x200E 6, enableRequest]

inductive InteractionPolicy where
  | explicitPush | hybridManual
deriving DecidableEq, Repr

structure Control where
  pi : ℚ
  sessionId : String
  armAllowed : Bool
  reason : String
  interactionPolicy : InteractionPolicy
  maxLinearMS : ℚ
  maxAngularRadS : ℚ
  commandRpmToRegisterScale : ℚ
  wheelRadiusM : ℚ
  trackWidthM : ℚ
  leftSign : Int
  rightSign : Int
  timeout : ℚ
  maxLinear_bounds : 1/1000 ≤ maxLinearMS ∧ maxLinearMS ≤ 15/100
  maxAngular_bounds : 1/1000 ≤ maxAngularRadS ∧ maxAngularRadS ≤ 3/10
  scale_bounds : 1/100 ≤ commandRpmToRegisterScale ∧ commandRpmToRegisterScale ≤ 100
  timeout_bounds : 1/100 ≤ timeout ∧ timeout ≤ 8/100

namespace Control

def hybridManual (c : Control) : Bool := c.interactionPolicy = .hybridManual

/-- `target()` for the held keys: linear and angular velocity. -/
def target (c : Control) (keys : Finset Key) : ℚ × ℚ :=
  (direction (.w ∈ keys) (.s ∈ keys) * c.maxLinearMS,
    direction (.a ∈ keys) (.d ∈ keys) * c.maxAngularRadS)

def velocityRequest (c : Control) (target : ℚ × ℚ) : Except Fault Bytes := do
  let (linear, angular) := target
  bounded linear "linear target" (-c.maxLinearMS) c.maxLinearMS
  bounded angular "angular target" (-c.maxAngularRadS) c.maxAngularRadS
  let rpm (velocity : ℚ) : ℚ := velocity * 60 / (2 * c.pi * c.wheelRadiusM)
  let left := rpm (linear - angular * c.trackWidthM / 2)
  let right := rpm (linear + angular * c.trackWidthM / 2)
  if max |left| |right| > 30 then
    .error (.feedback "manual wheel rpm exceeds 30 rpm bound")
  let leftWord := roundHalfEven (left * c.leftSign * c.commandRpmToRegisterScale)
  let rightWord := roundHalfEven (right * c.rightSign * c.commandRpmToRegisterScale)
  if max |leftWord| |rightWord| > 32767 then
    .error (.feedback "manual speed register overflow")
  .ok (speedWrite (.ofInt 16 leftWord) (.ofInt 16 rightWord))

theorem velocityRequest_eq_ok {c : Control} {target : ℚ × ℚ} {request : Bytes}
    (h : c.velocityRequest target = .ok request) : ∃ left right, request = speedWrite left right := by
  unfold velocityRequest at h
  dsimp only at h
  cases hl : bounded target.1 "linear target" (-c.maxLinearMS) c.maxLinearMS with
  | error e => rw [hl] at h; cases h
  | ok _ =>
    cases ha : bounded target.2 "angular target" (-c.maxAngularRadS) c.maxAngularRadS with
    | error e => rw [hl, ha] at h; cases h
    | ok _ =>
      rw [hl, ha] at h
      simp only [bind, Except.bind] at h
      split at h
      · cases h
      · split at h
        · cases h
        · exact ⟨_, _, (Except.ok.inj h).symm⟩

end Control

def validateResponse (request response : Bytes) : Except Fault Bytes := do
  let response ← checkedFrame response
  if request = query then
    let _ ← parseExchange request response
    return response
  else if request ∈ initializationWrites ∨ request = releaseRequest then
    if response ≠ request then
      .error (.feedback "FC06 ACK must echo the exact reviewed register/value")
    return response
  else if (request.drop 1).take 6 = (zeroRequest.drop 1).take 6 then
    if response.length ≠ 8 ∨ response.take 6 ≠ request.take 6 then
      .error (.feedback "FC10 ACK must echo exact slave/function/register/count")
    return response
  else .error (.feedback "unreviewed request")

/-- The frames `exchange` accepts besides the query. -/
def writable (request : Bytes) : Prop :=
  request ∈ initializationWrites ∨ request = releaseRequest ∨
    (request.length = 13 ∧ request.take 7 = zeroRequest.take 7)

instance (request : Bytes) : Decidable (writable request) :=
  inferInstanceAs (Decidable (_ ∨ _ ∨ _))

def moves (request : Bytes) : Bool :=
  request = enableRequest ∨ functionCode request = 0x10 ∧ request ≠ zeroRequest

/-! ### The state of `MappingWheel` and `WheelChannel`, what their histories record, and the calls that the
environment answers. The environment sees the whole history, so it may answer every call differently;
it also decides which socket events each `pump` serves. -/

open Serial

inductive State where
  | disarmed | ready | initializing | armed | fault
deriving DecidableEq, Repr

structure LastStop where
  acknowledged : Bool
  stationaryFeedbackObserved : Bool
  servoReleased : Bool
  bestEffort : Option (Nat × Option String)
deriving DecidableEq, Repr

/-- `samples` holds the newest three readings, newest first. -/
structure Session where
  state : State
  reason : String
  failure : Option String
  keys : Finset Key
  sequence : Nat
  lastKeySequence : Int
  armGeneration : Nat
  lastKeys : Option ℚ
  lastFeedback : Option ℚ
  lastClock : Option ℚ
  samples : List (ℚ × List Word)
  peerConnected : Bool
  initializedByUser : Bool
  initStep : Nat
  nextInit : ℚ
  nextFeedback : ℚ
  nextCommand : ℚ
  stopRequested : Bool
  stopDeadline : Option ℚ
  stopZeroSamples : Nat
  pushMode : Bool
  pushModeRequested : Bool
  foreground : Bool
  lastUiHeartbeat : Option ℚ
  hybridReleaseInhibited : Bool
  servoReleaseAcknowledged : Bool
  publishedFeedbackCount : Nat
  publicationFailures : Nat
  closed : Bool
  closing : Bool

/-- `failed` is also the `failed` of the lease; the lease stays open while the wheel lives. -/
structure Channel where
  failed : Bool
  controlTransmissions : Nat
  controlAttempts : Nat
  controlBytes : Nat
  motionMayExist : Bool
  recoveryAttempted : Bool
  lastStop : Option LastStop

abbrev Machine := Serial.Machine Session Channel

inductive Record where
  | wheelIoPlanned (request : Bytes) (control : Bool) (transmissions : Nat)
  | wheelIoComplete (request response : Bytes) (transmitted transmissions : Nat)
  | wheelIoFailed (request response : Bytes) (transmitted : Nat) (control : Bool) (error : String)
      (transmissions attempts : Nat)
  | bestEffortZero (stop : LastStop)
  | requestPlanned (sequence : Nat)
  | transactionComplete (sequence : Nat) (response : Bytes) (words : List Word) (state : State)
      (transmissions attempts : Nat)
  | historyPreview
  | manualFault (reason : String)
  | userHandPushRequested (enabled : Bool) (generation : Nat)
  | handPushReleaseAcknowledged
  | userMotionRequested

inductive Purpose where
  | query
  | initialization
  | velocity (target : ℚ × ℚ)
  | stop
  | release
  | recovery
deriving DecidableEq

inductive PacketKind where
  | disarm | close | arm | pushMode | keys | unknown
deriving DecidableEq, Repr

/-- A JSON packet. A field that is missing or of another type is `none`; so is a key that is none of
`w`, `a`, `s`, `d`. -/
structure Packet where
  sessionId : Option String
  kind : PacketKind
  sequence : Option Int
  armGeneration : Option Int
  enabled : Option Bool
  foreground : Option Bool
  keys : Option (List (Option Key))
deriving DecidableEq, Repr

/-- What happens, as the history records it. The first group are calls answered by the environment;
the second group marks places of the program and adds nothing to what it does. -/
inductive Event where
  | clock (now : ℚ)
  | cancelled (answer : Bool)
  | journal (record : Record)
  | checkHealth
  | selectRead
  | selectWrite
  | osRead
  | write (purpose : Purpose) (request : Bytes) (seen : Machine)
  | sent (request : Bytes) (count : Nat)
  | preview
  | publish
  | pump
  | pumped
  | acknowledged (request : Bytes)
  | disarmed (reason : String) (normal : Bool) (generation : Nat) (faulted : Bool)
  | attended (holding : Bool)
  | refreshed (now : ℚ) (packet : Packet)
  | pushPacket (enabled : Bool) (generation : Nat)
  | pushRequested (generation : Nat)
  | deadlineSet (acknowledged : Bool)
  | sampled (now : ℚ) (words : List Word)
  | stopTaken
  | stopDone
  | failure
  | recovery
  | stepBegin (seen : Machine)

abbrev History := List Event

/-- What `pump` serves: a client said hello, a client is gone, a packet, input that is rejected, or an
error that `pump` does not catch. -/
inductive SocketEvent where
  | connect
  | drop
  | packet (p : Packet)
  | reject (message : String)
  | crash (message : String)
deriving DecidableEq, Repr

structure Env where
  clock : History → ℚ
  cancelled : History → Bool
  journal : History → Record → Option Fault
  checkHealth : History → Option Fault
  selectRead : History → ℚ → Except Fault Bool
  selectWrite : History → ℚ → Except Fault Bool
  osRead : History → Except Fault Bytes
  osWrite : History → (request : Bytes) → Except Fault (Fin (request.length + 1))
  preview : History → Option Fault
  publish : History → Option Fault
  pump : History → List SocketEvent

abbrev World := Serial.World Session Channel Event

abbrev Act := Serial.Act Session Channel Event

section Calls
variable (env : Env)

def clock : Act ℚ := watch env.clock .clock
def cancelled : Act Bool := watch env.cancelled .cancelled

def journal (record : Record) : Act Unit :=
  call (.journal record) fun w => (env.journal w.trace record).map .fault

/-- `_log(record, required=False)`. -/
def journalQuietly (record : Record) : Act Unit :=
  exceptException (journal env record) fun _ => return ()

def checkHealth : Act Unit := call .checkHealth fun w => (env.checkHealth w.trace).map .fault

def selectRead (timeout : ℚ) : Act Bool :=
  ask .selectRead fun w => (env.selectRead w.trace timeout).mapError .fault

def selectWrite (timeout : ℚ) : Act Bool :=
  ask .selectWrite fun w => (env.selectWrite w.trace timeout).mapError .fault

def osRead : Act Bytes := ask .osRead fun w => (env.osRead w.trace).mapError .fault

/-- `os.write`; how many bytes went out is recorded. -/
def osWrite (purpose : Purpose) (request : Bytes) : Act Nat := do
  let w ← .get
  let count ← ask (.write purpose request w.machine) fun w =>
    (env.osWrite w.trace request).mapError .fault
  note (.sent request count)
  return count

def preview : Act Unit := call .preview fun w => (env.preview w.trace).map .fault
def publish : Act Unit := call .publish fun w => (env.publish w.trace).map .fault

end Calls
end Smartwheel.Wheel

import Smartwheel.Wheel.Machine

/-! `WheelChannel`: one exchange at a time, each control write behind a guard of its caller, and one
zero transmission after a failure. -/
namespace Smartwheel.Wheel
open Modbus Serial

/-- `failed = True`. -/
def fail : Act Unit := do
  channel fun c => { c with failed := true }
  note .failure

def attempted (request : Bytes) (c : Channel) : Channel :=
  { c with
    controlAttempts := c.controlAttempts + 1
    motionMayExist := c.motionMayExist || moves request }

def transmitted (sent : Nat) (c : Channel) : Channel :=
  if sent = 0 then c
  else { c with controlTransmissions := c.controlTransmissions + 1, controlBytes := c.controlBytes + sent }

def receiveErrors : ReceiveErrors where
  timeout := "wheel response timeout; no retry"
  disconnected := "wheel serial disconnected; no reconnect"
  overflow := "wheel RTU overlapping response"

section
variable (env : Env) (control : Control)

def transmit (request : Bytes) (purpose : Purpose) : Act Unit := do
  .when (request ≠ query) (channel (attempted request))
  let sent ← osWrite env purpose request
  setSent sent
  .when (request ≠ query) (channel (transmitted sent))
  .raiseIf (sent ≠ request.length) (feedbackError "partial wheel transmission; no retry")

/-- The `try` block of `exchange`. -/
def transact (request : Bytes) (purpose : Purpose) (guard : Act Unit) : Act Bytes := do
  let w ← .get
  journal env (.wheelIoPlanned request (request ≠ query) w.channel.controlTransmissions)
  let stray ← selectRead env (2/1000)
  .when stray do
    let chunk ← osRead env
    setResponse chunk
    .raise (feedbackError "unsolicited RTU bytes; no flush or retry")
  let started ← clock env
  let deadline := started + control.timeout
  let now ← clock env
  let ready ← selectWrite env (max 0 (deadline - now))
  .raiseIf (!ready) (feedbackError "wheel write readiness timeout")
  guard  -- after potentially blocking reads, immediately before the write
  transmit env request purpose
  let expected := if request = query then 9 else 8
  receive (clock env) (selectRead env) (osRead env) receiveErrors deadline expected expected
  let w ← .get
  let result ← liftFault (validateResponse request w.response)
  note (.acknowledged request)
  journal env (.wheelIoComplete request result w.sent w.channel.controlTransmissions)
  return result

/-- The `except BaseException` block of `exchange`. -/
def abandon (request : Bytes) (error : PyError) : Act Bytes := do
  let w ← .get
  .when (¬error.isCancelled ∨ w.sent ≠ 0) fail
  journalQuietly env (.wheelIoFailed request w.response w.sent (request ≠ query) error.text
    w.channel.controlTransmissions w.channel.controlAttempts)
  if error.isCancelled ∨ ¬error.isException then .raise error else .raise (feedbackError error.text)

def exchange (request : Bytes) (purpose : Purpose) (guard : Act Unit) : Act Bytes := do
  let _ ← liftFault (checkedFrame request)
  .raiseIf (request ≠ query ∧ ¬writable request) (feedbackError
    "wheel write outside FC06 initialization/release / FC10 paired-speed allowlist")
  let w ← .get
  .raiseIf w.channel.failed (feedbackError "closed or failed wheel channel")
  liftFault (bounded control.timeout "wheel transaction timeout" (1/100) (2/10))
  setResponse []
  setSent 0
  (transact env control request purpose guard).handle (abandon env request)

/-- The zero transmission of `best_effort_zero`, inside its `try`. -/
def transmitZero : Act Unit := do
  let ready ← selectWrite env (5/100)
  .raiseIf (!ready) (feedbackError "no writable wheel descriptor for bounded zero")
  channel fun c => { c with controlAttempts := c.controlAttempts + 1 }
  let sent ← osWrite env .recovery zeroRequest
  setSent sent
  channel (transmitted sent)
  .raiseIf (sent ≠ zeroRequest.length) (feedbackError "partial best-effort zero transmission")

def bestEffortZero : Act Unit := do
  let w ← .get
  .when (w.channel.motionMayExist && !w.channel.recoveryAttempted) do
    channel fun c => { c with recoveryAttempted := true }
    note .recovery
    setSent 0
    let error ← exceptException (transmitZero env >>= fun _ => return none)
      fun problem => return some problem.text
    let w ← .get
    let stop : LastStop := { acknowledged := false, stationaryFeedbackObserved := false,
                             servoReleased := false, bestEffort := some (w.sent, error) }
    channel fun c => { c with lastStop := some stop }
    journalQuietly env (.bestEffortZero stop)

end
end Smartwheel.Wheel

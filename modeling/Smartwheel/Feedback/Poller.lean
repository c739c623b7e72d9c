import Smartwheel.Effect.Guarantee
import Smartwheel.Modbus.Frame

/-! `FeedbackPoller.sample` over `FeedbackSerialLease.exchange`: one FC03 query and its reply between two journal
records. Clock, journal, `select`, `os.read` and `os.write` are answered by an environment that sees the whole
history. -/
namespace Smartwheel.Feedback
open Modbus Effect

/-- A `QueryFailure` with what was received and transmitted, or another error. -/
inductive Failure where
  | query (message : String) (response : Bytes) (transmitted : Nat)
  | error (e : PyError)
deriving DecidableEq, Repr

def Failure.text : Failure → String
  | .query message _ _ => message
  | .error e => e.text

def Failure.isException : Failure → Bool
  | .query .. => true
  | .error e => e.isException

inductive Record where
  | requestPlanned (sequence : Nat)
  | transactionComplete (sequence : Nat) (response : Bytes) (words : List Word) (transmitted : Nat)
  | transactionFailed (sequence : Nat) (error : String) (response : Bytes) (transmitted : Option Nat)
deriving DecidableEq, Repr

/-- What happens, as the history records it. A journal call that raises may still have left its record; a write
is recorded with the sequence of its sample and the bytes that were transmitted. -/
inductive Event where
  | checkHealth (raised : Bool)
  | journal (record : Record) (landed raised : Bool)
  | monotonic (now : ℚ)
  | selectRead (readable : Bool)
  | selectWrite (writable : Bool)
  | osRead (chunk : Bytes)
  | write (sequence : Nat) (bytes : Bytes)
  | osError
deriving DecidableEq, Repr

abbrev History := List Event

structure Env where
  checkHealth : History → Option PyError
  journal : History → Record → Except (Bool × PyError) Unit
  monotonic : History → ℚ
  selectRead : History → ℚ → Except PyError Bool
  selectWrite : History → ℚ → Except PyError Bool
  osRead : History → Except PyError Bytes
  osWrite : History → Except PyError (Fin (query.length + 1))

/-- The timeout of a configuration that `validate_config` has accepted. -/
structure PollConfig where
  timeout : ℚ
  valid : bounded timeout "transaction timeout" (1/100) (1/2) = .ok ()

structure World where
  sequence : Nat
  failed : Bool
  leaseOpen : Bool
  leaseFailed : Bool
  exchangeStarted : Bool
  taken : Bytes
  response : Bytes
  sent : Nat
  trace : History

abbrev Act (α : Type) := Program World Failure α

def World.log (w : World) (e : Event) : World := { w with trace := e :: w.trace }

def note (e : Event) : Act Unit := .modify fun w => w.log e

def ask {α : Type} (answer : History → Except PyError α) (e : α → Event) : Act α := do
  let w ← .get
  match answer w.trace with
  | .ok a =>
    note (e a)
    return a
  | .error error =>
    note .osError
    .raise (.error error)

def liftFault {α : Type} : Except Fault α → Act α
  | .ok a => return a
  | .error f => .raise (.error (.fault f))

def setResponse (response : Bytes) : Act Unit := .modify fun w => { w with response }

section
variable (env : Env) (c : PollConfig)

def checkJournal : Act Unit := do
  let w ← .get
  match env.checkHealth w.trace with
  | none => note (.checkHealth false)
  | some error =>
    note (.checkHealth true)
    .raise (.error error)

def journal (record : Record) : Act Unit := do
  let w ← .get
  match env.journal w.trace record with
  | .ok _ => note (.journal record true false)
  | .error (landed, error) =>
    note (.journal record landed true)
    .raise (.error error)

def monotonic : Act ℚ := do
  let w ← .get
  note (.monotonic (env.monotonic w.trace))
  return env.monotonic w.trace

def selectRead (timeout : ℚ) : Act Bool := ask (fun h => env.selectRead h timeout) .selectRead

def selectWrite (timeout : ℚ) : Act Bool := ask (fun h => env.selectWrite h timeout) .selectWrite

/-- `os.read(fd, 256)`. -/
def osRead : Act Bytes := ask (fun h => (env.osRead h).map (·.take 256)) .osRead

/-- `os.write(fd, QUERY)`. -/
def osWrite : Act Unit := do
  let w ← .get
  let sent ← ask env.osWrite fun sent => .write w.sequence (query.take sent)
  .modify fun w => { w with sent := sent }

def expectedOf (response : Bytes) : Nat := if 2 ≤ response.length ∧ functionCode response = 0x83 then 5 else 9

def receive (deadline : ℚ) : Nat → Nat → Act Unit
  | 0, _ => return ()
  | rounds + 1, expected => do
    let w ← .get
    .when (w.response.length < expected) do
      let now ← monotonic env
      .raiseIf (deadline - now ≤ 0) (.query "response timeout; no retry" w.response w.sent)
      let readable ← selectRead env (deadline - now)
      .raiseIf (!readable) (.query "response timeout; no retry" w.response w.sent)
      let chunk ← osRead env
      .raiseIf (chunk = []) (.query "serial disconnected; no reconnect" w.response w.sent)
      let response := w.response ++ chunk
      setResponse response
      let expected := if 2 ≤ response.length ∧ functionCode response = 0x83 then 5 else expected
      .raiseIf (expected < response.length) (.query "response overflow / overlapping traffic" response w.sent)
      receive deadline rounds expected

/-- The body of `exchange`. -/
def transact (timeout : ℚ) : Act Bytes := do
  let readable ← selectRead env (2/1000)
  .when readable do
    let chunk ← osRead env
    setResponse chunk
    .raise (.query "unsolicited bytes before query" chunk 0)
  let start ← monotonic env
  let now ← monotonic env
  let writable ← selectWrite env (max 0 (start + timeout - now))
  .raiseIf (!writable) (.query "request write readiness timeout" [] 0)
  osWrite env
  let w ← .get
  .raiseIf (w.sent ≠ query.length) (.query "partial FC03 transmission; no retry" w.response w.sent)
  receive env (start + timeout) 9 9
  let w ← .get
  let _ ← liftFault (parseExchange query w.response)
  return w.response

/-- The handler of `exchange`. -/
def failLease (failure : Failure) : Act Bytes := do
  .modify fun w => { w with leaseFailed := true }
  let w ← .get
  match failure with
  | .query .. => .raise failure
  | .error e => if e.isException then .raise (.query e.text w.response w.sent) else .raise failure

def exchange (request : Bytes) (timeout : ℚ) : Act Bytes := do
  let w ← .get
  .raiseIf (!w.leaseOpen ∨ w.leaseFailed ∨ request ≠ query)
    (.query "closed/failed lease or non-allowlisted request" [] 0)
  liftFault (bounded timeout "transaction timeout" (1/100) (1/2))
  .modify fun w => { w with response := [], sent := 0 }
  (transact env timeout).handle failLease

/-- The body of `sample`. -/
def attempt (sequence : Nat) : Act Record := do
  checkJournal env
  journal env (.requestPlanned sequence)
  checkJournal env
  .modify fun w => { w with exchangeStarted := true }
  let response ← exchange env query c.timeout
  .modify fun w => { w with taken := response }
  let words ← liftFault (parseExchange query response)
  let record := Record.transactionComplete sequence response words query.length
  checkJournal env
  journal env record
  checkJournal env
  .modify fun w => { w with sequence := w.sequence + 1 }
  return record

def failedRecord (w : World) : Failure → Record
  | .query message response transmitted => .transactionFailed w.sequence message response (some transmitted)
  | .error e => .transactionFailed w.sequence e.text w.taken
      (if w.taken ≠ [] then some query.length else if w.exchangeStarted then none else some 0)

/-- The handler of `sample`: the original failure is raised, unless the report is interrupted. -/
def failSample (failure : Failure) : Act Record := do
  .modify fun w => { w with failed := true }
  let w ← .get
  Program.handle
    (do
      checkJournal env
      journal env (failedRecord w failure))
    fun e => if e.isException then return () else .raise e
  .raise failure

def sample : Act Record := do
  let w ← .get
  .raiseIf w.failed (.error (feedbackError "failed stream may not retry; start a reviewed new session"))
  .modify fun w => { w with exchangeStarted := false, taken := [] }
  (attempt env c w.sequence).handle (failSample env)

end

def World.initial (leaseOpen : Bool) : World where
  sequence := 0
  failed := false
  leaseOpen := leaseOpen
  leaseFailed := false
  exchangeStarted := false
  taken := []
  response := []
  sent := 0
  trace := []

inductive PollStep (c : PollConfig) : World → World → Prop
  | sample {w : World} (env : Env) : PollStep c w (sample env c w).2
  | lease {w : World} (leaseOpen : Bool) : PollStep c w { w with leaseOpen }

end Smartwheel.Feedback

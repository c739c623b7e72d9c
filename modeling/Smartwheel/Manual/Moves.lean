import Smartwheel.Manual.Session

/-! What one step of a manual session can do: every state change and every recorded event, with the
guard under which the code makes it. All invariants are derived from these steps. -/
namespace Smartwheel.Manual
open Modbus Effect Effect.Program Serial

namespace Event

def quiet : Event → Bool
  | .write .. | .operation | .tick | .stateSet _ | .fresh _ | .feedback .. => false
  | .stopBegin | .stopped _ | .motionCleared | .failure _ | .recovery => false
  | _ => true

def plain : Event → Bool
  | .operation | .tick | .stateSet _ | .feedback .. | .stopBegin | .stopped _ | .motionCleared => false
  | .failure _ | .recovery => false
  | _ => true

def guarded : Event → Bool
  | .write .. | .stateSet _ | .stopped _ | .motionCleared | .failure _ | .recovery => true
  | _ => false

def boundary : Event → Bool
  | .operation | .tick | .stateSet _ => true
  | _ => false

def isFeedback : Event → Bool
  | .feedback .. => true
  | _ => false

def isWrite : Event → Bool
  | .write .. => true
  | _ => false

def isRecovery : Event → Bool
  | .recovery => true
  | _ => false

theorem plain_of_quiet {e : Event} (h : e.quiet = true) : e.plain = true := by
  cases e <;> first | rfl | cases h

theorem guarded_of_quiet {e : Event} (h : e.quiet = true) : e.guarded = false := by
  cases e <;> first | rfl | cases h

theorem boundary_of_plain {e : Event} (h : e.plain = true) : e.boundary = false := by
  cases e <;> first | rfl | cases h

end Event

/-- The clock value of the latest `require_fresh_motion`. -/
def lastFresh : History → Option ℚ
  | [] => none
  | .fresh now :: _ => some now
  | _ :: h => lastFresh h

def withinSpeed (contract : ManualContract) (reading : Int × Int) : Prop :=
  ((max |reading.1| |reading.2| : Int) : ℚ) ≤
    contract.profile.maxWheelRpm / contract.profile.registerToFeedbackRpm

structure DriveReady (contract : ManualContract) (h : History) : Prop where
  feedback : ∃ left right, Event.read query [left, right] ∈ since Event.boundary h ∧
    withinSpeed contract (signed left, signed right)
  checks : ∀ check ∈ contract.checks, ∃ words,
    Event.read check.request words ∈ since Event.boundary h ∧ check.matched words

structure MotionGuard (contract : ManualContract) (request : Bytes) (seen : Machine) (earlier : History) :
    Prop where
  valid : contract.validateWrite request = .ok request
  state : seen.session.state = .armed
  armed : seen.channel.armed = true
  sound : seen.channel.failed = false
  running : seen.channel.stopping = false
  held : seen.session.keys = heldKeys seen.session.keyTimes
  fresh : ∃ now stamp, lastFresh earlier = some now ∧ oldest seen.session.keyTimes = some stamp ∧
    now < stamp + contract.keyTimeout
  ready : DriveReady contract earlier

def readings (h : History) : List (Int × Int) :=
  h.filterMap fun e => match e with
    | .feedback left right => some (left, right)
    | _ => none

structure ZeroEcho (response : Bytes) : Prop where
  checked : checkedFrame response = .ok response
  length : response.length = 8
  echo : response.take 6 = zeroRequest.take 6

/-- The zero frame was acknowledged, the newest three readings since are within the stationary
bound, and after them a matching reply was read for every required state check. -/
def Stilled (contract : ManualContract) (h : History) : Prop :=
  ∃ after before response, h = after ++ .acknowledged zeroRequest response :: before ∧
    ZeroEcho response ∧
    3 ≤ (readings after).length ∧ (∀ reading ∈ (readings after).take 3, withinBound contract reading) ∧
    ∀ check ∈ contract.checks, ∃ words,
      Event.read check.request words ∈ since Event.isFeedback after ∧ check.matched words

/-- Events inside one `stop`. -/
def Event.insideStop : Event → Bool
  | .operation | .tick | .stopBegin | .stopped _ | .motionCleared => false
  | _ => true

/-- The history ends inside a `stop` during which the chair was found still. -/
def StoppedStill (contract : ManualContract) (h : History) : Prop :=
  ∃ during before, h = during ++ .stopBegin :: before ∧ (∀ e ∈ during, e.insideStop = true) ∧
    Stilled contract during

abbrev Steady := Serial.Steady (S := Session) (C := Channel) Event.quiet

structure Kept (w w' : World) : Prop where
  session : w'.session = w.session
  failed : w'.channel.failed = w.channel.failed

structure Held (w w' : World) : Prop where
  kept : Kept w w'
  trace : Grew Event.plain w w'

theorem Kept.refl (w : World) : Kept w w := ⟨rfl, rfl⟩

theorem Kept.trans {a b c : World} (hab : Kept a b) (hbc : Kept b c) : Kept a c :=
  ⟨hbc.session.trans hab.session, hbc.failed.trans hab.failed⟩

theorem Kept.log {w w' : World} (h : Kept w w') (e : Event) : Kept w (w'.log e) := ⟨h.session, h.failed⟩

theorem Kept.of_steady {w w' : World} (h : Steady w w') : Kept w w' :=
  ⟨h.session, congrArg Channel.failed h.channel⟩

theorem Held.of_steady {w w' : World} (h : Steady w w') : Held w w' :=
  ⟨.of_steady h, h.trace.mono fun _ => Event.plain_of_quiet⟩

theorem Held.refl (w : World) : Held w w := ⟨.refl w, .refl _ w⟩

theorem Held.log {w w' : World} {e : Event} (h : Held w w') (he : e.plain = true) : Held w (w'.log e) :=
  ⟨h.kept.log e, h.trace.trans (.log he)⟩

theorem Held.trans {a b c : World} (hab : Held a b) (hbc : Held b c) : Held a c :=
  ⟨hab.kept.trans hbc.kept, hab.trace.trans hbc.trace⟩

def World.toState (w : World) (s : State) : World :=
  (w.onSession fun x => { x with state := s }).log (.stateSet s)

/-- `stop` begins with this state. -/
def World.enterStop (w : World) (s : State) : World :=
  (w.toState s).onChannel fun c => { c with stopping := true }

def World.toFailed (w : World) : World :=
  (w.onChannel fun c => { c with failed := true }).log (.failure w.machine)

/-- One step of a manual session. `calm` says that the environment raises `Exception`s only. -/
inductive Move (contract : ManualContract) (calm : Prop) : World → World → Prop
  | observe {w w' : World} (es : History) (hs : w'.session = w.session) (hc : w'.channel = w.channel)
      (ht : w'.trace = es ++ w.trace) (he : ∀ e ∈ es, e.guarded = false) : Move contract calm w w'
  | keep {w : World} (f : Session → Session) (hs : (f w.session).state = w.session.state) :
      Move contract calm w (w.onSession f)
  | book {w : World} (f : Channel → Channel) (hm : (f w.channel).motionMayExist = w.channel.motionMayExist)
      (hf : (f w.channel).failed = w.channel.failed)
      (ha : (f w.channel).bestEffortAttempted = w.channel.bestEffortAttempted)
      (hp : (f w.channel).stopping = w.channel.stopping) : Move contract calm w (w.onChannel f)
  | motion {w : World} (hs : w.session.state = .armed) (hf : w.channel.failed = false) :
      Move contract calm w (w.onChannel fun c => { c with motionMayExist := true })
  | write {w : World} (request : Bytes) (hf : w.channel.failed = false)
      (hg : functionCode request = 0x10 → request ≠ zeroRequest →
        MotionGuard contract request w.machine w.trace) :
      Move contract calm w (w.log (.write request w.machine))
  | fail {w : World} : Move contract calm w w.toFailed
  | attempt {w : World} (hf : w.channel.failed = true) (ha : w.channel.bestEffortAttempted = false) :
      Move contract calm w ((w.onChannel fun c => { c with bestEffortAttempted := true }).log .recovery)
  | recover {w : World} (hf : w.channel.failed = true) (ha : w.channel.bestEffortAttempted = true)
      (hn : ∀ e ∈ since Event.isRecovery w.trace, e.isWrite = false) :
      Move contract calm w (w.log (.write zeroRequest w.machine))
  | state {w : World} (s : State) (hs : s = .fault ∨ s = .armed ∧ w.session.state = .disarmed) :
      Move contract calm w (w.toState s)
  | beginStop {w : World} (s : State) (hs : w.session.state = .fault → s = .fault) (hs' : s ≠ .armed) :
      Move contract calm w (w.enterStop s)
  | conclude {w : World} (h : calm → w.channel.motionMayExist = true → w.session.state = .fault) :
      Move contract calm w (w.onChannel fun c =>
        { c with armed := false, motionDeadline := none, stopping := false })
  | clear {w : World} (hf : w.channel.failed = false) (h : StoppedStill contract w.trace) :
      Move contract calm w ((w.onChannel fun c => { c with
        motionMayExist := false, lastNonzeroWriteTime := none, lastStop := some .zeroObserved }).log
          .motionCleared)
  | stopped {w : World} (h : w.channel.failed = true → w.channel.motionMayExist = true →
      w.session.state = .fault) : Move contract calm w (w.log (.stopped w.machine))

/-- What manual programs do: steps as above; a finished program leaves `stopping` off when it found
it off. -/
def guarantee (env : Env) (contract : ManualContract) : Guarantee World where
  step := Move contract env.ExceptionsOnly
  whole w w' := w'.channel.stopping = true → w.channel.stopping = true
  cuts := True
  whole_refl _ h := h
  whole_trans hab hbc h := hab (hbc h)

instance (env : Env) (contract : ManualContract) : Watching (guarantee env contract) Event.quiet where
  steady h := by
    obtain ⟨es, ht, hes⟩ := h.trace
    refine ⟨.single (.observe es h.session h.channel ht fun e he => Event.guarded_of_quiet (hes e he)), ?_⟩
    intro hs
    rwa [h.channel] at hs

def Raised (env : Env) (e : PyError) (_ : World) : Prop := env.ExceptionsOnly → e.isException = true

/-- Nothing is raised while the environment raises `Exception`s only. -/
def Interrupted (env : Env) (_ : PyError) (_ : World) : Prop := ¬env.ExceptionsOnly

/-- The specification every function of the session has. -/
abbrev Does (env : Env) (contract : ManualContract) {α : Type} (x : Act α) (F : α → World → Prop)
    (w : World) : Prop := x.Goes (guarantee env contract) F (Raised env) w

end Smartwheel.Manual

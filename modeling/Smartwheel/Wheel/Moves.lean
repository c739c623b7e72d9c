import Smartwheel.Wheel.Step

/-! What one step of a mapping wheel can do: every state change and every recorded event, with the
guard under which the code makes it. All invariants are derived from these steps. -/
namespace Smartwheel.Wheel
open Modbus Effect Effect.Program Serial

namespace Event

/-- Environment calls and the end of a `pump`. -/
def quiet : Event → Bool
  | .clock _ | .cancelled _ | .journal _ | .checkHealth | .selectRead | .selectWrite | .osRead => true
  | .preview | .publish | .pump | .pumped => true
  | _ => false

/-- Events inside or outside a `_stop`. -/
def within : Event → Bool
  | .stopTaken | .stopDone => false
  | _ => true

def isSent : Event → Bool
  | .sent .. => true
  | _ => false

/-- Events that neither count sent bytes nor begin or end a `_stop`. -/
def plain (e : Event) : Bool := e.within && !e.isSent

def isReading : Event → Bool
  | .clock _ | .cancelled false => true
  | _ => false

def isWrite : Event → Bool
  | .write .. => true
  | _ => false

def isMoving : Event → Bool
  | .write _ request _ => moves request
  | _ => false

def isRecovery : Event → Bool
  | .recovery => true
  | _ => false

theorem plain_of_quiet {e : Event} (h : e.quiet = true) : e.plain = true := by
  cases e <;> first | rfl | cases h

theorem within_of_plain {e : Event} (h : e.plain = true) : e.within = true := by
  simp [plain] at h
  exact h.1

theorem quiet_of_reading {e : Event} (h : e.isReading = true) : e.quiet = true := by
  cases e <;> first | rfl | simp [isReading] at h

theorem isWrite_of_quiet {e : Event} (h : e.quiet = true) : e.isWrite = false := by
  cases e <;> first | rfl | cases h

theorem isMoving_of_quiet {e : Event} (h : e.quiet = true) : e.isMoving = false := by
  cases e <;> first | rfl | cases h

end Event

/-- The latest frame handed to `os.write`. -/
def lastWrite : History → Option Bytes
  | [] => none
  | .write _ request _ :: _ => some request
  | _ :: h => lastWrite h

def zeroAcked : History → Bool
  | [] => false
  | .write _ request _ :: h => !moves request && zeroAcked h
  | .acknowledged request :: h => request = zeroRequest ∧ lastWrite h = some zeroRequest ∨ zeroAcked h
  | _ :: h => zeroAcked h

/-- A `_stop` has taken its request and is not done. -/
def stopPending : History → Bool
  | [] => false
  | .stopTaken :: _ => true
  | .stopDone :: _ => false
  | _ :: h => stopPending h

def Stopped (w : World) : Prop :=
  zeroAcked w.trace = true ∨ w.channel.failed = true ∧ w.channel.recoveryAttempted = true

instance (w : World) : Decidable (Stopped w) := inferInstanceAs (Decidable (_ ∨ _))

def Tangled (seen : Machine) : Prop :=
  seen.session.stopRequested = true ∧ seen.channel.motionMayExist = true ∧
    (seen.session.state = .initializing ∨ seen.session.state = .armed)

instance (seen : Machine) : Decidable (Tangled seen) := inferInstanceAs (Decidable (_ ∧ _))

def Settled (w : World) : Prop :=
  w.channel.failed = true ∨ ∀ request count, Event.sent request count ∈ w.trace → count = request.length

structure Idle (s : Session) : Prop where
  keys : s.keys = ∅
  initializing : s.state ≠ .initializing
  armed : s.state ≠ .armed

def Session.core (s : Session) : Session :=
  { s with
    reason := ""
    sequence := 0
    lastKeySequence := 0
    lastClock := none
    initializedByUser := false
    initStep := 0
    nextInit := 0
    nextFeedback := 0
    nextCommand := 0
    pushMode := false
    servoReleaseAcknowledged := false
    publishedFeedbackCount := 0
    publicationFailures := 0 }

/-- `recent` is what happened since the socket was pumped: readings of the clock and of the
cancellation flag, which was off. -/
structure Pumped (recent earlier : History) : Prop where
  trace : ∃ before, earlier = recent ++ .pumped :: before
  readings : ∀ e ∈ recent, e.isReading = true
  asked : Event.cancelled false ∈ recent

structure Foreground (s : Session) (recent : History) : Prop where
  foreground : s.foreground = true
  heartbeat : ∃ heartbeat now, s.lastUiHeartbeat = some heartbeat ∧ Event.clock now ∈ recent ∧
    0 ≤ now - heartbeat ∧ now - heartbeat < quarter

/-- What `_guard` has found. -/
structure Intended (control : Control) (s : Session) (recent : History) : Prop where
  connected : s.peerConnected = true
  allowed : control.armAllowed = true
  target : control.target s.keys ≠ (0, 0)
  fresh : ∃ now last seen, Event.clock now ∈ recent ∧ s.lastKeys = some last ∧ now - last < quarter ∧
    s.lastFeedback = some seen ∧ now - seen ≤ quarter
  foreground : control.hybridManual = true → Foreground s recent
  running : s.stopRequested = false

def Stationary (samples : List (ℚ × List Word)) (recent : History) : Prop :=
  ∀ sample ∈ samples, sample.2 = [0, 0] ∧
    ∃ now, Event.clock now ∈ recent ∧ 0 ≤ now - sample.1 ∧ now - sample.1 ≤ quarter

/-- What the guard of `_release` has found. -/
structure Releasable (control : Control) (s : Session) (recent : History) : Prop where
  connected : s.peerConnected = true
  allowed : control.armAllowed = true
  target : control.target s.keys = (0, 0)
  requested : s.pushModeRequested = true
  state : s.state ≠ .fault
  deadline : s.stopDeadline ≠ none
  counted : 3 ≤ s.stopZeroSamples
  window : s.samples.length = 3
  stationary : Stationary s.samples recent
  free : control.hybridManual = true → s.hybridReleaseInhibited = false ∧ Foreground s recent

def Guarded (control : Control) (purpose : Purpose) (request : Bytes) (w : World) : Prop :=
  match purpose with
  | .query => request = query
  | .initialization =>
    (request ∈ initializationWrites ∨ request = zeroRequest) ∧ w.session.state = .initializing ∧
      ∃ recent, Pumped recent w.trace ∧ Intended control w.session recent
  | .velocity target =>
    control.velocityRequest target = .ok request ∧ w.session.state = .armed ∧
      control.target w.session.keys = target ∧
      ∃ recent, Pumped recent w.trace ∧ Intended control w.session recent
  | .stop =>
    request = zeroRequest ∧ (w.channel.motionMayExist = true ∨ w.session.pushModeRequested = true)
  | .release =>
    request = releaseRequest ∧ ∃ recent, Pumped recent w.trace ∧ Releasable control w.session recent
  | .recovery => False

/-- A `keys` packet of the current generation that is being accepted. -/
structure Accepted (control : Control) (p : Packet) (keys : Finset Key) (s : Session) : Prop where
  allowed : control.armAllowed = true
  state : s.state ≠ .fault
  closed : s.closed = false
  closing : s.closing = false
  generation : p.armGeneration = some (s.armGeneration : Int)
  carried : ∃ last sequence, p.keyRequest last = some (sequence, keys)
  quietly : keys ≠ ∅ → s.pushModeRequested = false
  free : keys ≠ ∅ → control.hybridManual = true → s.hybridReleaseInhibited = false

/-- `ALL_KEYS_RELEASED` is said only where keys or a motion state were held, or by a fault. -/
def Released (s : Session) : Prop :=
  s.keys ≠ ∅ ∨ s.state = .initializing ∨ s.state = .armed ∨ s.state = .fault ∨
    s.failure = some "ALL_KEYS_RELEASED"

abbrev Steady := Serial.Steady (S := Session) (C := Channel) Event.quiet

def World.toFailed (w : World) : World := (w.onChannel fun c => { c with failed := true }).log .failure

inductive Move (control : Control) : World → World → Prop
  | observe {w w' : World} (hs : Steady w w') : Move control w w'
  | keep {w : World} (f : Session → Session) (h : (f w.session).core = w.session.core) :
      Move control w (w.onSession f)
  | book {w : World} (f : Channel → Channel) (hf : (f w.channel).failed = w.channel.failed)
      (hm : (f w.channel).motionMayExist = w.channel.motionMayExist)
      (ha : (f w.channel).recoveryAttempted = w.channel.recoveryAttempted) :
      Move control w (w.onChannel f)
  | connect {w : World} : Move control w (w.onSession fun s => { s with
      peerConnected := true, lastKeySequence := 0, foreground := false, lastUiHeartbeat := none })
  | leave {w : World} : Move control w (w.onSession fun s => { s with peerConnected := false })
  | disarm {w : World} (reason : String) (normal : Bool)
      (h : normal = true → reason = "ALL_KEYS_RELEASED" ∧ control.hybridManual = true ∧
        w.session.foreground = true ∧ Released w.session) :
      Move control w ((w.onSession (disarmed control reason normal w.channel.motionMayExist)).log
        (.disarmed reason normal (w.session.armGeneration + 1) (w.session.state = .fault)))
  | attend {w : World} (keys : Finset Key) (now : ℚ) (ha : control.armAllowed = true) :
      Move control w ((w.onSession (attended keys now)).log (.attended (keys ≠ ∅)))
  | hold {w : World} (p : Packet) (keys : Finset Key) (now : ℚ) (h : Accepted control p keys w.session)
      (ht : control.target keys ≠ (0, 0)) :
      Move control w ((w.onSession (held keys now)).log (.refreshed now p))
  | oppose {w : World} (p : Packet) (keys : Finset Key) (now : ℚ) (h : Accepted control p keys w.session)
      (hk : keys ≠ ∅) (ht : control.target keys = (0, 0)) :
      Move control w ((w.onSession (opposed keys now w.channel.motionMayExist)).log (.refreshed now p))
  | clear {w : World} (hk : w.session.keys = ∅) :
      Move control w (w.onSession fun s => { s with keys := ∅, lastKeys := none })
  | push {w : World} (enabled : Bool) (ha : control.armAllowed = true) (hi : Idle w.session) :
      Move control w ((w.onSession (pushed enabled)).log (.pushPacket enabled w.session.armGeneration))
  | wait {w : World} (ha : control.armAllowed = true) (hi : Idle w.session) :
      Move control w ((w.onSession (waiting w.channel.motionMayExist)).log
        (.pushRequested w.session.armGeneration))
  | watch {w : World} (now : ℚ) (hm : w.channel.motionMayExist = false)
      (hz : w.session.stopZeroSamples = 0) (hi : Idle w.session) :
      Move control w ((w.onSession fun s => { s with stopDeadline := some now }).log (.deadlineSet false))
  | sample {w : World} (now : ℚ) (words : List Word) :
      Move control w ((w.onSession (sampled now words)).log (.sampled now words))
  | takeStop {w : World} :
      Move control w ((w.onSession fun s => { s with stopRequested := false }).log .stopTaken)
  | zeroed {w : World} (now : ℚ) (hz : zeroAcked w.trace = true)
      (ht : w.session.state = .initializing ∨ w.session.state = .armed →
        w.session.pushModeRequested = true ∨ ∃ seen, Event.stepBegin seen ∈ w.trace ∧ Tangled seen) :
      Move control w ((w.onSession fun s => { s with stopDeadline := some now, stopZeroSamples := 0 }).log
        (.deadlineSet true))
  | stopDone {w : World} (h : w.channel.motionMayExist = true → w.session.stopDeadline ≠ none ∨ Stopped w) :
      Move control w (w.log .stopDone)
  | release {w : World} : Move control w (w.onSession (released control))
  | rest {w : World} (f : Channel → Channel) (hf : (f w.channel).failed = w.channel.failed)
      (hm : (f w.channel).motionMayExist = false)
      (ha : (f w.channel).recoveryAttempted = w.channel.recoveryAttempted) :
      Move control w (w.onChannel f)
  | start {w : World} (now : ℚ) (hs : w.session.state = .ready)
      (ht : control.target w.session.keys ≠ (0, 0)) : Move control w (w.onSession (started now))
  | initialized {w : World} (hs : w.session.state = .initializing) :
      Move control w (w.onSession initialized)
  | drop {w : World} : Move control w (w.onSession fun s =>
      { s with keys := ∅, stopRequested := w.channel.motionMayExist })
  | attempt {w : World} (purpose : Purpose) (request : Bytes) (hg : Guarded control purpose request w) :
      Move control w (w.onChannel (attempted request))
  | write {w : World} (purpose : Purpose) (request : Bytes) (hf : w.channel.failed = false)
      (hg : Guarded control purpose request w) :
      Move control w (w.log (.write purpose request w.machine))
  | sent {w : World} (request : Bytes) (count : Nat) (hw : lastWrite w.trace = some request)
      (hc : count ≤ request.length)
      (hs : w.channel.failed = false ∧ Settled w ∨
        w.channel.failed = true ∧ w.channel.motionMayExist = true) :
      Move control w (w.log (.sent request count))
  | acknowledge {w : World} (request : Bytes) : Move control w (w.log (.acknowledged request))
  | fail {w : World} : Move control w w.toFailed
  | attemptRecovery {w : World} (hf : w.channel.failed = true) (hm : w.channel.motionMayExist = true)
      (ha : w.channel.recoveryAttempted = false) :
      Move control w ((w.onChannel fun c => { c with recoveryAttempted := true }).log .recovery)
  | recover {w : World} (hf : w.channel.failed = true) (hm : w.channel.motionMayExist = true)
      (ha : w.channel.recoveryAttempted = true)
      (hn : ∀ e ∈ since Event.isRecovery w.trace, e.isWrite = false) :
      Move control w (w.log (.write .recovery zeroRequest w.machine))
  | fault {w : World} (reason : String) : Move control w (w.onSession (faulted reason))
  | closing {w : World} : Move control w (w.onSession fun s => { s with closing := true })
  | close {w : World} (hi : Idle w.session)
      (h : w.channel.motionMayExist = true → w.session.stopDeadline ≠ none ∨ Stopped w) :
      Move control w (w.onSession fun s => { s with closed := true })
  | stepBegin {w : World} : Move control w (w.log (.stepBegin w.machine))

theorem settled_grew {w w' : World} (hc : w'.channel = w.channel)
    (ht : Grew Event.plain w w') (hs : Settled w) : Settled w' := by
  obtain ⟨es, ht, hes⟩ := ht
  rcases hs with hs | hs
  · exact .inl (by rw [hc]; exact hs)
  · refine .inr fun request count hm => hs request count ?_
    rw [ht] at hm
    rcases List.mem_append.mp hm with hm | hm
    · cases hes _ hm
    · exact hm

theorem stopPending_append {es h : History} (hes : ∀ e ∈ es, e.within = true) :
    stopPending (es ++ h) = stopPending h := by
  induction es with
  | nil => rfl
  | cons e es ih =>
    have he : e.within = true := hes e (by simp)
    have ht : ∀ e ∈ es, e.within = true := fun x hx => hes x (List.mem_cons_of_mem e hx)
    rw [List.cons_append, ← ih ht]
    cases e <;> first | rfl | cases he

/-- What a program may leave behind: a settled channel stays settled, and no `_stop` stays pending. -/
structure Whole (w w' : World) : Prop where
  settled : Settled w → Settled w'
  pending : stopPending w'.trace = true → stopPending w.trace = true

def guarantee (control : Control) : Guarantee World where
  step := Move control
  whole := Whole
  cuts := False
  whole_refl _ := ⟨id, id⟩
  whole_trans hab hbc := ⟨hbc.settled ∘ hab.settled, hab.pending ∘ hbc.pending⟩

theorem Whole.grew {w w' : World} (hc : w'.channel = w.channel) (ht : Grew Event.plain w w') :
    Whole w w' := by
  refine ⟨settled_grew hc ht, ?_⟩
  obtain ⟨es, ht, hes⟩ := ht
  rw [ht, stopPending_append fun e he => Event.within_of_plain (hes e he)]
  exact id

def inner (control : Control) : Guarantee World where
  step := Move control
  whole w w' := stopPending w'.trace = true → stopPending w.trace = true
  cuts := False
  whole_refl _ := id
  whole_trans hab hbc := hab ∘ hbc

def intents (control : Control) : Guarantee World where
  step := Move control
  whole w w' := Whole w w' ∧ w'.channel = w.channel
  cuts := False
  whole_refl _ := ⟨⟨id, id⟩, rfl⟩
  whole_trans hab hbc := ⟨⟨hbc.1.settled ∘ hab.1.settled, hab.1.pending ∘ hbc.1.pending⟩, hbc.2.trans hab.2⟩

/-- The guarantee allows every step that leaves the channel alone, outside and inside a `_stop`. -/
class Serves (G : Guarantee World) (control : outParam Control) : Prop where
  move : ∀ {w w'}, Move control w w' → w'.channel = w.channel → Grew Event.plain w w' →
    Path G.step w w' ∧ G.whole w w'

instance (control : Control) : Serves (guarantee control) control where
  move h hc ht := ⟨.single h, .grew hc ht⟩

instance (control : Control) : Serves (inner control) control where
  move h hc ht := ⟨.single h, (Whole.grew hc ht).pending⟩

instance (control : Control) : Serves (intents control) control where
  move h hc ht := ⟨.single h, .grew hc ht, hc⟩

instance {G : Guarantee World} {control : Control} [Serves G control] : Watching G Event.quiet where
  steady h := Serves.move (.observe h) h.channel (h.trace.mono fun _ => Event.plain_of_quiet)

def Raised (e : PyError) (_ : World) : Prop :=
  e.isException = true ∧ e ≠ .cancelled "ALL_KEYS_RELEASED"

/-- The specification every function of the wheel has. -/
abbrev Does (control : Control) {α : Type} (x : Act α) (F : α → World → Prop) (w : World) : Prop :=
  x.Goes (guarantee control) F Raised w

end Smartwheel.Wheel

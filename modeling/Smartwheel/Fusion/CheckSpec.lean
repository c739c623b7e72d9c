import Smartwheel.Effect.Guarantee
import Smartwheel.Fusion.Dual

/-! What one step of `DualFusion` can do, with the guard under which the code does it. -/
namespace Smartwheel.Fusion
open Effect Effect.Program

structure Tracked (s s' : State) : Prop where
  queues : s'.queues = s.queues
  counts : s'.counts = s.counts
  latchedReason : s'.latchedReason = s.latchedReason
  bundleCounter : s'.bundleCounter = s.bundleCounter

namespace Tracked
variable {a b d : State}

theorem refl (s : State) : Tracked s s := ⟨rfl, rfl, rfl, rfl⟩

theorem trans (hab : Tracked a b) (hbd : Tracked b d) : Tracked a d :=
  ⟨hbd.queues.trans hab.queues, hbd.counts.trans hab.counts,
    hbd.latchedReason.trans hab.latchedReason, hbd.bundleCounter.trans hab.bundleCounter⟩

theorem latched (h : Tracked a b) : b.latched = a.latched := by rw [State.latched, h.latchedReason]; rfl

end Tracked

/-- `_check` accepts the frame on `side`, with the result `x`. -/
def Accepts (c : Config) (s : State) (frame : Frame) (now : Int) (side : Side) (x : Checked) : Prop :=
  ∃ head seq, header c frame now = .ok head ∧ head.side = side ∧
    (∀ epoch, s.epochs side = some epoch → epoch = head.epoch) ∧
    frame.frameSequence = .ok seq ∧ 0 ≤ seq ∧
    (∀ high, s.sequenceStampHighwater (side, head.epoch) = some high → high.1 < seq → high.2 < head.stamp) ∧
    rawKey c side head.epoch seq ∉ s.seen ∧ ¬s.tooOld c.policy (side, head.epoch) seq ∧
    measured c frame head seq (rawKey c side head.epoch seq) = .ok x

def near (c : Config) (f g : Checked) : Bool := |f.commonTimeNs - g.commonTimeNs| ≤ c.policy.maxPairNs

/-- The frame `x` was enqueued on `side` by the push that is under way, which began in `s` after `earlier`. -/
def Arrived (c : Config) (side : Side) (x : Checked) (s : State) (earlier log : List Event) : Prop :=
  ∃ frame now after, log = after ++ .enqueued side x :: .pushed frame now s :: earlier ∧
    Accepts c s frame now side x ∧ ∀ e ∈ after, ∀ b l r now seen, e ≠ .emitted b l r now seen

def Matched (c : Config) (l r : Checked) (log : List Event) : Prop :=
  ∃ side x y s earlier, Arrived c side x s earlier log ∧ (s.queues side.other).find? (near c x) = some y ∧
    (side = .left ∧ l = x ∧ r = y ∨ side = .right ∧ l = y ∧ r = x)

def Current (s : State) : Prop := ∀ side, ∀ f ∈ s.queues side, s.epochs side = some f.streamEpoch

/-- The heads `l` and `r` may be fused. -/
structure Fusible (c : Config) (history : History) (now : Int) (l r : Checked) (b : Bundle) (w : World) :
    Prop where
  left : ∃ rest, w.state.queues .left = l :: rest
  right : ∃ rest, w.state.queues .right = r :: rest
  near : near c l r = true
  age : now - min l.hostMonotonicNs r.hostMonotonicNs ≤ c.policy.maxAgeNs
  bundle : bundleOf c history l r (w.state.bundleCounter + 1) = .ok b
  current : Current w.state
  live : w.state.latched = false
  matched : Matched c l r w.log

/-- `latch` has been called. -/
def World.latch (w : World) (reason : String) : World :=
  let s := counted reason (emptied { w.state with latchedReason := some reason })
  { state := s, log := .cleared s.counts :: w.log }

/-- The state after `resume`. -/
def resumed (s : State) : State :=
  { emptied s with
    latchedReason := none
    lastSeenMonotonicNs := fun _ => none
    startedMonotonicNs := none
    lastBundleMonotonicNs := none }

def World.emit (w : World) (b : Bundle) (l r : Checked) (now : Int) : World :=
  let s := popped .right (popped .left w.state)
  { state := fused s, log := .emitted b l r now s :: w.log }

inductive Move (c : Config) : World → World → Prop
  | track {w : World} (f : State → State) (h : Tracked w.state (f w.state)) : Move c w (w.onState f)
  | duplicate {w : World} : Move c w (w.onState (counted "DUPLICATE_OR_TOO_OLD_FRAME"))
  | push {w : World} (frame : Frame) (now : Int) (h : w.state.latched = false) :
      Move c w (w.note (.pushed frame now w.state))
  | enqueue {w : World} (side : Side) (x : Checked) (frame : Frame) (now : Int) (s : State)
      (earlier : List Event) (hl : w.log = .pushed frame now s :: earlier)
      (ha : Accepts c s frame now side x) (hq : w.state.queues = s.queues) :
      Move c w ((w.onState (inserted side x)).note (.enqueued side x))
  | overflow {w : World} (side : Side) (f : Checked) (rest : List Checked)
      (hq : w.state.queues side = f :: rest) :
      Move c w ((w.onState fun s => counted "QUEUE_OVERFLOW" (popped side s)).note (.overflowed side f))
  | drop {w : World} (side : Side) (f g : Checked) (fs gs : List Checked)
      (hf : w.state.queues side = f :: fs) (hg : w.state.queues side.other = g :: gs)
      (h : f.commonTimeNs + c.policy.maxPairNs < g.commonTimeNs) : Move c w (dropped side f w)
  | emit {w : World} (history : History) (now : Int) (l r : Checked) (b : Bundle)
      (h : Fusible c history now l r b w) : Move c w (w.emit b l r now)
  | latch {w : World} (reason : String) : Move c w (w.latch reason)
  | resume {w : World} :
      Move c w { state := resumed w.state, log := .cleared w.state.counts :: w.log }

structure Ready (c : Config) (s : State) : Prop where
  apart : s.queues .left = [] ∨ s.queues .right = []
  bounded : ∀ side, (s.queues side).length ≤ c.policy.maxQueue
  current : Current s
  empty : s.latched = true → ∀ side, s.queues side = []

def guarantee (c : Config) : Guarantee World where
  step := Move c
  whole _ _ := True
  cuts := False
  whole_refl _ := trivial
  whole_trans _ _ := trivial

/-- The specification every function of the fusion has. -/
abbrev Does (c : Config) {α : Type} (x : Act α) (F : α → World → Prop) (E : Failure → World → Prop)
    (w : World) : Prop := x.Goes (guarantee c) F E w

section
variable {c : Config} {w : World}

theorem Ready.of_empty {s : State} (h : ∀ side, s.queues side = []) : Ready c s where
  apart := .inl (h .left)
  bounded side := by rw [h side]; exact Nat.zero_le _
  current side f hf := by rw [h side] at hf; cases hf
  empty _ := h

variable {E : Failure → World → Prop}

theorem does_value {α : Type} {w' : World} {x : Act α} {a : α} {F : α → World → Prop} (hx : x w = (.value a, w'))
    (h : Move c w w') (hF : F a w') :
    Does c x F E w := by
  show Path _ _ (x w).2 ∧ Ends _ _ F E (x w).1 (x w).2
  rw [hx]
  exact ⟨.single h, trivial, hF⟩

theorem does_raised {α : Type} {w' : World} {x : Act α} {e : Failure} {F : α → World → Prop} (hx : x w = (.raised e, w'))
    (h : Move c w w') (hE : E e w') :
    Does c x F E w := by
  show Path _ _ (x w).2 ∧ Ends _ _ F E (x w).1 (x w).2
  rw [hx]
  exact ⟨.single h, trivial, hE⟩

theorem change_does {f : State → State} {F : Unit → World → Prop}
    (h : Tracked w.state (f w.state)) (hF : F () (w.onState f)) : Does c (change f) F E w :=
  .modify (.single (.track f h)) trivial hF

theorem lift_does {α : Type} {x : Except Failure α} {F : α → World → Prop}
    (hv : ∀ a, x = .ok a → F a w) (he : ∀ e, x = .error e → E e w) : Does c (lift x) F E w := by
  cases x with
  | ok a => exact .pure (hv a rfl)
  | error e => exact .raise (he e rfl)

theorem latch_does (reason : String) {F : Unit → World → Prop}
    (hF : F () (w.latch reason)) : Does c (latch reason) F E w := does_value rfl (.latch reason) hF

end

/-! ### What `_check` does: it keeps the queues, and what it accepts is described by `Accepts`. -/

variable {c : Config} {w : World}

structure Quiet (w w' : World) : Prop where
  tracked : Tracked w.state w'.state
  log : w'.log = w.log

theorem Quiet.refl (w : World) : Quiet w w := ⟨.refl _, rfl⟩

theorem Quiet.trans {a b d : World} (hab : Quiet a b) (hbd : Quiet b d) : Quiet a d :=
  ⟨hab.tracked.trans hbd.tracked, hbd.log.trans hab.log⟩

def Continues (s s' : State) : Prop := ∀ side epoch, s.epochs side = some epoch → s'.epochs side = some epoch

theorem Continues.of_eq {s s' : State} (h : s'.epochs = s.epochs) : Continues s s' :=
  fun side epoch known => by rw [h]; exact known

theorem Current.keep {s s' : State} (hc : Current s) (hq : s'.queues = s.queues) (he : Continues s s') :
    Current s' := by
  intro side f hf
  rw [hq] at hf
  exact he side _ (hc side f hf)

theorem Ready.keep {s s' : State} (hr : Ready c s) (ht : Tracked s s') (he : Continues s s') : Ready c s' where
  apart := by rw [ht.queues]; exact hr.apart
  bounded := by rw [ht.queues]; exact hr.bounded
  current := hr.current.keep ht.queues he
  empty latched := by
    rw [ht.queues]
    exact hr.empty (ht.latched.symm.trans latched)

/-- The stream checks: what `enroll` has found for the head of a frame. -/
structure Enrolled (c : Config) (s : State) (frame : Frame) (head : Head) (seq : Int) (key : String) :
    Prop where
  epoch : ∀ epoch, s.epochs head.side = some epoch → epoch = head.epoch
  sequence : frame.frameSequence = .ok seq
  nonneg : 0 ≤ seq
  time : ∀ high, s.sequenceStampHighwater (head.side, head.epoch) = some high → high.1 < seq →
    high.2 < head.stamp
  named : key = rawKey c head.side head.epoch seq
  unseen : key ∉ s.seen
  young : ¬s.tooOld c.policy (head.side, head.epoch) seq

theorem integerNs_ok {field : Field Int} {n : Int} (h : integerNs field = .ok n) : field = .ok n := by
  cases field with
  | ok m => exact congrArg _ (Except.ok.inj h)
  | error u => cases u <;> cases h

theorem enroll_does (frame : Frame) (head : Head) :
    Does c (enroll c frame head)
      (fun r w' => Enrolled c w.state frame head r.1 r.2 ∧ Quiet w w' ∧ Continues w.state w'.state ∧
        w'.state.epochs head.side = some head.epoch)
      (fun e w' => Quiet w w' ∧ (e = .fusion "STREAM_EPOCH_CHANGED" ∨ Continues w.state w'.state)) w := by
  refine .get_bind ?_
  refine .bind (F := fun _ w' => Quiet w w' ∧ w'.state.epochs = Function.update w.state.epochs head.side
    (some head.epoch)) (change_does ⟨rfl, rfl, rfl, rfl⟩ ⟨⟨⟨rfl, rfl, rfl, rfl⟩, rfl⟩, rfl⟩) fun _ w1 h1 => ?_
  obtain ⟨quiet, epochs⟩ := h1
  refine .bind (F := fun _ w' => w' = w1 ∧ ∀ epoch, w.state.epochs head.side = some epoch →
    epoch = head.epoch) (.raiseIf (fun _ => ⟨quiet, .inl rfl⟩) fun same => ⟨rfl, ?_⟩) fun _ w2 h2 => ?_
  · intro epoch known
    by_contra changed
    exact same (by simp [known, changed])
  obtain ⟨rfl, same⟩ := h2
  have continues : Continues w.state w2.state := by
    intro side epoch known
    rw [epochs]
    by_cases hs : side = head.side
    · subst hs
      rw [Function.update_self, same epoch known]
    · rw [Function.update_of_ne hs]
      exact known
  have gone : ∀ e, Quiet w w2 ∧ (e = Failure.fusion "STREAM_EPOCH_CHANGED" ∨ Continues w.state w2.state) :=
    fun e => ⟨quiet, .inr continues⟩
  refine .bind (F := fun seq w' => w' = w2 ∧ frame.frameSequence = .ok seq)
    (lift_does (fun seq h => ⟨rfl, integerNs_ok h⟩) fun e _ => gone e) fun seq w3 h3 => ?_
  obtain ⟨rfl, sequence⟩ := h3
  refine .bind (F := fun _ w' => w' = w3 ∧ 0 ≤ seq)
    (.raiseIf (fun _ => gone _) fun h => ⟨rfl, by omega⟩) fun _ w4 h4 => ?_
  obtain ⟨rfl, nonneg⟩ := h4
  refine .bind (F := fun _ w' => w' = w4 ∧ ∀ high, w.state.sequenceStampHighwater (head.side, head.epoch) =
    some high → high.1 < seq → high.2 < head.stamp) (.raiseIf (fun _ => gone _) fun h => ⟨rfl, ?_⟩)
    fun _ w5 h5 => ?_
  · intro high known newer
    by_contra late
    exact h (by simp only [known, Option.any_some, decide_eq_true_eq]; exact ⟨newer, by omega⟩)
  obtain ⟨rfl, time⟩ := h5
  refine .bind (F := fun _ w' => w' = w5 ∧ rawKey c head.side head.epoch seq ∉ w.state.seen ∧
    ¬w.state.tooOld c.policy (head.side, head.epoch) seq) (.raiseIf (fun _ => gone _) fun h =>
      ⟨rfl, fun hs => h (.inl hs), fun ho => h (.inr ho)⟩) fun _ w6 h6 => ?_
  obtain ⟨rfl, unseen, young⟩ := h6
  refine .bind (F := fun _ w' => Quiet w w' ∧ w'.state.epochs = w6.state.epochs)
    (change_does ⟨rfl, rfl, rfl, rfl⟩ ⟨quiet.trans ⟨⟨rfl, rfl, rfl, rfl⟩, rfl⟩, rfl⟩) fun _ w7 h7 => ?_
  obtain ⟨quiet7, epochs7⟩ := h7
  refine .pure ⟨⟨same, sequence, nonneg, time, rfl, unseen, young⟩, quiet7, ?_, ?_⟩
  · exact fun side epoch known => by rw [epochs7]; exact continues side epoch known
  · rw [epochs7, epochs, Function.update_self]

structure Measures (c : Config) (frame : Frame) (head : Head) (seq : Int) (key : String) (x : Checked) :
    Prop where
  sensorId : x.sensorId = c.sensorIds head.side
  streamEpoch : x.streamEpoch = head.epoch
  frameSequence : x.frameSequence = seq
  rawKey : x.rawKey = key
  commonTimeNs : x.commonTimeNs = head.stamp
  hostMonotonicNs : x.hostMonotonicNs = head.host
  points : ∃ points, frame.points = .ok points ∧ x.points = (within c.policy points).map (·.1)
  enough : c.policy.minPointsPerSource ≤ x.points.length

theorem read_ok {α : Type} {field : Field α} {code : String} {a : α} (h : read field code = .ok a) :
    field = .ok a := by
  cases field with
  | ok b => exact congrArg _ (Except.ok.inj h)
  | error u => cases u <;> cases h

structure Heads (c : Config) (frame : Frame) (now : Int) (head : Head) : Prop where
  side : frame.side = some head.side
  stamp : frame.commonTimeNs = .ok head.stamp
  host : frame.hostMonotonicNs = .ok head.host
  age : 0 ≤ now - head.host ∧ now - head.host ≤ c.policy.maxAgeNs
  epoch : frame.streamEpoch = head.epoch

theorem needs_ok {α : Type} {o : Option α} {code : String} {a : α} (h : needs o code = .ok a) : o = some a := by
  cases o with
  | some b => exact congrArg _ (Except.ok.inj h)
  | none => cases h

theorem header_ok {frame : Frame} {now : Int} {head : Head} (h : header c frame now = .ok head) :
    Heads c frame now head := by
  unfold header at h
  simp only [bind_eq_ok_iff] at h
  obtain ⟨side, known, _, -, _, -, _, -, _, -, _, -, _, -, _, -, _, -, _, -, _, -, stamp, stamped, _, -, _, -,
    host, hosted, _, aged, _, -, h⟩ := h
  have young := rejectIf_ok aged
  have age : 0 ≤ now - host ∧ now - host ≤ c.policy.maxAgeNs := by omega
  obtain rfl := Except.ok.inj h
  exact ⟨needs_ok known, integerNs_ok stamped, integerNs_ok hosted, age, rfl⟩

theorem measured_ok {frame : Frame} {head : Head} {seq : Int} {key : String} {x : Checked}
    (h : measured c frame head seq key = .ok x) : Measures c frame head seq key x := by
  unfold measured at h
  simp only [bind_eq_ok_iff] at h
  obtain ⟨points, read, _, enough, _, -, original, -, _, -, h⟩ := h
  obtain rfl := Except.ok.inj h
  have enough := rejectIf_ok enough
  exact ⟨rfl, rfl, rfl, rfl, rfl, rfl, ⟨points, read_ok read, rfl⟩,
    by simpa only [List.length_map] using Nat.not_lt.mp enough⟩

theorem check_does (frame : Frame) (now : Int) :
    Does c (check c frame now)
      (fun r w' => Accepts c w.state frame now r.1 r.2 ∧ Quiet w w' ∧ Continues w.state w'.state ∧
        w'.state.epochs r.1 = some r.2.streamEpoch)
      (fun e w' => Quiet w w' ∧ (e = .fusion "STREAM_EPOCH_CHANGED" ∨ Continues w.state w'.state)) w := by
  refine .bind (F := fun head w' => w' = w ∧ header c frame now = .ok head)
    (lift_does (fun head h => ⟨rfl, h⟩) fun e _ => ⟨.refl w, .inr (.of_eq rfl)⟩) fun head w1 h1 => ?_
  obtain ⟨rfl, read⟩ := h1
  refine .bind (enroll_does frame head) fun r w2 h2 => ?_
  obtain ⟨enrolled, quiet, continues, epoch⟩ := h2
  refine .bind (F := fun x w' => w' = w2 ∧ measured c frame head r.1 r.2 = .ok x)
    (lift_does (fun x h => ⟨rfl, h⟩) fun e _ => ⟨quiet, .inr continues⟩) fun x w3 h3 => ?_
  obtain ⟨rfl, measured⟩ := h3
  have measures := measured_ok measured
  refine .pure ⟨⟨head, r.1, read, rfl, enrolled.epoch, enrolled.sequence, enrolled.nonneg, enrolled.time,
    ?_, enrolled.young, ?_⟩, quiet, continues, ?_⟩
  · exact enrolled.named ▸ enrolled.unseen
  · exact enrolled.named ▸ measured
  · exact epoch.trans (congrArg some measures.streamEpoch.symm)

end Smartwheel.Fusion

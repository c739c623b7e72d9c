import Smartwheel.Effect.Guarantee
import Smartwheel.Fusion.Dual

/-! `Gate`: joins the results of the odometry with the bundles that were submitted for it, and pauses on the
first one that does not fit. -/
namespace Smartwheel.Fusion.Gate
open Effect Effect.Program

/-- What the constructor was given; `turn` is the length of the rotation vector of a rotation. -/
structure Config where
  sessionId : String
  maxPending : Nat
  timeoutNs : Int
  maxSpeedMps : ℚ
  maxAngularRadps : ℚ
  turn : Matrix (Fin 3) (Fin 3) ℚ → ℚ
  limits_pos : 0 < maxSpeedMps ∧ 0 < maxAngularRadps

/-- A result of the odometry. `odomRig` is `none` without a pose, and `some none` for a pose that is no
4×4 array of finite numbers. -/
structure Record where
  sessionId : String
  bundleId : Nat
  stampNs : Int
  trackingValid : Bool
  odomRig : Option (Option Transform)
  actualSourceParticipation : Option (Side → Nat)
  odomEpoch : String

/-- The attributes that change. `pending` has the oldest entry first. -/
structure State where
  pending : List (Nat × Bundle × Int)
  pausedReason : Option String
  odomEpoch : Option String
  lastStampNs : Option Int
  accepted : Nat
  lastPose : Option Transform
  lastResultMonotonicNs : Option Int

/-- `bool(self.paused_reason)`. -/
def State.paused (s : State) : Bool := s.pausedReason.any (· ≠ "")

inductive Event where
  | submitted (bundle : Bundle)
  | accepted (bundle : Bundle) (record : Record)
  | paused
  | resumed

structure World where
  state : State
  log : List Event

abbrev Act := Program World Failure

def World.pause (w : World) (reason : String) : World where
  state := { w.state with pausedReason := some reason, pending := [] }
  log := .paused :: w.log

def pause (reason : String) : Act Unit := .modify fun w => w.pause reason

/-- `self.pause(reason); raise FusionError(reason)`. -/
def refuse {α : Type} (reason : String) : Act α := do
  pause reason
  .raise (.fusion reason)

def World.submit (w : World) (bundle : Bundle) (now : Int) : World where
  state := { w.state with pending := w.state.pending ++ [(bundle.bundleId, bundle, now)] }
  log := .submitted bundle :: w.log

def raisePaused : Act Unit := do
  let w ← .get
  .raiseIf w.state.paused (.fusion ("GATE_PAUSED:" ++ w.state.pausedReason.getD ""))

section
variable (c : Config)

def submit (bundle : Bundle) (now : Int) : Act Unit := do
  raisePaused
  .when (bundle.sessionId ≠ c.sessionId ∨ bundle.sensorMode ≠ "dual") (refuse "BUNDLE_SESSION_OR_MODE_MISMATCH")
  .when (bundle.sourceCounts .left = 0 ∨ bundle.sourceCounts .right = 0) (refuse "DUAL_PARTICIPATION_MISSING")
  let w ← .get
  .when ((w.state.pending.any fun p => p.1 = bundle.bundleId) ∨ c.maxPending ≤ w.state.pending.length)
    (refuse "DUPLICATE_BUNDLE_OR_BACKLOG")
  .modify fun w => w.submit bundle now

def objection (s : State) (bundle : Bundle) (received : Int) (record : Record) (now : Int) : Option String :=
  if record.sessionId ≠ c.sessionId ∨ record.stampNs ≠ bundle.tRefNs then some "ASSESSMENT_ID_TIME_MISMATCH"
  else if now - received < 0 ∨ c.timeoutNs < now - received then some "ICP_RESULT_TIMEOUT"
  else if !record.trackingValid ∨ record.odomRig.isNone then some "TRACKING_FAILED"
  else if ¬record.actualSourceParticipation.any fun p =>
      p .left = bundle.sourceCounts .left ∧ p .right = bundle.sourceCounts .right then
    some "ICP_INPUT_SOURCE_MISMATCH"
  else if s.odomEpoch.any (· ≠ record.odomEpoch) then some "ODOM_EPOCH_CHANGED"
  else if s.lastStampNs.any (record.stampNs ≤ ·) then some "ODOM_TIME_NOT_INCREASING"
  else none

/-- `ODOM_MOTION_JUMP`; with a positive time the quotients are compared as products. -/
def jumps (last pose : Transform) (elapsedNs : Int) : Prop :=
  let dt : ℚ := elapsedNs * (1/10^9)
  (c.maxSpeedMps * dt)^2 < (pose 0 3 - last 0 3)^2 + (pose 1 3 - last 1 3)^2 + (pose 2 3 - last 2 3)^2 ∨
    c.maxAngularRadps * dt < c.turn ((rotation last).transpose * rotation pose)

instance (last pose : Transform) (elapsedNs : Int) : Decidable (jumps c last pose elapsedNs) :=
  inferInstanceAs (Decidable (_ ∨ _))

def World.accept (w : World) (bundle : Bundle) (record : Record) (pose : Transform) (now : Int) : World where
  state :=
    { w.state with
      pending := w.state.pending.filter (·.1 ≠ record.bundleId)
      odomEpoch := some record.odomEpoch
      lastStampNs := some record.stampNs
      lastPose := some pose
      lastResultMonotonicNs := some now
      accepted := w.state.accepted + 1 }
  log := .accepted bundle record :: w.log

/-- `matrix(result['T_odom_rig'])`, or the gate pauses. -/
def poseOf (record : Record) : Act Transform :=
  match matrix (record.odomRig.getD none) with
  | .ok pose => return pose
  | .error e => do
    pause "INVALID_ODOM_POSE"
    .raise e

def checkMotion (s : State) (record : Record) (pose : Transform) : Act Unit :=
  match s.lastPose, s.lastStampNs with
  | some last, some stamp => .when (jumps c last pose (record.stampNs - stamp)) (refuse "ODOM_MOTION_JUMP")
  | _, _ => return ()

def assess (record : Record) (now : Int) : Act (Bundle × Transform) := do
  raisePaused
  let w ← .get
  match w.state.pending.find? fun p => p.1 = record.bundleId with
  | none => refuse "UNKNOWN_BUNDLE"
  | some (_, bundle, received) =>
    match objection c w.state bundle received record now with
    | some reason => refuse reason
    | none => do
      let pose ← poseOf record
      checkMotion c w.state record pose
      .modify fun w => w.accept bundle record pose now
      return (bundle, pose)

def expire (now : Int) : Act Bool := do
  let w ← .get
  if w.state.pending.any fun p => c.timeoutNs < now - p.2.2 then
    pause "ICP_RESULT_TIMEOUT"
    return false
  else if w.state.lastResultMonotonicNs.any fun last => c.timeoutNs < now - last then
    pause "TRACKING_STREAM_TIMEOUT"
    return false
  else return !w.state.paused

structure Resume where
  explicit : Bool
  stable : Bool
  continuityVerified : Bool
  odomEpoch : Option String

def World.resume (w : World) : World where
  state := { w.state with pending := [], pausedReason := none, lastResultMonotonicNs := none }
  log := .resumed :: w.log

def resume (request : Resume) : Act Unit := do
  let w ← .get
  .raiseIf (!request.explicit ∨ !request.stable ∨ !request.continuityVerified ∨
    request.odomEpoch ≠ w.state.odomEpoch) (.fusion "RESUME_PRECONDITIONS_UNMET")
  .modify fun w => w.resume

inductive Operation where
  | submit (bundle : Bundle) (now : Int)
  | assess (record : Record) (now : Int)
  | expire (now : Int)
  | pause (reason : String)
  | resume (request : Resume)

/-- A call; `true` when it was answered without a complaint. -/
def perform : Operation → Act Bool
  | .submit bundle now => do
    submit c bundle now
    return true
  | .assess record now => do
    let _ ← assess c record now
    return true
  | .expire now => expire c now
  | .pause reason => do
    pause reason
    return true
  | .resume request => do
    resume request
    return true

def operate (o : Operation) : Act Bool := (perform c o).handle fun _ => return false

def run : List Operation → Act Unit
  | [] => return ()
  | o :: rest => do
    let _ ← operate c o
    run rest

end

def initial : World where
  state := { pending := [], pausedReason := none, odomEpoch := none, lastStampNs := none, accepted := 0,
             lastPose := none, lastResultMonotonicNs := none }
  log := []

/-! ### What every run of the gate keeps: results are accepted in order, once, for bundles of the time since the
last pause, and a call that complains changes nothing that was accepted. -/

variable {c : Config} {w w' : World}

inductive Move (c : Config) : World → World → Prop
  | submit {w : World} (bundle : Bundle) (now : Int) (live : w.state.paused = false)
      (room : w.state.pending.length < c.maxPending) : Move c w (w.submit bundle now)
  | accept {w : World} (bundle : Bundle) (received : Int) (record : Record) (pose : Transform) (now : Int)
      (live : w.state.paused = false)
      (held : w.state.pending.find? (fun p => p.1 = record.bundleId) = some (record.bundleId, bundle, received))
      (fits : objection c w.state bundle received record now = none) :
      Move c w (w.accept bundle record pose now)
  | pause {w : World} (reason : String) : Move c w (w.pause reason)
  | resume {w : World} : Move c w w.resume

def guarantee (c : Config) : Guarantee World where
  step := Move c
  whole _ _ := True
  cuts := False
  whole_refl _ := trivial
  whole_trans _ _ := trivial

abbrev Does (c : Config) {α : Type} (x : Act α) (F : α → World → Prop) (E : Failure → World → Prop)
    (w : World) : Prop := x.Goes (guarantee c) F E w

structure Unmoved (s s' : State) : Prop where
  accepted : s'.accepted = s.accepted
  odomEpoch : s'.odomEpoch = s.odomEpoch
  lastStampNs : s'.lastStampNs = s.lastStampNs
  lastPose : s'.lastPose = s.lastPose
  lastResultMonotonicNs : s'.lastResultMonotonicNs = s.lastResultMonotonicNs

structure Complained (w w' : World) : Prop where
  unmoved : Unmoved w.state w'.state
  paused : w'.state.paused = true
  empty : w'.state.pending = []

def Quiet (s : State) : Prop := s.paused = true → s.pending = []

theorem complained_pause {reason : String} (h : reason ≠ "") (w : World) : Complained w (w.pause reason) :=
  ⟨⟨rfl, rfl, rfl, rfl, rfl⟩, by simpa [World.pause, State.paused] using h, rfl⟩

theorem complained_paused (hq : Quiet w.state) (paused : w.state.paused = true) : Complained w w :=
  ⟨⟨rfl, rfl, rfl, rfl, rfl⟩, paused, hq paused⟩

section
variable {E : Failure → World → Prop}

theorem pause_does (reason : String) {F : Unit → World → Prop} (hF : F () (w.pause reason)) :
    Does c (pause reason) F E w := .modify (.single (.pause reason)) trivial hF

theorem refuse_does {α : Type} {reason : String} (h : reason ≠ "") {F : α → World → Prop} :
    Does c (refuse reason : Act α) F (fun _ => Complained w) w :=
  .bind (F := fun _ => Complained w) (pause_does reason (complained_pause h w)) fun _ _ h => .raise h

theorem raisePaused_does (hq : Quiet w.state) :
    Does c raisePaused (fun _ w' => w' = w ∧ w.state.paused = false) (fun _ => Complained w) w :=
  .get_bind (.raiseIf (complained_paused hq) fun h => ⟨rfl, by simpa using h⟩)

theorem submit_does (hq : Quiet w.state) (bundle : Bundle) (now : Int) :
    Does c (submit c bundle now) (fun _ _ => True) (fun _ => Complained w) w := by
  refine .bind (raisePaused_does hq) fun _ w1 h1 => ?_
  obtain ⟨rfl, live⟩ := h1
  refine .bind (F := fun _ w' => w' = w1) (.when (fun _ => refuse_does (by decide)) fun _ => rfl)
    fun _ w2 h2 => ?_
  subst h2
  refine .bind (F := fun _ w' => w' = w2) (.when (fun _ => refuse_does (by decide)) fun _ => rfl)
    fun _ w3 h3 => ?_
  subst h3
  refine .get_bind (.bind (F := fun _ w' => w' = w3 ∧ w3.state.pending.length < c.maxPending)
    (.when (fun _ => refuse_does (by decide)) fun h => ⟨rfl, ?_⟩) fun _ w4 h4 => ?_)
  · exact Nat.not_le.mp fun full => h (.inr full)
  obtain ⟨rfl, room⟩ := h4
  exact .modify (.single (.submit bundle now live room)) trivial trivial

theorem objection_ne {s : State} {bundle : Bundle} {received : Int} {record : Record} {now : Int}
    {reason : String} (h : objection c s bundle received record now = some reason) : reason ≠ "" := by
  unfold objection at h
  repeat' split at h
  all_goals first | (obtain rfl := Option.some.inj h; decide) | cases h

theorem poseOf_does (record : Record) :
    Does c (poseOf record) (fun _ w' => w' = w) (fun _ => Complained w) w := by
  unfold poseOf
  split
  · exact .pure rfl
  · exact .bind (F := fun _ => Complained w) (pause_does _ (complained_pause (by decide) w))
      fun _ _ h => .raise h

theorem checkMotion_does (record : Record) (pose : Transform) :
    Does c (checkMotion c w.state record pose) (fun _ w' => w' = w) (fun _ => Complained w) w := by
  unfold checkMotion
  split
  · exact .when (fun _ => refuse_does (by decide)) fun _ => rfl
  · exact .pure rfl

theorem assess_does (hq : Quiet w.state) (record : Record) (now : Int) :
    Does c (assess c record now) (fun _ _ => True) (fun _ => Complained w) w := by
  refine .bind (raisePaused_does hq) fun _ w1 h1 => ?_
  obtain ⟨rfl, live⟩ := h1
  refine .get_bind ?_
  split
  · exact refuse_does (by decide)
  · rename_i key bundle received found
    have same : key = record.bundleId := by simpa using List.find?_some found
    subst same
    split
    · rename_i reason wrong
      exact refuse_does (objection_ne wrong)
    · rename_i fits
      refine .bind (poseOf_does record) fun pose w2 h2 => ?_
      subst h2
      refine .bind (checkMotion_does record pose) fun _ w3 h3 => ?_
      subst h3
      exact .bind (F := fun _ _ => True)
        (.modify (.single (.accept bundle received record pose now live found fits)) trivial trivial)
        fun _ _ _ => .pure trivial

/-- `expire` reports `false` exactly when the gate is paused then. -/
theorem expire_does (hq : Quiet w.state) (now : Int) :
    Does c (expire c now) (fun ok w' => ok = false → Complained w w') E w := by
  refine .get_bind (.ite (fun _ => ?_) fun _ => .ite (fun _ => ?_) fun _ => .pure fun h => ?_)
  · exact .bind (F := fun _ => Complained w) (pause_does _ (complained_pause (by decide) w))
      fun _ _ h => .pure fun _ => h
  · exact .bind (F := fun _ => Complained w) (pause_does _ (complained_pause (by decide) w))
      fun _ _ h => .pure fun _ => h
  · exact complained_paused hq (by simpa using h)

theorem resume_does (request : Resume) : Does c (resume request) (fun _ _ => True) (fun _ w' => w' = w) w :=
  .get_bind (.bind (F := fun _ w' => w' = w) (.raiseIf (fun _ => rfl) fun _ => rfl) fun _ _ h =>
    .modify (.single (h ▸ .resume)) trivial trivial)

end

def Answers (o : Operation) (w w' : World) : Prop :=
  match o with
  | .resume _ => w' = w
  | _ => Complained w w'

theorem perform_does (hq : Quiet w.state) (o : Operation) :
    Does c (perform c o) (fun ok w' => ok = false → Answers o w w') (fun _ => Answers o w) w := by
  cases o with
  | submit bundle now =>
    exact .bind (submit_does hq bundle now) fun _ _ _ => .pure fun h => (by cases h)
  | assess record now =>
    exact .bind (assess_does hq record now) fun _ _ _ => .pure fun h => (by cases h)
  | expire now => exact expire_does hq now
  | pause reason =>
    exact .bind (F := fun _ _ => True) (pause_does reason trivial) fun _ _ _ => .pure fun h => (by cases h)
  | resume request => exact .bind (resume_does request) fun _ _ _ => .pure fun h => (by cases h)

namespace Event

def isPaused : Event → Bool
  | .paused => true
  | _ => false

end Event

def records (log : List Event) : List Record :=
  log.filterMap fun e => match e with
    | .accepted _ record => some record
    | _ => none

def Submitted : Event → List Event → Prop
  | .accepted bundle record, earlier =>
    Event.submitted bundle ∈ since Event.isPaused earlier ∧ bundle.bundleId = record.bundleId ∧
      bundle.tRefNs = record.stampNs
  | _, _ => True

structure Safe (c : Config) (w : World) : Prop where
  quiet : Quiet w.state
  bounded : w.state.pending.length ≤ c.maxPending
  held : ∀ p ∈ w.state.pending, p.1 = p.2.1.bundleId ∧ Event.submitted p.2.1 ∈ since Event.isPaused w.log
  stamped : w.state.lastStampNs = ((records w.log).map (·.stampNs)).head?
  increasing : ((records w.log).map (·.stampNs)).Pairwise (· > ·)
  epoch : ∀ record ∈ records w.log, w.state.odomEpoch = some record.odomEpoch
  submitted : Always Submitted w.log

structure Fits (s : State) (bundle : Bundle) (record : Record) : Prop where
  stamp : record.stampNs = bundle.tRefNs
  epoch : ∀ epoch, s.odomEpoch = some epoch → epoch = record.odomEpoch
  later : ∀ last, s.lastStampNs = some last → last < record.stampNs

theorem fits_of_objection {s : State} {bundle : Bundle} {received : Int} {record : Record} {now : Int}
    (h : objection c s bundle received record now = none) : Fits s bundle record := by
  unfold objection at h
  split at h
  · cases h
  · rename_i identity
    split at h
    · cases h
    · split at h
      · cases h
      · split at h
        · cases h
        · split at h
          · cases h
          · rename_i epoch
            split at h
            · cases h
            · rename_i later
              refine ⟨?_, fun e he => ?_, fun last hl => ?_⟩
              · by_contra different
                exact identity (.inr different)
              · by_contra different
                exact epoch (by simp [he, different])
              · by_contra early
                exact later (by simp only [hl, Option.any_some, decide_eq_true_eq]; omega)

theorem safe_accept {bundle : Bundle} {received : Int} {record : Record} {pose : Transform} {now : Int}
    (hs : Safe c w) (live : w.state.paused = false)
    (held : w.state.pending.find? (fun p => p.1 = record.bundleId) = some (record.bundleId, bundle, received))
    (fits : objection c w.state bundle received record now = none) :
    Safe c (w.accept bundle record pose now) := by
  have fits := fits_of_objection fits
  have member := List.mem_of_find?_eq_some held
  obtain ⟨named, submitted⟩ := hs.held _ member
  have later : ∀ t ∈ (records w.log).map (·.stampNs), t < record.stampNs := by
    intro t ht
    cases hr : (records w.log).map (·.stampNs) with
    | nil => rw [hr] at ht; cases ht
    | cons last rest =>
      have newest : last < record.stampNs := fits.later last (by rw [hs.stamped, hr]; rfl)
      rw [hr] at ht
      rcases List.mem_cons.mp ht with rfl | ht
      · exact newest
      · have order : (last :: rest).Pairwise (· > ·) := hr ▸ hs.increasing
        have less := (List.pairwise_cons.mp order).1 t ht
        omega
  refine ⟨fun paused => ?_, ?_, fun p hp => ?_, rfl, ?_, fun r hr => ?_, ?_, hs.submitted⟩
  · have same : w.state.paused = true := paused
    rw [live] at same
    cases same
  · exact (List.length_filter_le _ _).trans hs.bounded
  · obtain ⟨named, submitted⟩ := hs.held p (List.mem_of_mem_filter hp)
    refine ⟨named, ?_⟩
    show _ ∈ since Event.isPaused (.accepted bundle record :: w.log)
    rw [since_cons_plain _ rfl]
    exact List.mem_cons_of_mem _ submitted
  · exact List.pairwise_cons.mpr ⟨later, hs.increasing⟩
  · have hr : r ∈ record :: records w.log := hr
    rcases List.mem_cons.mp hr with rfl | hr
    · rfl
    · have known := hs.epoch r hr
      exact congrArg some (fits.epoch _ known).symm
  · exact ⟨submitted, named.symm, fits.stamp.symm⟩

theorem safe_submit {bundle : Bundle} {now : Int} (hs : Safe c w) (live : w.state.paused = false)
    (room : w.state.pending.length < c.maxPending) : Safe c (w.submit bundle now) := by
  refine ⟨fun paused => ?_, ?_, fun p hp => ?_, hs.stamped, hs.increasing, hs.epoch, trivial, hs.submitted⟩
  · have same : w.state.paused = true := paused
    rw [live] at same
    cases same
  · show (w.state.pending ++ [(bundle.bundleId, bundle, now)]).length ≤ c.maxPending
    rw [List.length_append]
    exact room
  · have hp : p ∈ w.state.pending ++ [(bundle.bundleId, bundle, now)] := hp
    show _ ∧ _ ∈ since Event.isPaused (.submitted bundle :: w.log)
    rw [since_cons_plain _ rfl]
    rcases List.mem_append.mp hp with hp | hp
    · obtain ⟨named, submitted⟩ := hs.held p hp
      exact ⟨named, List.mem_cons_of_mem _ submitted⟩
    · rw [List.mem_singleton.mp hp]
      exact ⟨rfl, List.mem_cons_self⟩

theorem safe_step (h : Move c w w') (hs : Safe c w) : Safe c w' := by
  cases h with
  | submit bundle now live room => exact safe_submit hs live room
  | accept bundle received record pose now live held fits => exact safe_accept hs live held fits
  | pause reason =>
    exact ⟨fun _ => rfl, Nat.zero_le _, fun _ hp => (by cases hp), hs.stamped, hs.increasing, hs.epoch,
      trivial, hs.submitted⟩
  | resume =>
    exact ⟨fun _ => rfl, Nat.zero_le _, fun _ hp => (by cases hp), hs.stamped, hs.increasing, hs.epoch,
      trivial, hs.submitted⟩

theorem initial_safe (c : Config) : Safe c initial :=
  ⟨fun _ => rfl, Nat.zero_le _, fun _ hp => (by cases hp), rfl, .nil, fun _ hr => (by cases hr), trivial⟩

theorem operate_safe (hs : Safe c w) (o : Operation) {E : Failure → World → Prop} :
    Does c (operate c o) (fun _ => Safe c) E w := by
  have does : Does c (operate c o) (fun _ _ => True) E w :=
    .handle ((perform_does hs.quiet o).weaken (fun _ _ _ => trivial) fun _ _ _ => trivial)
      fun _ _ _ => .pure trivial
  exact does.along.ensures fun _ _ h => h.1.keeps (fun _ _ => safe_step) hs

theorem run_safe (ops : List Operation) : Safe c (run c ops initial).2 := by
  have does : ∀ {w}, Safe c w → Does c (run c ops) (fun _ => Safe c) (fun _ => Safe c) w := by
    induction ops with
    | nil => exact fun hs => .pure hs
    | cons o rest ih => exact fun hs => .bind (operate_safe hs o) fun _ _ h => ih h
  exact (does (initial_safe c)).path.keeps (fun _ _ => safe_step) (initial_safe c)

theorem Safe.once (hs : Safe c w) : ((records w.log).map fun r => (r.bundleId, r.stampNs)).Nodup := by
  have apart : (records w.log).Pairwise fun r r' => r.stampNs > r'.stampNs :=
    List.pairwise_map.mp hs.increasing
  refine List.pairwise_map.mpr (apart.imp fun later same => ?_)
  have equal := congrArg Prod.snd same
  simp only at equal
  omega

def defaults : Config where
  sessionId := "s"
  maxPending := 8
  timeoutNs := 500000000
  maxSpeedMps := 1/2
  maxAngularRadps := 1/2
  turn _ := 0
  limits_pos := by norm_num

end Smartwheel.Fusion.Gate

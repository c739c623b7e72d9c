import Mathlib.Algebra.Group.Basic
import Mathlib.Algebra.Order.Field.Rat
import Smartwheel.Effect.Check

/-! `TrajectoryRefiner`: frames registered against the last keyframes, or carried on by the prior. The transforms that `rigid` lets pass
are, in exact arithmetic, the elements of a group. -/
namespace Smartwheel.Trajectory
open Effect

structure Policy where
  minCorrespondences : ℕ
  keyframeTranslationM : ℚ
  keyframeRotationDeg : ℚ
  keyframeIntervalS : ℚ
  submapKeyframes : ℕ
  submapMaxAgeS : ℚ
  resetAfterRejectionS : ℚ
  resetAfterInputGapS : ℚ
  positive : 0 < minCorrespondences ∧ 0 < submapKeyframes ∧ 0 < keyframeTranslationM ∧ 0 < keyframeRotationDeg ∧ 0 < keyframeIntervalS ∧
    0 < submapMaxAgeS ∧ 0 < resetAfterRejectionS ∧ 0 < resetAfterInputGapS

def seconds (ns : ℤ) : ℚ := (ns : ℚ) / 10^9

/-! ### Registration -/

structure Registration (G : Type) where
  accepted : Bool
  /-- `T_target_source`. -/
  transform : G
  candidate : G
  rejectionReasons : List String

structure Aligner (G C : Type) where
  align : C → C → G → Registration G
  falls_back : ∀ source target initial, (align source target initial).accepted = false →
    (align source target initial).transform = initial

/-- The numerical parts of `align`. -/
structure Numerics (G C : Type) where
  prepareSource : C → C
  prepareTarget : C → C
  size : C → ℕ
  planarSupport : C → C
  /-- What is optimised over, and every fifth point, which is held out. -/
  holdOut : C → C × C
  normalSupport : C → C
  /-- The candidate of the iterations, and the reasons against it. -/
  iterate : C → C → G → G × List String
  /-- What the correction of the prior exceeds. -/
  excess : G → G → List String

section align
variable {G C : Type} (n : Numerics G C) (p : Policy)

def rejected (initial : G) (reason : String) : Registration G := ⟨false, initial, initial, [reason]⟩

def align (source target : C) (initial : G) : Registration G :=
  let source := n.planarSupport (n.prepareSource source)
  let target := n.prepareTarget target
  let (optimised, _) := n.holdOut source
  if min (n.size optimised) (n.size target) < p.minCorrespondences then rejected initial "INSUFFICIENT_FILTERED_POINTS"
  else
    let target := n.normalSupport target
    if n.size target < p.minCorrespondences then rejected initial "INSUFFICIENT_TARGET_PLANAR_SUPPORT"
    else
      let (candidate, failed) := n.iterate optimised target initial
      let reasons := failed ++ n.excess candidate initial
      ⟨reasons.isEmpty, if reasons.isEmpty then candidate else initial, candidate, reasons⟩

theorem align_falls_back {source target : C} {initial : G} (h : (align n p source target initial).accepted = false) :
    (align n p source target initial).transform = initial := by
  unfold align at h ⊢
  dsimp only at h ⊢
  split
  · rfl
  next enough =>
    rw [if_neg enough] at h
    split
    · rfl
    next supported =>
      rw [if_neg supported] at h
      dsimp only at h ⊢
      rw [h]
      rfl

def Numerics.aligner : Aligner G C := ⟨align n p, fun _ _ _ => align_falls_back n p⟩

end align

/-! ### Refinement -/

inductive Status where
  | initialReference | inputGapNewSegment | geometryRejectionNewSegment | registered | priorFallback
deriving DecidableEq

structure Result (G : Type) where
  accepted : Bool
  status : Status
  rejectionReasons : List String
  pose : G
  prior : G
  segmentId : ℕ
  segmentStart : Bool
  registration : Option (Registration G)
  stampNs : ℤ

structure Keyframe (G C : Type) where
  stamp : ℤ
  points : C
  pose : G

/-- The frame before: `last_stamp`, `last_prior`, `last_pose`, and `last_accept_stamp`. -/
structure Last (G : Type) where
  stamp : ℤ
  prior : G
  pose : G
  acceptStamp : ℤ

structure Refiner (G C : Type) where
  history : List (Keyframe G C)
  last : Option (Last G)
  segment : ℕ
  rejections : ℕ
  accepted : ℕ
  count : ℕ

def Refiner.fresh {G C : Type} : Refiner G C := ⟨[], none, 0, 0, 0, 0⟩

/-- How transforms and points are read and computed with. `R` and `S` are what comes for a transform and for points. -/
structure Geometry (G C R S : Type) where
  rigid : R → Except String G
  preprocess : S → Except String C
  transformPoints : G → C → C
  concatenate : List C → C
  distance : G → G → ℚ
  rotationDifferenceDeg : G → G → ℚ

section update
variable {G C R S : Type} [Group G] (g : Geometry G C R S) (a : Aligner G C) (p : Policy)

/-- `append` to a deque with a greatest length. -/
def push (history : List (Keyframe G C)) (k : Keyframe G C) : List (Keyframe G C) :=
  (history ++ [k]).drop (history.length + 1 - p.submapKeyframes)

def trim (stamp : ℤ) : List (Keyframe G C) → List (Keyframe G C)
  | first :: second :: rest =>
    if seconds (stamp - first.stamp) > p.submapMaxAgeS then trim stamp (second :: rest) else first :: second :: rest
  | history => history

/-- `_seed`: the history begins anew. -/
def seed (s : Refiner G C) (stamp : ℤ) (points : C) (prior pose : G) (reason : Status) : Result G × Refiner G C :=
  (⟨false, reason, [], pose, prior, s.segment, true, none, stamp⟩,
    { s with history := push p [] ⟨stamp, points, pose⟩, last := some ⟨stamp, prior, pose, stamp⟩, count := s.count + 1 })

def predicted (s : Refiner G C) (prior : G) : G :=
  match s.last with
  | none => prior
  | some l => l.pose * l.prior⁻¹ * prior

def due (k : Keyframe G C) (stamp : ℤ) (pose : G) : Prop :=
  p.keyframeTranslationM ≤ g.distance pose k.pose ∨ p.keyframeRotationDeg ≤ g.rotationDifferenceDeg pose k.pose ∨
    p.keyframeIntervalS ≤ seconds (stamp - k.stamp)

instance (k : Keyframe G C) (stamp : ℤ) (pose : G) : Decidable (due g p k stamp pose) :=
  inferInstanceAs (Decidable (_ ∨ _ ∨ _))

def register (s : Refiner G C) (l : Last G) (stamp : ℤ) (points : C) (prior : G) : Except String (Result G × Refiner G C) :=
  let predicted := predicted s prior
  let history := trim p stamp s.history
  let target := g.concatenate (history.map fun k => g.transformPoints (l.pose⁻¹ * k.pose) k.points)
  let registration := a.align points target (l.pose⁻¹ * predicted)
  let pose := l.pose * registration.transform
  let status := if registration.accepted then Status.registered else Status.priorFallback
  let result : Result G :=
    ⟨registration.accepted, status, registration.rejectionReasons, pose, prior, s.segment, false, some registration, stamp⟩
  if registration.accepted then
    match history.getLast? with
    | none => .error "deque index out of range"
    | some k =>
      .ok (result, { s with
        history := if due g p k stamp pose then push p history ⟨stamp, points, pose⟩ else history
        last := some ⟨stamp, prior, pose, stamp⟩
        accepted := s.accepted + 1
        count := s.count + 1 })
  else
    let s := { s with history := history, rejections := s.rejections + 1 }
    if seconds (stamp - l.acceptStamp) ≥ p.resetAfterRejectionS then
      let (restarted, s) := seed p { s with segment := s.segment + 1 } stamp points prior predicted .geometryRejectionNewSegment
      .ok ({ restarted with rejectionReasons := result.rejectionReasons, registration := some registration }, s)
    else .ok (result, { s with last := some ⟨stamp, prior, pose, l.acceptStamp⟩, count := s.count + 1 })

def update (s : Refiner G C) (stamp : ℤ) (points : S) (prior : R) : Except String (Result G × Refiner G C) := do
  refuse (stamp < 0 ∨ ∃ l ∈ s.last, stamp ≤ l.stamp) "strictly increasing integer nanosecond stamps required"
  let prior ← g.rigid prior
  let points ← g.preprocess points
  match s.last with
  | none => return seed p s stamp points prior (predicted s prior) .initialReference
  | some l =>
    if seconds (stamp - l.stamp) > p.resetAfterInputGapS ∨ s.history.isEmpty then
      return seed p { s with segment := s.segment + 1 } stamp points prior (predicted s prior) .inputGapNewSegment
    else register g a p s l stamp points prior

structure Frame (R S : Type) where
  stamp : ℤ
  points : S
  prior : R

def feed (run : Refiner G C × List (Result G)) (frame : Frame R S) : Refiner G C × List (Result G) :=
  match update g a p run.1 frame.stamp frame.points frame.prior with
  | .ok (result, s) => (s, run.2 ++ [result])
  | .error _ => run

def run (frames : List (Frame R S)) : Refiner G C × List (Result G) := frames.foldl (feed g a p) (.fresh, [])

end update

end Smartwheel.Trajectory

import Smartwheel.Effect.Silence
import Smartwheel.Manual.WriteGuard

/-! After a failure: at most one more write, of the zero frame, and `FAULT` for good. -/
namespace Smartwheel.Manual
open Modbus Effect

variable {contract : ManualContract} {calm : Prop} {w w' : World}

def Event.kinds : Kinds Event where
  failure e := match e with
    | .failure _ => true
    | _ => false
  recovery := Event.isRecovery
  write := Event.isWrite
  allowed e := match e with
    | .write request _ => request = zeroRequest
    | _ => false

def SilentChannel (w : World) : Prop :=
  Silent Event.kinds w.channel.failed w.channel.bestEffortAttempted w.trace

theorem silent_step (h : Move contract calm w w') (hs : SilentChannel w) : SilentChannel w' := by
  unfold SilentChannel at hs ⊢
  cases h with
  | observe es _ hc ht he =>
    rw [hc, ht]
    refine hs.append fun e hm => ?_
    have hg := he e hm
    cases e <;> first | exact ⟨rfl, rfl, rfl⟩ | cases hg
  | book f hm hf ha hp =>
    change Silent _ (f w.channel).failed (f w.channel).bestEffortAttempted _
    rw [hf, ha]
    exact hs
  | write request hf =>
    rw [hf] at hs
    change Silent _ w.channel.failed _ _
    rw [hf]
    exact hs.write rfl
  | fail => exact hs.fail rfl rfl rfl
  | attempt hf ha =>
    rw [hf, ha] at hs
    change Silent _ w.channel.failed true _
    rw [hf]
    exact hs.attempt rfl rfl rfl
  | recover hf ha hn =>
    rw [hf, ha] at hs
    change Silent _ w.channel.failed w.channel.bestEffortAttempted _
    rw [hf, ha]
    exact hs.recover rfl (by simp [Event.kinds]) rfl rfl hn
  | keep | motion | conclude => exact hs
  | state | beginStop | clear | stopped => exact hs.log rfl rfl rfl

theorem failure_known (hs : SilentChannel w) :
    w.channel.failed = true ↔ ∃ seen, Event.failure seen ∈ w.trace := by
  rw [hs.known, List.any_eq_true]
  constructor
  · rintro ⟨e, hm, he⟩
    cases e <;> first | exact ⟨_, hm⟩ | cases he
  · rintro ⟨seen, hm⟩
    exact ⟨_, hm, rfl⟩

def MotionKept (w : World) : Prop :=
  ∀ seen, Event.failure seen ∈ w.trace → w.channel.motionMayExist = seen.channel.motionMayExist

theorem motionKept_step (h : Move contract calm w w') (hs : SilentChannel w) (hm : MotionKept w) :
    MotionKept w' := by
  intro seen hin
  have unfailed : w.channel.failed = false → Event.failure seen ∉ w.trace := by
    intro hf hin
    rw [(failure_known hs).mpr ⟨seen, hin⟩] at hf
    cases hf
  cases h with
  | observe es _ hc ht he =>
    rw [ht] at hin
    rw [hc]
    rcases List.mem_append.mp hin with hin | hin
    · cases he _ hin
    · exact hm seen hin
  | book f hmotion => exact hmotion.trans (hm seen hin)
  | motion _ hf => exact absurd hin (unfailed hf)
  | clear hf =>
    rcases List.mem_cons.mp hin with hin | hin
    · cases hin
    · exact absurd hin (unfailed hf)
  | fail =>
    rcases List.mem_cons.mp hin with hin | hin
    · cases hin; rfl
    · exact hm seen hin
  | keep | conclude => exact hm seen hin
  | write | attempt | recover | state | beginStop | stopped =>
    rcases List.mem_cons.mp hin with hin | hin
    · cases hin
    · exact hm seen hin

/-- `FAULT` is never left, and a `stop` that ends after a failure with motion ends in it. -/
def FaultKept : Event → History → Prop
  | .stateSet s, h => Event.stateSet .fault ∈ h → s = .fault
  | .stopped seen, h =>
    (seen.session.state = .fault → Event.stateSet .fault ∈ h) ∧
      ∀ before, Event.failure before ∈ h → before.channel.motionMayExist = true →
        seen.session.state = .fault
  | _, _ => True

/-- The state is `FAULT` exactly when it was set so. -/
structure Settled (w : World) : Prop where
  silent : SilentChannel w
  motion : MotionKept w
  fault : w.session.state = .fault ↔ Event.stateSet .fault ∈ w.trace
  kept : Always FaultKept w.trace

theorem Settled.log {e : Event} (hs : Settled w) (he : ∀ s, e ≠ .stateSet s) :
    w.session.state = .fault ↔ Event.stateSet .fault ∈ e :: w.trace := by
  rw [List.mem_cons, or_iff_right fun h => he _ h.symm]
  exact hs.fault

theorem Settled.set {s : State} (hs : Settled w) (hk : w.session.state = .fault → s = .fault) :
    s = .fault ↔ Event.stateSet .fault ∈ Event.stateSet s :: w.trace := by
  constructor
  · rintro rfl
    simp
  · intro hm
    rcases List.mem_cons.mp hm with h | h
    · exact (Event.stateSet.inj h).symm
    · exact hk (hs.fault.mpr h)

theorem fault_step (h : Move contract calm w w') (hs : Settled w) :
    w'.session.state = .fault ↔ Event.stateSet .fault ∈ w'.trace := by
  cases h with
  | observe es hs' hc ht he =>
    rw [hs', ht, List.mem_append, or_iff_right]
    · exact hs.fault
    · exact fun hm => by simpa [Event.guarded] using he _ hm
  | keep f hf =>
    change (f w.session).state = .fault ↔ _
    rw [hf]
    exact hs.fault
  | state s hs' =>
    refine hs.set fun hf => ?_
    rcases hs' with rfl | ⟨_, hd⟩
    · rfl
    · rw [hf] at hd; cases hd
  | beginStop s hs' => exact hs.set hs'
  | book | motion | conclude => exact hs.fault
  | write | fail | attempt | recover | clear | stopped => exact hs.log (by simp)

theorem kept_step (h : Move contract calm w w') (hs : Settled w) : Always FaultKept w'.trace := by
  have set : ∀ s, (w.session.state = .fault → s = .fault) → Always FaultKept (.stateSet s :: w.trace) :=
    fun s hk => ⟨fun hm => hk (hs.fault.mpr hm), hs.kept⟩
  cases h with
  | observe es hs' hc ht he =>
    rw [ht]
    refine hs.kept.append fun e hm _ => ?_
    have hg := he e hm
    cases e <;> trivial
  | state s hs' =>
    refine set s fun hf => ?_
    rcases hs' with rfl | ⟨_, hd⟩
    · rfl
    · rw [hf] at hd; cases hd
  | beginStop s hs' => exact set s hs'
  | keep | book | motion | conclude => exact hs.kept
  | write | fail | attempt | recover | clear => exact ⟨trivial, hs.kept⟩
  | stopped hf =>
    refine ⟨⟨hs.fault.mp, fun before hb hm => hf ?_ ?_⟩, hs.kept⟩
    · exact (failure_known hs.silent).mpr ⟨before, hb⟩
    · rw [hs.motion before hb]; exact hm

theorem settled_step (h : Move contract calm w w') (hs : Settled w) : Settled w' :=
  ⟨silent_step h hs.silent, motionKept_step h hs.silent hs.motion, fault_step h hs, kept_step h hs⟩

theorem settled_initial : Settled initial where
  silent := Silent.nil
  motion seen h := by cases h
  fault := by simp [initial]
  kept := trivial

theorem settled_run (env : Env) (contract : ManualContract) (ops : List Operation) :
    Settled (run env contract ops initial).2 :=
  (run_goes ops).path.keeps (fun _ _ => settled_step) settled_initial

/-- Once `FAULT` was set, it is the only state set. -/
theorem Settled.later (hs : Settled w) {later earlier : History} {s : State}
    (h : w.trace = later ++ earlier) (hf : Event.stateSet .fault ∈ earlier)
    (hm : Event.stateSet s ∈ later) : s = .fault := by
  obtain ⟨newer, older, rfl⟩ := List.append_of_mem hm
  have split : w.trace = newer ++ .stateSet s :: (older ++ earlier) := by simpa using h
  have kept : FaultKept (.stateSet s) (older ++ earlier) := hs.kept.split split
  exact kept (List.mem_append_right older hf)

/-- After a failure at most one frame is written, the zero frame; a `stop` that ends after it ends in
`FAULT` when motion may exist, and `FAULT` is never left. While only `Exception`s are raised, `stop`
does end without raising. -/
theorem silent_after_failure (env : Env) (contract : ManualContract) (ops : List Operation) :
    let w := (run env contract ops initial).2
    (w.channel.failed = true ↔ ∃ seen, Event.failure seen ∈ w.trace) ∧
    (∀ later seen earlier, w.trace = later ++ .failure seen :: earlier →
      (later.filter Event.isWrite).length ≤ 1 ∧
        ∀ request seen, Event.write request seen ∈ later → request = zeroRequest) ∧
    (∀ later ended earlier seen, w.trace = later ++ .stopped ended :: earlier →
      Event.failure seen ∈ earlier → seen.channel.motionMayExist = true →
        ended.session.state = .fault ∧ (∀ s, Event.stateSet s ∈ later → s = .fault) ∧
          w.session.state = .fault) ∧
    (∀ later earlier, w.trace = later ++ .stateSet .fault :: earlier →
      (∀ s, Event.stateSet s ∈ later → s = .fault) ∧ w.session.state = .fault) ∧
    (env.ExceptionsOnly → ∀ w reason fault e, (stop env contract reason fault w).1 ≠ .raised e) := by
  intro w
  have settled : Settled w := settled_run env contract ops
  refine ⟨?_, ?_, ?_, ?_, ?_⟩
  · exact failure_known settled.silent
  · intro later seen earlier h
    obtain ⟨count, allowed⟩ := settled.silent.after h rfl
    refine ⟨count, fun request seen hm => ?_⟩
    simpa [Event.kinds] using allowed _ hm rfl
  · intro later ended earlier seen h hf hm
    have kept : FaultKept (.stopped ended) earlier := settled.kept.split h
    have hended := kept.2 seen hf hm
    have hset := kept.1 hended
    have split : w.trace = (later ++ [.stopped ended]) ++ earlier := by simpa using h
    refine ⟨hended, fun s hs => settled.later split hset (List.mem_append_left _ hs), ?_⟩
    rw [settled.fault, h]
    simp [hset]
  · intro later earlier h
    refine ⟨fun s hs => settled.later h (by simp) hs, ?_⟩
    rw [settled.fault, h]
    simp
  · intro calm w reason fault e hraised
    have goes : (stop env contract reason fault).Goes (guarantee env contract) (fun _ _ => True)
        (Interrupted env) w := stop_goes reason fault
    exact (goes.raised hraised).2 calm

/-- The bench controller falls silent after the first velocity write: the session tries the zero frame
once and ends in `FAULT`. -/
theorem bench_silenced : ∃ later seen earlier,
    (run Bench.lossy Bench.contract Bench.drive initial).2.trace = later ++ .failure seen :: earlier ∧
      seen.channel.motionMayExist = true ∧ (later.filter Event.isWrite).length ≤ 1 := by
  have failed : (run Bench.lossy Bench.contract Bench.drive initial).2.trace.any (fun e => match e with
      | .failure seen => seen.channel.motionMayExist
      | _ => false) = true := by decide +kernel
  obtain ⟨e, hm, he⟩ := List.any_eq_true.mp failed
  obtain ⟨later, earlier, hsplit⟩ := List.append_of_mem hm
  cases e with
  | failure seen =>
    have silent := silent_after_failure Bench.lossy Bench.contract Bench.drive
    exact ⟨later, seen, earlier, hsplit, he, (silent.2.1 later seen earlier hsplit).1⟩
  | _ => cases he

end Smartwheel.Manual

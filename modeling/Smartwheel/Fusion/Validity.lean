import Smartwheel.Fusion.Queue

/-! Every bundle is fused from two frames that `_check` accepted since the queues were last cleared, that are
near each other, young, and of the current epochs; and it says of itself what is true. -/
namespace Smartwheel.Fusion
open Effect

variable {c : Config} {w w' : World}

/-- A frame entered its queue right after its push, which `_check` accepted. -/
def Checks (c : Config) : Event → List Event → Prop
  | .enqueued side x, earlier => ∃ frame now s before, earlier = .pushed frame now s :: before ∧
    Accepts c s frame now side x
  | _, _ => True

theorem checks_step (h : Move c w w') (ha : Always (Checks c) w.log) : Always (Checks c) w'.log := by
  cases h with
  | track | duplicate => exact ha
  | enqueue side x frame now s earlier hl accepts => exact ⟨⟨frame, now, s, earlier, hl, accepts⟩, ha⟩
  | _ => exact ⟨trivial, ha⟩

def Recent (w : World) : Prop :=
  ∀ side, ∀ f ∈ w.state.queues side, Event.enqueued side f ∈ since Event.isCleared w.log

theorem Recent.keep {e : Event} {s : State} (hr : Recent w) (he : e.isCleared = false)
    (hq : ∀ side, ∀ f ∈ s.queues side, f ∈ w.state.queues side) : Recent { state := s, log := e :: w.log } := by
  intro side f hf
  show Event.enqueued side f ∈ since Event.isCleared (e :: w.log)
  rw [since_cons_plain _ he]
  exact List.mem_cons_of_mem e (hr side f (hq side f hf))

theorem recent_step (h : Move c w w') (hr : Recent w) : Recent w' := by
  cases h with
  | track f ht =>
    intro side x hx
    rw [World.onState, ht.queues] at hx
    exact hr side x hx
  | duplicate => exact hr
  | push => exact hr.keep rfl fun _ _ => id
  | enqueue side x =>
    intro d f hf
    have hf : f ∈ (inserted side x w.state).queues d := hf
    show Event.enqueued d f ∈ since Event.isCleared (.enqueued side x :: w.log)
    rw [since_cons_plain _ rfl]
    by_cases hd : d = side
    · subst hd
      rw [inserted, setQueue_self, List.mem_insertionSort, List.mem_append, List.mem_singleton] at hf
      rcases hf with old | rfl
      · exact List.mem_cons_of_mem _ (hr d f old)
      · exact List.mem_cons_self
    · rw [inserted, setQueue_of_ne hd] at hf
      exact List.mem_cons_of_mem _ (hr d f hf)
  | overflow side | drop side => exact hr.keep rfl fun _ _ => mem_popped
  | emit => exact hr.keep rfl fun _ _ hf => mem_popped (mem_popped hf)
  | latch | resume => exact fun _ _ hf => by cases hf

structure SoundSource (c : Config) (side : Side) (f : Checked) (now : Int) (seen : State)
    (earlier : List Event) : Prop where
  age : now - f.hostMonotonicNs ≤ c.policy.maxAgeNs
  epoch : seen.epochs side = some f.streamEpoch
  enqueued : Event.enqueued side f ∈ since Event.isCleared earlier
  accepted : ∃ frame before s, Accepts c s frame before side f

structure SoundBundle (c : Config) (b : Bundle) (l r : Checked) (now : Int) (seen : State)
    (earlier : List Event) : Prop where
  near : |l.commonTimeNs - r.commonTimeNs| ≤ c.policy.maxPairNs
  left : SoundSource c .left l now seen earlier
  right : SoundSource c .right r now seen earlier
  bounded : b.temporalErrorBoundM ≤ c.policy.maxTimeErrorM
  counted : b.points.length = b.sourceCodes.length
  sourceCodes : b.sourceCodes = List.replicate l.points.length 1 ++ List.replicate r.points.length 2
  enough : c.policy.minPointsPerSource ≤ b.points.length
  live : seen.latched = false

def Sound (c : Config) : Event → List Event → Prop
  | .emitted b l r now seen, earlier => SoundBundle c b l r now seen earlier
  | _, _ => True

theorem accepted_of_recent {side : Side} {f : Checked} {log : List Event} (ha : Always (Checks c) log)
    (hm : Event.enqueued side f ∈ log) :
    c.policy.minPointsPerSource ≤ f.points.length ∧ ∃ frame before s, Accepts c s frame before side f := by
  obtain ⟨later, earlier, split⟩ := List.append_of_mem hm
  obtain ⟨frame, now, s, before, -, accepts⟩ := ha.split split
  refine ⟨?_, frame, now, s, accepts⟩
  obtain ⟨head, seq, -, -, -, -, -, -, -, -, measured⟩ := accepts
  exact (measured_ok measured).enough

theorem sound_step (h : Move c w w') (hc : Always (Checks c) w.log) (hr : Recent w)
    (hs : Always (Sound c) w.log) : Always (Sound c) w'.log := by
  cases h with
  | track | duplicate => exact hs
  | emit history now l r b hf =>
    obtain ⟨ls, hl⟩ := hf.left
    obtain ⟨rs, hq⟩ := hf.right
    have fuses := bundleOf_ok hf.bundle
    have near : |l.commonTimeNs - r.commonTimeNs| ≤ c.policy.maxPairNs := by simpa [near] using hf.near
    have left : l ∈ w.state.queues .left := by rw [hl]; exact List.mem_cons_self
    have right : r ∈ w.state.queues .right := by rw [hq]; exact List.mem_cons_self
    have recentLeft := hr .left l left
    have recentRight := hr .right r right
    obtain ⟨enoughLeft, acceptedLeft⟩ := accepted_of_recent hc (mem_of_mem_since recentLeft)
    obtain ⟨enoughRight, acceptedRight⟩ := accepted_of_recent hc (mem_of_mem_since recentRight)
    have age := hf.age
    have oldest := min_le_left l.hostMonotonicNs r.hostMonotonicNs
    have oldest' := min_le_right l.hostMonotonicNs r.hostMonotonicNs
    refine ⟨⟨near, ⟨by omega, hf.current .left l left, recentLeft, acceptedLeft⟩,
      ⟨by omega, hf.current .right r right, recentRight, acceptedRight⟩, fuses.bounded, ?_, fuses.sourceCodes,
      ?_, hf.live⟩, hs⟩
    · rw [fuses.points, fuses.sourceCodes, List.length_append, List.length_replicate, List.length_replicate]
    · rw [fuses.points]
      omega
  | _ => exact ⟨trivial, hs⟩

/-- Every bundle of every run is sound when it is emitted. -/
theorem bundles_sound (c : Config) (ops : List Operation) {b : Bundle} {l r : Checked} {now : Int}
    {seen : State} {later earlier : List Event}
    (h : (run c ops initial).2.log = later ++ .emitted b l r now seen :: earlier) :
    SoundBundle c b l r now seen earlier := by
  have kept : (Always (Checks c) (run c ops initial).2.log ∧ Recent (run c ops initial).2) ∧
      Always (Sound c) (run c ops initial).2.log :=
    (run_path c ops).keeps
      (P := fun w => (Always (Checks c) w.log ∧ Recent w) ∧ Always (Sound c) w.log)
      (fun _ _ step ⟨⟨checks, recent⟩, sound⟩ =>
        ⟨⟨checks_step step checks, recent_step step recent⟩, sound_step step checks recent sound⟩)
      ⟨⟨trivial, fun _ _ hf => by cases hf⟩, trivial⟩
  exact kept.2.split h

/-- On the bench a bundle is emitted. -/
theorem bench_bundle_sound :
    let c := Bench.config 8 (by decide)
    ∃ b l r now seen later earlier,
      (run c Bench.pairs initial).2.log = later ++ .emitted b l r now seen :: earlier ∧
      SoundBundle c b l r now seen earlier := by
  intro c
  have emitted : (run c Bench.pairs initial).2.log.any Event.isEmitted = true := by decide +kernel
  obtain ⟨e, hm, he⟩ := List.any_eq_true.mp emitted
  obtain ⟨later, earlier, split⟩ := List.append_of_mem hm
  cases e with
  | emitted b l r now seen => exact ⟨b, l, r, now, seen, later, earlier, split, bundles_sound c Bench.pairs split⟩
  | _ => cases he

end Smartwheel.Fusion

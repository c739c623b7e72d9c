import Smartwheel.Fusion.Queue

/-! No frame is fused twice, as long as every key that is queued or fused is still remembered when its frame
is pushed again. -/
namespace Smartwheel.Fusion
open Effect

variable {c : Config} {w w' : World}

def Bundle.rawKeys (b : Bundle) : List String := b.observations.map (·.rawKey)

def bundles (log : List Event) : List Bundle :=
  log.filterMap fun e => match e with
    | .emitted b _ _ _ _ => some b
    | _ => none

def fusedKeys (log : List Event) : List String := (bundles log).flatMap Bundle.rawKeys

def queuedKeys (s : State) : List String := (s.queues .left ++ s.queues .right).map (·.rawKey)

def Remembered (c : Config) : Event → List Event → Prop
  | .pushed frame _ s, earlier =>
    match frame.side, frame.frameSequence with
    | some side, .ok seq =>
      let key := rawKey c side frame.streamEpoch seq
      key ∈ queuedKeys s ++ fusedKeys earlier → key ∈ s.seen ∨ s.tooOld c.policy (side, frame.streamEpoch) seq
    | _, _ => True
  | _, _ => True

instance (e : Event) (earlier : List Event) : Decidable (Remembered c e earlier) := by
  unfold Remembered
  exact match e with
    | .pushed frame _ _ => by
      dsimp only
      exact match frame.side, frame.frameSequence with
      | some _, .ok _ => inferInstance
      | none, _ | some _, .error _ => instDecidableTrue
    | .enqueued .. | .overflowed .. | .dropped .. | .emitted .. | .cleared .. => instDecidableTrue

def Distinct (w : World) : Prop := (queuedKeys w.state ++ fusedKeys w.log).Nodup

theorem queuedKeys_popped {s : State} {side : Side} {f : Checked} {rest : List Checked}
    (h : s.queues side = f :: rest) : List.Perm (queuedKeys s) (f.rawKey :: queuedKeys (popped side s)) := by
  have own : (popped side s).queues side = rest := by rw [popped_self, h]; rfl
  have other : (popped side s).queues side.other = s.queues side.other := popped_of_ne side.other_ne
  rw [queuedKeys, queuedKeys, ← List.map_cons]
  refine List.Perm.map _ ?_
  cases side with
  | left =>
    have other : (popped .left s).queues .right = s.queues .right := other
    rw [own, other, h]
    rfl
  | right =>
    have other : (popped .right s).queues .left = s.queues .left := other
    rw [own, other, h]
    exact List.perm_middle

theorem queuedKeys_inserted (s : State) (side : Side) (x : Checked) :
    List.Perm (queuedKeys (inserted side x s)) (x.rawKey :: queuedKeys s) := by
  have own : List.Perm ((inserted side x s).queues side) (x :: s.queues side) := by
    rw [inserted, setQueue_self]
    exact (List.perm_insertionSort _ _).trans (List.perm_append_singleton x _)
  have other : (inserted side x s).queues side.other = s.queues side.other := setQueue_of_ne side.other_ne
  rw [queuedKeys, queuedKeys, ← List.map_cons]
  refine List.Perm.map _ ?_
  cases side with
  | left =>
    have other : (inserted .left x s).queues .right = s.queues .right := other
    rw [other]
    exact own.append_right _
  | right =>
    have other : (inserted .right x s).queues .left = s.queues .left := other
    rw [other]
    exact (own.append_left _).trans List.perm_middle

theorem distinct_lose {s : State} {log : List Event} {side : Side} {f : Checked} {rest : List Checked}
    (hd : (queuedKeys s ++ fusedKeys log).Nodup) (h : s.queues side = f :: rest) :
    (queuedKeys (popped side s) ++ fusedKeys log).Nodup := by
  have moved := ((queuedKeys_popped h).append_right (fusedKeys log)).nodup_iff.mp hd
  exact (List.nodup_cons.mp moved).2

theorem distinct_step (h : Move c w w') (hr : Always (Remembered c) w.log) (hd : Distinct w) : Distinct w' := by
  cases h with
  | track f ht =>
    have same : queuedKeys (f w.state) = queuedKeys w.state := by rw [queuedKeys, ht.queues]; rfl
    show (queuedKeys (f w.state) ++ fusedKeys w.log).Nodup
    rw [same]
    exact hd
  | duplicate | push => exact hd
  | enqueue side x frame now s earlier hl ha hq =>
    obtain ⟨head, seq, read, rfl, -, sequence, -, -, unseen, young, measured⟩ := ha
    have heads := header_ok read
    have keyed := (measured_ok measured).rawKey
    rw [hl] at hr
    have remembered := hr.1
    simp only [Remembered, heads.side, sequence, heads.epoch] at remembered
    have fresh : rawKey c head.side head.epoch seq ∉ queuedKeys s ++ fusedKeys earlier := by
      intro member
      rcases remembered member with known | old
      · exact unseen known
      · exact young old
    have used : fusedKeys w.log = fusedKeys earlier := by rw [hl]; rfl
    have same : queuedKeys s = queuedKeys w.state := by rw [queuedKeys, ← hq]; rfl
    rw [← keyed, same, ← used] at fresh
    show (queuedKeys (inserted head.side x w.state) ++ fusedKeys w.log).Nodup
    rw [((queuedKeys_inserted w.state head.side x).append_right _).nodup_iff]
    exact List.nodup_cons.mpr ⟨fresh, hd⟩
  | overflow side f rest hq => exact distinct_lose hd hq
  | drop side f g fs gs hf => exact distinct_lose hd hf
  | emit history now l r b hf =>
    obtain ⟨ls, hl⟩ := hf.left
    obtain ⟨rs, hr⟩ := hf.right
    have both : List.Perm (queuedKeys w.state)
        (l.rawKey :: r.rawKey :: queuedKeys (popped .right (popped .left w.state))) :=
      (queuedKeys_popped hl).trans
        ((@queuedKeys_popped _ _ _ rs (by rw [popped_of_ne (by decide)]; exact hr)).cons _)
    have keys : b.rawKeys = [l.rawKey, r.rawKey] := (bundleOf_ok hf.bundle).rawKeys
    show (queuedKeys (popped .right (popped .left w.state)) ++ (b.rawKeys ++ fusedKeys w.log)).Nodup
    have moved := (both.append_right (fusedKeys w.log)).nodup_iff.mp hd
    rw [keys]
    refine (List.Perm.nodup_iff ?_).mp moved
    exact (List.perm_append_comm_assoc [l.rawKey, r.rawKey] _ _)
  | latch | resume => exact (List.nodup_append.mp hd).2.1

theorem always_before {P : Event → List Event → Prop} (h : Move c w w') (ha : Always P w'.log) :
    Always P w.log := by
  cases h with
  | track | duplicate => exact ha
  | _ => exact ha.2

/-- In a run that remembers what it has queued and fused, no key is in two bundles. -/
theorem fused_once (c : Config) (ops : List Operation)
    (hr : Always (Remembered c) (run c ops initial).2.log) :
    (bundles (run c ops initial).2.log).Pairwise fun b b' => List.Disjoint b.rawKeys b'.rawKeys := by
  have distinct : Distinct (run c ops initial).2 :=
    (run_path c ops).keeps_while (P := Distinct) (Q := fun w => Always (Remembered c) w.log)
      (fun _ _ => always_before) (fun _ _ step after => distinct_step step (always_before step after))
      List.nodup_nil hr
  have keys : (fusedKeys (run c ops initial).2.log).Nodup := (List.nodup_append.mp distinct).2.1
  exact (List.nodup_flatMap.mp keys).2

theorem bench_remembered :
    let c := Bench.config 8 (by decide)
    Always (Remembered c) (run c Bench.pairs initial).2.log ∧ (bundles (run c Bench.pairs initial).2.log).length = 2 ∧
      (bundles (run (Bench.config 1 (by decide)) Bench.resent initial).2.log).map Bundle.rawKeys =
        [["L/boot/1", "R/boot/18"], ["L/boot/1", "R/boot/1"]] := by
  decide +kernel

/-- On the bench two bundles are fused, and the frame that comes again is remembered. -/
theorem bench_fused_once :
    let c := Bench.config 8 (by decide)
    (bundles (run c Bench.pairs initial).2.log).length = 2 ∧
      (bundles (run c Bench.pairs initial).2.log).Pairwise fun b b' => List.Disjoint b.rawKeys b'.rawKeys := by
  obtain ⟨remembered, fused, -⟩ := bench_remembered
  exact ⟨fused, fused_once _ Bench.pairs remembered⟩

/-- With queues of one frame, sixteen later keys are enough for a fused frame to be forgotten. Sent again,
it is fused again. -/
theorem fused_twice :
    let c := Bench.config 1 (by decide)
    ¬(bundles (run c Bench.resent initial).2.log).Pairwise
      fun b b' => List.Disjoint b.rawKeys b'.rawKeys := by
  intro c once
  rw [← List.pairwise_map (R := List.Disjoint), bench_remembered.2.2] at once
  have disjoint := (List.pairwise_cons.mp once).1 _ (List.mem_singleton.mpr rfl)
  exact disjoint List.mem_cons_self List.mem_cons_self

end Smartwheel.Fusion

/-! ### The reference times of the bundles increase, as long as no frame arrives so late that neither it nor its
partner is later than the last reference. -/
namespace Smartwheel.Fusion
open Effect

variable {c : Config} {w w' : World}

def references (log : List Event) : List Int := (bundles log).map (·.tRefNs)

def partner (c : Config) (stamp : Int) (queue : List Checked) : Option Checked :=
  queue.find? fun y => |stamp - y.commonTimeNs| ≤ c.policy.maxPairNs

def Timely (c : Config) : Event → List Event → Prop
  | .pushed frame _ s, earlier =>
    match frame.side, frame.commonTimeNs, frame.frameSequence with
    | some side, .ok stamp, .ok seq =>
      rawKey c side frame.streamEpoch seq ∉ s.seen → ¬s.tooOld c.policy (side, frame.streamEpoch) seq →
        ∀ y ∈ partner c stamp (s.queues side.other), ∀ last ∈ (references earlier).head?,
          last < max stamp y.commonTimeNs
    | _, _, _ => True
  | _, _ => True

instance (e : Event) (earlier : List Event) : Decidable (Timely c e earlier) := by
  unfold Timely
  exact match e with
    | .pushed frame _ _ => by
      dsimp only
      exact match frame.side, frame.commonTimeNs, frame.frameSequence with
      | some _, .ok _, .ok _ => inferInstance
      | none, _, _ | some _, .error _, _ | some _, .ok _, .error _ => instDecidableTrue
    | .enqueued .. | .overflowed .. | .dropped .. | .emitted .. | .cleared .. => instDecidableTrue

end Smartwheel.Fusion

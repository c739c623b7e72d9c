import Smartwheel.Fusion.Bench
import Smartwheel.Fusion.DualSpec

/-! The discipline of the queues: sorted, bounded, apart, and every frame that enters is accounted for. -/
namespace Smartwheel.Fusion
open Effect

variable {c : Config} {w w' : World}

instance : Std.Total before where
  total f g := by
    unfold before
    omega

instance : IsTrans Checked before where
  trans f g h := by
    unfold before
    omega

def Sorted (s : State) : Prop := ∀ side, (s.queues side).Pairwise before

theorem Sorted.popped {s : State} (hs : Sorted s) (side : Side) : Sorted (popped side s) := by
  intro d
  by_cases hd : d = side
  · subst hd
    rw [popped_self]
    exact (hs d).sublist (List.tail_sublist _)
  · rw [popped_of_ne hd]
    exact hs d

theorem sorted_step (h : Move c w w') (hs : Sorted w.state) : Sorted w'.state := by
  cases h with
  | track f ht =>
    intro side
    rw [World.onState, ht.queues]
    exact hs side
  | enqueue side x =>
    intro d
    show ((inserted side x w.state).queues d).Pairwise before
    by_cases hd : d = side
    · subst hd
      rw [inserted, setQueue_self]
      exact List.pairwise_insertionSort before _
    · rw [inserted, setQueue_of_ne hd]
      exact hs d
  | overflow side => exact hs.popped side
  | drop side => exact hs.popped side
  | emit => exact (hs.popped .left).popped .right
  | latch | resume => exact fun _ => .nil
  | duplicate | push => exact hs

def Partnerless (c : Config) : Event → List Event → Prop
  | .dropped _ f opposite, _ => ∀ g ∈ opposite, near c f g = false
  | _, _ => True

theorem far_of_sorted {f g : Checked} {gs : List Checked} (hs : (g :: gs).Pairwise before)
    (h : f.commonTimeNs + c.policy.maxPairNs < g.commonTimeNs) : ∀ y ∈ g :: gs, near c f y = false := by
  intro y hy
  have later : g.commonTimeNs ≤ y.commonTimeNs := by
    rcases List.mem_cons.mp hy with rfl | hy
    · exact le_rfl
    · have ordered := (List.pairwise_cons.mp hs).1 y hy
      unfold before at ordered
      omega
  have far := not_near_of_older (c := c) (f := f) (g := y) (by omega)
  rw [near, abs_sub_comm]
  exact far

theorem partnerless_step (h : Move c w w') (hs : Sorted w.state) (ha : Always (Partnerless c) w.log) :
    Always (Partnerless c) w'.log := by
  cases h with
  | track | duplicate => exact ha
  | drop side f g fs gs hf hg hlt =>
    refine ⟨?_, ha⟩
    have sorted := hs side.other
    rw [hg] at sorted
    show ∀ y ∈ w.state.queues side.other, near c f y = false
    rw [hg]
    exact far_of_sorted sorted hlt
  | _ => exact ⟨trivial, ha⟩

namespace Event

def isCleared : Event → Bool
  | .cleared _ => true
  | _ => false

def isEnqueued : Event → Bool
  | .enqueued .. => true
  | _ => false

def isEmitted : Event → Bool
  | .emitted .. => true
  | _ => false

end Event

def base : List Event → String → Nat
  | [] => fun _ => 0
  | .cleared counts :: _ => counts
  | _ :: log => base log

def enqueuedSince (log : List Event) : Nat := (since Event.isCleared log).countP Event.isEnqueued

def emittedSince (log : List Event) : Nat := (since Event.isCleared log).countP Event.isEmitted

def queued (s : State) : Nat := (s.queues .left).length + (s.queues .right).length

/-- Since the queues were last cleared, every enqueued frame is in a bundle, has overflowed, was dropped
without a partner, or is still queued. -/
structure Accounted (w : World) : Prop where
  frames : enqueuedSince w.log + base w.log "QUEUE_OVERFLOW" + base w.log "PAIR_WINDOW_EXCEEDED" =
    2 * emittedSince w.log + w.state.counts "QUEUE_OVERFLOW" + w.state.counts "PAIR_WINDOW_EXCEEDED" +
      queued w.state
  bundles : emittedSince w.log + base w.log "BUNDLE_DUAL" = w.state.counts "BUNDLE_DUAL"

theorem queued_popped {s : State} {side : Side} {f : Checked} {rest : List Checked}
    (h : s.queues side = f :: rest) : queued (popped side s) + 1 = queued s := by
  have own : ((popped side s).queues side).length + 1 = (s.queues side).length := by
    rw [popped_self, h]
    rfl
  have other : (popped side s).queues side.other = s.queues side.other := popped_of_ne side.other_ne
  cases side with
  | left =>
    have other : (popped .left s).queues .right = s.queues .right := other
    rw [queued, queued, other]
    omega
  | right =>
    have other : (popped .right s).queues .left = s.queues .left := other
    rw [queued, queued, other]
    omega

theorem queued_inserted (s : State) (side : Side) (x : Checked) :
    queued (inserted side x s) = queued s + 1 := by
  have own : ((inserted side x s).queues side).length = (s.queues side).length + 1 := by
    rw [inserted, setQueue_self, List.length_insertionSort, List.length_append]
    rfl
  have other : (inserted side x s).queues side.other = s.queues side.other := setQueue_of_ne side.other_ne
  cases side with
  | left =>
    have other : (inserted .left x s).queues .right = s.queues .right := other
    rw [queued, queued, other]
    omega
  | right =>
    have other : (inserted .right x s).queues .left = s.queues .left := other
    rw [queued, queued, other]
    omega

theorem counted_self (reason : String) (s : State) : (counted reason s).counts reason = s.counts reason + 1 :=
  Function.update_self ..

theorem counted_of_ne {reason other : String} (h : other ≠ reason) (s : State) :
    (counted reason s).counts other = s.counts other := Function.update_of_ne h ..

theorem enqueuedSince_plain {e : Event} {log : List Event} (hc : e.isCleared = false)
    (he : e.isEnqueued = false) : enqueuedSince (e :: log) = enqueuedSince log := by
  rw [enqueuedSince, since_cons_plain _ hc, List.countP_cons_of_neg (by simp [he])]
  rfl

theorem emittedSince_plain {e : Event} {log : List Event} (hc : e.isCleared = false)
    (he : e.isEmitted = false) : emittedSince (e :: log) = emittedSince log := by
  rw [emittedSince, since_cons_plain _ hc, List.countP_cons_of_neg (by simp [he])]
  rfl

theorem accounted_cleared {w : World} {log : List Event} (hq : queued w.state = 0)
    (hl : w.log = .cleared w.state.counts :: log) : Accounted w := by
  have marked : since Event.isCleared w.log = [] := by rw [hl, since_cons_mark _ rfl]
  have enqueued : enqueuedSince w.log = 0 := by rw [enqueuedSince, marked]; rfl
  have emitted : emittedSince w.log = 0 := by rw [emittedSince, marked]; rfl
  have counts : base w.log = w.state.counts := by rw [hl]; rfl
  exact ⟨by rw [enqueued, emitted, counts, hq]; omega, by rw [emitted, counts]; omega⟩

theorem accounted_step (h : Move c w w') (ha : Accounted w) : Accounted w' := by
  obtain ⟨frames, bundles⟩ := ha
  cases h with
  | track f ht =>
    have same : queued (f w.state) = queued w.state := by rw [queued, queued, ht.queues]
    refine ⟨?_, ?_⟩ <;> show _ = _ <;> dsimp only [World.onState]
    · rw [ht.counts, same]
      exact frames
    · rw [ht.counts]
      exact bundles
  | duplicate =>
    refine ⟨?_, ?_⟩
    · show _ = _ + (counted _ w.state).counts _ + (counted _ w.state).counts _ + _
      rw [counted_of_ne (by decide), counted_of_ne (by decide)]
      exact frames
    · show _ = (counted _ w.state).counts _
      rw [counted_of_ne (by decide)]
      exact bundles
  | push frame now => exact ⟨by
      show enqueuedSince (_ :: w.log) + _ + _ = 2 * emittedSince (_ :: w.log) + _ + _ + _
      rw [enqueuedSince_plain rfl rfl, emittedSince_plain rfl rfl]
      exact frames, by
      show emittedSince (_ :: w.log) + _ = _
      rw [emittedSince_plain rfl rfl]
      exact bundles⟩
  | enqueue side x => 
    have one : enqueuedSince (.enqueued side x :: w.log) = enqueuedSince w.log + 1 := by
      rw [enqueuedSince, since_cons_plain _ rfl, List.countP_cons_of_pos rfl]
      rfl
    refine ⟨?_, ?_⟩
    · show enqueuedSince (_ :: w.log) + base w.log _ + base w.log _ = 2 * emittedSince (_ :: w.log) +
        w.state.counts _ + w.state.counts _ + queued (inserted side x w.state)
      rw [one, emittedSince_plain rfl rfl, queued_inserted]
      omega
    · show emittedSince (_ :: w.log) + _ = _
      rw [emittedSince_plain rfl rfl]
      exact bundles
  | overflow side f rest hq =>
    have less := queued_popped hq
    refine ⟨?_, ?_⟩
    · show enqueuedSince (_ :: w.log) + base w.log _ + base w.log _ = 2 * emittedSince (_ :: w.log) +
        (counted "QUEUE_OVERFLOW" (popped side w.state)).counts _ +
        (counted "QUEUE_OVERFLOW" (popped side w.state)).counts _ + queued (popped side w.state)
      rw [enqueuedSince_plain rfl rfl, emittedSince_plain rfl rfl, counted_self, counted_of_ne (by decide)]
      show _ = _ + (w.state.counts _ + 1) + w.state.counts _ + _
      omega
    · show emittedSince (_ :: w.log) + _ = (counted "QUEUE_OVERFLOW" (popped side w.state)).counts _
      rw [emittedSince_plain rfl rfl, counted_of_ne (by decide)]
      exact bundles
  | drop side f g fs gs hq =>
    have less := queued_popped hq
    refine ⟨?_, ?_⟩
    · show enqueuedSince (_ :: w.log) + base w.log _ + base w.log _ = 2 * emittedSince (_ :: w.log) +
        (counted "PAIR_WINDOW_EXCEEDED" (popped side w.state)).counts _ +
        (counted "PAIR_WINDOW_EXCEEDED" (popped side w.state)).counts _ + queued (popped side w.state)
      rw [enqueuedSince_plain rfl rfl, emittedSince_plain rfl rfl, counted_self, counted_of_ne (by decide)]
      show _ = _ + w.state.counts _ + (w.state.counts _ + 1) + _
      omega
    · show emittedSince (_ :: w.log) + _ = (counted "PAIR_WINDOW_EXCEEDED" (popped side w.state)).counts _
      rw [emittedSince_plain rfl rfl, counted_of_ne (by decide)]
      exact bundles
  | emit history now l r b hf =>
    obtain ⟨ls, hl⟩ := hf.left
    obtain ⟨rs, hr⟩ := hf.right
    have left := queued_popped hl
    have right : queued (popped .right (popped .left w.state)) + 1 = queued (popped .left w.state) :=
      @queued_popped _ _ _ rs (by rw [popped_of_ne (by decide)]; exact hr)
    have one : ∀ s, emittedSince (.emitted b l r now s :: w.log) = emittedSince w.log + 1 := by
      intro s
      rw [emittedSince, since_cons_plain _ rfl, List.countP_cons_of_pos rfl]
      rfl
    refine ⟨?_, ?_⟩
    · show enqueuedSince (_ :: w.log) + base w.log _ + base w.log _ = 2 * emittedSince (_ :: w.log) +
        (fused (popped .right (popped .left w.state))).counts _ +
        (fused (popped .right (popped .left w.state))).counts _ + queued (popped .right (popped .left w.state))
      rw [enqueuedSince_plain rfl rfl, one, fused, counted_of_ne (by decide), counted_of_ne (by decide)]
      show _ = _ + w.state.counts _ + w.state.counts _ + _
      omega
    · show emittedSince (_ :: w.log) + base w.log _ = (fused (popped .right (popped .left w.state))).counts _
      rw [one, fused, counted_self]
      show _ = w.state.counts _ + 1
      omega
  | latch | resume => exact accounted_cleared rfl rfl

/-- After any calls: the queues are sorted, bounded and apart, and empty while the fusion is latched;
every frame dropped for want of a partner had none; and all enqueued frames are accounted for. -/
theorem queues_disciplined (c : Config) (ops : List Operation) :
    (∀ side, ((run c ops initial).2.state.queues side).Pairwise before ∧
      ((run c ops initial).2.state.queues side).length ≤ c.policy.maxQueue) ∧
    ((run c ops initial).2.state.queues .left = [] ∨ (run c ops initial).2.state.queues .right = []) ∧
    ((run c ops initial).2.state.latched = true → ∀ side, (run c ops initial).2.state.queues side = []) ∧
    Always (Partnerless c) (run c ops initial).2.log ∧ Accounted (run c ops initial).2 := by
  have ready := run_ready c ops
  have kept : Sorted (run c ops initial).2.state ∧ Always (Partnerless c) (run c ops initial).2.log ∧
      Accounted (run c ops initial).2 :=
    (run_path c ops).keeps (P := fun w => Sorted w.state ∧ Always (Partnerless c) w.log ∧ Accounted w)
      (fun _ _ step ⟨sorted, partnerless, accounted⟩ =>
        ⟨sorted_step step sorted, partnerless_step step sorted partnerless, accounted_step step accounted⟩)
      ⟨fun _ => .nil, trivial, rfl, rfl⟩
  exact ⟨fun side => ⟨kept.1 side, ready.bounded side⟩, ready.apart, ready.empty, kept.2.1, kept.2.2⟩

end Smartwheel.Fusion

import Smartwheel.Fusion.CheckSpec

/-! What the calls of `DualFusion` do: each goes along `Move`s from a state that is ready to one that is
ready again, whatever it raises. -/
namespace Smartwheel.Fusion
open Effect Effect.Program

variable {c : Config} {w : World}

variable {d side : Side}

theorem Side.eq_other (h : d ≠ side) : d = side.other := by
  cases d <;> cases side <;> first | rfl | exact absurd rfl h

@[simp] theorem Side.other_other (side : Side) : side.other.other = side := by cases side <;> rfl

theorem Side.other_ne (side : Side) : side.other ≠ side := by cases side <;> decide

@[simp] theorem setQueue_self (s : State) (side : Side) (q : List Checked) :
    (s.setQueue side q).queues side = q := Function.update_self ..

variable {s : State}

theorem setQueue_of_ne {q : List Checked} (h : d ≠ side) :
    (s.setQueue side q).queues d = s.queues d := Function.update_of_ne h ..

@[simp] theorem popped_self (s : State) (side : Side) : (popped side s).queues side = (s.queues side).tail :=
  setQueue_self ..

theorem popped_of_ne (h : d ≠ side) : (popped side s).queues d = s.queues d :=
  setQueue_of_ne h

theorem mem_popped {f : Checked} (h : f ∈ (popped side s).queues d) : f ∈ s.queues d := by
  by_cases hd : d = side
  · subst hd
    rw [popped_self] at h
    exact List.mem_of_mem_tail h
  · rwa [popped_of_ne hd] at h

theorem length_popped (s : State) (side d : Side) :
    ((popped side s).queues d).length ≤ (s.queues d).length := by
  by_cases hd : d = side
  · subst hd
    rw [popped_self, List.length_tail]
    omega
  · rw [popped_of_ne hd]

theorem Current.popped (hc : Current s) (side : Side) : Current (popped side s) :=
  fun d f hf => hc d f (mem_popped hf)

def Event.plain : Event → Bool
  | .emitted .. => false
  | _ => true

def Emptied (w : World) : Prop := ∀ side, w.state.queues side = []

theorem latch_empties (w : World) (reason : String) : Emptied (w.latch reason) := fun _ => rfl

section Freshness

variable {E : Failure → World → Prop}

theorem sideFresh_does (now started : Int) (side : Side) : Does c (sideFresh c now started side)
      (fun fresh w' => fresh = true ∧ w' = w ∨ fresh = false ∧ Emptied w') E w := by
  refine .get_bind (.ite (fun _ => ?_) fun _ => .pure (.inl ⟨rfl, rfl⟩))
  exact .bind (F := fun _ => Emptied) (latch_does _ (latch_empties _ _)) fun _ _ h => .pure (.inr ⟨rfl, h⟩)

theorem pairsFresh_does (now started : Int) : Does c (pairsFresh c now started)
      (fun fresh w' => fresh = true ∧ w' = w ∨ fresh = false ∧ Emptied w') E w := by
  refine .get_bind (.ite (fun _ => ?_) fun _ => .pure (.inl ⟨rfl, rfl⟩))
  exact .bind (F := fun _ => Emptied) (latch_does _ (latch_empties _ _)) fun _ _ h => .pure (.inr ⟨rfl, h⟩)

theorem checkFreshness_does (hr : Ready c w.state) (now : Int) : Does c (checkFreshness c now)
      (fun fresh w' => fresh = true ∧ w' = w ∨ fresh = false ∧ Emptied w') E w := by
  refine .get_bind (.ite (fun latched => .pure (.inr ⟨rfl, hr.empty latched⟩)) fun _ => ?_)
  split
  · exact .pure (.inl ⟨rfl, rfl⟩)
  · rename_i started _
    refine .bind (sideFresh_does now started .left) fun left w1 h1 => ?_
    rcases h1 with ⟨rfl, rfl⟩ | ⟨rfl, h1⟩
    · refine .bind (sideFresh_does now started .right) fun right w2 h2 => ?_
      rcases h2 with ⟨rfl, rfl⟩ | ⟨rfl, h2⟩
      · exact pairsFresh_does now started
      · exact .pure (.inr ⟨rfl, h2⟩)
    · exact .pure (.inr ⟨rfl, h1⟩)

end Freshness

section Queue

structure Trimmed (c : Config) (side : Side) (w w' : World) : Prop where
  suffix : w'.state.queues side <:+ w.state.queues side
  bounded : (w'.state.queues side).length ≤ c.policy.maxQueue
  kept : (w.state.queues side).length ≤ c.policy.maxQueue → w'.state.queues side = w.state.queues side
  other : w'.state.queues side.other = w.state.queues side.other
  epochs : w'.state.epochs = w.state.epochs
  live : w'.state.latched = w.state.latched
  log : ∃ l, w'.log = l ++ w.log ∧ ∀ e ∈ l, e.plain = true

theorem Trimmed.refl (h : (w.state.queues side).length ≤ c.policy.maxQueue) : Trimmed c side w w :=
  ⟨List.suffix_refl _, h, fun _ => rfl, rfl, rfl, rfl, [], rfl, by simp⟩

theorem overflow_does (side : Side) (rounds : Nat) (h : (w.state.queues side).length ≤ rounds)
    {E : Failure → World → Prop} : Does c (overflow c side rounds) (fun _ => Trimmed c side w) E w := by
  induction rounds generalizing w with
  | zero => exact .pure (.refl (h.trans (Nat.zero_le _)))
  | succ rounds ih =>
    refine .get_bind ?_
    split
    · rename_i hq
      exact .pure (.refl (by rw [hq]; exact Nat.zero_le _))
    · rename_i f rest hq
      refine .when (fun many => ?_) fun few => .refl (by rw [hq]; omega)
      refine .bind (F := fun _ w' => w' = (w.onState fun s => counted "QUEUE_OVERFLOW" (popped side s)).note
        (.overflowed side f)) (.modify (.single (.overflow side f rest hq)) trivial rfl) fun _ w1 h1 => ?_
      have tail : w1.state.queues side = rest := by
        rw [h1]
        show (popped side w.state).queues side = rest
        rw [popped_self, hq]
        rfl
      refine (ih (by rw [tail]; rw [hq] at h; simpa using h)).ensures fun _ w2 h2 => ?_
      obtain ⟨l, hl, plain⟩ := h2.log
      refine ⟨?_, h2.bounded, fun few => ?_, ?_, ?_, ?_, l ++ [.overflowed side f], ?_, ?_⟩
      · rw [hq]
        exact (tail ▸ h2.suffix).trans (List.suffix_cons f rest)
      · rw [hq] at few
        omega
      · rw [h2.other, h1]
        exact popped_of_ne side.other_ne
      · rw [h2.epochs, h1]
        rfl
      · rw [h2.live, h1]
        rfl
      · rw [hl, h1]
        simp [World.note, World.onState]
      · intro e he
        rcases List.mem_append.mp he with he | he
        · exact plain e he
        · rw [List.mem_singleton.mp he]
          rfl

end Queue

section Fuse

variable {history : History} {l r : Checked}

theorem compensation_error {e : Failure} (h : compensation c history l r = .error e) : ∃ code, e = .fusion code := by
  have predicted : ∀ {stamp : Int} {e : Failure},
      (history.predict stamp).mapError Failure.fusion = .error e → ∃ code, e = .fusion code := by
    intro stamp e h
    cases hp : history.predict stamp with
    | ok t => rw [hp] at h; cases h
    | error code => rw [hp] at h; exact ⟨code, (Except.error.inj h).symm⟩
  unfold compensation at h
  dsimp only at h
  split at h
  · rcases bind_eq_error h with h | ⟨_, _, h⟩
    · exact predicted h
    rcases bind_eq_error h with h | ⟨_, _, h⟩
    · exact predicted h
    rcases bind_eq_error h with h | ⟨_, _, h⟩
    · exact predicted h
    rcases bind_eq_error h with h | ⟨_, _, h⟩
    · exact ⟨_, rejectIf_error h⟩
    cases h
  · cases h

theorem bundleOf_error {n : Nat} {e : Failure}
    (h : bundleOf c history l r n = .error e) : ∃ code, e = .fusion code := by
  rcases bind_eq_error h with h | ⟨_, _, h⟩
  · exact compensation_error h
  rcases bind_eq_error h with h | ⟨_, _, h⟩
  · exact transform_error h
  rcases bind_eq_error h with h | ⟨_, _, h⟩
  · exact transform_error h
  cases h

theorem compensation_ok {relative : Side → Transform} {mode : String}
    {error : ℚ} (h : compensation c history l r = .ok (relative, mode, error)) :
    error ≤ c.policy.maxTimeErrorM := by
  unfold compensation at h
  dsimp only at h
  split at h
  · simp only [bind_eq_ok_iff] at h
    obtain ⟨_, -, _, -, _, -, _, within, h⟩ := h
    have bounded := rejectIf_ok within
    obtain ⟨-, -, rfl⟩ := Prod.mk.inj (Except.ok.inj h) |>.imp id Prod.mk.inj
    exact not_lt.mp bounded
  · rename_i static
    obtain ⟨-, -, rfl⟩ := Prod.mk.inj (Except.ok.inj h) |>.imp id Prod.mk.inj
    exact not_lt.mp fun above => static (.inl above)

structure Fuses (c : Config) (l r : Checked) (b : Bundle) : Prop where
  tRefNs : b.tRefNs = max l.commonTimeNs r.commonTimeNs
  rawKeys : b.observations.map (·.rawKey) = [l.rawKey, r.rawKey]
  points : b.points.length = l.points.length + r.points.length
  sourceCodes : b.sourceCodes = List.replicate l.points.length 1 ++ List.replicate r.points.length 2
  bounded : b.temporalErrorBoundM ≤ c.policy.maxTimeErrorM

theorem bundleOf_ok {n : Nat} {b : Bundle} (h : bundleOf c history l r n = .ok b) : Fuses c l r b := by
  unfold bundleOf at h
  simp only [bind_eq_ok_iff] at h
  obtain ⟨⟨relative, mode, error⟩, compensated, left, hl, right, hr, h⟩ := h
  have error_le := compensation_ok compensated
  have lengths : (left ++ right).length = l.points.length + r.points.length := by
    rw [List.length_append, transform_length hl, transform_length hr]
  obtain rfl := Except.ok.inj h
  exact ⟨rfl, rfl, lengths, rfl, error_le⟩

def fuseHeads (c : Config) (history : History) (l r : Checked) (now : Int) : Act (Option Bundle) := do
  change fun s => popped .right (popped .left s)
  some <$> latching (fuse c history l r now)

theorem fuse_eq {now : Int} {built : Except Failure Bundle}
    (h : bundleOf c history l r (w.state.bundleCounter + 1) = built) :
    fuse c history l r now w = ((lift built : Act Bundle) >>= fun bundle =>
      (Program.modify fun w => (w.onState fused).note (.emitted bundle l r now w.state)) >>= fun _ =>
        Pure.pure bundle) w := by
  rw [← h]
  rfl

theorem fuseHeads_ok {now : Int} {b : Bundle} (h : bundleOf c history l r (w.state.bundleCounter + 1) = .ok b) :
    fuseHeads c history l r now w = (.value (some b), w.emit b l r now) := by
  have built : fuse c history l r now (w.onState fun s => popped .right (popped .left s)) =
    (.value b, w.emit b l r now) :=
    fuse_eq (w := w.onState fun s => popped .right (popped .left s)) h
  show (some <$> latching (fuse c history l r now)) (w.onState fun s => popped .right (popped .left s)) = _
  simp only [Functor.map, Program.bind, latching, handle, built]
  rfl

theorem fuseHeads_error {now : Int} {code : String}
    (h : bundleOf c history l r (w.state.bundleCounter + 1) = .error (.fusion code)) :
    fuseHeads c history l r now w = (.raised (.fusion code), w.latch code) := by
  have built : fuse c history l r now (w.onState fun s => popped .right (popped .left s)) =
    (.raised (.fusion code), w.onState fun s => popped .right (popped .left s)) :=
    fuse_eq (w := w.onState fun s => popped .right (popped .left s)) h
  show (some <$> latching (fuse c history l r now)) (w.onState fun s => popped .right (popped .left s)) = _
  simp only [Functor.map, Program.bind, latching, handle, built]
  rfl

end Fuse

section Pair

/-- The pairing of the arrived frame `x`: alone in its queue, or gone, or without a counterpart. What has
been dropped from the opposite queue was not near it. -/
structure Pairing (c : Config) (side : Side) (x : Checked) (s : State) (earlier : List Event) (w : World) :
    Prop where
  arrived : Arrived c side x s earlier w.log
  alone : w.state.queues side.other = [] ∨ w.state.queues side = [] ∨ w.state.queues side = [x] ∧
    ∃ skipped, s.queues side.other = skipped ++ w.state.queues side.other ∧ ∀ y ∈ skipped, near c x y = false
  current : Current w.state
  live : w.state.latched = false
  bounded : ∀ side, (w.state.queues side).length ≤ c.policy.maxQueue

variable {side : Side} {x : Checked} {s : State} {earlier : List Event}

theorem Arrived.append {log l : List Event} (ha : Arrived c side x s earlier log)
    (hl : ∀ e ∈ l, e.plain = true) : Arrived c side x s earlier (l ++ log) := by
  obtain ⟨frame, now, after, rfl, accepts, plain⟩ := ha
  refine ⟨frame, now, l ++ after, by simp, accepts, fun e he => ?_⟩
  rcases List.mem_append.mp he with he | he
  · intro b l r now seen emitted
    have plain := hl e he
    rw [emitted] at plain
    cases plain
  · exact plain e he

theorem not_near_of_older {f g : Checked} (h : f.commonTimeNs + c.policy.maxPairNs < g.commonTimeNs) :
    near c g f = false := by
  have pos := c.policy.counts_pos.1
  simp only [near, decide_eq_false_iff_not, not_le]
  rw [abs_of_nonneg (by omega)]
  omega

theorem Pairing.drop (hp : Pairing c side x s earlier w) {f g : Checked} {fs gs : List Checked}
    (hf : w.state.queues d = f :: fs) (hg : w.state.queues d.other = g :: gs)
    (h : f.commonTimeNs + c.policy.maxPairNs < g.commonTimeNs) :
    Pairing c side x s earlier (dropped d f w) where
  arrived := hp.arrived.append (l := [.dropped d f (w.state.queues d.other)]) (by simp [Event.plain])
  alone := by
    have tail : (popped d w.state).queues d = fs := by
      rw [popped_self, hf]
      rfl
    by_cases hd : d = side
    · -- the arrived frame itself is too old
      subst hd
      refine .inr (.inl ?_)
      rcases hp.alone with empty | empty | ⟨alone, -⟩
      · rw [empty] at hg; cases hg
      · rw [empty] at hf; cases hf
      · rw [hf] at alone
        exact tail.trans (List.cons.inj alone).2
    · obtain rfl := Side.eq_other hd
      rw [Side.other_other] at hg
      rcases hp.alone with empty | empty | ⟨alone, skipped, all, far⟩
      · rw [empty] at hf; cases hf
      · rw [empty] at hg; cases hg
      · refine .inr (.inr ⟨(popped_of_ne side.other_ne.symm).trans alone, skipped ++ [f], ?_, ?_⟩)
        · rw [all, hf, List.append_assoc]
          exact congrArg _ (congrArg _ tail.symm)
        · intro y hy
          rcases List.mem_append.mp hy with hy | hy
          · exact far y hy
          · rw [hg] at alone
            obtain rfl := (List.cons.inj alone).1
            rw [List.mem_singleton.mp hy]
            exact not_near_of_older h
  current := hp.current.popped d
  live := hp.live
  bounded e := (length_popped w.state d e).trans (hp.bounded e)

theorem Pairing.matched (hp : Pairing c side x s earlier w) {l r : Checked} {ls rs : List Checked}
    (hl : w.state.queues .left = l :: ls) (hr : w.state.queues .right = r :: rs) (hn : near c l r = true) :
    Matched c l r w.log := by
  have first : ∀ {y ys}, w.state.queues side.other = y :: ys → near c x y = true →
      (∃ skipped, s.queues side.other = skipped ++ w.state.queues side.other ∧
        ∀ y ∈ skipped, near c x y = false) → (s.queues side.other).find? (near c x) = some y := by
    rintro y ys hy near ⟨skipped, all, far⟩
    rw [all, hy, List.find?_append, List.find?_eq_none.mpr fun z hz => by simp [far z hz]]
    simp [near]
  cases side with
  | left =>
    rcases hp.alone with empty | empty | ⟨alone, skipped⟩
    · exact absurd (hr.symm.trans empty) (List.cons_ne_nil _ _)
    · exact absurd (hl.symm.trans empty) (List.cons_ne_nil _ _)
    · obtain rfl := (List.cons.inj (hl.symm.trans alone)).1
      exact ⟨.left, l, r, s, earlier, hp.arrived, first hr hn skipped, .inl ⟨rfl, rfl, rfl⟩⟩
  | right =>
    have symmetric : near c r l = true := by
      rw [near, abs_sub_comm]
      exact hn
    rcases hp.alone with empty | empty | ⟨alone, skipped⟩
    · exact absurd (hl.symm.trans empty) (List.cons_ne_nil _ _)
    · exact absurd (hr.symm.trans empty) (List.cons_ne_nil _ _)
    · obtain rfl := (List.cons.inj (hr.symm.trans alone)).1
      exact ⟨.right, r, l, s, earlier, hp.arrived, first hl symmetric skipped, .inr ⟨rfl, rfl, rfl⟩⟩

theorem Pairing.ready (hp : Pairing c side x s earlier w)
    (h : w.state.queues .left = [] ∨ w.state.queues .right = []) : Ready c w.state where
  apart := h
  bounded := hp.bounded
  current := hp.current
  empty latched := by rw [hp.live] at latched; cases latched

theorem Pairing.emit_ready (hp : Pairing c side x s earlier w) {l r : Checked} {ls rs : List Checked}
    (hl : w.state.queues .left = l :: ls) (hr : w.state.queues .right = r :: rs) (b : Bundle) (now : Int) :
    Ready c (w.emit b l r now).state := by
  have left : (popped .right (popped .left w.state)).queues .left = ls := by
    rw [popped_of_ne (by decide), popped_self, hl]
    rfl
  have right : (popped .right (popped .left w.state)).queues .right = rs := by
    rw [popped_self, popped_of_ne (by decide), hr]
    rfl
  refine ⟨?_, fun d => ?_, (hp.current.popped .left).popped .right, fun latched => ?_⟩
  · cases side with
    | left =>
      rcases hp.alone with empty | empty | ⟨alone, -⟩
      · exact absurd (hr.symm.trans empty) (List.cons_ne_nil _ _)
      · exact absurd (hl.symm.trans empty) (List.cons_ne_nil _ _)
      · exact .inl (left.trans (List.cons.inj (hl.symm.trans alone)).2)
    | right =>
      rcases hp.alone with empty | empty | ⟨alone, -⟩
      · exact absurd (hl.symm.trans empty) (List.cons_ne_nil _ _)
      · exact absurd (hr.symm.trans empty) (List.cons_ne_nil _ _)
      · exact .inr (right.trans (List.cons.inj (hr.symm.trans alone)).2)
  · exact ((length_popped _ .right d).trans (length_popped _ .left d)).trans (hp.bounded d)
  · have live : w.state.latched = true := latched
    rw [hp.live] at live
    cases live

theorem pair_does (history : History) (now : Int) (rounds : Nat) (hp : Pairing c side x s earlier w)
    (h : (w.state.queues .left).length + (w.state.queues .right).length ≤ rounds) :
    Does c (pair c history now rounds) (fun _ w' => Ready c w'.state) (fun _ w' => Ready c w'.state) w := by
  induction rounds generalizing w with
  | zero =>
    have none : w.state.queues .left = [] := List.eq_nil_of_length_eq_zero (by omega)
    exact .pure (hp.ready (.inl none))
  | succ rounds ih =>
    refine .get_bind ?_
    split
    · rename_i l ls r rs hl hr
      refine .bind (F := fun _ w' => w' = w ∧ now - min l.hostMonotonicNs r.hostMonotonicNs ≤
        c.policy.maxAgeNs) (.when (fun _ => ?_) fun h => ⟨rfl, by omega⟩) fun _ w1 h1 => ?_
      · exact .bind (F := fun _ => Emptied) (latch_does _ (latch_empties _ _)) fun _ _ h =>
          .raise (.of_empty h)
      obtain ⟨rfl, age⟩ := h1
      dsimp only
      refine .ite (fun apart => ?_) fun close => ?_
      · -- one of the heads is too old for the other
        have shorter : ∀ d f fs, w1.state.queues d = f :: fs →
            ((dropped d f w1).state.queues .left).length + ((dropped d f w1).state.queues .right).length ≤
              rounds := by
          intro d f fs hf
          have one : ((popped d w1.state).queues d).length + 1 = (w1.state.queues d).length := by
            rw [popped_self, hf]
            rfl
          have same : (popped d w1.state).queues d.other = w1.state.queues d.other := popped_of_ne d.other_ne
          show ((popped d w1.state).queues .left).length + ((popped d w1.state).queues .right).length ≤ rounds
          cases d with
          | left =>
            have same : (popped .left w1.state).queues .right = w1.state.queues .right := same
            rw [same]
            omega
          | right =>
            have same : (popped .right w1.state).queues .left = w1.state.queues .left := same
            rw [same]
            omega
        by_cases older : l.commonTimeNs - r.commonTimeNs < 0
        · have beyond : l.commonTimeNs + c.policy.maxPairNs < r.commonTimeNs := by
            rw [abs_of_neg older] at apart
            omega
          refine .bind (F := fun _ w' => w' = dropped .left l w1) (.modify ?_ trivial ?_) fun _ w2 h2 => ?_
          · rw [if_pos older]
            exact .single (.drop .left l r ls rs hl hr beyond)
          · rw [if_pos older]
          · rw [h2]
            exact ih (hp.drop hl hr beyond) (shorter .left l ls hl)
        · have beyond : r.commonTimeNs + c.policy.maxPairNs < l.commonTimeNs := by
            rw [abs_of_nonneg (by omega)] at apart
            omega
          refine .bind (F := fun _ w' => w' = dropped .right r w1) (.modify ?_ trivial ?_) fun _ w2 h2 => ?_
          · rw [if_neg older]
            exact .single (.drop .right r l rs ls hr hl beyond)
          · rw [if_neg older]
          · rw [h2]
            exact ih (hp.drop hr hl beyond) (shorter .right r rs hr)
      · have near : near c l r = true := by simpa [near] using close
        show Does c (fuseHeads c history l r now) _ _ w1
        cases built : bundleOf c history l r (w1.state.bundleCounter + 1) with
        | ok b =>
          have fusible : Fusible c history now l r b w1 :=
            ⟨⟨ls, hl⟩, ⟨rs, hr⟩, near, age, built, hp.current, hp.live, hp.matched hl hr near⟩
          exact does_value (fuseHeads_ok built) (.emit history now l r b fusible) (hp.emit_ready hl hr b now)
        | error e =>
          obtain ⟨code, rfl⟩ := bundleOf_error built
          exact does_raised (fuseHeads_error built) (.latch code) (.of_empty (latch_empties _ _))
    · rename_i hne
      refine .pure (hp.ready ?_)
      cases hl : w.state.queues .left with
      | nil => exact .inl rfl
      | cons l ls =>
        cases hr : w.state.queues .right with
        | nil => exact .inr rfl
        | cons r rs => exact absurd hr (hne l ls r rs hl)

end Pair

section Calls

/-- Every outcome leaves the fusion ready. -/
abbrev Leaves (c : Config) {α : Type} (x : Act α) (w : World) : Prop :=
  Does c x (fun _ w' => Ready c w'.state) (fun _ w' => Ready c w'.state) w

theorem answered_does (hr : Ready c w.state) {w' : World} {e : Failure} (hq : Quiet w w')
    (he : e = .fusion "STREAM_EPOCH_CHANGED" ∨ Continues w.state w'.state) {E : Failure → World → Prop} :
    Does c (answered e) (fun _ w' => Ready c w'.state) E w' := by
  cases e with
  | fusion code =>
    refine .ite (fun duplicate => ?_) fun _ => latch_does code (.of_empty (latch_empties _ _))
    obtain rfl := duplicate
    have continues : Continues w.state w'.state := he.resolve_left (by decide)
    have ready := hr.keep hq.tracked continues
    exact .modify (.single .duplicate) trivial ⟨ready.apart, ready.bounded, ready.current, ready.empty⟩
  | other text =>
    have continues : Continues w.state w'.state := he.resolve_left (by simp)
    exact .pure (hr.keep hq.tracked continues)

theorem rejected_leaves {α : Type} (hr : Ready c w.state) {w' : World} {e : Failure} (hq : Quiet w w')
    (he : e = .fusion "STREAM_EPOCH_CHANGED" ∨ Continues w.state w'.state)
    {F : α → World → Prop} : Does c (rejected e : Act α) F (fun _ w' => Ready c w'.state) w' :=
  .bind (answered_does hr hq he) fun _ _ h => .raise h

theorem enqueue_does (hr : Ready c w.state) (live : w.state.latched = false) {x : Checked}
    {frame : Frame} {now : Int} {earlier : List Event}
    (hl : w.log = .pushed frame now s :: earlier) (ha : Accepts c s frame now side x)
    (hq : w.state.queues = s.queues) (he : w.state.epochs side = some x.streamEpoch)
    {E : Failure → World → Prop} :
    Does c (enqueue c side x) (fun _ w' => Pairing c side x s earlier w') E w := by
  refine .bind (F := fun _ w' => w' = (w.onState (inserted side x)).note (.enqueued side x))
    (.modify (.single (.enqueue side x frame now s earlier hl ha hq)) trivial rfl) fun _ w1 h1 => ?_
  have own : w1.state.queues side = List.insertionSort before (w.state.queues side ++ [x]) := by
    rw [h1]
    exact setQueue_self ..
  have opposite : w1.state.queues side.other = w.state.queues side.other := by
    rw [h1]
    exact setQueue_of_ne side.other_ne
  have log : w1.log = .enqueued side x :: .pushed frame now s :: earlier := by rw [h1, ← hl]; rfl
  have epochs : w1.state.epochs = w.state.epochs := by rw [h1]; rfl
  have unlatched : w1.state.latched = false := by rw [h1]; exact live
  refine .get_bind ((overflow_does side _ le_rfl).ensures fun _ w2 h2 => ?_)
  obtain ⟨l, grown, plain⟩ := h2.log
  have arrived : Arrived c side x s earlier w2.log := by
    rw [grown, log]
    exact Arrived.append ⟨frame, now, [], rfl, ha, by simp⟩ plain
  refine ⟨arrived, ?_, fun d f hf => ?_, h2.live.trans unlatched, fun d => ?_⟩
  · by_cases empty : w.state.queues side.other = []
    · exact .inl (h2.other.trans (opposite.trans empty))
    · have free : w.state.queues side = [] := by
        cases side with
        | left => exact hr.apart.resolve_right empty
        | right => exact hr.apart.resolve_left empty
      have one : w1.state.queues side = [x] := by
        rw [own, free]
        rfl
      have room : (w1.state.queues side).length ≤ c.policy.maxQueue := by
        rw [one]
        exact c.policy.counts_pos.2.1
      refine .inr (.inr ⟨(h2.kept room).trans one, [], ?_, by simp⟩)
      rw [h2.other, opposite, hq]
      rfl
  · rw [h2.epochs, epochs]
    by_cases hd : d = side
    · subst hd
      have member : f ∈ w1.state.queues d := h2.suffix.subset hf
      rw [own, List.mem_insertionSort, List.mem_append, List.mem_singleton] at member
      rcases member with old | rfl
      · exact hr.current d f old
      · exact he
    · obtain rfl := Side.eq_other hd
      rw [h2.other, opposite] at hf
      exact hr.current _ f hf
  · by_cases hd : d = side
    · subst hd
      exact h2.bounded
    · obtain rfl := Side.eq_other hd
      rw [h2.other, opposite]
      exact hr.bounded _

theorem push_leaves (hr : Ready c w.state) (frame : Frame) (now : Int) (history : History) :
    Leaves c (push c frame now history) w := by
  refine .get_bind ?_
  refine .bind (F := fun _ w' => w' = w ∧ w.state.latched = false)
    (.raiseIf (fun _ => hr) fun h => ⟨rfl, by simpa using h⟩) fun _ w1 h1 => ?_
  obtain ⟨rfl, live⟩ := h1
  refine .bind (F := fun _ w' => w' = w1.note (.pushed frame now w1.state))
    (.modify (.single (.push frame now live)) trivial rfl) fun _ w2 h2 => ?_
  have state : w2.state = w1.state := by rw [h2]; rfl
  have log : w2.log = .pushed frame now w1.state :: w1.log := by rw [h2]; rfl
  rw [← state] at hr live log
  refine .bind (.handle (check_does frame now) fun e w3 h3 => rejected_leaves hr h3.1 h3.2) fun r w3 h3 => ?_
  obtain ⟨accepts, quiet, continues, epoch⟩ := h3
  have ready := hr.keep quiet.tracked continues
  refine .bind (F := fun _ w' => Quiet w3 w' ∧ w'.state.epochs = w3.state.epochs)
    (change_does ⟨rfl, rfl, rfl, rfl⟩ ⟨⟨⟨rfl, rfl, rfl, rfl⟩, rfl⟩, rfl⟩) fun _ w4 h4 => ?_
  obtain ⟨quiet4, epochs4⟩ := h4
  have ready4 := ready.keep quiet4.tracked (.of_eq epochs4)
  have all := quiet.trans quiet4
  refine .bind (checkFreshness_does ready4 now) fun fresh w5 h5 => .get_bind ?_
  refine .bind (F := fun _ w' => w' = w5 ∧ fresh = true) (.raiseIf (fun stale => ?_) fun h => ⟨rfl, by simpa using h⟩)
    fun _ w6 h6 => ?_
  · rcases h5 with ⟨rfl, -⟩ | ⟨-, empty⟩
    · cases stale
    · exact .of_empty empty
  obtain ⟨rfl, rfl⟩ := h6
  obtain rfl : w6 = w4 := by
    rcases h5 with ⟨-, same⟩ | ⟨stale, -⟩
    · exact same
    · cases stale
  refine .bind (enqueue_does ready4 (all.tracked.latched.trans live) (all.log.trans log) accepts
    all.tracked.queues (epochs4 ▸ epoch)) fun _ w7 h7 => .get_bind ?_
  refine .bind (pair_does history now _ h7 le_rfl) fun result w8 h8 => ?_
  refine .bind (F := fun _ w' => Ready c w'.state) (.when (fun _ => ?_) fun _ => h8) fun _ _ h => .pure h
  exact change_does ⟨rfl, rfl, rfl, rfl⟩ (h8.keep ⟨rfl, rfl, rfl, rfl⟩ (.of_eq rfl))

theorem resume_leaves (hr : Ready c w.state) (request : Resume) : Leaves c (resume c request) w := by
  refine .bind (F := fun _ w' => w' = w) (.raiseIf (fun _ => hr) fun _ => rfl) fun _ w1 h1 => ?_
  refine .bind (F := fun _ w' => w' = w) (.raiseIf (fun _ => h1 ▸ hr) fun _ => h1) fun _ w2 h2 => ?_
  exact does_value rfl .resume (.of_empty fun _ => rfl)

theorem operate_leaves (hr : Ready c w.state) (o : Operation) {E : Failure → World → Prop} :
    Does c (operate c o) (fun _ w' => Ready c w'.state) E w := by
  have performed : Leaves c (perform c o) w := by
    cases o with
    | push frame now history => exact .bind (push_leaves hr frame now history) fun _ _ h => .pure h
    | checkFreshness now =>
      refine .bind (checkFreshness_does hr now) fun _ w1 h1 => .pure ?_
      rcases h1 with ⟨-, rfl⟩ | ⟨-, empty⟩
      · exact hr
      · exact .of_empty empty
    | latch reason => exact latch_does reason (.of_empty (latch_empties _ _))
    | resume request => exact resume_leaves hr request
  exact .handle performed fun _ _ h => .pure h

theorem run_does (hr : Ready c w.state) (ops : List Operation) {E : Failure → World → Prop} :
    Does c (run c ops) (fun _ w' => Ready c w'.state) E w := by
  induction ops generalizing w with
  | nil => exact .pure hr
  | cons o rest ih => exact .bind (operate_leaves hr o) fun _ _ h => ih h

theorem initial_ready (c : Config) : Ready c initial.state := .of_empty fun _ => rfl

theorem run_path (c : Config) (ops : List Operation) : Path (Move c) initial (run c ops initial).2 :=
  (run_does (E := fun _ _ => True) (initial_ready c) ops).path

theorem run_ready (c : Config) (ops : List Operation) : Ready c (run c ops initial).2.state := by
  have does : Does c (run c ops) (fun _ w' => Ready c w'.state) (fun _ w' => Ready c w'.state) initial := by
    exact run_does (initial_ready c) ops
  cases hr : (run c ops initial).1 with
  | value a => exact (does.value hr).2
  | raised e => exact (does.raised hr).2
  | cut => exact absurd hr (does.uncut id)

end Calls

end Smartwheel.Fusion

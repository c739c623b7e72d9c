import Mathlib.Data.List.Induction
import Mathlib.Data.List.Perm.Subperm
import Smartwheel.Calibration.RecordPairs

/-! What `iter_paired_records` makes of any records: every frame is counted once and paired once at most, and frames that come in order are
paired as often as is possible. -/
namespace Smartwheel.RecordPairs
open Effect
open HeadMerge (Matching Merge HeadStep)

def Counters.total (c : Counters) : ℕ :=
  c.oldStreamLate + c.invalidCommonTime + c.streamBoundaryFlush + c.queueOverflow + c.outsidePairWindow + 2 * c.paired + c.unmatchedEnd

def Queued.key (q : Queued) : List String := q.frame.rawKey

def Pair.members (p : Pair) : List Queued := [p.left, p.right]

def State.held (s : State) : List Queued := s.pairs.flatMap Pair.members ++ (s.queues.left ++ s.queues.right)

def State.weight (s : State) : ℕ := s.counters.total + (s.queues.left.length + s.queues.right.length)

variable {p : Policy} {s s' : State} {d d' : Drained}

/-! ### The loop over the heads -/

inductive Turn (p : Policy) : Drained → Drained → Prop
  | dropLeft {left right : Queued} {lefts rights : List Queued} {pairs : List Pair} {outside : ℕ}
      (early : left.stampNs + p.maxPairNs < right.stampNs) :
    Turn p ⟨left :: lefts, right :: rights, pairs, outside⟩ ⟨lefts, right :: rights, pairs, outside + 1⟩
  | dropRight {left right : Queued} {lefts rights : List Queued} {pairs : List Pair} {outside : ℕ}
      (early : right.stampNs + p.maxPairNs < left.stampNs) :
    Turn p ⟨left :: lefts, right :: rights, pairs, outside⟩ ⟨left :: lefts, rights, pairs, outside + 1⟩
  | pair {left right : Queued} {lefts rights : List Queued} {pairs : List Pair} {outside : ℕ}
      (near : |left.stampNs - right.stampNs| ≤ p.maxPairNs) :
    Turn p ⟨left :: lefts, right :: rights, pairs, outside⟩ ⟨lefts, rights, pairs ++ [pairOf p left right], outside⟩

theorem drain_turns {fuel : ℕ} (enough : d.left.length + d.right.length ≤ fuel) (h : drain p fuel d = .ok d') :
    Relation.ReflTransGen (Turn p) d d' ∧ (d'.left = [] ∨ d'.right = []) := by
  induction fuel generalizing d with
  | zero =>
    cases h
    exact ⟨.refl, .inl (List.length_eq_zero_iff.mp (by omega))⟩
  | succ fuel ih =>
    obtain ⟨lefts, rights, pairs, outside⟩ := d
    unfold drain at h
    cases lefts with
    | nil =>
      cases h
      exact ⟨.refl, .inl rfl⟩
    | cons left lefts =>
      cases rights with
      | nil =>
        cases h
        exact ⟨.refl, .inr rfl⟩
      | cons right rights =>
        simp only [List.length_cons] at enough
        dsimp only at h
        split at h
        · next far =>
          split at h
          · next first =>
            have early : left.stampNs + p.maxPairNs < right.stampNs := by
              rw [abs_of_neg first] at far
              omega
            obtain ⟨turns, done⟩ := ih (by simp only [List.length_cons]; omega) h
            exact ⟨.head (.dropLeft early) turns, done⟩
          · next second =>
            have early : right.stampNs + p.maxPairNs < left.stampNs := by
              rw [abs_of_nonneg (by omega)] at far
              omega
            obtain ⟨turns, done⟩ := ih (by simp only [List.length_cons]; omega) h
            exact ⟨.head (.dropRight early) turns, done⟩
        · next near =>
          split at h
          · cases h
          split at h
          · cases h
          obtain ⟨turns, done⟩ := ih (by simp only; omega) h
          exact ⟨.head (.pair (not_lt.mp near)) turns, done⟩

def Drained.held (d : Drained) : List Queued := d.pairs.flatMap Pair.members ++ (d.left ++ d.right)

def Drained.weight (d : Drained) : ℕ := d.outside + 2 * d.pairs.length + (d.left.length + d.right.length)

theorem Turn.held (h : Turn p d d') : d'.held.Subperm d.held := by
  cases h with
  | @dropLeft left right lefts rights pairs outside early =>
    exact List.Sublist.subperm ((((List.sublist_cons_self _ _).append_right _)).append_left _)
  | @dropRight left right lefts rights pairs outside early =>
    exact List.Sublist.subperm ((((List.sublist_cons_self _ _).append_left _)).append_left _)
  | @pair left right lefts rights pairs outside near =>
    refine List.Perm.subperm ?_
    show List.Perm ((pairs ++ [pairOf p left right]).flatMap Pair.members ++ (lefts ++ rights))
      (pairs.flatMap Pair.members ++ (left :: lefts ++ right :: rights))
    rw [List.flatMap_append, List.append_assoc]
    refine List.Perm.append_left _ ?_
    have moved : (right :: (lefts ++ rights)).Perm (lefts ++ right :: rights) := List.perm_middle.symm
    exact moved.cons left

theorem Turn.weight (h : Turn p d d') : d'.weight = d.weight := by
  cases h with
  | dropLeft early | dropRight early => simp only [Drained.weight, List.length_cons]; omega
  | pair near => simp only [Drained.weight, List.length_cons, List.length_append, List.length_nil]; omega

structure Turned (p : Policy) (d d' : Drained) : Prop where
  held : d'.held.Subperm d.held
  weight : d'.weight = d.weight
  left : d'.left <:+ d.left
  right : d'.right <:+ d.right
  paired : ∃ new, d'.pairs = d.pairs ++ new ∧ ∀ pair ∈ new, pair.left ∈ d.left ∧ pair.right ∈ d.right ∧
    |pair.left.stampNs - pair.right.stampNs| ≤ p.maxPairNs

theorem turns_turned (h : Relation.ReflTransGen (Turn p) d d') : Turned p d d' := by
  induction h using Relation.ReflTransGen.head_induction_on with
  | refl =>
    exact ⟨List.Subperm.refl _, rfl, List.suffix_refl _, List.suffix_refl _, [], (List.append_nil _).symm, fun pair here => by cases here⟩
  | head one _ ih =>
    obtain ⟨new, same, inside⟩ := ih.paired
    have held := ih.held.trans one.held
    have weight := ih.weight.trans one.weight
    cases one with
    | dropLeft early =>
      exact ⟨held, weight, ih.left.trans (List.suffix_cons _ _), ih.right, new, same, fun pair here =>
        ⟨List.mem_cons_of_mem _ (inside pair here).1, (inside pair here).2⟩⟩
    | dropRight early =>
      exact ⟨held, weight, ih.left, ih.right.trans (List.suffix_cons _ _), new, same, fun pair here =>
        ⟨(inside pair here).1, List.mem_cons_of_mem _ (inside pair here).2.1, (inside pair here).2.2⟩⟩
    | @pair left right lefts rights pairs outside near =>
      refine ⟨held, weight, ih.left.trans (List.suffix_cons _ _), ih.right.trans (List.suffix_cons _ _), pairOf p left right :: new, ?_, ?_⟩
      · rw [same, List.append_assoc]
        rfl
      · intro pair here
        rcases List.mem_cons.mp here with rfl | here
        · exact ⟨List.mem_cons_self, List.mem_cons_self, near⟩
        · obtain ⟨left, right, near⟩ := inside pair here
          exact ⟨List.mem_cons_of_mem _ left, List.mem_cons_of_mem _ right, near⟩

/-! ### One record -/

theorem pairHeads_ok (h : pairHeads p s = .ok s') :
    ∃ d, Relation.ReflTransGen (Turn p) ⟨s.queues.left, s.queues.right, [], 0⟩ d ∧ (d.left = [] ∨ d.right = []) ∧
      s' = { s with
        queues := ⟨d.left, d.right⟩
        pairs := s.pairs ++ d.pairs
        counters := { s.counters with
          outsidePairWindow := s.counters.outsidePairWindow + d.outside
          paired := s.counters.paired + d.pairs.length } } := by
  obtain ⟨d, drained, h⟩ := bind_eq_ok h
  obtain ⟨turns, done⟩ := drain_turns (d := ⟨s.queues.left, s.queues.right, [], 0⟩) (le_refl _) drained
  exact ⟨d, turns, done, (Except.ok.inj h).symm⟩

inductive Admitted (p : Policy) (s : State) (side : Side) (frame : Frame) : State → Prop
  | late (old : frame.stream ∈ s.oldEpochs.get side) :
    Admitted p s side frame { s with counters := { s.counters with oldStreamLate := s.counters.oldStreamLate + 1 } }
  | invalid (new : frame.stream ∉ s.oldEpochs.get side) (untimed : stampOf p frame = none) :
    Admitted p s side frame { activate s side frame.stream with
      counters := { (activate s side frame.stream).counters with
        invalidCommonTime := (activate s side frame.stream).counters.invalidCommonTime + 1 } }
  | queued {stamp : ℤ} {s' : State} (new : frame.stream ∉ s.oldEpochs.get side) (timed : stampOf p frame = some stamp)
      (paired : pairHeads p (enqueue p (activate s side frame.stream) side ⟨frame, stamp, (activate s side frame.stream).changes⟩) = .ok s') :
    Admitted p s side frame s'

variable {side : Side}

theorem accept_admitted {frame : Frame} (h : accept p s side frame = .ok s') : Admitted p s side frame s' := by
  unfold accept at h
  split at h
  · next old =>
    cases h
    exact .late old
  · next new =>
    dsimp only at h
    split at h
    · next untimed =>
      cases h
      exact .invalid new untimed
    · next stamp timed => exact .queued new timed h

def taken (s : State) (frame : Frame) : State :=
  { s with index := s.index + 1, session := some (s.session.getD frame.sessionId), seen := frame.rawKey :: s.seen }

theorem consume_ok {frame : Frame} (h : consume p s frame = .ok s') :
    ∃ side, sideOf frame.side = .ok side ∧ frame.rawKey ∉ s.seen ∧ Admitted p (taken s frame) side frame s' := by
  unfold consume at h
  simp only [bind_eq_ok_iff] at h
  obtain ⟨_, -, side, known, _, -, _, new, h⟩ := h
  exact ⟨side, known, refuse_ok new, accept_admitted h⟩

/-! ### What is counted -/

theorem activate_weight (s : State) (side : Side) (stream : Stream) : (activate s side stream).weight = s.weight := by
  unfold activate
  cases s.active.get side with
  | none => rfl
  | some old =>
    dsimp only
    split
    · rfl
    · simp only [State.weight, Counters.total, List.length_nil]
      omega

theorem enqueue_weight (s : State) (side : Side) (q : Queued) : (enqueue p s side q).weight = s.weight + 1 := by
  unfold enqueue
  dsimp only
  split
  · cases side <;> simp [State.weight, Counters.total, Sides.set, Sides.get] <;> omega
  · cases side <;> simp [State.weight, Sides.set, Sides.get] <;> omega

theorem pairHeads_weight (h : pairHeads p s = .ok s') : s'.weight = s.weight := by
  obtain ⟨d, turns, -, rfl⟩ := pairHeads_ok h
  have weight := (turns_turned turns).weight
  simp only [Drained.weight, List.length_nil] at weight
  simp only [State.weight, Counters.total]
  omega

theorem Admitted.weight {frame : Frame} (h : Admitted p s side frame s') : s'.weight = s.weight + 1 := by
  cases h with
  | late old => simp only [State.weight, Counters.total]; omega
  | invalid new untimed =>
    rw [← activate_weight s side frame.stream]
    simp only [State.weight, Counters.total]
    omega
  | queued new timed paired => rw [pairHeads_weight paired, enqueue_weight, activate_weight]

/-! ### What is held -/

theorem activate_held (s : State) (side : Side) (stream : Stream) : (activate s side stream).held.Subperm s.held := by
  unfold activate
  cases s.active.get side with
  | none => exact List.Subperm.refl _
  | some old =>
    dsimp only
    split
    · exact List.Subperm.refl _
    · exact ((List.nil_sublist _).append_left _).subperm

theorem enqueue_held (s : State) (side : Side) (q : Queued) : (enqueue p s side q).held.Subperm (q :: s.held) := by
  have whole : State.held { s with queues := s.queues.set side ((s.queues.get side ++ [q]).mergeSort before) } |>.Perm (q :: s.held) := by
    have sorted := List.mergeSort_perm (s.queues.get side ++ [q]) before
    have added := sorted.trans (List.perm_append_singleton q _)
    cases side with
    | left =>
      refine ((added.append_right s.queues.right).append_left _).trans ?_
      exact List.perm_middle
    | right =>
      refine ((added.append_left s.queues.left).append_left _).trans ?_
      refine (List.perm_middle.append_left _).trans ?_
      exact List.perm_middle
  unfold enqueue
  dsimp only
  split
  · refine List.Subperm.trans ?_ whole.subperm
    cases side with
    | left => exact (((List.tail_sublist _).append_right _).append_left _).subperm
    | right => exact (((List.tail_sublist _).append_left _).append_left _).subperm
  · exact whole.subperm

theorem pairHeads_held (h : pairHeads p s = .ok s') : s'.held.Subperm s.held := by
  obtain ⟨d, turns, -, rfl⟩ := pairHeads_ok h
  have held := (turns_turned turns).held
  simp only [State.held, List.flatMap_append, List.append_assoc]
  refine (List.subperm_append_left _).mpr ?_
  simpa only [Drained.held, List.flatMap_nil, List.nil_append, List.append_assoc] using held

theorem keys_subperm {a b : List Queued} (h : a.Subperm b) : (a.map Queued.key).Subperm (b.map Queued.key) := by
  obtain ⟨l, same, inside⟩ := h
  exact ⟨l.map Queued.key, same.map _, inside.map _⟩

theorem Admitted.held {frame : Frame} (h : Admitted p s side frame s') :
    (s'.held.map Queued.key).Subperm (frame.rawKey :: s.held.map Queued.key) := by
  cases h with
  | late old => exact (List.sublist_cons_self _ _).subperm
  | invalid new untimed =>
    exact (keys_subperm (activate_held s side frame.stream)).trans (List.sublist_cons_self _ _).subperm
  | @queued stamp _ new timed paired =>
    have added := (pairHeads_held paired).trans (enqueue_held _ _ _)
    refine (keys_subperm added).trans ?_
    exact (List.subperm_cons _).mpr (keys_subperm (activate_held s side frame.stream))

/-! ### Streams -/

def Current (s : State) : Prop :=
  ∀ side, ∀ q ∈ s.queues.get side, s.active.get side = some q.frame.stream ∧ q.changes = s.changes

theorem activate_current (h : Current s) (side : Side) (stream : Stream) :
    Current (activate s side stream) ∧ (activate s side stream).active.get side = some stream := by
  refine ⟨?_, by simp [activate]⟩
  unfold activate
  cases was : s.active.get side with
  | none =>
    intro other q here
    obtain ⟨stays, same⟩ := h other q here
    refine ⟨?_, same⟩
    by_cases own : other = side
    · rw [own, was] at stays
      cases stays
    · cases side <;> cases other <;> first | exact stays | exact absurd rfl own
  | some old =>
    dsimp only
    split
    · next unchanged =>
      intro other q here
      obtain ⟨stays, same⟩ := h other q here
      refine ⟨?_, same⟩
      by_cases own : other = side
      · rw [own] at stays ⊢
        rw [Sides.get_set, unchanged, ← stays, was]
      · cases side <;> cases other <;> first | exact stays | exact absurd rfl own
    · intro other q here
      cases other <;> cases here

variable {q : Queued}

theorem mem_enqueued {s : State} {other : Side} {x : Queued} (here : x ∈ (enqueue p s side q).queues.get other) :
    (other = side ∧ x = q) ∨ x ∈ s.queues.get other := by
  have whole : x ∈ (s.queues.set side ((s.queues.get side ++ [q]).mergeSort before)).get other := by
    unfold enqueue at here
    dsimp only at here
    split at here
    · cases side <;> cases other <;> first | exact List.mem_of_mem_tail here | exact here
    · exact here
  by_cases own : other = side
  · rw [own, Sides.get_set, List.mem_mergeSort, List.mem_append, List.mem_singleton] at whole
    rw [own]
    exact whole.symm.imp_left fun same => ⟨rfl, same⟩
  · refine .inr ?_
    cases side <;> cases other <;> first | exact whole | exact absurd rfl own

theorem enqueue_same (s : State) (side : Side) (q : Queued) :
    (enqueue p s side q).active = s.active ∧ (enqueue p s side q).changes = s.changes ∧ (enqueue p s side q).pairs = s.pairs ∧
      (enqueue p s side q).seen = s.seen ∧ (enqueue p s side q).index = s.index := by
  unfold enqueue
  dsimp only
  split <;> exact ⟨rfl, rfl, rfl, rfl, rfl⟩

theorem enqueue_current (h : Current s) (active : s.active.get side = some q.frame.stream)
    (now : q.changes = s.changes) : Current (enqueue p s side q) := by
  intro other x here
  rw [(enqueue_same s side q).1, (enqueue_same s side q).2.1]
  rcases mem_enqueued here with ⟨rfl, rfl⟩ | before
  · exact ⟨active, now⟩
  · exact h other x before

structure Fresh (p : Policy) (s : State) (pair : Pair) : Prop where
  left : s.active.left = some pair.left.frame.stream
  right : s.active.right = some pair.right.frame.stream
  unchanged : pair.left.changes = s.changes ∧ pair.right.changes = s.changes
  near : |pair.left.stampNs - pair.right.stampNs| ≤ p.maxPairNs

theorem pairHeads_current (h : pairHeads p s = .ok s') (current : Current s) :
    Current s' ∧ ∃ new, s'.pairs = s.pairs ++ new ∧ ∀ pair ∈ new, Fresh p s' pair := by
  obtain ⟨d, turns, -, rfl⟩ := pairHeads_ok h
  have turned := turns_turned turns
  obtain ⟨new, same, inside⟩ := turned.paired
  refine ⟨?_, new, ?_, fun pair here => ?_⟩
  · rintro (_ | _) q here
    · exact current .left q (turned.left.subset here)
    · exact current .right q (turned.right.subset here)
  · rw [same, List.nil_append]
  · obtain ⟨left, right, near⟩ := inside pair here
    exact ⟨(current .left _ left).1, (current .right _ right).1, ⟨(current .left _ left).2, (current .right _ right).2⟩, near⟩

theorem Admitted.current {frame : Frame} (h : Admitted p s side frame s') (current : Current s) :
    Current s' ∧ ∃ new, s'.pairs = s.pairs ++ new ∧ ∀ pair ∈ new, Fresh p s' pair := by
  have pairs : (activate s side frame.stream).pairs = s.pairs := by
    unfold activate
    cases s.active.get side with
    | none => rfl
    | some old => dsimp only; split <;> rfl
  obtain ⟨after, active⟩ := activate_current current side frame.stream
  cases h with
  | late old => exact ⟨current, [], (List.append_nil _).symm, fun pair here => by cases here⟩
  | invalid new untimed => exact ⟨after, [], pairs.trans (List.append_nil _).symm, fun pair here => by cases here⟩
  | @queued stamp _ new timed paired =>
    obtain ⟨current', new, same, fresh⟩ := pairHeads_current paired (enqueue_current after active rfl)
    rw [(enqueue_same _ _ _).2.2.1, pairs] at same
    exact ⟨current', new, same, fresh⟩

/-! ### Lengths -/

structure Short (p : Policy) (s : State) : Prop where
  one : s.queues.left = [] ∨ s.queues.right = []
  bound : ∀ side, (s.queues.get side).length ≤ p.maxQueue

theorem activate_short (h : Short p s) (side : Side) (stream : Stream) : Short p (activate s side stream) := by
  unfold activate
  cases s.active.get side with
  | none => exact ⟨h.one, h.bound⟩
  | some old =>
    dsimp only
    split
    · exact ⟨h.one, h.bound⟩
    · refine ⟨.inl rfl, fun other => ?_⟩
      have positive := p.valid.2.1
      cases other <;> simp only [Sides.get, List.length_nil] <;> omega

theorem enqueue_bound (h : Short p s) (side : Side) (q : Queued) (other : Side) :
    ((enqueue p s side q).queues.get other).length ≤ p.maxQueue := by
  have before := h.bound other
  have own := h.bound side
  unfold enqueue
  dsimp only
  split
  · next long => cases side <;> cases other <;> simp_all [Sides.set, Sides.get]
  · next short => cases side <;> cases other <;> simp_all [Sides.set, Sides.get]

theorem Admitted.short {frame : Frame} (h : Admitted p s side frame s') (before : Short p s) : Short p s' := by
  have after := activate_short before side frame.stream
  cases h with
  | late old => exact ⟨before.one, before.bound⟩
  | invalid new untimed => exact ⟨after.one, after.bound⟩
  | @queued stamp _ new timed paired =>
    have bound := enqueue_bound after side ⟨frame, stamp, (activate s side frame.stream).changes⟩
    obtain ⟨d, turns, done, rfl⟩ := pairHeads_ok paired
    have turned := turns_turned turns
    refine ⟨done, fun other => ?_⟩
    cases other with
    | left => exact le_trans (by exact_mod_cast turned.left.length_le) (bound .left)
    | right => exact le_trans (by exact_mod_cast turned.right.length_le) (bound .right)

/-! ### Runs -/

theorem activate_same (s : State) (side : Side) (stream : Stream) :
    (activate s side stream).seen = s.seen ∧ (activate s side stream).index = s.index := by
  unfold activate
  cases s.active.get side with
  | none => exact ⟨rfl, rfl⟩
  | some old => dsimp only; split <;> exact ⟨rfl, rfl⟩

theorem pairHeads_same (h : pairHeads p s = .ok s') : s'.seen = s.seen ∧ s'.index = s.index := by
  obtain ⟨d, -, -, rfl⟩ := pairHeads_ok h
  exact ⟨rfl, rfl⟩

theorem Admitted.same {frame : Frame} (h : Admitted p s side frame s') : s'.seen = s.seen ∧ s'.index = s.index := by
  have active := activate_same s side frame.stream
  cases h with
  | late old => exact ⟨rfl, rfl⟩
  | invalid new untimed => exact active
  | queued new timed paired =>
    have queue := enqueue_same (p := p) (activate s side frame.stream) side
    obtain ⟨seen, index⟩ := pairHeads_same paired
    exact ⟨seen.trans ((queue _).2.2.2.1.trans active.1), index.trans ((queue _).2.2.2.2.trans active.2)⟩

structure Kept (p : Policy) (diagnostics : Counters) (s : State) : Prop where
  counted : s.weight = diagnostics.total + s.index
  single : (s.held.map Queued.key).Nodup
  seen : ∀ key ∈ s.held.map Queued.key, key ∈ s.seen
  short : Short p s
  current : Current s

theorem start_kept (p : Policy) (diagnostics : Counters) : Kept p diagnostics (State.start diagnostics) where
  counted := rfl
  single := List.nodup_nil
  seen key here := by cases here
  short := by
    refine ⟨.inl rfl, fun side => ?_⟩
    have positive := p.valid.2.1
    cases side <;> simp only [State.start, Sides.get, List.length_nil] <;> omega
  current side q here := by cases side <;> cases here

variable {diagnostics : Counters}

theorem consume_kept {frame : Frame} (h : consume p s frame = .ok s') (kept : Kept p diagnostics s) :
    Kept p diagnostics s' ∧ s'.index = s.index + 1 ∧ ∃ new, s'.pairs = s.pairs ++ new ∧ ∀ pair ∈ new, Fresh p s' pair := by
  obtain ⟨side, -, unseen, admitted⟩ := consume_ok h
  obtain ⟨seen, index⟩ := admitted.same
  obtain ⟨current, made⟩ := admitted.current (s := taken s frame) kept.current
  refine ⟨⟨?_, ?_, fun key here => ?_, admitted.short ⟨kept.short.one, kept.short.bound⟩, current⟩, index, made⟩
  · have weight : s'.weight = s.weight + 1 := admitted.weight
    rw [weight, kept.counted, index]
    rfl
  · obtain ⟨l, same, inside⟩ := admitted.held
    refine same.nodup_iff.mp (inside.nodup (List.nodup_cons.mpr ⟨fun here => unseen ?_, kept.single⟩))
    exact kept.seen _ here
  · rw [seen]
    rcases List.mem_cons.mp (admitted.held.subset here) with rfl | before
    · exact List.mem_cons_self
    · exact List.mem_cons_of_mem _ (kept.seen key before)

theorem consumeAll_snoc {records : List Frame} {frame : Frame} :
    consumeAll p diagnostics (records ++ [frame]) = (consumeAll p diagnostics records >>= (consume p · frame)) := by
  simp [consumeAll, List.foldlM_append]

theorem consumeAll_kept {records : List Frame} (h : consumeAll p diagnostics records = .ok s) :
    Kept p diagnostics s ∧ s.index = records.length := by
  induction records using List.reverseRecOn generalizing s with
  | nil =>
    cases h
    exact ⟨start_kept p diagnostics, rfl⟩
  | append_singleton records frame ih =>
    rw [consumeAll_snoc] at h
    obtain ⟨t, before, h⟩ := bind_eq_ok h
    obtain ⟨kept, index⟩ := ih before
    obtain ⟨kept', index', -⟩ := consume_kept h kept
    exact ⟨kept', by rw [index', index, List.length_append, List.length_singleton]⟩

/-! ### Frames in order -/

def stamps (p : Policy) (side : Side) (records : List Frame) : List ℤ :=
  (records.filter fun frame => sideOf frame.side = .ok side).filterMap (stampOf p)

def Pair.stamps (pair : Pair) : ℤ × ℤ := (pair.left.stampNs, pair.right.stampNs)

def mergeOf (left right : List Queued) (pairs : List Pair) : Merge ℤ :=
  ⟨left.map Queued.stampNs, right.map Queued.stampNs, pairs.map Pair.stamps⟩

def State.merge (s : State) : Merge ℤ := mergeOf s.queues.left s.queues.right s.pairs

theorem turns_merge (h : Relation.ReflTransGen (Turn p) d d') (pairs : List Pair) :
    Relation.ReflTransGen (HeadStep id p.maxPairNs) (mergeOf d.left d.right (pairs ++ d.pairs)) (mergeOf d'.left d'.right (pairs ++ d'.pairs)) := by
  refine h.lift (fun d => mergeOf d.left d.right (pairs ++ d.pairs)) fun a b one => ?_
  cases one with
  | dropLeft early => exact .dropLeft early
  | dropRight early => exact .dropRight early
  | @pair left right lefts rights made outside near =>
    show HeadStep id p.maxPairNs (mergeOf (left :: lefts) (right :: rights) (pairs ++ made))
      (mergeOf lefts rights (pairs ++ (made ++ [pairOf p left right])))
    have last : (pairs ++ (made ++ [pairOf p left right])).map Pair.stamps = (pairs ++ made).map Pair.stamps ++ [(left.stampNs, right.stampNs)] := by
      rw [← List.append_assoc, List.map_append]
      rfl
    rw [mergeOf, mergeOf, last]
    exact .pair near

theorem activate_unchanged (s : State) (side : Side) (stream : Stream) (h : (activate s side stream).changes = s.changes) :
    (activate s side stream).queues = s.queues ∧ (activate s side stream).pairs = s.pairs ∧ (activate s side stream).oldEpochs = s.oldEpochs := by
  unfold activate at h ⊢
  cases was : s.active.get side with
  | none => exact ⟨rfl, rfl, rfl⟩
  | some old =>
    rw [was] at h
    dsimp only at h ⊢
    split
    · exact ⟨rfl, rfl, rfl⟩
    · next changed =>
      rw [if_neg changed] at h
      exact absurd h (Nat.succ_ne_self _)

theorem activate_mono (s : State) (side : Side) (stream : Stream) :
    s.changes ≤ (activate s side stream).changes ∧ (activate s side stream).counters.queueOverflow = s.counters.queueOverflow := by
  unfold activate
  cases s.active.get side with
  | none => exact ⟨le_refl _, rfl⟩
  | some old =>
    dsimp only
    split
    · exact ⟨le_refl _, rfl⟩
    · exact ⟨Nat.le_succ _, rfl⟩

theorem enqueue_mono (s : State) (side : Side) (q : Queued) :
    s.counters.queueOverflow ≤ (enqueue p s side q).counters.queueOverflow ∧ (enqueue p s side q).oldEpochs = s.oldEpochs ∧
      ((enqueue p s side q).counters.queueOverflow = s.counters.queueOverflow →
        (enqueue p s side q).queues = s.queues.set side ((s.queues.get side ++ [q]).mergeSort before)) := by
  unfold enqueue
  dsimp only
  split
  · exact ⟨Nat.le_succ _, rfl, fun same => absurd same (Nat.succ_ne_self _)⟩
  · exact ⟨le_refl _, rfl, fun _ => rfl⟩

def Unbroken (diagnostics : Counters) (s : State) : Prop :=
  diagnostics.queueOverflow ≤ s.counters.queueOverflow ∧ (s.changes = 0 → ∀ side, s.oldEpochs.get side = [])

theorem Admitted.mono {frame : Frame} (h : Admitted p s side frame s') :
    s.changes ≤ s'.changes ∧ s.counters.queueOverflow ≤ s'.counters.queueOverflow ∧ (s'.changes = s.changes → s'.oldEpochs = s.oldEpochs) := by
  obtain ⟨changes, overflow⟩ := activate_mono s side frame.stream
  have unchanged := activate_unchanged s side frame.stream
  cases h with
  | late old => exact ⟨le_refl _, le_refl _, fun _ => rfl⟩
  | invalid new untimed => exact ⟨changes, overflow.ge, fun same => (unchanged same).2.2⟩
  | @queued stamp _ new timed paired =>
    obtain ⟨d, -, -, rfl⟩ := pairHeads_ok paired
    have queue := enqueue_mono (p := p) (activate s side frame.stream) side ⟨frame, stamp, (activate s side frame.stream).changes⟩
    have same := enqueue_same (p := p) (activate s side frame.stream) side ⟨frame, stamp, (activate s side frame.stream).changes⟩
    refine ⟨changes.trans same.2.1.ge, overflow.ge.trans queue.1, fun still => ?_⟩
    exact queue.2.1.trans (unchanged (same.2.1.symm.trans still)).2.2

theorem consume_unbroken {frame : Frame} (h : consume p s frame = .ok s') (before : Unbroken diagnostics s) :
    Unbroken diagnostics s' := by
  obtain ⟨side, -, -, admitted⟩ := consume_ok h
  obtain ⟨changes, overflow, old⟩ := admitted.mono
  refine ⟨before.1.trans overflow, fun none => ?_⟩
  have was : s.changes = 0 := Nat.le_zero.mp (none ▸ changes)
  rw [old (none.trans was.symm)]
  exact before.2 was

theorem consumeAll_unbroken {records : List Frame} (h : consumeAll p diagnostics records = .ok s) :
    Unbroken diagnostics s := by
  induction records using List.reverseRecOn generalizing s with
  | nil =>
    cases h
    exact ⟨le_refl _, fun _ side => by cases side <;> rfl⟩
  | append_singleton records frame ih =>
    rw [consumeAll_snoc] at h
    obtain ⟨t, before, h⟩ := bind_eq_ok h
    exact consume_unbroken h (ih before)

theorem mergeSort_later {queue : List Queued} (h : (queue.map Queued.stampNs ++ [q.stampNs]).Pairwise (· < ·)) :
    (queue ++ [q]).mergeSort before = queue ++ [q] := by
  refine List.mergeSort_of_pairwise ?_
  rw [← List.map_singleton, ← List.map_append, List.pairwise_map] at h
  exact h.imp fun first => by simp only [before, decide_eq_true_eq]; exact .inl first

theorem stamps_other {other : Side} {records : List Frame} {frame : Frame} (known : sideOf frame.side = .ok side) (h : other ≠ side) :
    stamps p other (records ++ [frame]) = stamps p other records := by
  have differs : ¬sideOf frame.side = .ok other := fun same => h (Except.ok.inj (same.symm.trans known))
  simp [stamps, List.filter_append, differs]

theorem stamps_own {records : List Frame} {frame : Frame} (known : sideOf frame.side = .ok side) :
    stamps p side (records ++ [frame]) = stamps p side records ++ (stampOf p frame).toList := by
  cases timed : stampOf p frame <;> simp [stamps, List.filter_append, known, timed]

def mergeStart (p : Policy) (records : List Frame) : Merge ℤ := ⟨stamps p .left records, stamps p .right records, []⟩

def feedSide (m : Merge ℤ) (side : Side) (stamp : ℤ) : Merge ℤ :=
  match side with
  | .left => m.feed [stamp] []
  | .right => m.feed [] [stamp]

theorem mergeStart_untimed {records : List Frame} {frame : Frame} (known : sideOf frame.side = .ok side)
    (untimed : stampOf p frame = none) : mergeStart p (records ++ [frame]) = mergeStart p records := by
  have own : stamps p side (records ++ [frame]) = _ := stamps_own known
  rw [untimed, Option.toList_none, List.append_nil] at own
  cases side with
  | left | right => rw [mergeStart, mergeStart, own, stamps_other known (by decide)]

theorem mergeStart_timed {records : List Frame} {frame : Frame} {stamp : ℤ} (known : sideOf frame.side = .ok side)
    (timed : stampOf p frame = some stamp) : mergeStart p (records ++ [frame]) = feedSide (mergeStart p records) side stamp := by
  have own : stamps p side (records ++ [frame]) = _ := stamps_own known
  rw [timed, Option.toList_some] at own
  cases side with
  | left | right => rw [mergeStart, mergeStart, own, stamps_other known (by decide), feedSide, Merge.feed, List.append_nil]

theorem feedSide_reaches {m m' : Merge ℤ} (h : Relation.ReflTransGen (HeadStep id p.maxPairNs) m m') (side : Side) (stamp : ℤ) :
    Relation.ReflTransGen (HeadStep id p.maxPairNs) (feedSide m side stamp) (feedSide m' side stamp) := by
  cases side with
  | left => exact Merge.feed_reaches h [stamp] []
  | right => exact Merge.feed_reaches h [] [stamp]

theorem pairHeads_merge (h : pairHeads p s = .ok s') {t : State} (pairs : s.pairs = t.pairs)
    (queues : s.queues = t.queues.set side (t.queues.get side ++ [q])) :
    Relation.ReflTransGen (HeadStep id p.maxPairNs) (feedSide t.merge side q.stampNs) s'.merge := by
  obtain ⟨d, turns, -, rfl⟩ := pairHeads_ok h
  have merged := turns_merge turns s.pairs
  rw [queues, pairs, List.append_nil] at merged
  rw [State.merge, State.merge, pairs]
  cases side with
  | left =>
    simp only [Sides.set, Sides.get, mergeOf, List.map_append] at merged
    simpa only [feedSide, Merge.feed, mergeOf, List.append_nil, List.map_append, List.map_cons, List.map_nil] using merged
  | right =>
    simp only [Sides.set, Sides.get, mergeOf, List.map_append] at merged
    simpa only [feedSide, Merge.feed, mergeOf, List.append_nil, List.map_append, List.map_cons, List.map_nil] using merged

theorem queue_sublist {records : List Frame} (h : Relation.ReflTransGen (HeadStep id p.maxPairNs) (mergeStart p records) s.merge) (side : Side) :
    ((s.queues.get side).map Queued.stampNs).Sublist (stamps p side records) := by
  cases side with
  | left => exact (List.sublist_append_right _ _).trans (Merge.sublist h).1
  | right => exact (List.sublist_append_right _ _).trans (Merge.sublist h).2

theorem consumeAll_merge {records : List Frame} (h : consumeAll p diagnostics records = .ok s) (unchanged : s.changes = 0)
    (room : s.counters.queueOverflow = diagnostics.queueOverflow) (ordered : ∀ side, (stamps p side records).Pairwise (· < ·)) :
    Relation.ReflTransGen (HeadStep id p.maxPairNs) (mergeStart p records) s.merge := by
  induction records using List.reverseRecOn generalizing s with
  | nil =>
    cases h
    exact .refl
  | append_singleton records frame ih =>
    rw [consumeAll_snoc] at h
    obtain ⟨t, before, h⟩ := bind_eq_ok h
    obtain ⟨side, known, -, admitted⟩ := consume_ok h
    obtain ⟨changes, overflow, -⟩ := admitted.mono
    have unbroken := consumeAll_unbroken before
    have was : t.changes = 0 := Nat.le_zero.mp (unchanged ▸ changes)
    have wasRoom : t.counters.queueOverflow = diagnostics.queueOverflow := le_antisymm (room ▸ overflow) unbroken.1
    have prefixes : ∀ side, (stamps p side records).Sublist (stamps p side (records ++ [frame])) := fun side =>
      ((List.sublist_append_left _ _).filter _).filterMap _
    have reached := ih before was wasRoom fun side => (ordered side).sublist (prefixes side)
    cases admitted with
    | late old =>
      rw [show (taken t frame).oldEpochs = t.oldEpochs from rfl, unbroken.2 was side] at old
      cases old
    | invalid new untimed =>
      obtain ⟨queues, pairs, -⟩ := activate_unchanged (taken t frame) side frame.stream (unchanged.trans was.symm)
      rw [mergeStart_untimed known untimed, State.merge]
      dsimp only
      rw [queues, pairs]
      exact reached
    | @queued stamp _ new timed paired =>
      obtain ⟨made, -, -, same⟩ := pairHeads_ok paired
      have queue := enqueue_mono (p := p) (activate (taken t frame) side frame.stream) side
        ⟨frame, stamp, (activate (taken t frame) side frame.stream).changes⟩
      have kept := enqueue_same (p := p) (activate (taken t frame) side frame.stream) side
        ⟨frame, stamp, (activate (taken t frame) side frame.stream).changes⟩
      have still : (activate (taken t frame) side frame.stream).changes = (taken t frame).changes := by
        rw [← kept.2.1, show (taken t frame).changes = 0 from was, ← unchanged, same]
      obtain ⟨queues, pairs, -⟩ := activate_unchanged (taken t frame) side frame.stream still
      have noOverflow := (activate_mono (taken t frame) side frame.stream).2
      have grown := queue.2.2 <| by
        rw [noOverflow, show (taken t frame).counters = t.counters from rfl, wasRoom, ← room, same]
      have sorted : ((t.queues.get side).map Queued.stampNs ++ [stamp]).Pairwise (· < ·) := by
        refine (ordered side).sublist ?_
        rw [stamps_own known, timed]
        exact (queue_sublist reached side).append_right _
      rw [queues, mergeSort_later (by exact sorted)] at grown
      rw [mergeStart_timed known timed]
      exact (feedSide_reaches reached side stamp).trans (pairHeads_merge paired (kept.2.2.1.trans pairs) grown)

theorem merge_matching {m : Merge ℤ} {left right : List ℤ} {w : ℤ} (h : Relation.ReflTransGen (HeadStep id w) ⟨left, right, []⟩ m) :
    (m.pairs.map Prod.fst).Sublist left ∧ (m.pairs.map Prod.snd).Sublist right ∧ ∀ pair ∈ m.pairs, |pair.1 - pair.2| ≤ w := by
  obtain ⟨lefts, rights⟩ := Merge.sublist h
  refine ⟨(List.sublist_append_left _ _).trans lefts, (List.sublist_append_left _ _).trans rights, ?_⟩
  clear lefts rights
  induction h with
  | refl => exact fun pair here => by cases here
  | tail _ one ih =>
    cases one with
    | dropLeft early | dropRight early => exact ih
    | pair near =>
      intro pair here
      rcases List.mem_append.mp here with before | last
      · exact ih pair before
      · rw [List.mem_singleton.mp last]
        exact near

structure Paired (p : Policy) (diagnostics : Counters) (records : List Frame) (pairs : List Pair) (counters : Counters) : Prop where
  once : ((pairs.flatMap Pair.members).map Queued.key).Nodup
  counted : counters.total = diagnostics.total + records.length
  between : ∀ before frame after, records = before ++ frame :: after → ∃ s s', consumeAll p diagnostics before = .ok s ∧
    consume p s frame = .ok s' ∧ Short p s' ∧ ∃ new, s'.pairs = s.pairs ++ new ∧ ∀ pair ∈ new, Fresh p s' pair
  most : ∀ s, consumeAll p diagnostics records = .ok s → s.changes = 0 → s.counters.queueOverflow = diagnostics.queueOverflow →
    (∀ side, (stamps p side records).Pairwise (· < ·)) →
      (pairs.map fun pair => pair.left.stampNs).Pairwise (· < ·) ∧ (pairs.map fun pair => pair.right.stampNs).Pairwise (· < ·) ∧
        Matching id p.maxPairNs (stamps p .left records) (stamps p .right records) (pairs.map Pair.stamps) ∧
        ∀ m, Matching id p.maxPairNs (stamps p .left records) (stamps p .right records) m → m.length ≤ pairs.length

theorem consumeAll_between {before after : List Frame} {frame : Frame}
    (h : consumeAll p diagnostics (before ++ frame :: after) = .ok s) :
    ∃ t t', consumeAll p diagnostics before = .ok t ∧ consume p t frame = .ok t' := by
  rw [consumeAll, List.foldlM_append] at h
  obtain ⟨t, first, rest⟩ := bind_eq_ok h
  rw [List.foldlM_cons] at rest
  obtain ⟨t', second, -⟩ := bind_eq_ok rest
  exact ⟨t, t', first, second⟩

theorem consumeAll_most {records : List Frame} (h : consumeAll p diagnostics records = .ok s) (unchanged : s.changes = 0)
    (room : s.counters.queueOverflow = diagnostics.queueOverflow) (ordered : ∀ side, (stamps p side records).Pairwise (· < ·)) :
    (s.pairs.map fun pair => pair.left.stampNs).Pairwise (· < ·) ∧ (s.pairs.map fun pair => pair.right.stampNs).Pairwise (· < ·) ∧
      Matching id p.maxPairNs (stamps p .left records) (stamps p .right records) (s.pairs.map Pair.stamps) ∧
      ∀ m, Matching id p.maxPairNs (stamps p .left records) (stamps p .right records) m → m.length ≤ s.pairs.length := by
  have merged := consumeAll_merge h unchanged room ordered
  obtain ⟨lefts, rights, near⟩ := merge_matching merged
  have left := (ordered .left).sublist lefts
  have right := (ordered .right).sublist rights
  refine ⟨?_, ?_, ⟨left.imp ne_of_lt, right.imp ne_of_lt, fun pair here => ?_, near⟩, fun m matching => ?_⟩
  · simpa only [State.merge, mergeOf, List.map_map, Function.comp_def, Pair.stamps] using left
  · simpa only [State.merge, mergeOf, List.map_map, Function.comp_def, Pair.stamps] using right
  · exact ⟨lefts.subset (List.mem_map_of_mem here), rights.subset (List.mem_map_of_mem here)⟩
  · have done : s.merge.left = [] ∨ s.merge.right = [] :=
      (consumeAll_kept h).1.short.one.imp (fun empty => by rw [State.merge, mergeOf, empty]; rfl) fun empty => by rw [State.merge, mergeOf, empty]; rfl
    have most := Merge.maximal merged rfl done ((ordered .left).imp le_of_lt) ((ordered .right).imp le_of_lt) matching
    simpa only [State.merge, mergeOf, List.length_map] using most

/-- Every frame is counted or paired once, only frames of the current streams are paired, and frames in order as often as they can be. -/
theorem iterPairedRecords_paired {diagnostics counters : Counters} {records : List Frame} {pairs : List Pair}
    (h : iterPairedRecords p diagnostics records = .ok (pairs, counters)) : Paired p diagnostics records pairs counters := by
  obtain ⟨s, run, h⟩ := bind_eq_ok h
  cases h
  obtain ⟨kept, index⟩ := consumeAll_kept run
  refine ⟨?_, ?_, fun before frame after split => ?_, fun t again unchanged room ordered => ?_⟩
  · exact kept.single.sublist ((List.sublist_append_left _ _).map _)
  · have counted := kept.counted
    rw [index] at counted
    rw [← counted]
    simp only [State.finish, Counters.total, State.weight]
    omega
  · rw [split] at run
    obtain ⟨t, t', first, second⟩ := consumeAll_between run
    obtain ⟨kept', -, made⟩ := consume_kept second (consumeAll_kept first).1
    exact ⟨t, t', first, second, kept'.short, made⟩
  · rw [run] at again
    cases again
    exact consumeAll_most run unchanged room ordered

namespace Bench

def policy : Policy := ⟨50, .common, 2, 100, by decide⟩

def frame (side : String) (stamp : ℤ) : Frame :=
  ⟨side, "a", [side, toString stamp], ⟨"epoch", "clock", "hash"⟩, true, stamp, stamp, stamp, side, "flu"⟩

def records : List Frame := [frame "left" 0, frame "right" 60, frame "left" 40, frame "left" 310, frame "right" 300]

end Bench

theorem iterPairedRecords_paired_five : ∃ pairs counters, Paired Bench.policy ⟨0, 0, 0, 0, 0, 0, 0⟩ Bench.records pairs counters ∧
    pairs.map Pair.stamps = [(40, 60), (310, 300)] := by
  have checked : (iterPairedRecords Bench.policy ⟨0, 0, 0, 0, 0, 0, 0⟩ Bench.records).toOption.map (fun made => made.1.map Pair.stamps) =
      some [(40, 60), (310, 300)] := by decide +kernel
  cases run : iterPairedRecords Bench.policy ⟨0, 0, 0, 0, 0, 0, 0⟩ Bench.records with
  | error refused =>
    rw [run] at checked
    cases checked
  | ok made =>
    rw [run] at checked
    exact ⟨made.1, made.2, iterPairedRecords_paired run, Option.some.inj checked⟩

end Smartwheel.RecordPairs

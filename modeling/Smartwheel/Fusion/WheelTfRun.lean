import Smartwheel.Fusion.WheelTf

/-! What every run of the bridge keeps: three stages, first in first out. -/
namespace Smartwheel.Fusion.WheelTf
open Effect

variable {c : Config} {s : State} {w : World} {record : Record} {stamp : Int} {pose : Transform}

theorem active_ok {u : Unit} (h : s.active = .ok u) : s.isBlocked = false := by
  have clear := rejectIf_ok h
  rw [Bool.not_eq_true] at clear
  exact clear

theorem active_blocked (blocked : s.isBlocked = true) : ∃ e, s.active = .error e := by
  refine ⟨.fusion ("WHEEL_TF_BLOCKED:" ++ s.blocked.getD ""), ?_⟩
  unfold State.active rejectIf
  rw [if_pos blocked]
  rfl

theorem prediction_ok {given now monotonic : Option Int} (h : s.prediction c given now monotonic = .ok (stamp, pose)) :
    s.isBlocked = false ∧ (∀ last, s.lastPreparedNs = some last → last < stamp) ∧
      s.prepared.length + s.pending.length < c.policy.maxQueue ∧ s.history.predict c stamp = .ok pose := by
  unfold State.prediction at h
  simp only [bind_eq_ok_iff] at h
  obtain ⟨_, active, now', -, stamp', -, _, increasing, _, room, _, -, pose', predicted, h⟩ := h
  cases h
  refine ⟨active_ok active, fun last some_ => ?_, Nat.lt_of_not_le (rejectIf_ok room), predicted⟩
  have after := rejectIf_ok increasing
  rw [some_, Option.any_some, decide_eq_true_eq] at after
  exact Int.lt_of_not_ge after

theorem oldest_some {entry : Option String × Transform} (h : s.oldest stamp = some entry) :
    ∃ rest, s.prepared = (stamp, entry) :: rest := by
  unfold State.oldest at h
  split at h
  · cases h
  · rename_i first entry' rest prepared
    split at h
    · rename_i same
      cases h
      exact ⟨rest, by rw [prepared, same]⟩
    · cases h

theorem registration_ok {given : Given} {epoch : Option String} (h : s.registration given = .ok (stamp, epoch, pose)) :
    s.isBlocked = false ∧ s.pending = [] ∧ given.source = "wheel_prediction_private_only" ∧
      ∃ rest, s.prepared = (stamp, epoch, pose) :: rest := by
  obtain ⟨_, active, h⟩ := bind_eq_ok h
  obtain ⟨stamp', -, h⟩ := bind_eq_ok h
  obtain ⟨_, free, h⟩ := bind_eq_ok h
  obtain ⟨⟨epoch', pose'⟩, oldest, h⟩ := bind_eq_ok h
  obtain ⟨_, named, h⟩ := bind_eq_ok h
  obtain ⟨transform, -, h⟩ := bind_eq_ok h
  obtain ⟨-, -, h⟩ := bind_eq_ok h
  obtain ⟨-, -, h⟩ := bind_eq_ok h
  cases h
  have found : s.oldest stamp = some (epoch, pose) := by
    cases same : s.oldest stamp with
    | none =>
      rw [same] at oldest
      cases oldest
    | some entry =>
      rw [same] at oldest
      cases oldest
      rfl
  have source : given.source = "wheel_prediction_private_only" := by
    have names := rejectIf_ok named
    by_contra other
    exact names (.inr (.inr (.inr other)))
  exact ⟨active_ok active, not_not.mp (rejectIf_ok free), source, oldest_some found⟩

theorem native_ok {message : Odometry} (h : s.native message = .ok (stamp, pose)) :
    s.isBlocked = false ∧ s.pending.lookup stamp = some s.epoch := by
  unfold State.native at h
  simp only [bind_eq_ok_iff] at h
  obtain ⟨_, active, stamp', -, _, -, _, expected, _, -, pose', -, h⟩ := h
  cases h
  exact ⟨active_ok active, not_not.mp (rejectIf_ok expected)⟩

section
variable {β : Type} {entries : List (Int × β)} {value : β}

theorem put_new (new : ∀ e ∈ entries, e.1 ≠ stamp) (value : β) : put entries stamp value = entries ++ [(stamp, value)] := by
  unfold put
  rw [if_neg]
  intro there
  obtain ⟨e, mem, same⟩ := List.any_eq_true.mp there
  exact new e mem (of_decide_eq_true same)

theorem del_first (new : ∀ e ∈ entries, e.1 ≠ stamp) (value : β) : del ((stamp, value) :: entries) stamp = entries := by
  unfold del
  rw [List.filter_cons_of_neg (by rw [decide_eq_true_eq]; exact not_not.mpr rfl), List.filter_eq_self]
  intro e mem
  exact decide_eq_true (new e mem)

end

theorem records_cons (w : World) (state : State) (event : Event) (stage : Event → Option Record) :
    World.records ⟨state, event :: w.log⟩ stage = w.records stage ++ (stage event).toList := by
  unfold World.records
  rw [List.filterMap_cons]
  cases stage event with
  | none =>
    rw [Option.toList_none, List.append_nil]
  | some record =>
    rw [List.reverse_cons]
    rfl

structure Kept (c : Config) (w : World) : Prop where
  prepared : w.prepared = w.registered ++ w.state.waiting
  pending : w.registered.map (·.stampNs) = w.relayed.map (·.stampNs) ++ w.state.pending.map Prod.fst
  single : w.state.pending.length ≤ 1
  room : w.state.prepared.length + w.state.pending.length ≤ c.policy.maxQueue
  increasing : (w.prepared.map (·.stampNs)).Pairwise (· < ·)
  latest : ∀ r ∈ w.prepared, ∃ last, w.state.lastPreparedNs = some last ∧ r.stampNs ≤ last
  frozen : ∀ r seen, .prepared r seen ∈ w.log → ∃ pose, seen.predict c r.stampNs = .ok pose ∧ r = guess r.stampNs pose
  native : ∀ r ∈ w.relayed, r.parentFrame = "odom" ∧ r.childFrame = "rig_link"

theorem kept_initial (c : Config) : Kept c initial where
  prepared := rfl
  pending := rfl
  single := Nat.zero_le _
  room := Nat.zero_le _
  increasing := .nil
  latest _ mem := absurd mem List.not_mem_nil
  frozen _ _ mem := absurd mem List.not_mem_nil
  native _ mem := absurd mem List.not_mem_nil

theorem Kept.state (h : Kept c w) {state : State} (prepared : state.prepared = w.state.prepared)
    (pending : state.pending = w.state.pending) (last : state.lastPreparedNs = w.state.lastPreparedNs) :
    Kept c { w with state } where
  prepared := by
    show w.prepared = w.registered ++ state.waiting
    rw [State.waiting, prepared]
    exact h.prepared
  pending := by
    show _ = w.relayed.map (·.stampNs) ++ state.pending.map Prod.fst
    rw [pending]
    exact h.pending
  single := by
    show state.pending.length ≤ 1
    rw [pending]
    exact h.single
  room := by
    show state.prepared.length + state.pending.length ≤ _
    rw [prepared, pending]
    exact h.room
  increasing := h.increasing
  latest r mem := by
    show ∃ stamp, state.lastPreparedNs = _ ∧ _
    rw [last]
    exact h.latest r mem
  frozen := h.frozen
  native := h.native

theorem kept_prepare (h : Kept c w) (given now monotonic : Option Int) : Kept c (w.prepare c given now monotonic).2 := by
  unfold World.prepare State.prepareGuess
  cases prediction : w.state.prediction c given now monotonic with
  | error e => exact h
  | ok found =>
    obtain ⟨stamp, pose⟩ := found
    obtain ⟨-, after, room, predicted⟩ := prediction_ok prediction
    have later : ∀ r ∈ w.prepared, r.stampNs < stamp := by
      intro r mem
      obtain ⟨last, some_, le⟩ := h.latest r mem
      exact Int.lt_of_le_of_lt le (after last some_)
    have new : ∀ e ∈ w.state.prepared, e.1 ≠ stamp := by
      intro e mem
      have waiting : guess e.1 e.2.2 ∈ w.prepared := by
        rw [h.prepared]
        exact List.mem_append_right _ (List.mem_map_of_mem mem)
      exact Int.ne_of_lt (later _ waiting)
    dsimp only
    rw [put_new new]
    have grown : World.prepared ⟨{ w.state with
        prepared := w.state.prepared ++ [(stamp, w.state.epoch, pose)], lastPreparedNs := some stamp },
        .prepared (guess stamp pose) w.state.history :: w.log⟩ = w.prepared ++ [guess stamp pose] :=
      records_cons w _ _ _
    have registered {state : State} : World.registered ⟨state, .prepared (guess stamp pose) w.state.history :: w.log⟩ = w.registered :=
      (records_cons w _ _ _).trans (List.append_nil _)
    have relayed {state : State} : World.relayed ⟨state, .prepared (guess stamp pose) w.state.history :: w.log⟩ = w.relayed :=
      (records_cons w _ _ _).trans (List.append_nil _)
    refine ⟨?_, ?_, h.single, ?_, ?_, fun r mem => ⟨stamp, rfl, ?_⟩, fun r seen mem => ?_, ?_⟩
    · rw [grown, registered, h.prepared, List.append_assoc, State.waiting, State.waiting, List.map_append]
      rfl
    · rw [registered, relayed]
      exact h.pending
    · show (w.state.prepared ++ [_]).length + w.state.pending.length ≤ _
      rw [List.length_append, List.length_singleton]
      omega
    · rw [grown, List.map_append, List.pairwise_append]
      refine ⟨h.increasing, List.pairwise_singleton _ _, fun a before b last => ?_⟩
      obtain ⟨r, mem, same⟩ := List.mem_map.mp before
      rw [← same, List.mem_singleton.mp last]
      exact later r mem
    · rw [grown] at mem
      rcases List.mem_append.mp mem with before | new
      · exact Int.le_of_lt (later r before)
      · rw [List.mem_singleton.mp new]
        exact Int.le_refl _
    · rcases List.mem_cons.mp mem with new | before
      · cases new
        exact ⟨pose, predicted, rfl⟩
      · exact h.frozen r seen before
    · rw [relayed]
      exact h.native

theorem kept_register (h : Kept c w) (given : Given) : Kept c (w.register given) := by
  unfold World.register State.registerGuess
  cases registration : w.state.registration given with
  | error e => exact h
  | ok found =>
    obtain ⟨stamp, epoch, pose⟩ := found
    obtain ⟨-, free, source, rest, prepared⟩ := registration_ok registration
    have waiting : w.state.waiting = guess stamp pose :: rest.map fun e => guess e.1 e.2.2 := by
      rw [State.waiting, prepared]
      rfl
    have new : ∀ e ∈ rest, e.1 ≠ stamp := by
      have increasing := h.increasing
      rw [h.prepared, List.map_append, waiting, List.map_cons, List.map_map] at increasing
      intro e mem
      have after := (List.pairwise_cons.mp (List.pairwise_append.mp increasing).2.1).1 e.1 (List.mem_map_of_mem mem)
      exact Int.ne_of_gt after
    dsimp only
    rw [prepared, del_first new, free, put_new (fun _ mem => absurd mem List.not_mem_nil), source]
    have grown {state : State} : World.registered ⟨state, .registered (guess stamp pose) :: w.log⟩ =
        w.registered ++ [guess stamp pose] := records_cons w _ _ _
    have same {state : State} : World.prepared ⟨state, .registered (guess stamp pose) :: w.log⟩ = w.prepared :=
      (records_cons w _ _ _).trans (List.append_nil _)
    have relayed {state : State} : World.relayed ⟨state, .registered (guess stamp pose) :: w.log⟩ = w.relayed :=
      (records_cons w _ _ _).trans (List.append_nil _)
    have none_ := h.pending
    have room := h.room
    rw [free, List.map_nil, List.append_nil] at none_
    rw [prepared, free, List.length_cons] at room
    refine ⟨?_, ?_, Nat.le_refl _, room, ?_, ?_, fun r seen mem => ?_, ?_⟩
    · show World.prepared ⟨_, .registered (guess stamp pose) :: w.log⟩ =
        World.registered ⟨_, .registered (guess stamp pose) :: w.log⟩ ++ _
      rw [same, grown, h.prepared, waiting, List.append_assoc]
      rfl
    · show (World.registered ⟨_, .registered (guess stamp pose) :: w.log⟩).map _ =
        (World.relayed ⟨_, .registered (guess stamp pose) :: w.log⟩).map _ ++ _
      rw [grown, relayed, List.map_append, none_]
      rfl
    · show ((World.prepared ⟨_, .registered (guess stamp pose) :: w.log⟩).map _).Pairwise _
      rw [same]
      exact h.increasing
    · show ∀ r ∈ World.prepared ⟨_, .registered (guess stamp pose) :: w.log⟩, _
      rw [same]
      exact h.latest
    · rcases List.mem_cons.mp mem with new | before
      · cases new
      · exact h.frozen r seen before
    · show ∀ r ∈ World.relayed ⟨_, .registered (guess stamp pose) :: w.log⟩, _
      rw [relayed]
      exact h.native

theorem kept_relay (h : Kept c w) (message : Odometry) : Kept c (w.relay message) := by
  unfold World.relay State.relayNativeOdometry
  cases native : w.state.native message with
  | error e => exact h
  | ok found =>
    obtain ⟨stamp, pose⟩ := found
    obtain ⟨-, expected⟩ := native_ok native
    have only : w.state.pending = [(stamp, w.state.epoch)] := by
      have single := h.single
      cases pending : w.state.pending with
      | nil =>
        rw [pending] at expected
        cases expected
      | cons entry rest =>
        rw [pending] at expected single
        have last : rest = [] := List.length_eq_zero_iff.mp (by rw [List.length_cons] at single; omega)
        obtain ⟨first, epoch⟩ := entry
        rw [last] at expected ⊢
        rw [List.lookup_cons] at expected
        split at expected
        · rename_i same
          cases expected
          rw [eq_of_beq same]
        · cases expected
    dsimp only
    rw [only, del_first (fun _ mem => absurd mem List.not_mem_nil)]
    have grown {state : State} : World.relayed ⟨state, .relayed ⟨stamp, "odom", "rig_link", pose, "native_icp_pose_relay"⟩ :: w.log⟩ =
        w.relayed ++ [⟨stamp, "odom", "rig_link", pose, "native_icp_pose_relay"⟩] := records_cons w _ _ _
    have same {state : State} {record : Record} : World.prepared ⟨state, .relayed record :: w.log⟩ = w.prepared :=
      (records_cons w _ _ _).trans (List.append_nil _)
    have registered {state : State} {record : Record} : World.registered ⟨state, .relayed record :: w.log⟩ = w.registered :=
      (records_cons w _ _ _).trans (List.append_nil _)
    have room := h.room
    rw [only, List.length_singleton] at room
    refine ⟨?_, ?_, Nat.zero_le _, Nat.le_of_succ_le room, ?_, ?_, fun r seen mem => ?_, ?_⟩
    · rw [same, registered]
      exact h.prepared
    · rw [registered, grown, h.pending, only, List.map_append, List.append_assoc]
      rfl
    · rw [same]
      exact h.increasing
    · rw [same]
      exact h.latest
    · rcases List.mem_cons.mp mem with new | before
      · cases new
      · exact h.frozen r seen before
    · rw [grown]
      intro r mem
      rcases List.mem_append.mp mem with before | new
      · exact h.native r before
      · rw [List.mem_singleton.mp new]
        exact ⟨rfl, rfl⟩

theorem observe_queues (s : State) (message : Odometry) (d : Diagnostic) (now monotonic : Option Int) :
    let s' := (s.observeWheel c message d now monotonic).2
    s'.prepared = s.prepared ∧ s'.pending = s.pending ∧ s'.lastPreparedNs = s.lastPreparedNs := by
  unfold State.observeWheel
  cases s.active with
  | error e => exact ⟨rfl, rfl, rfl⟩
  | ok u =>
    dsimp only
    cases s.observation c message d now monotonic with
    | error e => exact ⟨rfl, rfl, rfl⟩
    | ok o =>
      dsimp only
      generalize s.history.add o.stamp o.pose o.epoch = added
      obtain ⟨_ | _, history⟩ := added
      · exact ⟨rfl, rfl, rfl⟩
      · exact ⟨rfl, rfl, rfl⟩

theorem kept_call (h : Kept c w) (call : Call) : Kept c (w.call c call) := by
  cases call with
  | observe message d now monotonic =>
    obtain ⟨prepared, pending, last⟩ := observe_queues (c := c) w.state message d now monotonic
    exact h.state prepared pending last
  | prepare stamp now monotonic => exact kept_prepare h stamp now monotonic
  | register record => exact kept_register h record
  | guess stamp now monotonic =>
    have ready := kept_prepare h stamp now monotonic
    unfold World.call
    dsimp only
    generalize w.prepare c stamp now monotonic = prepared at ready
    obtain ⟨_ | record, w'⟩ := prepared
    · exact ready
    · exact kept_register ready record.given
  | relay message => exact kept_relay h message

theorem kept_run (c : Config) (calls : List Call) : Kept c (run c calls) := by
  have all (w : World) (h : Kept c w) : Kept c (calls.foldl (World.call c) w) := by
    induction calls generalizing w with
    | nil => exact h
    | cons call calls ih => exact ih _ (kept_call h call)
  exact all initial (kept_initial c)

theorem blocked_call (blocked : w.state.isBlocked = true) (call : Call) : w.call c call = w := by
  obtain ⟨e, refused⟩ := active_blocked blocked
  have prepare (stamp now monotonic : Option Int) : w.prepare c stamp now monotonic = (.error e, w) := by
    unfold World.prepare State.prepareGuess State.prediction
    rw [refused]
    rfl
  cases call with
  | observe message d now monotonic =>
    unfold World.call State.observeWheel
    rw [refused]
  | prepare stamp now monotonic =>
    unfold World.call
    dsimp only
    rw [prepare]
  | register record =>
    unfold World.call World.register State.registerGuess State.registration
    rw [refused]
    rfl
  | guess stamp now monotonic =>
    unfold World.call
    dsimp only
    rw [prepare]
  | relay message =>
    unfold World.call World.relay State.relayNativeOdometry State.native
    rw [refused]
    rfl

theorem blocked_run (blocked : w.state.isBlocked = true) (later : List Call) : later.foldl (World.call c) w = w := by
  induction later with
  | nil => rfl
  | cons call later ih =>
    rw [List.foldl_cons, blocked_call blocked]
    exact ih

/-- Guesses are registered in the order in which they were prepared, as they were frozen, and native poses are relayed
in the order of the registered guesses, one for each. -/
theorem bridge_fifo (c : Config) (calls later : List Call) :
    let w := run c calls
    w.prepared = w.registered ++ w.state.waiting ∧
    w.registered.map (·.stampNs) = w.relayed.map (·.stampNs) ++ w.state.pending.map Prod.fst ∧
    w.state.pending.length ≤ 1 ∧
    w.state.prepared.length + w.state.pending.length ≤ c.policy.maxQueue ∧
    (w.prepared.map (·.stampNs)).Pairwise (· < ·) ∧
    (w.registered.map (·.stampNs)).Pairwise (· < ·) ∧
    (w.relayed.map (·.stampNs)).Pairwise (· < ·) ∧
    (∀ r ∈ w.relayed, ∃! g, g ∈ w.registered ∧ g.stampNs = r.stampNs) ∧
    (∀ g ∈ w.registered, ∃ seen, .prepared g seen ∈ w.log ∧ seen.predict c g.stampNs = .ok g.transform) ∧
    (∀ r ∈ w.relayed, r.parentFrame = "odom" ∧ r.childFrame = "rig_link") ∧
    (w.state.isBlocked = true → later.foldl (World.call c) w = w) := by
  intro w
  have kept : Kept c w := kept_run c calls
  have registered : (w.registered.map (·.stampNs)).Pairwise (· < ·) := by
    have increasing := kept.increasing
    rw [kept.prepared, List.map_append, List.pairwise_append] at increasing
    exact increasing.1
  have relayed : (w.relayed.map (·.stampNs)).Pairwise (· < ·) := by
    have increasing := registered
    rw [kept.pending, List.pairwise_append] at increasing
    exact increasing.1
  refine ⟨kept.prepared, kept.pending, kept.single, kept.room, kept.increasing, registered, relayed,
    fun r mem => ?_, fun g mem => ?_, kept.native, fun blocked => blocked_run blocked later⟩
  · have there : r.stampNs ∈ w.registered.map (·.stampNs) := by
      rw [kept.pending]
      exact List.mem_append_left _ (List.mem_map_of_mem mem)
    obtain ⟨g, mem', same⟩ := List.mem_map.mp there
    refine ⟨g, ⟨mem', same⟩, fun g' found => ?_⟩
    have distinct : (w.registered.map (·.stampNs)).Nodup := registered.imp Int.ne_of_lt
    exact List.inj_on_of_nodup_map distinct found.1 mem' (found.2.trans same.symm)
  · have prepared : g ∈ w.prepared := by
      rw [kept.prepared]
      exact List.mem_append_left _ mem
    obtain ⟨event, mem', found⟩ := List.mem_filterMap.mp (List.mem_reverse.mp prepared)
    cases event with
    | prepared record seen =>
      cases found
      obtain ⟨pose, predicted, same⟩ := kept.frozen g seen mem'
      refine ⟨seen, mem', ?_⟩
      rw [predicted, same]
      rfl
    | registered record | relayed record => cases found

theorem default_ranges : (0 : ℚ) < 1/10 ∧ (0 : ℚ) < 10 := by decide +kernel

theorem default_bounds : (0 : ℚ) < 2/10 ∧ (0 : ℚ) < 2/10 ∧ (0 : ℚ) < 2/100 ∧ (0 : ℚ) < 3/1000 := by decide +kernel

theorem default_lt : (1/10 : ℚ) < 10 := by decide +kernel

def bench : Config where
  policy := { counts_pos := by decide, ranges_pos := default_ranges, bounds_pos := default_bounds,
              range_lt := default_lt }
  motion := { positive := by decide +kernel }
  rotations := { magnitude := fun _ => .ok 0, asRotvec := fun _ => .ok 0, fromRotvec := fun _ => 1 }
  rigAxle := 1
  maxUncertaintyNs := 1000000
  placed := by decide +kernel
  uncertainty_pos := by decide

def Bench.odometry (frame child : String) (nanosec : Int) : Odometry :=
  ⟨some 1, some nanosec, frame, child, ⟨some (nanosec / 100000000000), some 0, some 0, some 0, some 0, some 0, some 1⟩⟩

def Bench.diagnostic (stamp sequence : Int) : Diagnostic :=
  ⟨some "wc_wheel_diagnostics_v1", true, some "FEEDBACK", some "common_measurement", some stamp, some 0, some "epoch",
    some sequence⟩

def Bench.observed (nanosec sequence : Int) : Call :=
  .observe (Bench.odometry "wheel_odom" "axle_link" nanosec) (Bench.diagnostic (1000000000 + nanosec) sequence)
    (some (1000000000 + nanosec)) (some nanosec)

def Bench.calls : List Call :=
  [Bench.observed 0 1, Bench.observed 100000000 2,
    .guess (some 1050000000) (some 1100000000) (some 100000000),
    .relay (Bench.odometry "odom" "rig_link" 50000000), .relay (Bench.odometry "odom" "rig_link" 50000000)]

theorem bench_relayed :
    (run bench Bench.calls).relayed.map (·.stampNs) = [1050000000] ∧
      ∃! g, g ∈ (run bench Bench.calls).registered ∧ g.stampNs = 1050000000 := by
  have relayed : (run bench Bench.calls).relayed.map (·.stampNs) = [1050000000] := by decide +kernel
  refine ⟨relayed, ?_⟩
  obtain ⟨r, mem, stamp⟩ := List.mem_map.mp (relayed ▸ List.mem_singleton_self (1050000000 : Int))
  rw [← stamp]
  exact (bridge_fifo bench Bench.calls []).2.2.2.2.2.2.2.1 r mem

end Smartwheel.Fusion.WheelTf

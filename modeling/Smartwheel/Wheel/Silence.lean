import Smartwheel.Effect.Silence
import Smartwheel.Wheel.Bench
import Smartwheel.Wheel.Shape

/-! A wheel that may not arm only ever sends queries; and after a failure of the channel at most one more
write is made, of the zero frame. -/
namespace Smartwheel.Wheel
open Modbus Effect Serial

variable {control : Control} {w w' : World}

def wire : History → Bytes
  | [] => []
  | .sent request count :: h => wire h ++ request.take count
  | _ :: h => wire h

theorem wire_append {es h : History} (hes : ∀ e ∈ es, e.isSent = false) : wire (es ++ h) = wire h := by
  induction es with
  | nil => rfl
  | cons e es ih =>
    have he : e.isSent = false := hes e (by simp)
    have ht : ∀ e ∈ es, e.isSent = false := fun x hx => hes x (List.mem_cons_of_mem e hx)
    rw [List.cons_append, ← ih ht]
    cases e <;> first | rfl | cases he

theorem isSent_of_quiet {e : Event} (h : e.quiet = true) : e.isSent = false := by
  cases e <;> first | rfl | cases h

structure Inert (w : World) : Prop where
  idle : Idle w.session
  waiting : w.session.state ≠ .ready
  passive : w.session.pushModeRequested = false
  background : w.session.foreground = false
  still : w.channel.motionMayExist = false

theorem idleState_disarmed (ha : control.armAllowed = false) : idleState control = .disarmed := by
  simp [idleState, ha]

theorem query_of_guarded {purpose : Purpose} {request : Bytes} (ha : control.armAllowed = false)
    (hi : Inert w) (hg : Guarded control purpose request w) : request = query := by
  cases purpose with
  | query => exact hg
  | initialization =>
    obtain ⟨-, -, recent, -, intended⟩ := hg
    rw [intended.allowed] at ha
    cases ha
  | velocity target =>
    obtain ⟨-, -, -, recent, -, intended⟩ := hg
    rw [intended.allowed] at ha
    cases ha
  | stop =>
    rcases hg.2 with h | h
    · rw [hi.still] at h; cases h
    · rw [hi.passive] at h; cases h
  | release =>
    obtain ⟨-, recent, -, releasable⟩ := hg
    rw [releasable.allowed] at ha
    cases ha
  | recovery => exact hg.elim

theorem inert_step (ha : control.armAllowed = false) (h : Move control w w') (hi : Inert w) : Inert w' := by
  have barred : control.armAllowed ≠ true := by simp [ha]
  cases h with
  | observe hs =>
    refine ⟨?_, ?_, ?_, ?_, ?_⟩ <;> first | rw [hs.session] | rw [hs.channel]
    · exact hi.idle
    · exact hi.waiting
    · exact hi.passive
    · exact hi.background
    · exact hi.still
  | keep f hf =>
    have same := alike hf
    exact ⟨hi.idle.congr same.keys same.state, fun h => hi.waiting (same.state.symm.trans h),
      same.pushModeRequested.trans hi.passive, same.foreground.trans hi.background, hi.still⟩
  | book f hf hm => exact ⟨hi.1, hi.2, hi.3, hi.4, hm.trans hi.still⟩
  | rest f hf hm => exact ⟨hi.1, hi.2, hi.3, hi.4, hm⟩
  | disarm reason normal hn =>
    have abnormal : normal = false := by
      rw [Bool.eq_false_iff]
      intro h
      exact absurd ((hn h).2.2.1.symm.trans hi.background) Bool.true_eq_false.mp
    have state : idleState control = .disarmed := idleState_disarmed ha
    refine ⟨idle_disarmed _ _ _ _, ?_, ?_, ?_, hi.still⟩
    · simp only [World.log_session, World.onSession_session, disarmed_eq, state]
      split <;> decide
    · simp [abnormal]
    · simp [hi.background]
  | attend keys now h => exact absurd h barred
  | hold p keys now h | oppose p keys now h => exact absurd h.allowed barred
  | push enabled h | wait h => exact absurd h barred
  | sample now words =>
    exact ⟨hi.idle.congr (by simp) (by simp), by simpa using hi.2, by simpa using hi.3, by simpa using hi.4, hi.5⟩
  | release =>
    exact ⟨hi.idle.congr (by simp) (by simp), by simpa using hi.2, by simp, by simpa using hi.4, hi.5⟩
  | start now hs => exact absurd hs hi.waiting
  | initialized hs => exact absurd hs hi.idle.initializing
  | drop => exact ⟨⟨rfl, hi.1.2, hi.1.3⟩, hi.2, hi.3, hi.4, hi.5⟩
  | attempt purpose request hg =>
    have hq := query_of_guarded ha hi hg
    refine ⟨hi.1, hi.2, hi.3, hi.4, ?_⟩
    subst hq
    simp only [World.onChannel_channel, attempted, hi.still]
    decide
  | fault reason =>
    exact ⟨⟨hi.1.1, fun h => (by cases h), fun h => (by cases h)⟩, fun h => (by cases h), hi.3, hi.4, hi.5⟩
  | clear => exact ⟨⟨rfl, hi.1.2, hi.1.3⟩, hi.2, hi.3, hi.4, hi.5⟩
  | connect | leave | watch | takeStop | zeroed | closing | close =>
    exact ⟨hi.1.congr rfl rfl, hi.2, hi.3, by first | rfl | exact hi.4, hi.5⟩
  | _ => exact ⟨hi.1, hi.2, hi.3, hi.4, hi.5⟩

structure Quiet (w : World) : Prop where
  written : ∀ request, lastWrite w.trace = some request → request = query
  whole : (∀ request count, Event.sent request count ∈ w.trace → count = request.length) →
    ∃ n, wire w.trace = (List.replicate n query).flatten
  cut : ∃ n k, wire w.trace = (List.replicate n query).flatten ++ query.take k

theorem Quiet.grow {l : History} (hq : Quiet w) (ht : w'.trace = l ++ w.trace)
    (hs : ∀ e ∈ l, e.isSent = false) (hw : ∀ e ∈ l, e.isWrite = false) : Quiet w' := by
  refine ⟨?_, ?_, ?_⟩ <;> rw [ht]
  · rw [lastWrite_append hw]
    exact hq.written
  · rw [wire_append hs]
    exact fun h => hq.whole fun r c hm => h r c (List.mem_append_right l hm)
  · rw [wire_append hs]
    exact hq.cut

theorem Quiet.same (hq : Quiet w) (ht : w'.trace = w.trace) : Quiet w' :=
  hq.grow (l := []) ht (by simp) (by simp)

theorem Quiet.log {e : Event} (hq : Quiet w) (ht : w'.trace = e :: w.trace) (hs : e.isSent = false)
    (hw : e.isWrite = false) : Quiet w' :=
  hq.grow (l := [e]) ht (by simpa using hs) (by simpa using hw)

theorem flatten_succ (n : Nat) :
    (List.replicate n query).flatten ++ query = (List.replicate (n + 1) query).flatten := by
  rw [List.replicate_succ']
  simp

theorem quiet_step (ha : control.armAllowed = false) (h : Move control w w') (hi : Inert w)
    (hq : Quiet w) : Quiet w' := by
  cases h with
  | observe hs =>
    obtain ⟨es, ht, hes⟩ := hs.trace
    exact hq.grow ht (fun e he => isSent_of_quiet (hes e he)) fun e he => Event.isWrite_of_quiet (hes e he)
  | write purpose request hf hg =>
    refine ⟨fun r hr => ?_, ?_, ?_⟩
    · cases hr
      exact query_of_guarded ha hi hg
    · exact fun h => hq.whole fun r c hm => h r c (List.mem_cons_of_mem _ hm)
    · exact hq.cut
  | recover hf hm => rw [hi.still] at hm; cases hm
  | sent request count hw hc hs =>
    obtain rfl := hq.written request hw
    obtain ⟨hf, settled⟩ := hs.resolve_right fun h => by rw [hi.still] at h; cases h.2
    obtain ⟨n, hn⟩ := hq.whole (Sound.of_settled hf settled).complete
    have sum : wire (w.log (.sent query count)).trace = (List.replicate n query).flatten ++ query.take count := by
      rw [← hn]
      rfl
    refine ⟨hq.written, fun complete => ⟨n + 1, ?_⟩, n, count, sum⟩
    rw [sum, complete query count (by simp), List.take_length, flatten_succ]
  | keep | book | connect | leave | clear | release | rest | start | initialized | drop | attempt | fault
  | closing | close => exact hq.same rfl
  | _ => exact hq.log rfl rfl rfl

theorem initial_inert (ha : control.armAllowed = false) : Inert (initial control) := by
  have state : (initial control).session.state = .disarmed := idleState_disarmed ha
  refine ⟨⟨rfl, ?_, ?_⟩, ?_, rfl, rfl, rfl⟩ <;> simp [state]

def Event.kinds : Kinds Event where
  failure e := match e with
    | .failure => true
    | _ => false
  recovery := Event.isRecovery
  write := Event.isWrite
  allowed e := match e with
    | .write _ request _ => request = zeroRequest
    | _ => false

def SilentChannel (w : World) : Prop :=
  Silent Event.kinds w.channel.failed w.channel.recoveryAttempted w.trace

theorem silent_step (h : Move control w w') (hs : SilentChannel w) : SilentChannel w' := by
  unfold SilentChannel at hs ⊢
  cases h with
  | observe hst =>
    obtain ⟨es, ht, hes⟩ := hst.trace
    rw [hst.channel, ht]
    refine hs.append fun e hm => ?_
    have hq := hes e hm
    cases e <;> first | exact ⟨rfl, rfl, rfl⟩ | cases hq
  | book f hf hm ha | rest f hf hm ha =>
    rw [World.onChannel_channel, hf, ha]
    exact hs
  | write purpose request hf =>
    rw [World.log_channel, hf]
    rw [hf] at hs
    exact hs.write rfl
  | fail => exact hs.fail rfl rfl rfl
  | attemptRecovery hf hm ha =>
    rw [hf, ha] at hs
    change Silent _ w.channel.failed true _
    rw [hf]
    exact hs.attempt rfl rfl rfl
  | recover hf hm ha hn =>
    rw [World.log_channel, hf, ha]
    rw [hf, ha] at hs
    exact hs.recover rfl (by simp [Event.kinds]) rfl rfl hn
  | keep | connect | leave | clear | release | start | initialized | drop | attempt | fault | closing
  | close => exact hs
  | _ => exact hs.log rfl rfl rfl

theorem silent_run (env : Env) (control : Control) (ops : List Operation) :
    SilentChannel (run env control ops (initial control)).2 :=
  (run_path env control ops).keeps (fun _ _ => silent_step) Silent.nil

/-- Without permission to arm, the bytes on the line are queries, the last possibly cut short. In every
run, once the channel has failed, at most one more write is made, of the zero frame. -/
theorem read_only_and_silent (env : Env) (control : Control) (ops : List Operation) :
    let w := (run env control ops (initial control)).2
    (control.armAllowed = false →
      ∃ n k, wire w.trace = (List.replicate n query).flatten ++ query.take k) ∧
    (w.channel.failed = true ↔ Event.failure ∈ w.trace) ∧
    ∀ later earlier, w.trace = later ++ .failure :: earlier →
      (later.filter Event.isWrite).length ≤ 1 ∧
        ∀ purpose request seen, Event.write purpose request seen ∈ later → request = zeroRequest := by
  intro w
  have silent : SilentChannel w := silent_run env control ops
  refine ⟨fun ha => ?_, ?_, fun later earlier h => ?_⟩
  · have kept : Inert w ∧ Quiet w := (run_path env control ops).keeps (P := fun w => Inert w ∧ Quiet w)
      (fun _ _ hm hw => ⟨inert_step ha hm hw.1, quiet_step ha hm hw.1 hw.2⟩)
      ⟨initial_inert ha, fun _ h => (by cases h), fun _ => ⟨0, rfl⟩, 0, 0, rfl⟩
    exact kept.2.cut
  · rw [silent.known, List.any_eq_true]
    constructor
    · rintro ⟨e, hm, he⟩
      cases e <;> first | exact hm | cases he
    · exact fun hm => ⟨_, hm, rfl⟩
  · obtain ⟨count, allowed⟩ := silent.after h rfl
    refine ⟨count, fun purpose request seen hm => ?_⟩
    simpa [Event.kinds] using allowed _ hm rfl

/-- On the bench a wheel that may not arm sends one query and a part of another, and is silent then. -/
theorem bench_read_only :
    let w := (run Bench.severed (Bench.control false .explicitPush) [.step, .step, .step]
      (initial (Bench.control false .explicitPush))).2
    wire w.trace = query ++ query.take 3 ∧
    (∃ n k, wire w.trace = (List.replicate n query).flatten ++ query.take k) ∧
    ∃ later earlier, w.trace = later ++ .failure :: earlier ∧ (later.filter Event.isWrite).length ≤ 1 := by
  intro w
  obtain ⟨readOnly, known, silent⟩ := read_only_and_silent Bench.severed (Bench.control false .explicitPush)
    [.step, .step, .step]
  refine ⟨by decide +kernel, readOnly rfl, ?_⟩
  obtain ⟨later, earlier, split⟩ := List.append_of_mem (known.mp (by decide +kernel))
  exact ⟨later, earlier, split, (silent later earlier split).1⟩

end Smartwheel.Wheel

import Smartwheel.Wheel.Release

/-! A stop is never forgotten, in runs where no step begins tangled: with a zero target, motion is answered
by an acknowledged zero, by the attempt of one after a failure, or by a stop that is still requested. -/
namespace Smartwheel.Wheel
open Modbus Serial

variable {control : Control} {w w' : World}

def Untangled (h : History) : Prop := ∀ seen, Event.stepBegin seen ∈ h → ¬Tangled seen

def Starting (s : Session) : Prop := s.state = .initializing ∨ s.state = .armed

theorem Untangled.append {h l : History} (hu : Untangled (l ++ h)) : Untangled h :=
  fun seen hs => hu seen (List.mem_append_right l hs)

theorem untangled_before (h : Move control w w') (hu : Untangled w'.trace) : Untangled w.trace := by
  cases h with
  | observe hs =>
    obtain ⟨es, ht, -⟩ := hs.trace
    rw [ht] at hu
    exact hu.append
  | keep | book | connect | leave | clear | release | rest | start | initialized | drop | attempt | fault
  | closing | close => exact hu
  | _ => exact hu.append (l := [_])

theorem still_outside {purpose : Purpose} {request : Bytes} (hg : Guarded control purpose request w)
    (hs : ¬Starting w.session) : moves request = false := by
  cases hm : moves request with
  | false => rfl
  | true => exact absurd (moving_of_guarded hg hm).1 hs

theorem Stopped.grow {l : History} (hs : Stopped w) (ht : w'.trace = l ++ w.trace)
    (hl : ∀ e ∈ l, e.isMoving = false) (hf : w.channel.failed = true → w'.channel.failed = true)
    (ha : w.channel.recoveryAttempted = true → w'.channel.recoveryAttempted = true) : Stopped w' := by
  rcases hs with zero | ⟨failed, attempted⟩
  · refine .inl ?_
    rw [ht]
    exact zeroAcked_append hl zero
  · exact .inr ⟨hf failed, ha attempted⟩

theorem stopped_step (h : Move control w w') (hi : ¬Starting w.session) (hs : Stopped w) : Stopped w' := by
  cases h with
  | observe hst =>
    obtain ⟨es, ht, hes⟩ := hst.trace
    refine hs.grow ht (fun e he => Event.isMoving_of_quiet (hes e he)) ?_ ?_
    · rw [hst.channel]; exact id
    · rw [hst.channel]; exact id
  | write purpose request hf hg =>
    have still := still_outside hg hi
    exact hs.grow (l := [_]) rfl (by simpa [Event.isMoving] using still) id id
  | recover => exact hs.grow (l := [_]) rfl (by simp [Event.isMoving]; decide +kernel) id id
  | fail => exact hs.grow (l := [_]) rfl (by simp [Event.isMoving]) (fun _ => rfl) id
  | attemptRecovery => exact hs.grow (l := [_]) rfl (by simp [Event.isMoving]) id fun _ => rfl
  | book f hf _ ha | rest f hf _ ha => exact hs.grow (l := []) rfl (by simp) hf.trans ha.trans
  | keep | connect | leave | clear | release | start | initialized | drop | attempt | fault | closing | close =>
    exact hs.grow (l := []) rfl (by simp) id id
  | _ => exact hs.grow (l := [_]) rfl (by simp [Event.isMoving]) id id

def Covered (w : World) : Prop :=
  w.channel.motionMayExist = true → w.session.stopDeadline ≠ none → Stopped w

def Unbound (s : Session) : Prop := Starting s → s.stopDeadline = none

theorem Covered.step (hc : Covered w) (hb : Unbound w.session)
    (stays : ¬Starting w.session → Stopped w → Stopped w')
    (hm : w'.channel.motionMayExist = true → w.channel.motionMayExist = true)
    (hd : w'.session.stopDeadline ≠ none → w.session.stopDeadline ≠ none) : Covered w' :=
  fun motion set => stays (fun starting => hd set (hb starting)) (hc (hm motion) (hd set))

theorem covered_step (h : Move control w w') (hb : Unbound w.session) (hc : Covered w) : Covered w' := by
  have stays := stopped_step h
  cases h with
  | observe hs =>
    refine hc.step hb stays ?_ ?_
    · rw [hs.channel]; exact id
    · rw [hs.session]; exact id
  | keep f hf => exact hc.step hb stays id fun set none => set ((alike hf).stopDeadline.trans none)
  | book f hf hm => exact hc.step hb stays (fun motion => hm.symm.trans motion) id
  | disarm | attend | push | wait | sample => exact hc.step hb stays id (by simp)
  | watch now hm | rest f hf hm => exact fun motion => absurd (hm.symm.trans motion) Bool.false_ne_true
  | zeroed now hz => exact fun _ _ => .inl hz
  | release => exact fun _ set => absurd (by simp) set
  | start => exact fun _ set => absurd rfl set
  | attempt purpose request hg =>
    intro motion set
    have outside : ¬Starting w.session := fun starting => set (hb starting)
    have still := still_outside hg outside
    exact stays outside (hc (by simpa [attempted, still] using motion) set)
  | _ => exact hc.step hb stays id id

theorem unbound_step (h : Move control w w') (hu : Untangled w.trace) (hp : Passive w.session)
    (hb : Unbound w.session) : Unbound w'.session := by
  intro starting
  cases h with
  | observe hs =>
    rw [hs.session] at starting ⊢
    exact hb starting
  | keep f hf =>
    have same := alike hf
    rw [World.onSession_session, Starting, same.state] at starting
    exact same.stopDeadline.trans (hb starting)
  | disarm reason normal =>
    have idle := @idle_disarmed control reason normal w.channel.motionMayExist w.session
    rcases starting with hs | hs
    · exact absurd hs idle.initializing
    · exact absurd hs idle.armed
  | attend | push | wait | sample =>
    have before := hb (by simpa [Starting] using starting)
    simp [before]
  | oppose | fault => rcases starting with hs | hs <;> cases hs
  | watch now hm hz hi =>
    rcases starting with hs | hs
    · exact absurd hs hi.initializing
    · exact absurd hs hi.armed
  | zeroed now hz ht =>
    rcases ht starting with requested | ⟨seen, begun, tangled⟩
    · have idle := hp requested
      rcases starting with hs | hs
      · exact absurd hs idle.initializing
      · exact absurd hs idle.armed
    · exact absurd tangled (hu seen begun)
  | release => simp
  | start => rfl
  | initialized hs => exact hb (.inl hs)
  | _ => exact hb starting

def Pending (control : Control) (w : World) : Prop :=
  w.channel.motionMayExist = true → control.target w.session.keys = (0, 0) →
    w.session.stopRequested = true ∨ Stopped w ∨ stopPending w.trace = true

theorem Pending.keep {l : History} (hp : Pending control w)
    (hm : w'.channel.motionMayExist = true → w.channel.motionMayExist = true)
    (hk : w'.session.keys = w.session.keys)
    (hr : w.session.stopRequested = true → w'.session.stopRequested = true)
    (hs : Stopped w → Stopped w') (ht : w'.trace = l ++ w.trace) (hl : ∀ e ∈ l, e.within = true) :
    Pending control w' := by
  intro motion target
  rw [hk] at target
  rcases hp (hm motion) target with requested | stopped | pending
  · exact .inl (hr requested)
  · exact .inr (.inl (hs stopped))
  · exact .inr (.inr (by rw [ht, stopPending_append hl]; exact pending))

theorem Covered.request (hc : Covered w) (motion : w.channel.motionMayExist = true) :
    w.session.stopDeadline.isNone = true ∨ Stopped w := by
  cases hd : w.session.stopDeadline with
  | none => exact .inl rfl
  | some deadline => exact .inr (hc motion (by simp [hd]))

theorem pending_step (h : Move control w w') (hc : Covered w) (hp : Pending control w) :
    Pending control w' := by
  cases h with
  | observe hs =>
    obtain ⟨es, ht, hes⟩ := hs.trace
    refine hp.keep ?_ (by rw [hs.session]) ?_ ?_ ht fun e he =>
      Event.within_of_plain (Event.plain_of_quiet (hes e he))
    · rw [hs.channel]; exact id
    · rw [hs.session]; exact id
    · refine fun stopped => stopped.grow ht (fun e he => Event.isMoving_of_quiet (hes e he)) ?_ ?_
      · rw [hs.channel]; exact id
      · rw [hs.channel]; exact id
  | keep f hf =>
    have same := alike hf
    exact hp.keep (l := []) id same.keys same.stopRequested.trans id rfl (by simp)
  | book f hf hm hr =>
    exact hp.keep (l := []) (fun motion => hm.symm.trans motion) rfl id
      (fun stopped => stopped.grow (l := []) rfl (by simp) hf.trans hr.trans) rfl (by simp)
  | disarm reason normal =>
    intro motion _
    have motion : w.channel.motionMayExist = true := motion
    rcases hc.request motion with free | stopped
    · exact .inl (by simp [motion, free])
    · exact .inr (.inl stopped)
  | oppose p keys now =>
    intro motion _
    have motion : w.channel.motionMayExist = true := motion
    rcases hc.request motion with free | stopped
    · exact .inl (by simp [opposed, motion, free])
    · exact .inr (.inl stopped)
  | attend | push | wait | sample =>
    refine hp.keep (l := [_]) id (by simp) ?_ id rfl (by simp [Event.within])
    intro requested
    simp [requested]
  | hold p keys now h ht => exact fun _ target => absurd target ht
  | takeStop => exact fun _ _ => .inr (.inr rfl)
  | stopDone h =>
    intro motion _
    refine .inr (.inl ?_)
    rcases h motion with set | stopped
    · exact hc motion set
    · exact stopped
  | release => exact hp.keep (l := []) id (by simp) (by simp) id rfl (by simp)
  | rest f hf hm => exact fun motion => absurd (hm.symm.trans motion) Bool.false_ne_true
  | start now hs ht => exact fun _ target => absurd target ht
  | drop => exact fun motion _ => .inl motion
  | attempt purpose request hg =>
    intro motion target
    rcases Bool.or_eq_true_iff.mp motion with motion | moving
    · exact hp motion target
    · exact absurd target (moving_of_guarded hg moving).2
  | write purpose request hf hg =>
    intro motion target
    rcases hp motion target with requested | stopped | pending
    · exact .inl requested
    · have still : moves request = false := by
        cases moving : moves request with
        | false => rfl
        | true => exact absurd target (moving_of_guarded hg moving).2
      exact .inr (.inl (stopped.grow (l := [_]) rfl (by simpa [Event.isMoving] using still) id id))
    · exact .inr (.inr pending)
  | clear hk =>
    intro motion _
    exact hp motion (by rw [hk]; exact target_empty control)
  | fail =>
    exact hp.keep (l := [_]) id rfl id
      (fun stopped => stopped.grow (l := [_]) rfl (by simp [Event.isMoving]) (fun _ => rfl) id) rfl
      (by simp [Event.within])
  | attemptRecovery hf => exact fun _ _ => .inr (.inl (.inr ⟨hf, rfl⟩))
  | recover hf hm ha => exact fun _ _ => .inr (.inl (.inr ⟨hf, ha⟩))
  | connect | leave | initialized | fault | closing | close =>
    exact hp.keep (l := []) id rfl id id rfl (by simp)
  | zeroed now hz => exact fun _ _ => .inr (.inl (.inl hz))
  | watch | sent | acknowledge | stepBegin =>
    exact hp.keep (l := [_]) id rfl id (fun stopped => stopped.grow (l := [_]) rfl (by simp [Event.isMoving]) id id)
      rfl (by simp [Event.within])

def Finished (w : World) : Prop :=
  w.session.closed = true → w.channel.motionMayExist = true → Stopped w

theorem Finished.step (hf : Finished w) (hc : Closed w.session)
    (stays : ¬Starting w.session → Stopped w → Stopped w')
    (hm : w'.channel.motionMayExist = true → w.channel.motionMayExist = true)
    (hd : w'.session.closed = true → w.session.closed = true) : Finished w' := by
  intro closed motion
  have idle := hc (hd closed)
  refine stays ?_ (hf (hd closed) (hm motion))
  rintro (hs | hs)
  · exact idle.initializing hs
  · exact idle.armed hs

theorem finished_step (h : Move control w w') (hs : Closed w.session) (hc : Covered w) (hf : Finished w) :
    Finished w' := by
  have stays := stopped_step h
  cases h with
  | observe hst =>
    refine hf.step hs stays ?_ ?_
    · rw [hst.channel]; exact id
    · rw [hst.session]; exact id
  | keep f hk => exact hf.step hs stays id (fun closed => (alike hk).closed.symm.trans closed)
  | book f hfa hm => exact hf.step hs stays (fun motion => hm.symm.trans motion) id
  | disarm | attend | push | wait | sample | release => exact hf.step hs stays id (by simp)
  | rest f hfa hm => exact fun _ motion => absurd (hm.symm.trans motion) Bool.false_ne_true
  | attempt purpose request hg =>
    intro closed motion
    have idle := hs closed
    have outside : ¬Starting w.session := by
      rintro (hs | hs)
      · exact idle.initializing hs
      · exact idle.armed hs
    have still := still_outside hg outside
    exact stays outside (hf closed (by simpa [attempted, still] using motion))
  | close hi h =>
    intro _ motion
    rcases h motion with set | stopped
    · exact hc motion set
    · exact stopped
  | _ => exact hf.step hs stays id id

structure Remembered (control : Control) (w : World) : Prop where
  shape : Shape control w.session
  unbound : Unbound w.session
  covered : Covered w
  pending : Pending control w
  finished : Finished w

theorem remembered_step (h : Move control w w') (hu : Untangled w.trace) (hr : Remembered control w) :
    Remembered control w' where
  shape := shape_step h hr.shape
  unbound := unbound_step h hu hr.shape.passive hr.unbound
  covered := covered_step h hr.unbound hr.covered
  pending := pending_step h hr.covered hr.pending
  finished := finished_step h hr.shape.closed hr.covered hr.finished

theorem initial_remembered (control : Control) : Remembered control (initial control) where
  shape := initial_shape control
  unbound _ := rfl
  covered motion := by cases motion
  pending motion := by cases motion
  finished closed := by cases closed

/-- After any calls, none of which was a step that began tangled: with a zero target, motion has been
answered or a stop is requested; and once the wheel is closed, motion has been answered. -/
theorem stop_remembered (env : Env) (control : Control) (ops : List Operation)
    (hu : Untangled (run env control ops (initial control)).2.trace) :
    ((run env control ops (initial control)).2.channel.motionMayExist = true →
      control.target (run env control ops (initial control)).2.session.keys = (0, 0) →
      (run env control ops (initial control)).2.session.stopRequested = true ∨
        Stopped (run env control ops (initial control)).2) ∧
    ((run env control ops (initial control)).2.session.closed = true →
      (run env control ops (initial control)).2.channel.motionMayExist = true →
      Stopped (run env control ops (initial control)).2) := by
  have goes : (run env control ops).Goes (guarantee control) (fun _ => Settled) (fun _ _ => True)
      (initial control) := run_goes (initial_settled control) ops
  have remembered : Remembered control (run env control ops (initial control)).2 :=
    goes.path.keeps_while (P := Remembered control) (Q := fun w => Untangled w.trace)
      (fun _ _ => untangled_before) (fun _ _ step hu => remembered_step step (untangled_before step hu))
      (initial_remembered control) hu
  refine ⟨fun motion target => ?_, remembered.finished⟩
  rcases remembered.pending motion target with requested | stopped | pending
  · exact .inl requested
  · exact .inr stopped
  · -- no `_stop` is left in the middle of a finished run
    have whole : Whole (initial control) (run env control ops (initial control)).2 := by
      cases hr : (run env control ops (initial control)).1 with
      | value a => exact (goes.value hr).1
      | raised e => exact (goes.raised hr).1
      | cut => exact absurd hr (goes.uncut id)
    exact absurd (whole.pending pending) Bool.false_ne_true

def Event.isTangled : Event → Bool
  | .stepBegin seen => Tangled seen
  | _ => false

theorem untangled_of_all {h : History} (ha : h.all (fun e => !e.isTangled) = true) : Untangled h := by
  intro seen hm tangled
  have plain := List.all_eq_true.mp ha _ hm
  simp [Event.isTangled, tangled] at plain

/-- On the bench keys are let go in motion, and the stop is remembered. -/
theorem bench_stop_remembered :
    let control := Bench.control true .hybridManual
    let w := (run (Bench.environment Bench.lettingGo) control (Bench.cycles 7) (initial control)).2
    w.channel.motionMayExist = true ∧ control.target w.session.keys = (0, 0) ∧
      (w.session.stopRequested = true ∨ Stopped w) := by
  intro control w
  have untangled : Untangled w.trace := untangled_of_all (by decide +kernel)
  have motion : w.channel.motionMayExist = true := by decide +kernel
  have target : control.target w.session.keys = (0, 0) := by decide +kernel
  exact ⟨motion, target, (stop_remembered (Bench.environment Bench.lettingGo) control (Bench.cycles 7)
    untangled).1 motion target⟩

/-- The wheel is pushed by hand. A disarm and held keys then arrive inside the guard of the release, so
the next step begins tangled: its zero sets a deadline that the motion after it does not clear, and the
disarm of the lost connection requests no stop. -/
theorem stop_forgotten :
    let control := Bench.control true .explicitPush
    let w := (run (Bench.environment Bench.tangling) control (Bench.cycles 18) (initial control)).2
    w.channel.motionMayExist = true ∧ control.target w.session.keys = (0, 0) ∧
      w.session.stopRequested = false ∧ ¬Stopped w := by
  decide +kernel

end Smartwheel.Wheel

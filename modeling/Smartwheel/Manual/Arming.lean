import Smartwheel.Manual.WriteGuard

/-! Arming that fails leaves the session as it was: nothing before the last record of `arm` touches the state or the
arming of the channel, and nothing is driven until an arming has passed its preflight. -/
namespace Smartwheel.Manual
open Modbus Effect Effect.Program Serial

variable {env : Env} {contract : ManualContract} {w₀ w w' : World} {α β : Type}

structure SameArming (w₀ w : World) : Prop where
  state : w.session.state = w₀.session.state
  armed : w.channel.armed = w₀.channel.armed

/-- A program that keeps both. -/
abbrev Spares (w₀ : World) (x : Act α) : Prop := x.Preserves (SameArming w₀)

theorem note_spares (e : Event) : Spares w₀ (note e) := Preserves.modify fun _ h => ⟨h.state, h.armed⟩

theorem session_spares {f : Session → Session} (same : ∀ s, (f s).state = s.state) : Spares w₀ (session f) :=
  Preserves.modify fun w h => ⟨(same w.session).trans h.state, h.armed⟩

theorem channel_spares {f : Channel → Channel} (same : ∀ c, (f c).armed = c.armed) : Spares w₀ (channel f) :=
  Preserves.modify fun w h => ⟨h.state, (same w.channel).trans h.armed⟩

theorem setResponse_spares (response : Bytes) : Spares w₀ (setResponse response) :=
  Preserves.modify fun _ h => ⟨h.state, h.armed⟩

theorem setSent_spares (sent : Nat) : Spares w₀ (setSent sent) := Preserves.modify fun _ h => ⟨h.state, h.armed⟩

theorem call_spares (e : Event) (answer : World → Option PyError) : Spares w₀ (call e answer) := by
  refine Preserves.get.bind fun w => (note_spares e).bind fun _ => ?_
  cases answer w with
  | none => exact Preserves.pure ()
  | some error => exact Preserves.raise error

theorem ask_spares (e : Event) (answer : World → Except PyError α) : Spares w₀ (ask e answer) := by
  refine Preserves.get.bind fun w => (note_spares e).bind fun _ => ?_
  cases answer w with
  | ok a => exact Preserves.pure a
  | error error => exact Preserves.raise error

theorem watch_spares (answer : History → α) (e : α → Event) : Spares w₀ (watch answer e) :=
  Preserves.get.bind fun _ => (note_spares _).bind fun _ => Preserves.pure _

theorem liftFault_spares (r : Except Fault α) : Spares w₀ (liftFault r) := by
  cases r with
  | ok a => exact Preserves.pure a
  | error f => exact Preserves.raise _

theorem except_spares {x : Act α} {handler : PyError → Act α} (h : Spares w₀ x) (next : ∀ e, Spares w₀ (handler e)) :
    Spares w₀ (exceptException x handler) := by
  refine h.handle fun e => ?_
  split
  · exact next e
  · exact Preserves.raise e

theorem receive_spares (deadline : ℚ) (rounds expected : Nat) :
    Spares w₀ (receive (monotonic env) (selectRead env) (osRead env) receiveErrors deadline rounds expected) := by
  induction rounds generalizing expected with
  | zero => exact Preserves.pure ()
  | succ rounds ih =>
    refine Preserves.get.bind fun w => Preserves.when ?_
    refine (watch_spares _ _).bind fun now => Preserves.raiseIf.bind fun _ => ?_
    refine (ask_spares _ _).bind fun readable => Preserves.raiseIf.bind fun _ => ?_
    refine (ask_spares _ _).bind fun chunk => Preserves.raiseIf.bind fun _ => ?_
    exact (setResponse_spares _).bind fun _ => Preserves.raiseIf.bind fun _ => ih _

theorem requireNotCancelled_spares : Spares w₀ (requireNotCancelled env) :=
  Preserves.get.bind fun _ => Preserves.when ((watch_spares _ _).bind fun _ => Preserves.raiseIf)

theorem requireFreshMotion_spares : Spares w₀ (requireFreshMotion env contract) := by
  refine Preserves.get.bind fun _ => Preserves.raiseIf.bind fun _ => requireNotCancelled_spares.bind fun _ => ?_
  exact (watch_spares _ _).bind fun _ => (note_spares _).bind fun _ => Preserves.raiseIf.bind fun _ => Preserves.raiseIf

theorem transmit_spares (request : Bytes) : Spares w₀ (transmit env contract request) := by
  have motion : Spares w₀ (beginMotion env contract) :=
    requireFreshMotion_spares.bind fun _ => (channel_spares fun _ => by rfl).bind fun _ => (watch_spares _ _).bind fun _ =>
      channel_spares fun _ => by rfl
  have write : Spares w₀ (osWrite env request) := Preserves.get.bind fun _ => ask_spares _ _
  exact (Preserves.when motion).bind fun _ => write.bind fun _ => (setSent_spares _).bind fun _ => Preserves.raiseIf

theorem transact_spares (request : Bytes) : Spares w₀ (transact env contract request) := by
  refine Preserves.get.bind fun _ => (call_spares _ _).bind fun _ => (ask_spares _ _).bind fun _ => ?_
  refine (Preserves.when ((ask_spares _ _).bind fun _ => (setResponse_spares _).bind fun _ => Preserves.raise _)).bind fun _ => ?_
  refine (watch_spares _ _).bind fun _ => (watch_spares _ _).bind fun _ => (ask_spares _ _).bind fun _ => ?_
  refine Preserves.raiseIf.bind fun _ => (transmit_spares request).bind fun _ => (receive_spares _ _ _).bind fun _ => ?_
  refine Preserves.get.bind fun _ => (liftFault_spares _).bind fun _ => (note_spares _).bind fun _ => ?_
  exact (call_spares _ _).bind fun _ => (channel_spares fun _ => by rfl).bind fun _ => Preserves.pure _

theorem abandon_spares (request : Bytes) (error : PyError) : Spares w₀ (abandon env request error) := by
  have failed : Spares w₀ fail := Preserves.get.bind fun _ => (channel_spares fun _ => by rfl).bind fun _ => note_spares _
  refine Preserves.get.bind fun _ => (Preserves.when failed).bind fun _ => ?_
  exact (except_spares (call_spares _ _) fun _ => Preserves.pure ()).bind fun _ => Preserves.raise error

theorem exchange_spares (request : Bytes) : Spares w₀ (exchange env contract request) := by
  have admitted : Spares w₀ (admission env contract request) := by
    refine Preserves.get.bind fun _ => Preserves.raiseIf.bind fun _ => requireNotCancelled_spares.bind fun _ => ?_
    split
    · exact Preserves.raiseIf
    · exact (liftFault_spares _).bind fun _ => Preserves.raiseIf
  refine admitted.bind fun _ => (setResponse_spares _).bind fun _ => (setSent_spares _).bind fun _ => ?_
  exact (transact_spares request).handle fun error => abandon_spares request error

theorem read_spares (request : Bytes) : Spares w₀ (read env contract request) := by
  refine (exchange_spares request).bind fun _ => (liftFault_spares _).bind fun _ => requireNotCancelled_spares.bind fun _ => ?_
  refine Preserves.get.bind fun _ => (Preserves.when ?_).bind fun _ => (note_spares _).bind fun _ => Preserves.pure _
  exact (call_spares _ _).bind fun _ => channel_spares fun _ => by rfl

theorem feedback_spares : Spares w₀ (feedback env contract) := by
  refine (read_spares query).bind fun words => ?_
  match words with
  | [left, right] => exact Preserves.raiseIf.bind fun _ => (note_spares _).bind fun _ => Preserves.pure _
  | [] => exact Preserves.raise _
  | [_] => exact Preserves.raise _
  | _ :: _ :: _ :: _ => exact Preserves.raise _

theorem readChecksFrom_spares (replies : List (Bytes × List Word)) (checks : List Check) :
    Spares w₀ (readChecksFrom env contract replies checks) := by
  induction checks generalizing replies with
  | nil => exact Preserves.pure ()
  | cons check rest ih =>
    have answer : Spares w₀ (replyTo env contract replies check.request) := by
      unfold replyTo
      split
      · exact Preserves.pure _
      · exact read_spares _
    exact answer.bind fun _ => Preserves.need.bind fun _ => Preserves.raiseIf.bind fun _ => ih _

theorem preflightReadings_spares (indices : List Nat) : Spares w₀ (preflightReadings env contract indices) := by
  induction indices with
  | nil => exact Preserves.pure ()
  | cons index rest ih =>
    exact feedback_spares.bind fun _ => Preserves.raiseIf.bind fun _ => (Preserves.when (call_spares _ _)).bind fun _ => ih

theorem preflight_spares : Spares w₀ (preflight env contract) := by
  refine Preserves.get.bind fun _ => Preserves.raiseIf.bind fun _ => (readChecksFrom_spares _ _).bind fun _ => ?_
  refine (preflightReadings_spares _).bind fun _ => (session_spares fun _ => by rfl).bind fun _ => ?_
  exact requireNotCancelled_spares.bind fun _ => (Preserves.get.bind fun _ => Preserves.pure _).bind fun _ => call_spares _ _

def Env.TakesArmed (env : Env) : Prop :=
  ∀ h reason keys motion stop, env.journal h (.status .armed reason keys motion stop) = none

theorem call_value {e : Event} {answer : World → Option PyError} (quiet : answer w = none) : (call e answer w).1 = .value () := by
  have ends : (call e answer).wp (fun r _ => r = .value ()) w := by simp [call, note, quiet]
  exact ends

theorem journalStatus_armed (takes : env.TakesArmed) (armed : w.session.state = .armed) :
    (journalStatus env w).1 = .value () := by
  have none_ := takes w.trace w.session.reason w.session.keys w.channel.motionMayExist w.channel.lastStop
  rw [← armed] at none_
  have quiet : (env.journal w.trace (.status w.session.state w.session.reason w.session.keys w.channel.motionMayExist
      w.channel.lastStop)).map Raise.error = none := by rw [none_]; rfl
  show (call _ (fun w' => (env.journal w'.trace (.status w.session.state w.session.reason w.session.keys
    w.channel.motionMayExist w.channel.lastStop)).map Raise.error) w).1 = _
  exact call_value quiet

theorem arm_raises (takes : env.TakesArmed) {key : String} {e : PyError} (raised : arm env contract key w = (.raised e, w')) :
    SameArming w w' := by
  have spares : (arm env contract key).wp (fun r s => ∀ e, r = .raised e → SameArming w s) w := by
    refine wp.seq (Q := fun _ s => SameArming w s) (Preserves.get w ⟨rfl, rfl⟩) (fun a w₁ h₁ => ?_) (fun _ _ h _ _ => h)
      fun _ _ _ no => nomatch no
    refine wp.seq (Q := fun _ s => SameArming w s) (Preserves.raiseIf w₁ h₁) (fun _ w₁ h₁ => ?_) (fun _ _ h _ _ => h)
      fun _ _ _ no => nomatch no
    refine wp.seq (Q := fun _ s => SameArming w s) (preflight_spares w₁ h₁) (fun _ w₂ h₂ => ?_) (fun _ _ h _ _ => h)
      fun _ _ _ no => nomatch no
    intro e no
    refine absurd ((journalStatus_armed takes ?_).symm.trans no) (by simp)
    rfl
  have last := spares e
  rw [raised] at last
  exact last rfl

/-! What comes after. -/

def AfterArming (e : Event) (earlier : History) : Prop := e.isMotionWrite = true → Event.stateSet .armed ∈ earlier

/-- Since `w₀` every velocity write other than zero has come after an arming. -/
def Undriven (w₀ w : World) : Prop :=
  ∃ later, w.trace = later ++ w₀.trace ∧ (w.session.state = .armed → Event.stateSet .armed ∈ later) ∧ Always AfterArming later

theorem Undriven.same (h : Undriven w₀ w) (trace : w'.trace = w.trace) (state : w'.session.state = w.session.state) :
    Undriven w₀ w' := by
  obtain ⟨later, split, armed, always⟩ := h
  exact ⟨later, trace.trans split, fun now => armed (state.symm.trans now), always⟩

theorem Undriven.log {e : Event} (h : Undriven w₀ w) (trace : w'.trace = e :: w.trace)
    (state : w'.session.state = .armed → w.session.state = .armed ∨ e = .stateSet .armed)
    (write : e.isMotionWrite = true → w.session.state = .armed) : Undriven w₀ w' := by
  obtain ⟨later, split, armed, always⟩ := h
  refine ⟨e :: later, by rw [trace, split]; rfl, fun now => ?_, fun driven => armed (write driven), always⟩
  rcases state now with before | rfl
  · exact List.mem_cons_of_mem _ (armed before)
  · exact List.mem_cons_self

theorem undriven_step {calm : Prop} (h : Move contract calm w w') (before : Undriven w₀ w) : Undriven w₀ w' := by
  cases h with
  | observe es hs hc ht he =>
    obtain ⟨later, split, armed, always⟩ := before
    refine ⟨es ++ later, by rw [ht, split, List.append_assoc], fun now => ?_, always.append fun e there earlier driven => ?_⟩
    · exact List.mem_append_right _ (armed (by rw [← hs]; exact now))
    · have quiet := he e there
      cases e <;> simp [Event.isMotionWrite, Event.guarded] at driven quiet
  | keep f hs => exact before.same rfl hs
  | book | motion | conclude => exact before.same rfl rfl
  | write request hf hg =>
    refine before.log rfl .inl fun driven => ?_
    simp only [Event.isMotionWrite, Bool.decide_and, Bool.and_eq_true, decide_eq_true_eq] at driven
    exact (hg driven.1 driven.2).state
  | recover => exact before.log rfl .inl fun driven => by simp [Event.isMotionWrite] at driven
  | fail | attempt | clear | stopped => exact before.log rfl .inl fun driven => by cases driven
  | state s hs => exact before.log rfl (fun now => .inr (congrArg Event.stateSet now)) fun driven => by cases driven
  | beginStop s hs hs' => exact before.log rfl (fun now => absurd now hs') fun driven => by cases driven

theorem raiseIf_first {c : Prop} [Decidable c] {e : PyError} {k : Unit → Act α} (h : c) :
    (Program.raiseIf c e >>= k) w = (.raised e, w) := by
  have raises : Program.raiseIf c e = (raise e : Act Unit) := if_pos h
  rw [raises]
  rfl

theorem arm_of_armed (armed : w.session.state = .armed) (key : String) : arm env contract key w =
    (.raised (feedbackError "fresh explicit E arming is required in a disarmed live session"), w) := by
  have refused : key ≠ "e" ∨ w.session.state ≠ .disarmed ∨ w.session.closed := .inr (.inl (by simp [armed]))
  exact raiseIf_first refused

/-- An arming that raises leaves a session that was not armed not armed, and nothing but the zero frame is written as a
velocity until a later arming has passed its preflight; a session that is armed refuses, and stays as it is. -/
theorem arm_refused (env : Env) (contract : ManualContract) (takes : env.TakesArmed) (key : String) (w : World) :
    (∀ e w', arm env contract key w = (.raised e, w') → w.session.state ≠ .armed → w.channel.armed = false →
      w'.session.state ≠ .armed ∧ w'.channel.armed = false ∧
      ∀ ops, ∃ later, (run env contract ops w').2.trace = later ++ w'.trace ∧
        ∀ after write before, later = after ++ write :: before → write.isMotionWrite = true → Event.stateSet .armed ∈ before) ∧
    (w.session.state = .armed →
      arm env contract key w = (.raised (feedbackError "fresh explicit E arming is required in a disarmed live session"), w)) := by
  constructor
  · intro e w' raised unarmed off
    have same := arm_raises takes raised
    have state : w'.session.state ≠ .armed := by
      rw [same.state]
      exact unarmed
    refine ⟨state, same.armed.trans off, fun ops => ?_⟩
    obtain ⟨later, split, -, always⟩ : Undriven w' (run env contract ops w').2 :=
      (run_goes ops).path.keeps (fun _ _ => undriven_step) ⟨[], rfl, fun now => absurd now state, trivial⟩
    exact ⟨later, split, fun _ _ _ here driven => always.split here driven⟩
  · exact fun armed => arm_of_armed armed key

/-- A bench session refuses the key `x`, and stays undriven while the user tries to drive it. -/
theorem bench_arm_refused : ∃ e w', arm Bench.environment Bench.contract "x" initial = (.raised e, w') ∧
    w'.session.state ≠ .armed ∧ w'.channel.armed = false ∧
    ∀ ops, ∃ later, (run Bench.environment Bench.contract ops w').2.trace = later ++ w'.trace ∧
      ∀ after write before, later = after ++ write :: before → write.isMotionWrite = true → Event.stateSet .armed ∈ before :=
  ⟨_, initial, rfl, (arm_refused Bench.environment Bench.contract (fun _ _ _ _ _ => rfl) "x" initial).1 _ _ rfl (by decide) rfl⟩

/-- A bench session that is armed and asked to arm again refuses, and is armed after that. -/
theorem bench_armed_refuses : ¬ ∀ (w : World) e w', arm Bench.environment Bench.contract "e" w = (.raised e, w') →
    w'.session.state ≠ .armed := by
  intro unarmed
  have stays : ((run Bench.environment Bench.contract [.arm "e"] initial).2.session.state = .armed) := by decide +kernel
  exact unarmed _ _ _ (arm_of_armed stays "e") stays

end Smartwheel.Manual

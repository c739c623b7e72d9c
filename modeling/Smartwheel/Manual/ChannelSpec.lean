import Smartwheel.Manual.Moves

/-! What the channel's functions do: environment calls, exchanges, reads, velocity writes and the
zero transmission after a failure. -/
namespace Smartwheel.Manual
open Modbus Effect Effect.Program Serial

variable {env : Env} {contract : ManualContract} {w : World} {α : Type} {E : PyError → World → Prop}

theorem raised_motionRejected (m : String) : Raised env (.motionRejected m) w := fun _ => rfl

theorem raised_feedback (m : String) : Raised env (feedbackError m) w := fun _ => rfl

theorem raised_raise {raise : Raise} (h : env.ExceptionsOnly → raise ≠ .interrupt) :
    Raised env raise.error w := by
  intro calm
  cases raise with
  | exception f => rfl
  | interrupt => exact absurd rfl (h calm)

theorem note_goes {e : Event} (h : e.guarded = false) :
    (note e).Goes (guarantee env contract) (fun _ w' => w' = w.log e) E w :=
  .modify (.single (.observe [e] rfl rfl rfl (by simpa using h))) id rfl

theorem session_goes {f : Session → Session} (h : (f w.session).state = w.session.state) :
    (session f).Goes (guarantee env contract) (fun _ w' => w' = w.onSession f) E w :=
  .modify (.single (.keep f h)) id rfl

theorem channel_goes {f : Channel → Channel}
    (hm : (f w.channel).motionMayExist = w.channel.motionMayExist)
    (hf : (f w.channel).failed = w.channel.failed)
    (ha : (f w.channel).bestEffortAttempted = w.channel.bestEffortAttempted)
    (hp : (f w.channel).stopping = w.channel.stopping) :
    (channel f).Goes (guarantee env contract) (fun _ w' => w' = w.onChannel f) E w :=
  .modify (.single (.book f hm hf ha hp)) (fun hs => hp ▸ hs) rfl

theorem raised_answer {o : Option Raise} (h : env.ExceptionsOnly → o ≠ some .interrupt)
    (error : PyError) (w' : World) (ho : o.map Raise.error = some error) : Raised env error w' := by
  cases o with
  | none => cases ho
  | some raise =>
    obtain rfl := Option.some.inj ho
    exact raised_raise fun calm hi => h calm (congrArg some hi)

theorem raised_answer_of {r : Except Raise α} (h : env.ExceptionsOnly → r ≠ .error .interrupt)
    (error : PyError) (w' : World) (hr : r.mapError Raise.error = .error error) :
    Raised env error w' := by
  cases r with
  | ok a => cases hr
  | error raise =>
    obtain rfl := Except.error.inj hr
    exact raised_raise fun calm hi => h calm (congrArg Except.error hi)

theorem monotonic_steady : Does env contract (monotonic env) (fun _ => Steady w) w := watch_steady rfl

theorem cancelCheck_steady : Does env contract (cancelCheck env) (fun _ => Steady w) w := watch_steady rfl

theorem journal_steady (record : Record) :
    Does env contract (journal env record) (fun _ => Steady w) w :=
  call_steady rfl (raised_answer fun calm => calm.journal _ _)

theorem sleep_steady (seconds : ℚ) : Does env contract (sleep env seconds) (fun _ => Steady w) w :=
  call_steady rfl (raised_answer fun calm => calm.sleep _ _)

theorem selectRead_steady (timeout : ℚ) :
    Does env contract (selectRead env timeout) (fun _ => Steady w) w :=
  ask_steady rfl (raised_answer_of fun calm => calm.selectRead _ _)

theorem selectWrite_steady (timeout : ℚ) :
    Does env contract (selectWrite env timeout) (fun _ => Steady w) w :=
  ask_steady rfl (raised_answer_of fun calm => calm.selectWrite _ _)

theorem osRead_steady : Does env contract (osRead env) (fun _ => Steady w) w :=
  ask_steady rfl (raised_answer_of fun calm => calm.osRead _)

variable {request : Bytes}

theorem osWrite_by (h : Move contract env.ExceptionsOnly w (w.log (.write request w.machine))) :
    Does env contract (osWrite env request)
      (fun _ w' => w' = w.log (.write request w.machine)) w := by
  refine .get_bind (.get_bind (.bind (F := fun _ w' => w' = w.log (.write request w.machine))
    (.modify (.single h) id rfl) fun _ w' hw => ?_))
  dsimp only
  cases ha : (env.osWrite w.trace request).mapError Raise.error with
  | ok a => exact .pure hw
  | error error => exact .raise (raised_answer_of (fun calm => calm.osWrite _ _) error w' ha)

variable {F : α → World → Prop}

theorem liftFault_does {r : Except Fault α} (h : ∀ a, r = .ok a → F a w) :
    Does env contract (liftFault r) F w := liftFault_goes h fun _ _ _ => rfl

theorem requireNotCancelled_steady :
    Does env contract (requireNotCancelled env) (fun _ => Steady w) w := by
  refine .get_bind (.when (fun _ => ?_) fun _ => .refl w)
  refine steady_bind (.refl w) cancelCheck_steady fun cancelled w1 h1 => ?_
  exact .raiseIf (fun _ => raised_motionRejected _) fun _ => h1

theorem raiseIf_does {c : Prop} [Decidable c] {m : String} :
    Does env contract (.raiseIf c (feedbackError m)) (fun _ => Steady w) w :=
  raiseIf_steady (raised_feedback m)

theorem receive_does (deadline : ℚ) (rounds expected : Nat) :
    Does env contract (receive (monotonic env) (selectRead env) (osRead env) receiveErrors deadline
      rounds expected) (fun _ => Steady w) w :=
  receive_steady (fun _ => monotonic_steady) (fun _ _ => selectRead_steady _) (fun _ => osRead_steady)
    (fun _ _ => raised_feedback _) _ _ _

/-- `except Exception`: what is not handled has to be allowed. -/
theorem except_goes {x : Act α} {k : PyError → Act α} (hE : ∀ e w', e.isException = false → Raised env e w' → E e w')
    (h : Does env contract x F w) (hk : ∀ e w', (k e).Goes (guarantee env contract) F E w') :
    (exceptException x k).Goes (guarantee env contract) F E w :=
  .handle h fun e w' he => .ite (fun _ => hk e w') fun hn => .raise (hE e w' (by simpa using hn) he)

theorem interrupted_of_raised (e : PyError) (w : World) (hn : e.isException = false)
    (h : Raised env e w) : Interrupted env e w := by
  intro calm
  have := h calm
  rw [hn] at this
  cases this

/-- An `except Exception` around a program whose handler raises nothing. -/
theorem except_silent {x : Act α} {k : PyError → Act α} (h : Does env contract x F w)
    (hk : ∀ e w', (k e).Goes (guarantee env contract) F (Interrupted env) w') :
    (exceptException x k).Goes (guarantee env contract) F (Interrupted env) w :=
  except_goes interrupted_of_raised h hk

theorem raised_of_interrupted {e : PyError} (h : Interrupted env e w) : Raised env e w :=
  fun calm => absurd calm h

theorem any_of_steady {x : Act α} (h : Does env contract x (fun _ => Steady w) w) :
    Does env contract x (fun _ _ => True) w := h.ensures fun _ _ _ => trivial

theorem lastFresh_append {es h : History} (hes : ∀ e ∈ es, e.quiet = true) :
    lastFresh (es ++ h) = lastFresh h := by
  induction es with
  | nil => rfl
  | cons e es ih =>
    have he := hes e (by simp)
    have ht : ∀ e ∈ es, e.quiet = true := fun x hx => hes x (List.mem_cons_of_mem e hx)
    rw [List.cons_append, ← ih ht]
    cases e <;> first | rfl | cases he

variable {w' : World}

theorem lastFresh_steady (h : Steady w w') : lastFresh w'.trace = lastFresh w.trace := by
  obtain ⟨es, ht, hes⟩ := h.trace
  rw [ht, lastFresh_append hes]

theorem since_boundary (h : Grew Event.plain w w') {e : Event}
    (he : e ∈ since Event.boundary w.trace) : e ∈ since Event.boundary w'.trace := by
  obtain ⟨es, ht, hes⟩ := h
  rw [ht, since_append _ fun e he => Event.boundary_of_plain (hes e he)]
  exact List.mem_append_right es he

theorem DriveReady.grew (hr : DriveReady contract w.trace) (h : Grew Event.plain w w') :
    DriveReady contract w'.trace := by
  obtain ⟨left, right, hf, hb⟩ := hr.feedback
  refine ⟨⟨left, right, since_boundary h hf, hb⟩, fun check hc => ?_⟩
  obtain ⟨words, hm, hw⟩ := hr.checks check hc
  exact ⟨words, since_boundary h hm, hw⟩

structure Pending (contract : ManualContract) (w : World) : Prop where
  state : w.session.state = .armed
  held : w.session.keys = heldKeys w.session.keyTimes
  deadline : ∃ stamp, oldest w.session.keyTimes = some stamp ∧
    w.channel.motionDeadline = some (stamp + contract.keyTimeout)
  ready : DriveReady contract w.trace

theorem Pending.steady (hp : Pending contract w) (h : Steady w w') : Pending contract w' where
  state := by rw [h.session]; exact hp.state
  held := by rw [h.session]; exact hp.held
  deadline := by rw [h.session, h.channel]; exact hp.deadline
  ready := hp.ready.grew (Held.of_steady h).trace

/-- `_exchange` has admitted the request. -/
structure Admitted (contract : ManualContract) (request : Bytes) (w : World) : Prop where
  sound : w.channel.failed = false
  write : functionCode request = 0x10 →
    contract.validateWrite request = .ok request ∧ w.channel.armed = true
  pending : functionCode request = 0x10 → request ≠ zeroRequest → Pending contract w

theorem Admitted.steady (ha : Admitted contract request w) (h : Steady w w') : Admitted contract request w' where
  sound := by rw [h.channel]; exact ha.sound
  write := by rw [h.channel]; exact ha.write
  pending hf hz := (ha.pending hf hz).steady h

/-- `require_fresh_motion` has passed. -/
structure Fresh (w w' : World) : Prop where
  held : Held w w'
  channel : w'.channel = w.channel
  running : w.channel.stopping = false
  fresh : ∃ now deadline, lastFresh w'.trace = some now ∧ w.channel.motionDeadline = some deadline ∧
    now < deadline

theorem requireFreshMotion_goes :
    Does env contract (requireFreshMotion env contract) (fun _ => Fresh w) w := by
  refine .get_bind ?_
  refine .bind (F := fun _ w1 => w1 = w ∧ w.channel.stopping = false)
    (.raiseIf (fun _ => raised_motionRejected _) fun h => ⟨rfl, by simpa using h⟩) fun _ w1 h1 => ?_
  obtain ⟨rfl, running⟩ := h1
  refine steady_bind (.refl w1) requireNotCancelled_steady fun _ w2 h2 => ?_
  refine steady_bind h2 monotonic_steady fun now w3 h3 => ?_
  refine .bind (note_goes rfl) fun _ w4 h4 => ?_
  subst h4
  refine .bind (F := fun _ w5 => w5 = w3.log (.fresh now) ∧ ∃ deadline,
      w1.channel.motionDeadline = some deadline ∧ now < deadline)
    (.raiseIf (fun _ => raised_motionRejected _) fun h => ⟨rfl, ?_⟩) fun _ w5 h5 => ?_
  · cases hd : w1.channel.motionDeadline with
    | none => simp [hd] at h
    | some deadline => exact ⟨deadline, rfl, by simpa [hd] using h⟩
  obtain ⟨rfl, deadline, hd, hn⟩ := h5
  refine .raiseIf (fun _ => raised_motionRejected _) fun _ => ?_
  exact ⟨(Held.of_steady h3).log rfl, h3.channel, running, now, deadline, rfl, hd, hn⟩

/-- Everything the write of a nonzero velocity is guarded by holds after `beginMotion`. -/
theorem beginMotion_goes (ha : Admitted contract request w)
    (hf : functionCode request = 0x10) (hz : request ≠ zeroRequest) :
    Does env contract (beginMotion env contract) (fun _ w' => Held w w' ∧ w'.channel.failed = false ∧
      MotionGuard contract request w'.machine w'.trace) w := by
  have pending := ha.pending hf hz
  obtain ⟨valid, armed⟩ := ha.write hf
  obtain ⟨stamp, hs, hd⟩ := pending.deadline
  refine .bind requireFreshMotion_goes fun _ w1 h1 => ?_
  obtain ⟨now, deadline, hl, hd', hn⟩ := h1.fresh
  obtain rfl : stamp + contract.keyTimeout = deadline := Option.some.inj (hd.symm.trans hd')
  refine .bind (F := fun _ w2 => w2 = w1.onChannel fun c => { c with motionMayExist := true })
    (.modify (.single (.motion ?_ ?_)) id rfl) fun _ w2 h2 => ?_
  · rw [h1.held.kept.session]; exact pending.state
  · rw [h1.held.kept.failed]; exact ha.sound
  subst h2
  refine .bind monotonic_steady fun written w3 h3 => ?_
  refine (channel_goes rfl rfl rfl rfl).ensures fun _ w4 h4 => ?_
  subst h4
  have hchannel : w3.channel = { w.channel with motionMayExist := true } := by
    rw [h3.channel, ← h1.channel]; rfl
  have hsession : w3.session = w.session := h3.session.trans h1.held.kept.session
  have hfailed : w3.channel.failed = w.channel.failed := (congrArg Channel.failed hchannel).trans rfl
  have hheld : Held w w3 := ⟨⟨hsession, hfailed⟩, h1.held.trace.trans (Held.of_steady h3).trace⟩
  refine ⟨⟨⟨hsession, hfailed⟩, hheld.trace⟩, ?_, ?_⟩
  · exact hfailed.trans ha.sound
  · exact {
      valid := valid
      state := (congrArg Session.state hsession).trans pending.state
      armed := (congrArg Channel.armed hchannel).trans armed
      sound := hfailed.trans ha.sound
      running := (congrArg Channel.stopping hchannel).trans h1.running
      held := by
        change w3.session.keys = heldKeys w3.session.keyTimes
        rw [hsession]; exact pending.held
      fresh := by
        refine ⟨now, stamp, ?_, ?_, hn⟩
        · exact (lastFresh_steady h3).trans hl
        · change oldest w3.session.keyTimes = some stamp
          rw [hsession]; exact hs
      ready := pending.ready.grew hheld.trace }

theorem transmit_goes (ha : Admitted contract request w) :
    Does env contract (transmit env contract request) (fun _ w' => Held w w') w := by
  refine .bind (F := fun _ w1 => Held w w1 ∧ w1.channel.failed = false ∧
      (functionCode request = 0x10 → request ≠ zeroRequest →
        MotionGuard contract request w1.machine w1.trace)) ?_ fun _ w1 h1 => ?_
  · refine .when (fun h => ?_) fun h => ⟨.refl w, ha.sound, fun hf hz => absurd ⟨hf, hz⟩ h⟩
    exact (beginMotion_goes ha h.1 h.2).ensures fun _ w1 h1 => ⟨h1.1, h1.2.1, fun _ _ => h1.2.2⟩
  · obtain ⟨held, sound, guarded⟩ := h1
    refine .bind (osWrite_by (.write request sound guarded)) fun sent w2 h2 => ?_
    subst h2
    have hw : Held w (w1.log (.write request w1.machine)) := held.log rfl
    refine .bind (setSent_steady sent) fun _ w3 h3 => ?_
    exact .raiseIf (fun _ => raised_feedback _) fun _ => hw.trans (.of_steady h3)

structure Acknowledged (request response : Bytes) (w w' : World) : Prop where
  kept : Kept w w'
  valid : ∃ words, validateAck request response = .ok words
  trace : ∃ late early, w'.trace = late ++ .acknowledged request response :: (early ++ w.trace) ∧
    (∀ e ∈ late, e.plain = true) ∧ ∀ e ∈ early, e.plain = true

theorem Acknowledged.held {response : Bytes} (h : Acknowledged request response w w') : Held w w' := by
  obtain ⟨late, early, ht, hl, he⟩ := h.trace
  refine ⟨h.kept, late ++ .acknowledged request response :: early, by simp [ht], ?_⟩
  intro e hm
  rcases List.mem_append.mp hm with hm | hm
  · exact hl e hm
  · rcases List.mem_cons.mp hm with rfl | hm
    · rfl
    · exact he e hm

theorem Acknowledged.before {response : Bytes} {w0 : World} (h0 : Steady w0 w)
    (h : Acknowledged request response w w') : Acknowledged request response w0 w' := by
  obtain ⟨late, early, ht, hl, he⟩ := h.trace
  obtain ⟨es, ht0, hes⟩ := (Held.of_steady h0).trace
  refine ⟨(Kept.of_steady h0).trans h.kept, h.valid, late, early ++ es, by simp [ht, ht0], hl, ?_⟩
  intro e hm
  rcases List.mem_append.mp hm with hm | hm
  · exact he e hm
  · exact hes e hm

theorem transact_goes (ha : Admitted contract request w) : Does env contract (transact env contract request)
      (fun response w' => Acknowledged request response w w') w := by
  refine .get_bind ?_
  refine steady_bind (.refl w) (journal_steady _) fun _ w1 h1 => ?_
  refine steady_bind h1 (selectRead_steady _) fun stray w2 h2 => ?_
  refine .bind (F := fun _ => Steady w) (.when (fun _ => ?_) fun _ => h2) fun _ w3 h3 => ?_
  · refine steady_bind h2 osRead_steady fun chunk w3 h3 => ?_
    exact steady_bind h3 (setResponse_steady _) fun _ w4 h4 => .raise (raised_feedback _)
  refine steady_bind h3 monotonic_steady fun started w4 h4 => ?_
  refine steady_bind h4 monotonic_steady fun now w5 h5 => ?_
  refine steady_bind h5 (selectWrite_steady _) fun writable w6 h6 => ?_
  refine steady_bind h6 (raiseIf_does) fun _ w7 h7 => ?_
  refine .bind (transmit_goes (ha.steady h7)) fun _ w8 h8 => ?_
  have held : Held w w8 := (Held.of_steady h7).trans h8
  refine .bind (receive_does _ _ _) fun _ w9 h9 => .get_bind ?_
  have held : Held w w9 := held.trans (.of_steady h9)
  refine .bind (F := fun words w10 => w10 = w9 ∧ validateAck request w9.response = .ok words)
    (liftFault_does fun _ h => ⟨rfl, h⟩) fun words w10 h10 => ?_
  obtain ⟨rfl, valid⟩ := h10
  refine .bind (note_goes rfl) fun _ w11 h11 => ?_
  subst h11
  refine .bind (journal_steady _) fun _ w12 h12 => ?_
  refine .bind (channel_goes rfl rfl rfl rfl) fun _ w13 h13 => .pure ?_
  subst h13
  obtain ⟨late, hl, hlate⟩ := (Held.of_steady h12).trace
  obtain ⟨early, he, hearly⟩ := held.trace
  have kept : Kept w w12 := held.kept.trans ⟨h12.session, congrArg Channel.failed h12.channel⟩
  refine ⟨⟨kept.session, kept.failed⟩, ⟨words, valid⟩, late, early, ?_, hlate, hearly⟩
  change w12.trace = _
  rw [hl]
  simp [World.log, he]

theorem fail_goes : fail.Goes (guarantee env contract) (fun _ w' => w' = w.toFailed) E w := by
  refine .get_bind ?_
  change (Program.modify fun x : World => (x.onChannel _).log (.failure w.machine)).Goes _ _ _ _
  exact .modify (.single .fail) id rfl

theorem abandon_goes {error : PyError} {F : Bytes → World → Prop}
    (he : Raised env error w) : Does env contract (abandon env request error) F w := by
  refine .get_bind (.bind (F := fun _ _ => True) (.when (fun _ => ?_) fun _ => trivial) fun _ w1 _ => ?_)
  · exact fail_goes.ensures fun _ _ _ => trivial
  · refine .bind (F := fun _ _ => True) ?_ fun _ w2 _ => .raise he
    exact (except_silent (any_of_steady (journal_steady _)) fun _ _ => .pure trivial).weaken
      (fun _ _ h => h) fun _ _ => raised_of_interrupted

theorem admission_goes (hp : functionCode request = 0x10 → request ≠ zeroRequest → Pending contract w) :
    Does env contract (admission env contract request)
      (fun _ w' => Steady w w' ∧ Admitted contract request w') w := by
  refine .get_bind ?_
  refine .bind (F := fun _ w1 => w1 = w ∧ w.channel.failed = false)
    (.raiseIf (fun _ => raised_feedback _) fun h => ⟨rfl, by simp at h; exact h.2⟩) fun _ w1 h1 => ?_
  obtain ⟨rfl, sound⟩ := h1
  refine .bind requireNotCancelled_steady fun _ w2 h2 => ?_
  have sound2 : w2.channel.failed = false := by rw [h2.channel]; exact sound
  refine .ite (fun hf => ?_) fun hf => ?_
  · refine .raiseIf (fun _ => raised_feedback _) fun _ => ⟨h2, sound2, ?_, ?_⟩ <;>
      exact fun h => absurd (hf.symm.trans h) (by decide)
  · refine .bind (F := fun checked w3 => w3 = w2 ∧ contract.validateWrite request = .ok checked)
      (liftFault_does fun _ h => ⟨rfl, h⟩) fun checked w3 h3 => ?_
    obtain ⟨rfl, valid⟩ := h3
    obtain rfl := ManualContract.validateWrite_eq_ok valid
    refine .raiseIf (fun _ => raised_feedback _) fun harmed => ⟨h2, sound2, fun _ => ⟨valid, ?_⟩, ?_⟩
    · rw [h2.channel]; simpa using harmed
    · exact fun h16 hz => (hp h16 hz).steady h2

theorem exchange_goes (hp : functionCode request = 0x10 → request ≠ zeroRequest → Pending contract w) :
    Does env contract (exchange env contract request)
      (fun response w' => Acknowledged request response w w') w := by
  refine .bind (admission_goes hp) fun _ w1 h1 => ?_
  obtain ⟨h1, admitted⟩ := h1
  refine .bind (setResponse_steady []) fun _ w2 h2 => ?_
  refine steady_bind h2 (setSent_steady 0) fun _ w3 h3 => ?_
  refine .handle (E := Raised env) ?_ fun e w4 h4 => abandon_goes h4
  exact (transact_goes (admitted.steady h3)).ensures fun _ _ h => h.before (h1.trans h3)

structure Answered (request : Bytes) (words : List Word) (w w' : World) : Prop where
  kept : Kept w w'
  trace : ∃ es, w'.trace = .read request words :: (es ++ w.trace) ∧ ∀ e ∈ es, e.plain = true

theorem read_goes (hf : functionCode request = 3) :
    Does env contract (read env contract request) (fun words => Answered request words w) w := by
  have hp : functionCode request = 0x10 → request ≠ zeroRequest → Pending contract w :=
    fun h => absurd (hf.symm.trans h) (by decide)
  refine .bind (exchange_goes hp) fun response w1 h1 => ?_
  refine .bind (F := fun _ w2 => w2 = w1) (liftFault_does fun _ _ => rfl) fun words w2 h2 => ?_
  subst h2
  refine .bind requireNotCancelled_steady fun _ w3 h3 => .get_bind ?_
  refine .bind (F := fun _ => Held w) (.when (fun _ => ?_) fun _ => h1.held.trans (.of_steady h3))
    fun _ w4 h4 => ?_
  · refine .bind (journal_steady _) fun _ w4 h4 => ?_
    refine (channel_goes rfl rfl rfl rfl).ensures fun _ w5 h5 => ?_
    subst h5
    have held := h1.held.trans ((Held.of_steady h3).trans (.of_steady h4))
    exact ⟨⟨held.kept.session, held.kept.failed⟩, held.trace⟩
  · refine .bind (note_goes rfl) fun _ w5 h5 => .pure ?_
    subst h5
    obtain ⟨es, ht, hes⟩ := h4.trace
    exact ⟨h4.kept.log _, es, by simp [World.log, ht], hes⟩

theorem velocity_goes {linear angular : ℚ}
    (hp : ∀ request, contract.velocityRequest linear angular = .ok request →
      functionCode request = 0x10 → request ≠ zeroRequest → Pending contract w) :
    Does env contract (velocity env contract linear angular) (fun response w' =>
      ∃ request, contract.velocityRequest linear angular = .ok request ∧
        Acknowledged request response w w') w := by
  refine .bind (F := fun request w1 => w1 = w ∧ contract.velocityRequest linear angular = .ok request)
    (liftFault_does fun _ h => ⟨rfl, h⟩) fun request w1 h1 => ?_
  obtain ⟨rfl, hr⟩ := h1
  exact (exchange_goes (hp request hr)).ensures fun _ _ h => ⟨request, hr, h⟩

theorem fault_kept (h : Path (guarantee env contract).step w w')
    (hs : w.session.state = .fault) : w'.session.state = .fault := by
  refine Path.keeps (P := fun w => w.session.state = .fault) (fun a b hm ha => ?_) h hs
  cases hm with
  | observe es hs hc ht he => rw [hs]; exact ha
  | keep f hs => exact hs.trans ha
  | state s hs =>
    rcases hs with rfl | ⟨rfl, hd⟩
    · rfl
    · exact absurd (ha.symm.trans hd) (by decide)
  | beginStop s hs => exact hs ha
  | _ => exact ha

theorem since_recovery (hs : Steady w w') (hn : ∀ e ∈ since Event.isRecovery w.trace, e.isWrite = false) :
    ∀ e ∈ since Event.isRecovery w'.trace, e.isWrite = false := by
  obtain ⟨es, ht, hes⟩ := hs.trace
  have hr : ∀ e ∈ es, e.isRecovery = false := by
    intro e he
    have hq := hes e he
    cases e <;> first | rfl | cases hq
  rw [ht, since_append _ hr]
  intro e he
  rcases List.mem_append.mp he with he | he
  · have hq := hes e he
    cases e <;> first | rfl | cases hq
  · exact hn e he

theorem transmitZero_goes (hf : w.channel.failed = true) (ha : w.channel.bestEffortAttempted = true)
    (hn : ∀ e ∈ since Event.isRecovery w.trace, e.isWrite = false) :
    Does env contract (transmitZero env contract) (fun _ _ => True) w := by
  refine .get_bind ?_
  refine steady_bind (.refl w) (raiseIf_does) fun _ w1 h1 => ?_
  refine steady_bind h1 (selectWrite_steady _) fun writable w2 h2 => ?_
  refine steady_bind h2 (raiseIf_does) fun _ w3 h3 => ?_
  refine .bind (osWrite_by (.recover ?_ ?_ (since_recovery h3 hn))) fun sent w4 _ => ?_
  · rw [h3.channel]; exact hf
  · rw [h3.channel]; exact ha
  · refine .bind (setSent_steady sent) fun _ w5 _ => ?_
    exact .raiseIf (fun _ => raised_feedback _) fun _ => trivial

/-- The zero transmission raises nothing while the environment raises `Exception`s only. -/
theorem bestEffortZero_goes (hf : w.channel.failed = true) :
    (bestEffortZero env contract).Goes (guarantee env contract) (fun _ _ => True) (Interrupted env) w := by
  refine .get_bind (.when (fun h => ?_) fun _ => trivial)
  have fresh : w.channel.bestEffortAttempted = false := by simp at h; exact h.2
  rw [channel, note, modify_modify_bind]
  refine .bind (.modify (F := fun _ w1 => w1 = (w.onChannel fun c =>
    { c with bestEffortAttempted := true }).log .recovery) (.single (.attempt hf fresh)) id rfl)
    fun _ w1 h1 => ?_
  subst h1
  refine .bind (setSent_steady 0) fun _ w2 h2 => ?_
  refine .bind (F := fun _ _ => True) ?_ fun error w3 _ => .get_bind ?_
  · refine except_silent (.bind (transmitZero_goes ?_ ?_ ?_) fun _ _ _ => .pure trivial)
      fun _ _ => .pure trivial
    · rw [h2.channel]; exact hf
    · rw [h2.channel]; rfl
    · exact since_recovery h2 (by simp [World.log, since, Event.isRecovery])
  · refine .bind (channel_goes rfl rfl rfl rfl) fun _ w4 _ => ?_
    exact except_silent (any_of_steady (journal_steady _)) fun _ _ => .pure trivial

end Smartwheel.Manual

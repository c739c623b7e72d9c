import Smartwheel.Manual.ChannelSpec

/-! What the session's operations do: feedback, state checks, arming, stopping, ticks and key events. -/
namespace Smartwheel.Manual
open Modbus Effect Effect.Program Serial

variable {env : Env} {contract : ManualContract} {w : World} {E : PyError → World → Prop}

/-- Events of reads and readings: inside one tick and inside one `stop`. -/
def Event.exchanging (e : Event) : Bool := e.plain || e.isFeedback

theorem Event.exchanging_of_plain {e : Event} (h : e.plain = true) : e.exchanging = true := by
  simp [exchanging, h]

theorem Event.insideStop_of_exchanging {e : Event} (h : e.exchanging = true) : e.insideStop = true := by
  cases e <;> first | rfl | cases h

theorem Event.isFeedback_of_plain {e : Event} (h : e.plain = true) : e.isFeedback = false := by
  cases e <;> first | rfl | cases h

theorem readings_append (es h : History) : readings (es ++ h) = readings es ++ readings h := by
  simp [readings]

theorem readings_plain {es : History} (hes : ∀ e ∈ es, e.plain = true) : readings es = [] := by
  simp only [readings, List.filterMap_eq_nil_iff]
  intro e he
  have hp := hes e he
  cases e <;> first | rfl | cases hp

theorem setState_goes {s : State} (hs : s = .fault ∨ s = .armed ∧ w.session.state = .disarmed) :
    (setState s).Goes (guarantee env contract) (fun _ w' => w' = w.toState s) E w :=
  .modify (.single (.state s hs)) id rfl

theorem journalStatus_steady : Does env contract (journalStatus env) (fun _ => Steady w) w :=
  .get_bind (journal_steady _)

theorem checkClock_goes (stamp : Stamp) :
    Does env contract (checkClock env contract stamp) (fun _ _ => True) w := by
  refine .bind (F := fun _ _ => True) (.need (fun _ _ => trivial) fun _ => raised_feedback _)
    fun now w1 _ => ?_
  refine .bind (F := fun _ _ => True) (liftFault_does fun _ _ => trivial) fun _ w2 _ => ?_
  refine .bind monotonic_steady fun current w3 _ => ?_
  refine .bind (raiseIf_does) fun _ w4 _ => .get_bind ?_
  refine .bind (raiseIf_does) fun _ w5 _ => ?_
  exact .bind (session_goes rfl) fun _ _ _ => .pure trivial

structure Reported (contract : ManualContract) (reading : Int × Int) (w w' : World) : Prop where
  kept : Kept w w'
  trace : ∃ es left right, reading = (signed left, signed right) ∧
    w'.trace = .feedback reading.1 reading.2 :: .read query [left, right] :: (es ++ w.trace) ∧
    (∀ e ∈ es, e.plain = true) ∧ withinSpeed contract reading

theorem feedback_goes :
    Does env contract (feedback env contract) (fun reading => Reported contract reading w) w := by
  refine .bind (read_goes rfl) fun words w1 h1 => ?_
  obtain ⟨es, ht, hes⟩ := h1.trace
  match words with
  | [left, right] =>
    refine .bind (F := fun _ w2 => w2 = w1 ∧ withinSpeed contract (signed left, signed right))
      (.raiseIf (fun _ => raised_feedback _) fun h => ⟨rfl, not_lt.mp h⟩) fun _ w2 h2 => ?_
    obtain ⟨rfl, hb⟩ := h2
    refine .bind (note_goes rfl) fun _ w3 h3 => .pure ?_
    subst h3
    exact ⟨h1.kept.log _, es, left, right, rfl, by simp [World.log, ht], hes, hb⟩
  | [] | [_] | _ :: _ :: _ :: _ => exact .raise fun _ => rfl

/-- From `w0` on, a matching reply was read for each of the checks. -/
structure Checked (checks : List Check) (w0 w' : World) : Prop where
  kept : Kept w0 w'
  trace : ∃ es, w'.trace = es ++ w0.trace ∧ (∀ e ∈ es, e.plain = true) ∧
    ∀ check ∈ checks, ∃ words, Event.read check.request words ∈ es ∧ check.matched words

theorem functionCode_check (check : Check) : functionCode check.request = 3 := by
  obtain ⟨address, count, -, -, -, hr, -⟩ := check.reviewed
  rw [hr]
  rfl

variable {replies : List (Bytes × List Word)}

theorem mem_of_lookup {request : Bytes} {words : List Word}
    (h : replies.lookup request = some words) : (request, words) ∈ replies := by
  obtain ⟨early, late, hr, -⟩ := List.lookup_eq_some_iff.mp h
  rw [hr]
  simp

variable {w0 : World}

theorem replyTo_goes {request : Bytes} (hf : functionCode request = 3) (hs : Kept w0 w) {es : History}
    (ht : w.trace = es ++ w0.trace) (hes : ∀ e ∈ es, e.plain = true)
    (hr : ∀ reply ∈ replies, Event.read reply.1 reply.2 ∈ es) :
    Does env contract (replyTo env contract replies request) (fun words w' =>
      Kept w0 w' ∧ ∃ more, w'.trace = more ++ es ++ w0.trace ∧
        (∀ e ∈ more ++ es, e.plain = true) ∧ Event.read request words ∈ more ++ es) w := by
  unfold replyTo
  cases hl : replies.lookup request with
  | some words =>
    have hm : Event.read request words ∈ es := hr _ (mem_of_lookup hl)
    exact .pure ⟨hs, [], by simpa using ht, by simpa using hes, by simpa using hm⟩
  | none =>
    refine (read_goes hf).ensures fun words w' hw => ?_
    obtain ⟨xs, hx, hp⟩ := hw.trace
    refine ⟨hs.trans hw.kept, .read request words :: xs, by simp [hx, ht], ?_, by simp⟩
    intro e he
    simp only [List.cons_append, List.mem_cons, List.mem_append] at he
    rcases he with rfl | he | he
    · rfl
    · exact hp e he
    · exact hes e he

/-- `replies` are replies read since `w0`, by the events `es`. -/
theorem readChecksFrom_goes {checks : List Check} (hs : Kept w0 w) {es : History} (ht : w.trace = es ++ w0.trace)
    (hes : ∀ e ∈ es, e.plain = true) (hr : ∀ reply ∈ replies, Event.read reply.1 reply.2 ∈ es) :
    Does env contract (readChecksFrom env contract replies checks) (fun _ w' =>
      Kept w0 w' ∧ ∃ more, w'.trace = more ++ es ++ w0.trace ∧
        (∀ e ∈ more ++ es, e.plain = true) ∧ ∀ check ∈ checks, ∃ words,
          Event.read check.request words ∈ more ++ es ∧ check.matched words) w := by
  induction checks generalizing w replies es with
  | nil => exact .pure ⟨hs, [], by simpa using ht, by simpa using hes, by simp⟩
  | cons check rest ih =>
    refine .bind (replyTo_goes (functionCode_check check) hs ht hes hr) fun words w1 h1 => ?_
    obtain ⟨hs1, more, ht1, hp1, hm⟩ := h1
    refine .bind (F := fun value w2 => w2 = w1 ∧ words[check.wordIndex]? = some value)
      (.need (fun _ h => ⟨rfl, h⟩) fun _ _ => rfl) fun value w2 h2 => ?_
    obtain ⟨rfl, hv⟩ := h2
    refine .bind (F := fun _ w3 => w3 = w2 ∧ value &&& check.mask = check.equals)
      (.raiseIf (fun _ => raised_feedback _) fun h => ⟨rfl, not_not.mp h⟩) fun _ w3 h3 => ?_
    obtain ⟨rfl, he⟩ := h3
    have hr1 : ∀ reply ∈ (check.request, words) :: replies, Event.read reply.1 reply.2 ∈ more ++ es := by
      intro reply hm'
      rcases List.mem_cons.mp hm' with rfl | hm'
      · exact hm
      · exact List.mem_append_right more (hr reply hm')
    refine (ih hs1 ht1 hp1 hr1).ensures fun _ w4 h4 => ?_
    obtain ⟨hs4, last, ht4, hp4, hc4⟩ := h4
    refine ⟨hs4, last ++ more, by simpa using ht4, by simpa using hp4, ?_⟩
    intro c hc
    rcases List.mem_cons.mp hc with rfl | hc
    · refine ⟨words, ?_, value, hv, he⟩
      rw [List.append_assoc]
      exact List.mem_append_right last hm
    · simpa using hc4 c hc

theorem readChecks_goes :
    Does env contract (readChecks env contract) (fun _ => Checked contract.checks w) w := by
  have start : w.trace = [] ++ w.trace := rfl
  refine (readChecksFrom_goes (.refl w) start (by simp) (by simp)).ensures fun _ w' h => ?_
  obtain ⟨hs, more, ht, hp, hc⟩ := h
  exact ⟨hs, more, by simpa using ht, by simpa using hp, by simpa using hc⟩

theorem preflightReadings_goes (indices : List Nat) :
    Does env contract (preflightReadings env contract indices)
      (fun _ w' => w'.session = w.session) w := by
  induction indices generalizing w with
  | nil => exact .pure rfl
  | cons index rest ih =>
    refine .bind feedback_goes fun reading w1 h1 => ?_
    refine .bind (F := fun _ w2 => w2 = w1) (.raiseIf (fun _ => raised_feedback _) fun _ => rfl)
      fun _ w2 h2 => ?_
    subst h2
    refine .bind (F := fun _ w3 => w3.session = w2.session)
      (.when (fun _ => (sleep_steady _).ensures fun _ _ h => h.session) fun _ => rfl) fun _ w3 h3 => ?_
    exact ih.ensures fun _ w4 h4 => h4.trans (h3.trans h1.kept.session)

theorem preflight_goes :
    Does env contract (preflight env contract)
      (fun _ w' => w'.session.state = w.session.state) w := by
  refine .get_bind ?_
  refine .bind (raiseIf_does) fun _ w1 h1 => ?_
  refine .bind readChecks_goes fun _ w2 h2 => ?_
  refine .bind (preflightReadings_goes _) fun _ w3 h3 => ?_
  refine .bind (session_goes rfl) fun _ w4 h4 => ?_
  subst h4
  refine .bind requireNotCancelled_steady fun _ w5 h5 => ?_
  refine journalStatus_steady.ensures fun _ w6 h6 => ?_
  rw [h6.session, h5.session]
  change w3.session.state = _
  rw [h3, h2.kept.session, h1.session]

theorem arm_goes (operatorKey : String) :
    Does env contract (arm env contract operatorKey) (fun _ _ => True) w := by
  refine .get_bind ?_
  refine .bind (F := fun _ w1 => w1 = w ∧ w.session.state = .disarmed)
    (.raiseIf (fun _ => raised_feedback _) fun h => ⟨rfl, by simp at h; exact h.2.1⟩) fun _ w1 h1 => ?_
  obtain ⟨rfl, hs⟩ := h1
  refine .bind preflight_goes fun _ w2 h2 => ?_
  refine .bind (channel_goes rfl rfl rfl rfl) fun _ w3 h3 => ?_
  subst h3
  refine .bind (setState_goes (.inr ⟨rfl, h2.trans hs⟩)) fun _ w4 _ => ?_
  refine .bind (session_goes rfl) fun _ w5 _ => ?_
  refine .bind monotonic_steady fun now w6 _ => ?_
  refine .bind (session_goes rfl) fun _ w7 _ => ?_
  exact any_of_steady journalStatus_steady

/-- From `w0` on, the newest `n` readings are within the stationary bound. -/
structure Watched (contract : ManualContract) (n : Nat) (w0 w' : World) : Prop where
  kept : Kept w0 w'
  trace : ∃ es, w'.trace = es ++ w0.trace ∧ (∀ e ∈ es, e.exchanging = true) ∧
    n ≤ (readings es).length ∧ ∀ reading ∈ (readings es).take n, withinBound contract reading

theorem Watched.start (w0 : World) : Watched contract 0 w0 w0 := ⟨.refl w0, [], rfl, by simp, by simp, by simp⟩

theorem Watched.steady {n : Nat} {w' : World} (h : Watched contract n w0 w) (hs : Steady w w') :
    Watched contract n w0 w' := by
  obtain ⟨es, ht, hes, hn, hb⟩ := h.trace
  obtain ⟨more, hm, hq⟩ := (Held.of_steady hs).trace
  have hr : readings (more ++ es) = readings es := by
    rw [readings_append, readings_plain hq, List.nil_append]
  refine ⟨h.kept.trans (.of_steady hs), more ++ es, by simp [hm, ht], ?_, by rwa [hr], by rwa [hr]⟩
  intro e he
  rcases List.mem_append.mp he with he | he
  · exact Event.exchanging_of_plain (hq e he)
  · exact hes e he

theorem Watched.read {n : Nat} {w' : World} {reading : Int × Int} (h : Watched contract n w0 w)
    (hr : Reported contract reading w w') :
    Watched contract (if withinBound contract reading then n + 1 else 0) w0 w' := by
  obtain ⟨es, ht, hes, hn, hb⟩ := h.trace
  obtain ⟨more, left, right, -, hm, hp, -⟩ := hr.trace
  have hread : readings (.feedback reading.1 reading.2 :: .read query [left, right] :: (more ++ es)) =
      reading :: readings es := by
    have happ : readings (more ++ es) = readings es := by
      rw [readings_append, readings_plain hp, List.nil_append]
    rw [← happ]
    rfl
  refine ⟨h.kept.trans hr.kept, .feedback reading.1 reading.2 :: .read query [left, right] ::
    (more ++ es), by simp [hm, ht], ?_, ?_, ?_⟩
  · intro e he
    simp only [List.mem_cons, List.mem_append] at he
    rcases he with rfl | rfl | he | he
    · rfl
    · rfl
    · exact Event.exchanging_of_plain (hp e he)
    · exact hes e he
  · rw [hread]
    split <;> simp [hn]
  · rw [hread]
    split
    · intro r hrm
      rcases List.mem_cons.mp (by simpa using hrm) with rfl | hrm
      · assumption
      · exact hb r hrm
    · simp

theorem awaitStationary_goes (deadline : ℚ) (rounds : Nat) {n : Nat} (h : Watched contract n w0 w) :
    Does env contract (awaitStationary env contract deadline rounds n)
      (fun n' => Watched contract n' w0) w := by
  induction rounds generalizing n w with
  | zero => exact .cut trivial
  | succ rounds ih =>
    refine .bind monotonic_steady fun now w1 h1 => ?_
    have watched := h.steady h1
    refine .ite (fun _ => ?_) fun _ => .pure watched
    refine .bind feedback_goes fun reading w2 h2 => ?_
    have watched := watched.read h2
    refine .bind (F := fun _ => Watched contract (if withinBound contract reading then n + 1 else 0) w0)
      (.when (fun _ => (sleep_steady _).ensures fun _ _ h3 => watched.steady h3) fun _ => watched)
      fun _ w3 h3 => ih h3

/-- The history ends inside a `stop`. -/
def InStop (w : World) : Prop :=
  ∃ during before, w.trace = during ++ .stopBegin :: before ∧ ∀ e ∈ during, e.insideStop = true

theorem confirmZero_goes (hf : w.channel.failed = false) (h : InStop w) :
    Does env contract (confirmZero env contract)
      (fun _ w' => w'.channel.motionMayExist = false) w := by
  obtain ⟨during, before, htrace, hduring⟩ := h
  refine .bind (velocity_goes fun request hr _ hz =>
    absurd (ManualContract.velocityRequest_zero hr) hz) fun response w1 h1 => ?_
  obtain ⟨request, hr, acknowledged⟩ := h1
  obtain rfl := ManualContract.velocityRequest_zero hr
  obtain ⟨words, valid⟩ := acknowledged.valid
  obtain ⟨hchecked, hlength, hecho⟩ := validateAck_echo rfl valid
  refine .bind monotonic_steady fun now w2 h2 => ?_
  refine .bind (awaitStationary_goes _ _ (Watched.start w2)) fun n w3 h3 => ?_
  refine .bind readChecks_goes fun _ w4 h4 => ?_
  refine .bind (F := fun _ w5 => w5 = w4 ∧ n = 3)
    (.raiseIf (fun _ => raised_feedback _) fun hn => ⟨rfl, not_not.mp hn⟩) fun _ w5 h5 => ?_
  obtain ⟨rfl, rfl⟩ := h5
  rw [channel, note, modify_modify]
  refine .modify (.single (.clear ?_ ?_)) id rfl
  · have kept := acknowledged.kept.trans ((Kept.of_steady h2).trans (h3.kept.trans h4.kept))
    exact kept.failed.trans hf
  obtain ⟨late, early, ht1, hlate, hearly⟩ := acknowledged.trace
  obtain ⟨clock, ht2, hclock⟩ := (Held.of_steady h2).trace
  obtain ⟨watch, ht3, hwatch, hcount, hbound⟩ := h3.trace
  obtain ⟨last, ht4, hlast, hchecks⟩ := h4.trace
  have hreadings : readings (last ++ watch ++ clock ++ late) = readings watch := by
    simp only [readings_append, readings_plain hlast, readings_plain hclock, readings_plain hlate,
      List.nil_append, List.append_nil]
  refine ⟨last ++ watch ++ clock ++ late ++ .acknowledged zeroRequest response :: (early ++ during),
    before, by simp [ht4, ht3, ht2, ht1, htrace], ?_, ?_⟩
  · intro e he
    simp only [List.mem_append, List.mem_cons] at he
    rcases he with (((he | he) | he) | he) | rfl | he | he
    · exact Event.insideStop_of_exchanging (Event.exchanging_of_plain (hlast e he))
    · exact Event.insideStop_of_exchanging (hwatch e he)
    · exact Event.insideStop_of_exchanging (Event.exchanging_of_plain (hclock e he))
    · exact Event.insideStop_of_exchanging (Event.exchanging_of_plain (hlate e he))
    · rfl
    · exact Event.insideStop_of_exchanging (Event.exchanging_of_plain (hearly e he))
    · exact hduring e he
  · refine ⟨last ++ watch ++ clock ++ late, early ++ during, response, rfl,
      ⟨hchecked, hlength, hecho⟩, by rwa [hreadings], by rwa [hreadings], fun check hc => ?_⟩
    obtain ⟨words, hm, hw⟩ := hchecks check hc
    refine ⟨words, ?_, hw⟩
    rw [List.append_assoc, List.append_assoc,
      since_append _ fun e he => Event.isFeedback_of_plain (hlast e he)]
    exact List.mem_append_left _ hm

/-- Motion that may exist has put the session into `FAULT`. -/
def Faulted (w : World) : Prop := w.channel.motionMayExist = true → w.session.state = .fault

theorem stopMotion_goes (h : InStop w) :
    Does env contract (stopMotion env contract) (fun _ => Faulted) w := by
  refine .get_bind (.when (fun _ => ?_) fun hm hm' => absurd hm' hm)
  refine .ite (fun hf => ?_) fun hf => ?_
  · refine .bind (F := fun _ _ => True) ?_ fun _ w1 _ => ?_
    · exact (bestEffortZero_goes hf).weaken (fun _ _ h => h) fun _ _ => raised_of_interrupted
    · refine (setState_goes (.inl rfl)).ensures fun _ w2 h2 _ => ?_
      rw [h2]
      rfl
  · refine (confirmZero_goes (by simpa using hf) h).ensures fun _ w1 h1 hm => ?_
    rw [h1] at hm
    cases hm

theorem recover_goes :
    (recover env contract).Goes (guarantee env contract) (fun _ => Faulted) (Interrupted env) w := by
  refine .bind (setState_goes (.inl rfl)) fun _ w1 h1 => ?_
  refine .bind fail_goes fun _ w2 h2 => ?_
  subst h1 h2
  refine (bestEffortZero_goes rfl).with_path.weaken (fun _ w3 h3 _ => ?_) fun _ _ h => h.2
  exact fault_kept h3.1 rfl

theorem conclude_goes (h : env.ExceptionsOnly → Faulted w) :
    (conclude env).Goes (guarantee env contract).loose
      (fun _ w' => w'.channel.stopping = false ∧ (Faulted w → Faulted w'))
      (fun e w' => w'.channel.stopping = false ∧ Interrupted env e w') w := by
  refine .bind (F := fun _ w1 => w1 = w.onChannel fun c =>
    { c with armed := false, motionDeadline := none, stopping := false })
    (.modify (.single (.conclude h)) trivial rfl) fun _ w1 h1 => ?_
  have journaled : (exceptException (journalStatus env) fun _ => setState .fault).Goes
      (guarantee env contract) (fun _ w' => Faulted w → Faulted w') (Interrupted env) w1 := by
    refine except_silent (journalStatus_steady.ensures fun _ w2 h2 hf hm => ?_) fun e w2 => ?_
    · rw [h2.channel, h1] at hm
      rw [h2.session, h1]
      exact hf hm
    · refine (setState_goes (.inl rfl)).ensures fun _ w3 h3 _ _ => ?_
      rw [h3]
      rfl
  have idle : w1.channel.stopping = false := by rw [h1]; rfl
  refine journaled.loosen.weaken (fun _ w2 h2 => ⟨?_, h2.2⟩) fun _ w2 h2 => ⟨?_, h2.2⟩
  · exact Bool.eq_false_iff.mpr fun hs => by simpa [idle] using h2.1 hs
  · exact Bool.eq_false_iff.mpr fun hs => by simpa [idle] using h2.1 hs

theorem enterStop_goes {s : State} (hs : w.session.state = .fault → s = .fault) (hs' : s ≠ .armed) :
    (setState s >>= fun _ => channel fun c => { c with stopping := true }).Goes
      (guarantee env contract).loose (fun _ w' => w' = w.enterStop s) E w := by
  change (Program.modify fun w : World => w.enterStop s).Goes _ _ _ _
  exact .modify (.single (.beginStop s hs hs')) trivial rfl

theorem beginStop_goes (reason : String) (fault : Bool) {before : History}
    (h : w.trace = .stopBegin :: before) :
    (beginStop reason fault).Goes (guarantee env contract).loose (fun _ => InStop) E w := by
  refine .bind (session_goes rfl).relax fun _ w1 h1 => .get_bind ?_
  subst h1
  refine (enterStop_goes (fun hf => if_pos (.inr hf)) ?_).ensures fun _ w2 h2 => ?_
  · split <;> decide
  · refine ⟨[.stateSet w2.session.state], before, ?_, by simp [Event.insideStop]⟩
    rw [h2, List.singleton_append, ← h]
    rfl

/-- `stop` raises nothing while the environment raises `Exception`s only. -/
theorem stop_goes (reason : String) (fault : Bool) :
    (stop env contract reason fault).Goes (guarantee env contract) (fun _ _ => True) (Interrupted env) w := by
  have finished : (stop env contract reason fault).Goes (guarantee env contract).loose
      (fun _ w' => w'.channel.stopping = false)
      (fun e w' => w'.channel.stopping = false ∧ Interrupted env e w') w := by
    refine .bind (note_goes rfl).relax fun _ w1 h1 => ?_
    subst h1
    refine .bind (beginStop_goes reason fault rfl) fun _ w2 h2 => ?_
    refine .bind (F := fun _ w3 => w3.channel.stopping = false ∧ Faulted w3) ?_ fun _ w3 h3 =>
      .get_bind (.modify (.single (.stopped fun _ => h3.2)) trivial h3.1)
    have handled : (exceptException (stopMotion env contract) fun _ => recover env contract).Goes
        (guarantee env contract) (fun _ => Faulted) (Interrupted env) w2 :=
      except_silent (stopMotion_goes h2) fun _ _ => recover_goes
    refine .ensure handled.relax (fun _ w3 h3 => ?_) fun e w3 he => ?_
    · exact (conclude_goes fun _ => h3).ensures fun _ _ h => ⟨h.1, h.2 h3⟩
    · exact (conclude_goes fun calm => absurd calm he).weaken (fun _ _ h => ⟨h.1, he⟩) fun _ _ h => h
  refine .tighten (finished.weaken (fun _ w' h => ⟨fun hs => ?_, trivial⟩) fun _ w' h => ⟨fun hs => ?_, h.2⟩)
  · rw [h] at hs; cases hs
  · rw [h.1] at hs; cases hs

theorem stop_does (reason : String) (fault : Bool) :
    Does env contract (stop env contract reason fault) (fun _ _ => True) w :=
  (stop_goes reason fault).weaken (fun _ _ h => h) fun _ _ => raised_of_interrupted

theorem stop_raise (reason : String) {error : PyError} (he : Raised env error w) :
    Does env contract (stop env contract reason true >>= fun _ => (.raise error : Act Unit))
      (fun _ _ => True) w :=
  .bind (stop_does reason true) fun _ _ _ => .raise he

theorem driveReady {reading : Int × Int} {w1 w2 : World} (hr : Reported contract reading w w1)
    (hc : Checked contract.checks w1 w2) : DriveReady contract w2.trace := by
  obtain ⟨es, left, right, hread, ht, hes, hb⟩ := hr.trace
  obtain ⟨more, hm, hp, hchecks⟩ := hc.trace
  have hsince : since Event.boundary w2.trace = more ++ (.feedback reading.1 reading.2 ::
      .read query [left, right] :: (es ++ since Event.boundary w.trace)) := by
    rw [hm, ht, since_append _ fun e he => Event.boundary_of_plain (hp e he),
      since_cons_plain _ rfl, since_cons_plain _ rfl,
      since_append _ fun e he => Event.boundary_of_plain (hes e he)]
  constructor
  · exact ⟨left, right, by simp [hsince], by rwa [← hread]⟩
  · intro check hcheck
    obtain ⟨words, hw, hmatch⟩ := hchecks check hcheck
    exact ⟨words, by rw [hsince]; exact List.mem_append_left _ hw, hmatch⟩

theorem drive_goes {last : ℚ} (hs : w.session.state = .armed)
    (hk : w.session.keys = heldKeys w.session.keyTimes) :
    Does env contract (drive env contract last) (fun _ _ => True) w := by
  refine .bind feedback_goes fun reading w1 h1 => ?_
  refine .bind readChecks_goes fun _ w2 h2 => ?_
  have ready := driveReady h1 h2
  refine .bind monotonic_steady fun now w3 h3 => ?_
  refine .ite (fun _ => stop_does _ _) fun _ => ?_
  refine .bind requireNotCancelled_steady fun _ w4 h4 => .get_bind ?_
  have steady := h3.trans h4
  have session4 : w4.session = w.session := steady.session.trans (h2.kept.session.trans h1.kept.session)
  refine .bind (F := fun stamp w5 => w5 = w4 ∧ oldest w4.session.keyTimes = some stamp)
    (.need (fun _ h => ⟨rfl, h⟩) fun _ _ => rfl) fun stamp w5 h5 => ?_
  obtain ⟨rfl, hstamp⟩ := h5
  refine .bind (channel_goes rfl rfl rfl rfl) fun _ w6 h6 => ?_
  subst h6
  have pending : Pending contract (w5.onChannel fun c =>
      { c with motionDeadline := some (stamp + contract.keyTimeout) }) := {
    state := (congrArg Session.state session4).trans hs
    held := by
      change w5.session.keys = heldKeys w5.session.keyTimes
      rw [session4]; exact hk
    deadline := ⟨stamp, hstamp, rfl⟩
    ready := ready.grew (Held.of_steady steady).trace }
  refine .bind (velocity_goes fun _ _ _ _ => pending) fun _ w7 _ => ?_
  refine .bind monotonic_steady fun sent w8 _ => ?_
  exact (session_goes rfl).ensures fun _ _ _ => trivial

theorem tickKeys_goes {now last : ℚ} (force : Bool) (hs : w.session.state = .armed) :
    Does env contract (tickKeys env contract now last force) (fun _ _ => True) w := by
  refine .bind (session_goes rfl) fun _ w1 h1 => .get_bind ?_
  refine .ite (fun _ => ?_) fun _ => ?_
  · exact .when (fun _ => stop_does _ _) fun _ => trivial
  · refine .when (fun _ => drive_goes ?_ ?_) fun _ => trivial
    · rw [h1]; exact hs
    · rw [h1]; rfl

theorem tickBody_goes (stamp : Stamp) (force : Bool) :
    Does env contract (tickBody env contract stamp force) (fun _ _ => True) w := by
  refine .bind (checkClock_goes stamp) fun now w1 _ => ?_
  refine .bind requireNotCancelled_steady fun _ w2 _ => .get_bind ?_
  refine .when (fun hs => ?_) fun _ => trivial
  split
  · exact stop_does _ _
  · exact .ite (fun _ => stop_does _ _) fun _ => tickKeys_goes force hs

theorem tick_goes (now : Option Stamp) (force : Bool) :
    Does env contract (tick env contract now force) (fun _ _ => True) w := by
  refine .bind (note_goes rfl) fun _ w1 _ => ?_
  refine .bind (F := fun _ _ => True) ?_ fun stamp w2 _ => ?_
  · cases now with
    | some stamp => exact .pure trivial
    | none => exact .map (monotonic_steady.ensures fun _ _ _ => trivial)
  · exact .handle (tickBody_goes stamp force) fun e w3 he =>
      .ite (fun _ => stop_raise _ he) fun _ => .raise he

theorem directionKey_goes (key : Key) (pressed : Bool) (now : ℚ) :
    Does env contract (directionKey env contract key pressed now) (fun _ _ => True) w := by
  refine .get_bind (.when (fun _ => .ite (fun _ => stop_does _ _) fun _ => ?_) fun _ => trivial)
  refine .bind (session_goes ?_) fun _ w1 _ => tick_goes _ _
  unfold changeKey
  split <;> rfl

theorem keyEventBody_goes (key : String) (pressed : Option Bool) (stamp : Stamp) :
    Does env contract (keyEventBody env contract key pressed stamp) (fun _ _ => True) w := by
  refine .bind (checkClock_goes stamp) fun now w1 _ => .get_bind ?_
  refine .bind (raiseIf_does) fun _ w2 _ => ?_
  refine .bind requireNotCancelled_steady fun _ w3 _ => ?_
  refine .ite (fun _ => stop_does _ _) fun _ => ?_
  split
  · exact directionKey_goes _ _ _
  · exact .raise (raised_feedback _)

theorem keyEvent_goes (key : String) (pressed : Option Bool) (stamp : Stamp) :
    Does env contract (keyEvent env contract key pressed stamp) (fun _ _ => True) w :=
  .handle (keyEventBody_goes key pressed stamp) fun _ _ he =>
    .ite (fun _ => stop_raise _ he) fun _ => .raise he

theorem leaseClose_goes : Does env contract (leaseClose env) (fun _ _ => True) w := by
  refine .get_bind (.bind (F := fun _ _ => True) (.when (fun _ => ?_) fun _ => trivial) fun _ w1 _ =>
    .when (fun _ => ?_) fun _ => trivial)
  · refine .bind (call_steady rfl (raised_answer fun calm => calm.osClose _)) fun _ w1 _ => ?_
    exact (channel_goes rfl rfl rfl rfl).ensures fun _ _ _ => trivial
  · refine .bind (call_steady rfl (raised_answer fun calm => calm.lockClose _)) fun _ w2 _ => ?_
    exact (channel_goes rfl rfl rfl rfl).ensures fun _ _ _ => trivial

theorem close_goes : Does env contract (close env contract) (fun _ _ => True) w := by
  have released : ∀ w', Does env contract
      (leaseClose env >>= fun _ => session fun s => { s with closed := true }) (fun _ _ => True) w' :=
    fun _ => .bind leaseClose_goes fun _ _ _ => (session_goes rfl).ensures fun _ _ _ => trivial
  refine .get_bind (.ensure (stop_does _ _) (fun _ w1 _ => released w1) fun _ w1 he => ?_)
  exact (released w1).ensures fun _ _ _ => he

theorem perform_goes (o : Operation) :
    Does env contract (perform env contract o) (fun _ _ => True) w := by
  cases o with
  | preflight => exact preflight_goes.ensures fun _ _ _ => trivial
  | arm operatorKey => exact arm_goes operatorKey
  | keyEvent key pressed now => exact keyEvent_goes key pressed now
  | terminalKey key now =>
    exact .bind (session_goes rfl) fun _ _ _ => keyEvent_goes key (some true) now
  | tick now force => exact tick_goes now force
  | stop reason fault => exact stop_does reason fault
  | close => exact close_goes

theorem operate_goes (o : Operation) :
    Does env contract (operate env contract o) (fun _ _ => True) w :=
  .bind (note_goes rfl) fun _ _ _ => .handle (perform_goes o) fun _ _ _ => .pure trivial

theorem run_goes (ops : List Operation) :
    Does env contract (run env contract ops) (fun _ _ => True) w := by
  induction ops generalizing w with
  | nil => exact .pure trivial
  | cons o rest ih => exact .bind (operate_goes o) fun _ _ _ => ih

end Smartwheel.Manual

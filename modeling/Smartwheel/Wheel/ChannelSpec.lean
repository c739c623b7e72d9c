import Smartwheel.Wheel.Moves

/-! What the channel's functions do: environment calls, exchanges behind their guards, and the zero
transmission after a failure. -/
namespace Smartwheel.Wheel
open Modbus Effect Effect.Program Serial

variable {env : Env} {control : Control} {w : World} {α : Type} {E : PyError → World → Prop}
  {G : Guarantee World}

/-- An error condition that every fault of the environment meets. -/
class Faults (E : PyError → World → Prop) : Prop where
  fault : ∀ f w, E (.fault f) w

def Broken (e : PyError) (_ : World) : Prop := e.isException = true ∧ e.isCancelled = false

instance : Faults Raised := ⟨fun _ _ => ⟨rfl, by simp⟩⟩

instance : Faults Broken := ⟨fun _ _ => ⟨rfl, rfl⟩⟩

theorem raised_of_broken {e : PyError} (h : Broken e w) : Raised e w := by
  refine ⟨h.1, fun he => ?_⟩
  rw [he] at h
  cases h.2

theorem raised_feedback (m : String) : Raised (feedbackError m) w := Faults.fault _ _

theorem whole_channel {f : Channel → Channel} (hf : (f w.channel).failed = w.channel.failed) :
    Whole w (w.onChannel f) where
  settled hs := hs.imp (fun h => hf.trans h) id
  pending := id

theorem channel_goes {f : Channel → Channel} (hf : (f w.channel).failed = w.channel.failed)
    (hm : (f w.channel).motionMayExist = w.channel.motionMayExist)
    (ha : (f w.channel).recoveryAttempted = w.channel.recoveryAttempted) :
    (channel f).Goes (guarantee control) (fun _ w' => w' = w.onChannel f) E w :=
  .modify (.single (.book f hf hm ha)) (whole_channel hf) rfl

theorem faults_answer [Faults E] (o : Option Fault) (error : PyError) (w' : World)
    (h : o.map .fault = some error) : E error w' := by
  cases o with
  | none => cases h
  | some f => cases h; exact Faults.fault f w'

theorem faults_answer_of [Faults E] (r : Except Fault α) (error : PyError) (w' : World)
    (h : r.mapError .fault = .error error) : E error w' := by
  cases r with
  | ok a => cases h
  | error f => cases h; exact Faults.fault f w'

theorem raiseIf_does {c : Prop} [Decidable c] [Faults E] {m : String} :
    (Program.raiseIf c (feedbackError m)).Goes G (fun _ => Steady w) E w :=
  raiseIf_steady (Faults.fault _ _)

variable {F : α → World → Prop}

theorem liftFault_does [Faults E] {r : Except Fault α} (h : ∀ a, r = .ok a → F a w) :
    (liftFault r).Goes G F E w := liftFault_goes h fun _ _ => Faults.fault _ _

/-- `except Exception` handles all that is raised here. -/
theorem except_goes {x : Act α} {k : PyError → Act α}
    {E E' : PyError → World → Prop} (h : x.Goes G F E w) (hE : ∀ e w', E e w' → e.isException = true)
    (hk : ∀ e w', E e w' → (k e).Goes G F E' w') : (exceptException x k).Goes G F E' w :=
  .handle h fun e w' he => .ite (fun _ => hk e w' he) fun hn => absurd (hE e w' he) hn

variable {f : Session → Session}

theorem session_goes [Serves G control] (h : Move control w (w.onSession f)) :
    (session f).Goes G (fun _ w' => w' = w.onSession f) E w :=
  have hm := Serves.move (G := G) h rfl (.refl _ w)
  .modify hm.1 hm.2 rfl

theorem record_goes [Serves G control] {e : Event} (he : e.plain = true) (h : Move control w ((w.onSession f).log e)) :
    (record f e).Goes G (fun _ w' => w' = (w.onSession f).log e) E w :=
  have hm := Serves.move (G := G) h rfl (Grew.log (w := w) he)
  .modify hm.1 hm.2 rfl

theorem keep_goes [Serves G control] (h : (f w.session).core = w.session.core) :
    (session f).Goes G (fun _ w' => w' = w.onSession f) E w := session_goes (.keep f h)

section
variable [Watching G Event.quiet]

theorem note_goes {e : Event} (h : e.quiet = true) :
    (note e).Goes G (fun _ w' => w' = w.log e) E w :=
  have hm := Watching.steady (G := G) (.log h)
  .modify hm.1 hm.2 rfl

theorem clock_goes : (clock env).Goes G (fun now w' => w' = w.log (.clock now)) E w :=
  .get_bind (.bind (note_goes rfl) fun _ _ hw => .pure hw)

theorem cancelled_goes : (cancelled env).Goes G (fun stop w' => w' = w.log (.cancelled stop)) E w :=
  .get_bind (.bind (note_goes rfl) fun _ _ hw => .pure hw)

theorem clock_steady : (clock env).Goes G (fun _ => Steady w) E w := watch_steady rfl

theorem cancelled_steady : (cancelled env).Goes G (fun _ => Steady w) E w :=
  watch_steady rfl

theorem journal_steady [Faults E] (record : Record) :
    (journal env record).Goes G (fun _ => Steady w) E w :=
  call_steady rfl (faults_answer _)

theorem checkHealth_steady [Faults E] : (checkHealth env).Goes G (fun _ => Steady w) E w :=
  call_steady rfl (faults_answer _)

theorem selectRead_steady [Faults E] (timeout : ℚ) :
    (selectRead env timeout).Goes G (fun _ => Steady w) E w :=
  ask_steady rfl (faults_answer_of _)

theorem selectWrite_steady [Faults E] (timeout : ℚ) :
    (selectWrite env timeout).Goes G (fun _ => Steady w) E w :=
  ask_steady rfl (faults_answer_of _)

theorem osRead_steady [Faults E] : (osRead env).Goes G (fun _ => Steady w) E w :=
  ask_steady rfl (faults_answer_of _)

theorem preview_steady [Faults E] : (preview env).Goes G (fun _ => Steady w) E w :=
  call_steady rfl (faults_answer _)

theorem publish_steady [Faults E] : (publish env).Goes G (fun _ => Steady w) E w :=
  call_steady rfl (faults_answer _)

theorem receive_does [Faults E] (deadline : ℚ) (rounds expected : Nat) :
    (receive (clock env) (selectRead env) (osRead env) receiveErrors deadline rounds expected).Goes
      G (fun _ => Steady w) E w :=
  receive_steady (fun _ => clock_steady) (fun _ _ => selectRead_steady _) (fun _ => osRead_steady)
    (fun _ _ => Faults.fault _ _) _ _ _

theorem journalQuietly_steady (record : Record) :
    (journalQuietly env record).Goes G (fun _ => Steady w) E w := by
  have logged : (journal env record).Goes G (fun _ => Steady w)
      (fun e w' => e.isException = true ∧ Steady w w') w := by
    refine .get_bind (.bind (note_steady rfl) fun _ w' hw => ?_)
    dsimp only
    cases env.journal w.trace record with
    | none => exact .pure hw
    | some f => exact .raise ⟨rfl, hw⟩
  exact except_goes logged (fun _ _ he => he.1) fun _ _ he => .pure he.2

end

@[simp] theorem transmitted_failed (sent : Nat) (c : Channel) : (transmitted sent c).failed = c.failed := by
  unfold transmitted
  split <;> rfl

@[simp] theorem transmitted_motion (sent : Nat) (c : Channel) :
    (transmitted sent c).motionMayExist = c.motionMayExist := by
  unfold transmitted
  split <;> rfl

@[simp] theorem transmitted_recovery (sent : Nat) (c : Channel) :
    (transmitted sent c).recoveryAttempted = c.recoveryAttempted := by
  unfold transmitted
  split <;> rfl

structure Sound (w : World) : Prop where
  failed : w.channel.failed = false
  complete : ∀ request count, Event.sent request count ∈ w.trace → count = request.length

theorem Sound.of_settled (hf : w.channel.failed = false) (hs : Settled w) : Sound w := by
  refine ⟨hf, hs.resolve_left fun h => ?_⟩
  rw [hf] at h
  cases h

theorem Sound.settled (h : Sound w) : Settled w := .inr h.complete

variable {w' : World}

theorem Sound.steady (h : Sound w) (hs : Steady w w') : Sound w' := by
  have settled : Settled w' :=
    settled_grew hs.channel (hs.trace.mono fun _ => Event.plain_of_quiet) h.settled
  exact .of_settled (by rw [hs.channel]; exact h.failed) settled

variable {purpose : Purpose} {request : Bytes}

theorem guarded_attempted (hg : Guarded control purpose request w)
    (f : Channel → Channel) (hm : w.channel.motionMayExist = true → (f w.channel).motionMayExist = true) :
    Guarded control purpose request (w.onChannel f) := by
  cases purpose with
  | stop => exact ⟨hg.1, hg.2.imp hm id⟩
  | query | initialization | velocity | release | recovery => exact hg

theorem osWrite_goes (hm : Move control w (w.log (.write purpose request w.machine)))
    (hs : w.channel.failed = false ∧ Settled w ∨
      w.channel.failed = true ∧ w.channel.motionMayExist = true) :
    (osWrite env purpose request).Goes (inner control)
      (fun count w' => w' = (w.log (.write purpose request w.machine)).log (.sent request count))
      Broken w := by
  refine .get_bind (.bind (F := fun _ w' => w' = w.log (.write purpose request w.machine))
    ?_ fun count w1 h1 => ?_)
  · refine .get_bind (.bind (F := fun _ w' => w' = w.log (.write purpose request w.machine))
      (.modify (.single hm) id rfl) fun _ w1 h1 => ?_)
    dsimp only
    cases env.osWrite w.trace request with
    | ok count => exact .pure h1
    | error f => exact .raise (Faults.fault f w1)
  · subst h1
    have bound : count.val ≤ request.length := Nat.lt_succ_iff.mp count.isLt
    refine .bind (.modify (.single (.sent request count rfl bound ?_)) id rfl)
      fun _ w2 h2 => .pure h2
    refine hs.imp (fun h => ⟨h.1, ?_⟩) id
    exact settled_grew (w := w) rfl (.log rfl) h.2

/-- The whole of `request` was written. -/
structure Wrote (purpose : Purpose) (request : Bytes) (w w' : World) : Prop where
  session : w'.session = w.session
  sound : Sound w'
  trace : ∃ seen, w'.trace = .sent request request.length :: .write purpose request seen :: w.trace

theorem transmit_goes (hs : Sound w) (hg : Guarded control purpose request w) :
    (transmit env request purpose).Goes (inner control) (fun _ => Wrote purpose request w) Broken w := by
  refine .bind (F := fun _ w1 => w1.session = w.session ∧ w1.trace = w.trace ∧ Sound w1 ∧
      Guarded control purpose request w1) (.when (fun _ => ?_) fun _ => ⟨rfl, rfl, hs, hg⟩) fun _ w1 h1 => ?_
  · refine .modify (.single (.attempt purpose request hg)) id ⟨rfl, rfl, ⟨hs.failed, hs.complete⟩, ?_⟩
    exact guarded_attempted hg _ fun hm => by simp [attempted, hm]
  obtain ⟨session, trace, sound, guarded⟩ := h1
  refine .bind (osWrite_goes (.write purpose request sound.failed guarded)
    (.inl ⟨sound.failed, sound.settled⟩)) fun count w2 h2 => ?_
  subst h2
  refine .bind (F := fun _ w3 => w3.session = w1.session ∧ w3.trace = .sent request count ::
      .write purpose request w1.machine :: w1.trace ∧ w3.channel = w1.channel)
    (.modify (.single (.observe ⟨rfl, rfl, .refl _ _⟩)) id ⟨rfl, rfl, rfl⟩) fun _ w3 h3 => ?_
  obtain ⟨session3, trace3, channel3⟩ := h3
  refine .bind (F := fun _ w4 => w4.session = w3.session ∧ w4.trace = w3.trace ∧
      w4.channel.failed = w3.channel.failed) (.when (fun _ => ?_) fun _ => ⟨rfl, rfl, rfl⟩) fun _ w4 h4 => ?_
  · refine .modify (.single (.book (transmitted count) ?_ ?_ ?_)) id ⟨rfl, rfl, transmitted_failed _ _⟩
    · simp
    · simp
    · simp
  obtain ⟨session4, trace4, failed4⟩ := h4
  have trace5 : w4.trace = .sent request count :: .write purpose request w1.machine :: w.trace := by
    rw [trace4, trace3, trace]
  have session5 : w4.session = w.session := session4.trans (session3.trans session)
  refine .raiseIf (fun _ => Faults.fault _ _) fun hc => ?_
  · obtain rfl : count = request.length := not_not.mp hc
    refine ⟨session5, ⟨?_, fun r c hm => ?_⟩, w1.machine, trace5⟩
    · rw [failed4, channel3]
      exact sound.failed
    · simp only [trace5, List.mem_cons] at hm
      rcases hm with hm | hm | hm
      · cases hm; rfl
      · cases hm
      · exact hs.complete r c hm

theorem lastWrite_append {es h : History} (hes : ∀ e ∈ es, e.isWrite = false) :
    lastWrite (es ++ h) = lastWrite h := by
  induction es with
  | nil => rfl
  | cons e es ih =>
    have he : e.isWrite = false := hes e (by simp)
    have ht : ∀ e ∈ es, e.isWrite = false := fun x hx => hes x (List.mem_cons_of_mem e hx)
    rw [List.cons_append, ← ih ht]
    cases e <;> first | rfl | cases he

theorem zeroAcked_append {es h : History} (hes : ∀ e ∈ es, e.isMoving = false)
    (hz : zeroAcked h = true) : zeroAcked (es ++ h) = true := by
  induction es with
  | nil => exact hz
  | cons e es ih =>
    have still := hes e (by simp)
    have ht : ∀ e ∈ es, e.isMoving = false := fun x hx => hes x (List.mem_cons_of_mem e hx)
    have before := ih ht
    cases e with
    | write purpose request seen =>
      have still : moves request = false := still
      simp [zeroAcked, before, still]
    | acknowledged request => simp [zeroAcked, before]
    | _ => exact before

/-- An error that is a cancellation only where `cancels` holds. -/
def Quits (cancels : Prop) (e : PyError) (w : World) : Prop :=
  Raised e w ∧ (e.isCancelled = true → cancels)

def Left (cancels : Prop) (e : PyError) (w : World) : Prop :=
  Quits cancels e w ∧ (e.isCancelled = true → Settled w)

variable {cancels : Prop}

instance : Faults (Left cancels) := ⟨fun f w => ⟨⟨Faults.fault f w, fun h => by cases h⟩, fun h => by cases h⟩⟩

theorem left_of_broken {e : PyError} (h : Broken e w) : Left cancels e w :=
  ⟨⟨raised_of_broken h, fun hc => by rw [h.2] at hc; cases hc⟩, fun hc => by rw [h.2] at hc; cases hc⟩

/-- The guard of a write: it leaves the channel alone, finds what stands behind the write, and ends in a
session that satisfies `Q`. -/
def Guards (control : Control) (cancels : Prop) (Q : Session → Prop) (purpose : Purpose) (request : Bytes)
    (guard : Act Unit) (w : World) : Prop :=
  ∀ w1, Steady w w1 → guard.Goes (intents control)
    (fun _ w2 => Guarded control purpose request w2 ∧ Q w2.session) (Quits cancels) w1

variable {Q : Session → Prop}

theorem Guards.steady {guard : Act Unit} (h : Guards control cancels Q purpose request guard w) (hs : Steady w w') :
    Guards control cancels Q purpose request guard w' := fun w1 h1 => h w1 (hs.trans h1)

structure Answered (Q : Session → Prop) (request : Bytes) (w : World) : Prop where
  session : Q w.session
  sound : Sound w
  zero : request = zeroRequest → zeroAcked w.trace = true

theorem transact_goes {guard : Act Unit} (hs : Sound w) (hg : Guards control cancels Q purpose request guard w) :
    (transact env control request purpose guard).Goes (inner control)
      (fun _ => Answered Q request) (Left cancels) w := by
  refine .get_bind ?_
  refine steady_bind (.refl w) (journal_steady _) fun _ w1 h1 => ?_
  refine steady_bind h1 (selectRead_steady _) fun stray w2 h2 => ?_
  refine .bind (F := fun _ => Steady w) (.when (fun _ => ?_) fun _ => h2) fun _ w3 h3 => ?_
  · refine steady_bind h2 osRead_steady fun chunk w3 h3 => ?_
    exact steady_bind h3 (setResponse_steady _) fun _ w4 h4 => .raise (Faults.fault _ _)
  refine steady_bind h3 clock_steady fun started w4 h4 => ?_
  refine steady_bind h4 clock_steady fun now w5 h5 => ?_
  refine steady_bind h5 (selectWrite_steady _) fun ready w6 h6 => ?_
  refine steady_bind h6 raiseIf_does fun _ w7 h7 => ?_
  have sound7 := hs.steady h7
  refine .bind (F := fun _ w8 => Sound w8 ∧ Guarded control purpose request w8 ∧ Q w8.session) ?_ fun _ w8 h8 => ?_
  · refine ((hg w7 h7).recast (G := intents control) (H := inner control) rfl id
      fun _ h => h.1.pending).weaken (fun _ w8 h8 => ?_) fun e w8 h8 => ?_
    · obtain ⟨⟨whole, channel⟩, guarded⟩ := h8
      exact ⟨.of_settled (by rw [channel]; exact sound7.failed) (whole.settled sound7.settled), guarded⟩
    · exact ⟨h8.2, fun _ => h8.1.1.settled sound7.settled⟩
  obtain ⟨sound8, guarded, kept⟩ := h8
  refine .bind ((transmit_goes sound8 guarded).weaken (fun _ _ h => h) fun _ _ => left_of_broken)
    fun _ w9 h9 => ?_
  refine .bind (receive_does _ _ _) fun _ w10 h10 => .get_bind ?_
  refine .bind (F := fun _ w11 => w11 = w10) (liftFault_does fun _ _ => rfl) fun result w11 h11 => ?_
  subst h11
  refine .bind (F := fun _ w12 => w12 = w11.log (.acknowledged request))
    (.modify (.single (.acknowledge request)) id rfl) fun _ w12 h12 => ?_
  subst h12
  refine .bind (journal_steady _) fun _ w13 h13 => .pure ?_
  have sound12 : Sound (w11.log (.acknowledged request)) :=
    ⟨(h9.sound.steady h10).failed, fun r c hm => (h9.sound.steady h10).complete r c (by simpa [World.log] using hm)⟩
  refine ⟨?_, sound12.steady h13, fun hz => ?_⟩
  · rw [h13.session]
    change Q w11.session
    rw [h10.session, h9.session]
    exact kept
  subst hz
  obtain ⟨seen, trace9⟩ := h9.trace
  obtain ⟨late, trace10, hlate⟩ := h10.trace
  obtain ⟨last, trace13, hlast⟩ := h13.trace
  have written : lastWrite w11.trace = some zeroRequest := by
    rw [trace10, lastWrite_append fun e he => Event.isWrite_of_quiet (hlate e he), trace9]
    rfl
  rw [trace13]
  refine zeroAcked_append (fun e he => Event.isMoving_of_quiet (hlast e he)) ?_
  simp [World.log, zeroAcked, written]

theorem abandon_goes {error : PyError} {F : Bytes → World → Prop}
    (he : Left cancels error w) : (abandon env request error).Goes (inner control) F
      (fun e w' => Settled w' ∧ Quits cancels e w' ∧ (e.isCancelled = false → w'.channel.failed = true)) w := by
  refine .get_bind (.bind (F := fun _ w1 => Settled w1 ∧
    (error.isCancelled = false → w1.channel.failed = true)) (.when (fun _ => ?_) fun hc => ?_) fun _ w1 h1 => ?_)
  · exact .modify (f := World.toFailed) (.single .fail) id ⟨.inl rfl, fun _ => rfl⟩
  · simp only [not_or, not_not] at hc
    exact ⟨he.2 hc.1, fun h => by rw [hc.1] at h; cases h⟩
  · refine .bind (journalQuietly_steady _) fun _ w2 h2 => ?_
    have settled : Settled w2 :=
      settled_grew h2.channel (h2.trace.mono fun _ => Event.plain_of_quiet) h1.1
    have failed : error.isCancelled = false → w2.channel.failed = true := by
      rw [h2.channel]; exact h1.2
    refine .ite (fun _ => .raise ⟨settled, he.1, failed⟩) fun hn =>
      .raise ⟨settled, ⟨raised_feedback _, fun h => by cases h⟩, fun _ => ?_⟩
    exact failed (by simpa using fun h => hn (.inl h))

theorem settle_goes {x : Act α}
    (h : x.Goes (inner control) (fun a w' => Settled w' ∧ F a w') (fun e w' => Settled w' ∧ E e w') w) :
    x.Goes (guarantee control) F E w := by
  refine h.mono ?_
  rintro (a | e | _) w' ⟨hp, hr⟩
  · exact ⟨hp, ⟨fun _ => hr.2.1, hr.1⟩, hr.2.2⟩
  · exact ⟨hp, ⟨fun _ => hr.2.1, hr.1⟩, hr.2.2⟩
  · exact ⟨hp, hr⟩

/-- Requests that `exchange` does not reject beforehand. -/
def Admissible (request : Bytes) : Prop :=
  checkedFrame request = .ok request ∧ (request = query ∨ writable request)

def Unanswered (cancels : Prop) (request : Bytes) (e : PyError) (w : World) : Prop :=
  Quits cancels e w ∧ (Admissible request → e.isCancelled = false → w.channel.failed = true)

theorem quits_feedback (m : String) : Quits cancels (feedbackError m) w :=
  ⟨raised_feedback m, fun h => by cases h⟩

theorem exchange_goes {guard : Act Unit} (hs : Settled w) (hg : Guards control cancels Q purpose request guard w) :
    (exchange env control request purpose guard).Goes (guarantee control) (fun _ => Answered Q request)
      (Unanswered cancels request) w := by
  refine .bind (F := fun _ w1 => w1 = w ∧ checkedFrame request = .ok request)
    (liftFault_goes (fun checked h => ⟨rfl, ?_⟩) fun f h => ?_) fun _ w1 h1 => ?_
  · rw [h, checkedFrame_eq_ok h]
  · exact ⟨⟨Faults.fault _ _, fun h => by cases h⟩, fun ha => by rw [ha.1] at h; cases h⟩
  obtain ⟨rfl, checked⟩ := h1
  refine .bind (F := fun _ w2 => w2 = w1) (.raiseIf (fun h => ?_) fun _ => rfl) fun _ w2 h2 => ?_
  · exact ⟨quits_feedback _, fun ha => absurd ha.2 (not_or.mpr h)⟩
  subst h2
  refine .get_bind (.bind (F := fun _ w3 => w3 = w2 ∧ w2.channel.failed = false)
    (.raiseIf (fun h => ⟨quits_feedback _, fun _ _ => h⟩) fun h => ⟨rfl, by simpa using h⟩) fun _ w3 h3 => ?_)
  obtain ⟨rfl, sound⟩ := h3
  refine .bind (F := fun _ w4 => w4 = w3) (liftFault_goes (fun _ _ => rfl) fun f h => ?_) fun _ w4 h4 => ?_
  · rw [bounded, if_pos ⟨control.timeout_bounds.1, control.timeout_bounds.2.trans (by norm_num)⟩] at h
    cases h
  subst h4
  refine .bind (setResponse_steady []) fun _ w5 h5 => ?_
  refine steady_bind h5 (setSent_steady 0) fun _ w6 h6 => ?_
  have sound6 : Sound w6 := (Sound.of_settled sound hs).steady h6
  refine settle_goes (.handle (E := Left cancels) ?_ fun e w7 h7 => ?_)
  · exact (transact_goes sound6 (hg.steady h6)).ensures fun _ _ h => ⟨h.sound.settled, h⟩
  · exact (abandon_goes h7).weaken (fun _ _ h => h) fun _ _ h => ⟨h.1, h.2.1, fun _ => h.2.2⟩

theorem since_recovery (hs : Steady w w') (hn : ∀ e ∈ since Event.isRecovery w.trace, e.isWrite = false) :
    ∀ e ∈ since Event.isRecovery w'.trace, e.isWrite = false := by
  obtain ⟨es, ht, hes⟩ := hs.trace
  have hr : ∀ e ∈ es, e.isRecovery = false := by
    intro e he
    have hq := hes e he
    cases e <;> first | rfl | cases hq
  rw [ht, since_append _ hr]
  intro e he
  rcases List.mem_append.mp he with he | he
  · exact Event.isWrite_of_quiet (hes e he)
  · exact hn e he

def Recovered (w : World) : Prop := w.channel.failed = true ∧ w.channel.recoveryAttempted = true

theorem failed_step (h : Move control w w') (hf : w.channel.failed = true) : w'.channel.failed = true := by
  cases h with
  | observe hs => rw [hs.channel]; exact hf
  | book f hf' => exact hf'.trans hf
  | rest f hf' => exact hf'.trans hf
  | fail => rfl
  | _ => exact hf

theorem failed_kept (h : Path (Move control) w w') (hf : w.channel.failed = true) :
    w'.channel.failed = true := h.keeps (P := fun w => w.channel.failed = true) (fun _ _ => failed_step) hf

theorem attempted_step (h : Move control w w') (ha : w.channel.recoveryAttempted = true) :
    w'.channel.recoveryAttempted = true := by
  cases h with
  | observe hs => rw [hs.channel]; exact ha
  | book f hf hm ha' => exact ha'.trans ha
  | rest f hf hm ha' => exact ha'.trans ha
  | attemptRecovery => rfl
  | _ => exact ha

theorem recovered_kept (h : Path (Move control) w w') (hr : Recovered w) : Recovered w' :=
  ⟨failed_kept h hr.1,
    h.keeps (P := fun w => w.channel.recoveryAttempted = true) (fun _ _ => attempted_step) hr.2⟩

theorem transmitZero_goes (hf : w.channel.failed = true) (hm : w.channel.motionMayExist = true)
    (ha : w.channel.recoveryAttempted = true)
    (hn : ∀ e ∈ since Event.isRecovery w.trace, e.isWrite = false) :
    (transmitZero env).Goes (inner control) (fun _ _ => True) Broken w := by
  refine steady_bind (.refl w) (selectWrite_steady _) fun ready w1 h1 => ?_
  refine steady_bind h1 raiseIf_does fun _ w2 h2 => ?_
  have failed : w2.channel.failed = true := by rw [h2.channel]; exact hf
  have motion : w2.channel.motionMayExist = true := by rw [h2.channel]; exact hm
  have attempted : w2.channel.recoveryAttempted = true := by rw [h2.channel]; exact ha
  refine .bind (F := fun _ w3 => w3 = w2.onChannel fun c => { c with controlAttempts := c.controlAttempts + 1 })
    (.modify (.single (.book _ rfl rfl rfl)) id rfl) fun _ w3 h3 => ?_
  subst h3
  have unwritten := since_recovery h2 hn
  refine .bind (osWrite_goes (.recover failed motion attempted unwritten) (.inr ⟨failed, motion⟩))
    fun sent w4 h4 => ?_
  refine .bind (setSent_steady sent) fun _ w5 h5 => ?_
  refine .bind (F := fun _ _ => True) (.modify (.single (.book (transmitted sent) ?_ ?_ ?_)) id trivial)
    fun _ w6 h6 => .raiseIf (fun _ => Faults.fault _ _) fun _ => trivial
  · simp
  · simp
  · simp

theorem bestEffortZero_goes (hf : w.channel.failed = true) :
    (bestEffortZero env).Goes (guarantee control)
      (fun _ w' => w'.channel.motionMayExist = true → Recovered w') E w := by
  refine .get_bind (.when (fun h => ?_) fun h hm => ⟨hf, by simpa [hm] using h⟩)
  simp only [Bool.and_eq_true, Bool.not_eq_true'] at h
  obtain ⟨motion, fresh⟩ := h
  rw [channel, note, modify_modify_bind]
  refine settle_goes (.bind (F := fun _ w1 => w1 = (w.onChannel fun c =>
    { c with recoveryAttempted := true }).log .recovery)
    (.modify (.single (.attemptRecovery hf motion fresh)) id rfl) fun _ w1 h1 => ?_)
  have recovered : Recovered w1 := by rw [h1]; exact ⟨hf, rfl⟩
  have motion1 : w1.channel.motionMayExist = true := by rw [h1]; exact motion
  have unwritten : ∀ e ∈ since Event.isRecovery w1.trace, e.isWrite = false := by
    rw [h1]
    simp [World.log, since, Event.isRecovery]
  refine (Goes.with_path (F := fun _ _ => True) (E := fun _ _ => False) ?_).weaken
    (fun _ w' h' => ?_) fun _ _ h' => h'.2.elim
  · refine .bind (setSent_steady 0) fun _ w2 h2 => ?_
    refine .bind (F := fun _ _ => True) ?_ fun error w3 _ => .get_bind ?_
    · refine except_goes (E := Broken) (.bind (transmitZero_goes ?_ ?_ ?_ (since_recovery h2 unwritten))
        fun _ _ _ => .pure trivial) (fun _ _ he => he.1) fun _ _ _ => .pure trivial
      · rw [h2.channel]; exact recovered.1
      · rw [h2.channel]; exact motion1
      · rw [h2.channel]; exact recovered.2
    · refine .bind (F := fun _ _ => True) (.modify (.single (.book _ rfl rfl rfl)) id trivial) fun _ w4 _ => ?_
      exact (journalQuietly_steady _).ensures fun _ _ _ => trivial
  · have kept := recovered_kept h'.1 recovered
    exact ⟨.inl kept.1, fun _ => kept⟩

end Smartwheel.Wheel

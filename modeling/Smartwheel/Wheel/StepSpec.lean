import Smartwheel.Wheel.IntentSpec

/-! What the guards, sampling, stopping, releasing, the scheduler step and closing do. -/
namespace Smartwheel.Wheel
open Modbus Effect Effect.Program Serial

variable {env : Env} {control : Control} {w : World} {E : PyError → World → Prop} {G : Guarantee World}

theorem check_goes {c : Prop} [Decidable c] {error : PyError} (he : E error w) :
    (Program.raiseIf c error).Goes G (fun _ w' => w' = w ∧ ¬c) E w :=
  .raiseIf (fun _ => he) fun h => ⟨rfl, h⟩

theorem userFresh_goes [Watching G Event.quiet] :
    (userFresh env control).Goes G (fun fresh w' => ∃ recent, Seen recent w w' ∧
      (fresh = true → control.hybridManual = true → Foreground w.session recent)) E w := by
  refine .ite (fun _ => uiFresh_goes.ensures fun fresh w' hw => ?_) fun hn =>
    .pure ⟨[], .refl w, fun _ hh => absurd hh hn⟩
  obtain ⟨recent, seen, found⟩ := hw
  exact ⟨recent, seen, fun hf _ => (found hf).2⟩

theorem raised_cancelled {m : String} (h : m ≠ "ALL_KEYS_RELEASED") : Raised (.cancelled m) w :=
  ⟨rfl, by simpa using h⟩

theorem raised_superseded (m : String) : Raised (.superseded m) w := ⟨rfl, by simp⟩

theorem target_empty (control : Control) : control.target ∅ = (0, 0) := by
  simp [Control.target, direction]

theorem some_of_not_all {o : Option ℚ} {p : ℚ → Bool} (h : ¬(o.all p) = true) :
    ∃ a, o = some a ∧ ¬p a = true := by
  cases o with
  | none => simp at h
  | some a => exact ⟨a, rfl, by simpa using h⟩

theorem Foreground.mono {s : Session} {recent more : History} (h : Foreground s recent)
    (hm : recent ⊆ more) : Foreground s more := by
  obtain ⟨heartbeat, now, hb, hc, hn⟩ := h.heartbeat
  exact ⟨h.foreground, heartbeat, now, hb, hm hc, hn⟩

/-- What holds when `_guard` passes. -/
structure Passed (control : Control) (expected : Option (ℚ × ℚ)) (w : World) : Prop where
  intended : ∃ recent, Pumped recent w.trace ∧ Intended control w.session recent
  initializing : expected = none → w.session.state = .initializing
  armed : ∀ target, expected = some target →
    w.session.state = .armed ∧ control.target w.session.keys = target

theorem guard_goes (expected : Option (ℚ × ℚ)) :
    (guard env control expected).Goes (intents control) (fun _ => Passed control expected) Raised w := by
  refine .bind pump_goes fun _ w1 h1 => ?_
  obtain ⟨before, trace1⟩ := h1
  refine .bind clock_goes fun now w2 h2 => ?_
  refine .bind cancelled_goes fun stop w3 h3 => .get_bind ?_
  refine .bind (check_goes (raised_cancelled (by decide))) fun _ w4 h4 => ?_
  obtain ⟨rfl, allowed⟩ := h4
  obtain ⟨rfl, connected, armAllowed⟩ :
      stop = false ∧ w4.session.peerConnected = true ∧ control.armAllowed = true := by
    simpa using allowed
  have seen4 : Seen [.cancelled false, .clock now] w1 w4 := by
    rw [h3, h2]
    exact ((Seen.refl w1).log rfl).log rfl
  refine .bind userFresh_goes fun fresh w5 h5 => ?_
  obtain ⟨recent, seen5, foreground⟩ := h5
  refine .bind (check_goes (raised_cancelled (by decide))) fun _ w6 h6 => ?_
  obtain ⟨rfl, shown⟩ := h6
  refine .bind (check_goes (raised_cancelled (by decide))) fun _ w7 h7 => ?_
  obtain ⟨rfl, feedback⟩ := h7
  refine .bind (check_goes (raised_cancelled (by decide))) fun _ w8 h8 => ?_
  obtain ⟨rfl, keys⟩ := h8
  refine .bind (check_goes (raised_superseded _)) fun _ w9 h9 => ?_
  obtain ⟨rfl, -⟩ := h9
  refine .bind (check_goes (raised_cancelled (by decide))) fun _ w10 h10 => ?_
  obtain ⟨rfl, target⟩ := h10
  refine .bind (check_goes (raised_cancelled (by decide))) fun _ w11 h11 => ?_
  obtain ⟨rfl, running⟩ := h11
  have intended : ∃ recent, Pumped recent w11.trace ∧ Intended control w11.session recent := by
    obtain ⟨last, hlast, hkeys⟩ := some_of_not_all (not_or.mp keys).2
    obtain ⟨seen, hseen, hfeedback⟩ := some_of_not_all feedback
    have seen11 := seen4.trans seen5
    refine ⟨recent ++ [.cancelled false, .clock now], ⟨⟨before, ?_⟩, seen11.readings, by simp⟩, ?_⟩
    · rw [seen11.trace, trace1]
    · rw [seen5.session]
      exact ⟨connected, armAllowed, target, ⟨now, last, seen, by simp, hlast, by simpa using hkeys, hseen,
        by simpa using hfeedback⟩, fun hh => (foreground (by simpa using shown) hh).mono (by simp),
        by simpa using running⟩
  cases expected with
  | none =>
    refine (check_goes (raised_cancelled (by decide))).ensures fun _ w12 h12 => ?_
    obtain ⟨rfl, state⟩ := h12
    refine ⟨intended, fun _ => ?_, fun _ h => (by cases h)⟩
    rw [seen5.session]
    exact not_not.mp state
  | some expected =>
    refine .bind (check_goes (raised_cancelled (by decide))) fun _ w12 h12 => ?_
    obtain ⟨rfl, state⟩ := h12
    refine (check_goes (raised_superseded _)).ensures fun _ w13 h13 => ?_
    obtain ⟨rfl, same⟩ := h13
    refine ⟨intended, fun h => (by cases h), fun _ h => ?_⟩
    cases h
    rw [seen5.session]
    exact ⟨not_not.mp state, not_not.mp same⟩

theorem Stationary.mono {samples : List (ℚ × List Word)} {recent more : History}
    (h : Stationary samples recent) (hm : recent ⊆ more) : Stationary samples more := by
  intro sample hs
  obtain ⟨zero, now, hc, hn⟩ := h sample hs
  exact ⟨zero, now, hm hc, hn⟩

theorem allFresh_goes [Watching G Event.quiet] (samples : List (ℚ × List Word)) :
    (allFresh env samples).Goes G (fun still w' => ∃ recent, Seen recent w w' ∧
      (still = true → Stationary samples recent)) E w := by
  induction samples generalizing w with
  | nil => exact .pure ⟨[], .refl w, fun _ => by simp [Stationary]⟩
  | cons sample rest ih =>
    obtain ⟨stamp, words⟩ := sample
    refine .ite (fun zero => ?_) fun _ => .pure ⟨[], .refl w, fun h => by cases h⟩
    refine .bind clock_goes fun now w1 h1 => ?_
    have seen1 : Seen [.clock now] w w1 := by
      rw [h1]
      exact (Seen.refl w).log rfl
    refine .ite (fun fresh => ih.ensures fun still w2 h2 => ?_) fun _ =>
      .pure ⟨_, seen1, fun h => by cases h⟩
    obtain ⟨recent, seen2, found⟩ := h2
    refine ⟨_, seen1.trans seen2, fun hs sample hm => ?_⟩
    rcases List.mem_cons.mp hm with rfl | hm
    · exact ⟨zero, now, by simp, fresh⟩
    · exact (found hs).mono (by simp) sample hm

theorem stationaryWindowFresh_goes [Watching G Event.quiet] :
    (stationaryWindowFresh env).Goes G (fun still w' => ∃ recent, Seen recent w w' ∧ (still = true →
      3 ≤ w.session.stopZeroSamples ∧ w.session.samples.length = 3 ∧
        Stationary w.session.samples recent)) E w := by
  refine .get_bind (.ite (fun h => (allFresh_goes _).ensures fun still w1 h1 => ?_) fun _ =>
    .pure ⟨[], .refl w, fun h => by cases h⟩)
  obtain ⟨recent, seen, found⟩ := h1
  exact ⟨recent, seen, fun hs => ⟨h.1, h.2, fun sample hm => found hs sample (by simpa using hm)⟩⟩

theorem raised_release : Raised releaseCancelled w := raised_cancelled (by decide)

theorem releaseGuard_goes (generation : Nat) :
    (releaseGuard env control generation).Goes (intents control) (fun _ w' =>
      ∃ recent, Pumped recent w'.trace ∧ Releasable control w'.session recent) Raised w := by
  refine .bind pump_goes fun _ w1 h1 => .get_bind ?_
  obtain ⟨before, trace1⟩ := h1
  refine .bind (check_goes raised_release) fun _ w2 h2 => ?_
  obtain ⟨rfl, -⟩ := h2
  refine .bind cancelled_goes fun stop w3 h3 => ?_
  refine .bind (check_goes raised_release) fun _ w4 h4 => ?_
  obtain ⟨rfl, allowed⟩ := h4
  simp only [not_or] at allowed
  obtain ⟨current, connected, armAllowed, requested, -, target, -, -, state, deadline, counted⟩ := allowed
  obtain rfl : stop = false := by simpa using current
  have seen4 : Seen [.cancelled false] w2 w4 := by
    rw [h3]
    exact (Seen.refl w2).log rfl
  refine .bind stationaryWindowFresh_goes fun still w5 h5 => ?_
  obtain ⟨recent5, seen5, found⟩ := h5
  refine .bind (check_goes raised_release) fun _ w6 h6 => ?_
  obtain ⟨rfl, hstill⟩ := h6
  obtain ⟨-, window, stationary⟩ := found (by simpa using hstill)
  refine .bind (F := fun _ w7 => ∃ recent, Seen recent w6 w7 ∧ (control.hybridManual = true →
      w2.session.hybridReleaseInhibited = false ∧ Foreground w2.session recent))
    (.when (fun _ => ?_) fun hn => ⟨[], .refl w6, fun hh => absurd hh hn⟩) fun _ w7 h7 => ?_
  · refine .bind (check_goes raised_release) fun _ w7 h7 => ?_
    obtain ⟨rfl, free⟩ := h7
    refine .bind uiFresh_goes fun fresh w8 h8 => ?_
    obtain ⟨recent, seen8, shown⟩ := h8
    refine (check_goes raised_release).ensures fun _ w9 h9 => ?_
    obtain ⟨rfl, hfresh⟩ := h9
    have shown := (shown (by simpa using hfresh)).2
    rw [seen5.session, seen4.session] at shown
    exact ⟨recent, seen8, fun _ => ⟨by simpa using free, shown⟩⟩
  obtain ⟨recent7, seen7, free⟩ := h7
  refine .bind (F := fun _ w8 => w8 = w7) (.need (fun _ _ => rfl) fun _ => raised_release) fun last w8 h8 => ?_
  subst h8
  refine .bind clock_goes fun now w9 h9 => ?_
  refine (check_goes raised_release).ensures fun _ w10 h10 => ?_
  obtain ⟨rfl, -⟩ := h10
  have seen10 : Seen (.clock now :: (recent7 ++ (recent5 ++ [.cancelled false]))) w2 w10 := by
    rw [h9]
    exact ((seen4.trans seen5).trans seen7).log rfl
  refine ⟨_, ⟨⟨before, ?_⟩, seen10.readings, by simp⟩, ?_⟩
  · rw [seen10.trace, trace1]
  · rw [seen10.session]
    exact {
      connected := by simpa using connected
      allowed := by simpa using armAllowed
      target := not_not.mp target
      requested := by simpa using requested
      state := state
      deadline := deadline
      counted := not_lt.mp counted
      window := by rw [← seen4.session]; exact window
      stationary := by rw [← seen4.session]; exact stationary.mono fun e he => by simp [he]
      free := fun hh => ⟨(free hh).1, (free hh).2.mono fun e he => by simp [he]⟩ }

variable {w' : World}

theorem settled_steady (hs : Settled w) (h : Steady w w') : Settled w' :=
  settled_grew h.channel (h.trace.mono fun _ => Event.plain_of_quiet) hs

variable {e : Event}

theorem mem_steady (h : Steady w w') (he : e ∈ w.trace) : e ∈ w'.trace := by
  obtain ⟨es, ht, -⟩ := h.trace
  rw [ht]
  exact List.mem_append_right es he

theorem settled_log (hs : Settled w) (he : e.isSent = false) : Settled (w.log e) := by
  refine hs.imp id fun h r c hm => h r c ?_
  rcases List.mem_cons.mp hm with rfl | hm
  · cases he
  · exact hm

theorem trace_step (h : Move control w w') (he : e ∈ w.trace) : e ∈ w'.trace := by
  cases h with
  | observe hs => exact mem_steady hs he
  | keep | book | connect | leave | clear | release | rest | start | initialized | drop | attempt | fault
  | closing | close => exact he
  | _ => exact List.mem_cons_of_mem _ he

theorem trace_kept (h : Path (Move control) w w') (he : e ∈ w.trace) :
    e ∈ w'.trace := h.keeps (P := fun w => e ∈ w.trace) (fun _ _ => trace_step) he

theorem guards_pure {cancels : Prop} {purpose : Purpose} {request : Bytes}
    (hg : ∀ w1, Steady w w1 → Guarded control purpose request w1) :
    Guards control cancels (· = w.session) purpose request (return ()) w :=
  fun w1 h1 => .pure ⟨hg w1 h1, h1.session⟩

theorem sample_goes (hs : Settled w) : Does control (sample env control) (fun _ _ => True) w := by
  refine .get_bind ?_
  refine .bind (journal_steady _) fun _ w1 h1 => ?_
  have asked : (exchange env control query .query (return ())).Goes (guarantee control)
      (fun _ => Answered (· = w1.session) query) (Unanswered True query) w1 :=
    exchange_goes (settled_steady hs h1) (guards_pure fun _ _ => rfl)
  refine .bind (asked.weaken (fun _ _ h => h) fun _ _ h => h.1.1) fun response w2 _ => ?_
  refine .bind (F := fun _ _ => True) (liftFault_does fun _ _ => trivial) fun words w3 _ => ?_
  refine .bind clock_steady fun now w4 _ => .get_bind ?_
  refine .bind (keep_goes rfl) fun _ w5 _ => ?_
  refine .bind (journal_steady _) fun _ w6 _ => ?_
  refine .bind preview_steady fun _ w7 _ => ?_
  refine .bind (journal_steady _) fun _ w8 _ => ?_
  refine .bind (F := fun _ _ => True) ?_ fun _ w9 _ => ?_
  · refine except_goes (E := Raised) (publish_steady.ensures fun _ _ _ => trivial) (fun _ _ h => h.1)
      fun error w9 he => ?_
    exact .bind (keep_goes rfl) fun _ _ _ => .raise he
  refine .bind (keep_goes rfl) fun _ w10 _ => ?_
  refine .bind (record_goes rfl (.sample now words)) fun _ w11 _ => .get_bind ?_
  exact .when (fun _ => (channel_goes rfl rfl rfl).ensures fun _ _ _ => trivial) fun _ => trivial

def Served (w : World) : Prop :=
  w.session.state = .initializing ∨ w.session.state = .armed → w.channel.motionMayExist = true →
    ∃ seen, Event.stepBegin seen ∈ w.trace ∧ Tangled seen

theorem admissible_zero : Admissible zeroRequest := by
  refine ⟨by decide +kernel, .inr (.inr (.inr ⟨by decide +kernel, rfl⟩))⟩

theorem commandZero_goes (hs : Settled w) (ht : Served w)
    (hm : w.channel.motionMayExist = true ∨ w.session.pushModeRequested = true) :
    (commandZero env control).Goes (guarantee control) (fun _ w' => zeroAcked w'.trace = true)
      (Unanswered False zeroRequest) w := by
  have asked : (exchange env control zeroRequest .stop (return ())).Goes (guarantee control)
      (fun _ => Answered (· = w.session) zeroRequest) (Unanswered False zeroRequest) w :=
    exchange_goes hs (guards_pure fun w1 h1 => ⟨rfl, by rw [h1.channel, h1.session]; exact hm⟩)
  refine .bind asked.along fun _ w1 h1 => ?_
  obtain ⟨path, answered⟩ := h1
  have grown : ∀ e ∈ w.trace, e ∈ w1.trace := fun _ => trace_kept path
  refine .bind (channel_goes rfl rfl rfl) fun _ w2 h2 => ?_
  subst h2
  refine .bind clock_steady fun now w3 h3 => ?_
  have session3 : w3.session = w.session := h3.session.trans answered.session
  obtain ⟨es, trace3, hes⟩ := h3.trace
  have zero3 : zeroAcked w3.trace = true := by
    rw [trace3]
    exact zeroAcked_append (fun e he => Event.isMoving_of_quiet (hes e he)) (answered.zero rfl)
  refine (record_goes rfl (.zeroed now zero3 fun hstate => ?_)).ensures fun _ w4 h4 => ?_
  · rw [session3] at hstate ⊢
    refine hm.symm.imp id fun motion => ?_
    obtain ⟨seen, begun, tangled⟩ := ht hstate motion
    refine ⟨seen, ?_, tangled⟩
    rw [trace3]
    exact List.mem_append_right es (grown _ begun)
  · rw [h4]
    exact zero3

def Answerable (w : World) : Prop :=
  w.channel.motionMayExist = true → w.session.stopDeadline ≠ none ∨ Stopped w

theorem stopMotion_goes (hs : Settled w) (ht : Served w) :
    (stopMotion env control).Goes (guarantee control) (fun _ => Answerable)
      (fun e w' => Raised e w' ∧ w'.channel.failed = true ∧ Answerable w') w := by
  refine .get_bind (.when (fun hm => ?_) fun hm hm' => absurd (.inl hm') hm)
  refine .ite (fun hf => ?_) fun hf => ?_
  · exact (bestEffortZero_goes hf).ensures fun _ _ h hm => .inr (.inr (h hm))
  refine .when (fun hd => ?_) fun hd _ => .inl hd
  refine except_goes ((commandZero_goes hs ht hm).ensures fun _ _ hz _ => .inr (.inl hz))
    (fun _ _ he => he.1.1.1) fun e w1 he => ?_
  have failed : w1.channel.failed = true := by
    refine he.2 admissible_zero ?_
    rw [Bool.eq_false_iff]
    exact he.1.2
  refine .bind (bestEffortZero_goes failed).along fun _ w2 h2 => .raise ⟨he.1.1, ?_, fun hm => ?_⟩
  · exact failed_kept h2.1 failed
  · exact .inr (.inr (h2.2 hm))

theorem stop_goes (hs : Settled w) (ht : Served w) :
    (stop env control).Goes (guarantee control) (fun _ => Answerable)
      (fun e w' => Raised e w' ∧ w'.channel.failed = true ∧ Answerable w') w := by
  refine .tighten (.bind (F := fun _ w1 => w1 =
    (w.onSession fun s => { s with stopRequested := false }).log .stopTaken)
    (.modify (.single .takeStop) trivial rfl) fun _ w1 h1 => ?_)
  have settled : Settled w1 := by
    rw [h1]
    exact settled_log (w := w.onSession _) hs rfl
  have served : Served w1 := by
    rw [h1]
    intro hstate motion
    obtain ⟨seen, begun, tangled⟩ := ht hstate motion
    exact ⟨seen, List.mem_cons_of_mem _ begun, tangled⟩
  refine .ensure (stopMotion_goes settled served).loosen (fun _ w2 h2 => ?_) fun e w2 h2 => ?_
  · obtain ⟨whole, answerable⟩ := h2
    refine .modify (.single (.stopDone answerable)) trivial ⟨⟨fun _ => ?_, fun h => by cases h⟩, answerable⟩
    exact settled_log (whole.settled settled) rfl
  · obtain ⟨whole, raised, failed, answerable⟩ := h2
    refine .modify (.single (.stopDone answerable)) trivial ⟨⟨fun _ => ?_, fun h => by cases h⟩, raised, failed, answerable⟩
    exact settled_log (whole.settled settled) rfl

theorem settled_goes {α : Type} {x : Act α} {F : α → World → Prop} (hs : Settled w)
    (h : x.Goes (guarantee control) F E w) :
    x.Goes (guarantee control) (fun a w' => Settled w' ∧ F a w') (fun e w' => Settled w' ∧ E e w') w := by
  refine h.mono ?_
  rintro (a | e | _) w' ⟨hp, hr⟩
  · exact ⟨hp, hr.1, hr.1.settled hs, hr.2⟩
  · exact ⟨hp, hr.1, hr.1.settled hs, hr.2⟩
  · exact ⟨hp, hr⟩

theorem stays_goes {α : Type} {x : Act α} {F : α → World → Prop} (hs : Settled w)
    (h : x.Goes (guarantee control) F E w) :
    x.Goes (guarantee control) (fun a w' => Settled w' ∧ F a w') E w :=
  (settled_goes hs h).weaken (fun _ _ h => h) fun _ _ h => h.2

theorem requestRelease_goes (hs : Settled w) (generation : Nat) :
    Does control (requestRelease env control generation) (fun _ _ => True) w := by
  have asked : (exchange env control releaseRequest .release (releaseGuard env control generation)).Goes
      (guarantee control) (fun _ => Answered (fun _ => True) releaseRequest) (Unanswered True releaseRequest) w :=
    exchange_goes hs fun _ _ => (releaseGuard_goes generation).weaken
      (fun _ _ h => ⟨⟨rfl, h⟩, trivial⟩) fun _ _ h => ⟨h, fun _ => trivial⟩
  refine .handle (.bind asked fun _ _ _ => .pure trivial) fun e w1 h1 => ?_
  exact .ite (fun _ => .pure trivial) fun _ => .raise h1.1.1

theorem release_goes (hs : Settled w) : Does control (release env control) (fun _ _ => True) w := by
  refine .get_bind (.when (fun _ => ?_) fun _ => trivial)
  refine .bind stationaryWindowFresh_goes fun still w1 h1 => .when (fun _ => ?_) fun _ => trivial
  obtain ⟨recent, seen, -⟩ := h1
  refine .bind (stays_goes (settled_steady hs seen.steady) (requestRelease_goes (settled_steady hs seen.steady) _))
    fun done w2 h2 => .when (fun _ => ?_) fun _ => trivial
  refine .bind (session_goes .release) fun _ w3 _ => ?_
  refine .bind (F := fun _ _ => True) (.modify (.single (.rest _ rfl rfl rfl)) (whole_channel rfl) trivial)
    fun _ w4 _ => ?_
  exact (journal_steady _).ensures fun _ _ _ => trivial

theorem fault_goes (reason : String) :
    (fault env control reason).Goes (guarantee control) (fun _ w' => Idle w'.session) E w := by
  refine .bind (session_goes (.fault reason)) fun _ w1 h1 => .get_bind ?_
  refine .bind (disarm_goes fun _ => ?_) fun _ w2 h2 => ?_
  · rw [h1]
    exact .inr (.inr (.inr (.inl rfl)))
  · refine (journalQuietly_steady _).ensures fun _ w3 h3 => ?_
    rw [h3.session]
    exact h2

theorem mem_initialization {i : Nat} {request : Bytes} {delay : ℚ}
    (h : initialization[i]? = some (request, delay)) :
    request ∈ initializationWrites ∨ request = zeroRequest := by
  have hm := List.mem_of_getElem? h
  simp only [initialization, List.mem_cons, Prod.mk.injEq, List.not_mem_nil, or_false] at hm
  simp only [initializationWrites, enableRequest, List.mem_cons, List.not_mem_nil, or_false]
  tauto

theorem initializeNext_goes (hs : Settled w) :
    Does control (initializeNext env control) (fun _ _ => True) w := by
  refine .get_bind ?_
  split
  · rename_i request delay next
    have asked : (exchange env control request .initialization (guard env control none)).Goes
        (guarantee control) (fun _ => Answered (fun _ => True) request) (Unanswered True request) w :=
      exchange_goes hs fun _ _ => (guard_goes none).weaken
        (fun _ _ h => ⟨⟨mem_initialization next, h.initializing rfl, h.intended⟩, trivial⟩)
        fun _ _ h => ⟨h, fun _ => trivial⟩
    refine .bind (asked.weaken (fun _ _ h => h) fun _ _ h => h.1.1) fun _ w1 _ => ?_
    refine .bind (keep_goes rfl) fun _ w2 _ => ?_
    refine .bind clock_steady fun now w3 _ => ?_
    exact (keep_goes rfl).ensures fun _ _ _ => trivial
  · have passed : (guard env control none).Goes (guarantee control)
        (fun _ w' => w'.session.state = .initializing) Raised w :=
      ((guard_goes none).recast (G := intents control) (H := guarantee control) rfl id
        fun _ h => h.1).weaken (fun _ _ h => h.2.initializing rfl) fun _ _ h => h.2
    refine .bind passed fun _ w1 h1 => ?_
    refine .bind (session_goes (.initialized h1)) fun _ w2 _ => ?_
    refine .bind clock_steady fun now w3 _ => ?_
    exact (keep_goes rfl).ensures fun _ _ _ => trivial

theorem sendVelocity_goes (hs : Settled w) :
    Does control (sendVelocity env control) (fun _ _ => True) w := by
  refine .get_bind (.ite (fun _ => ?_) fun _ => ?_)
  · exact (session_goes .drop).ensures fun _ _ _ => trivial
  refine .bind (F := fun request w1 => w1 = w ∧ control.velocityRequest (control.target w.session.keys) =
    .ok request) (liftFault_does fun _ h => ⟨rfl, h⟩) fun request w1 h1 => ?_
  obtain ⟨rfl, built⟩ := h1
  have asked : (exchange env control request (.velocity (control.target w1.session.keys))
      (guard env control (some (control.target w1.session.keys)))).Goes
      (guarantee control) (fun _ => Answered (fun _ => True) request) (Unanswered True request) w1 :=
    exchange_goes hs fun _ _ => (guard_goes _).weaken
      (fun _ _ h => ⟨⟨built, (h.armed _ rfl).1, (h.armed _ rfl).2, h.intended⟩, trivial⟩)
      fun _ _ h => ⟨h, fun _ => trivial⟩
  refine .bind (asked.weaken (fun _ _ h => h) fun _ _ h => h.1.1) fun _ w2 _ => ?_
  refine .bind clock_steady fun now w3 _ => ?_
  exact (keep_goes rfl).ensures fun _ _ _ => trivial

theorem drive_goes (hs : Settled w) (now : ℚ) :
    Does control (drive env control now) (fun _ _ => True) w := by
  refine .get_bind (.bind (F := fun _ => Settled) (.when (fun h => ?_) fun _ => hs) fun _ w1 hs1 => .get_bind ?_)
  · refine .bind (stays_goes hs (session_goes (.start now h.1 h.2))) fun _ w1 h1 => ?_
    exact (stays_goes h1.1 (journal_steady _)).ensures fun _ _ h2 => h2.1
  · exact .ite (fun _ => initializeNext_goes hs1) fun _ =>
      .when (fun _ => sendVelocity_goes hs1) fun _ => trivial

theorem feed_goes (hs : Settled w) (now : ℚ) :
    Does control (feed env control now) (fun _ _ => True) w := by
  refine .get_bind (.bind (F := fun _ => Settled) (.when (fun _ => ?_) fun _ => hs) fun _ w1 hs1 => ?_)
  · refine .bind (stays_goes hs (keep_goes rfl)) fun _ w1 h1 => ?_
    exact (stays_goes h1.1 (sample_goes h1.1)).ensures fun _ _ h2 => h2.1
  refine .bind clock_steady fun later w2 h2 => .get_bind ?_
  have hs2 := settled_steady hs1 h2
  refine .bind (F := fun _ => Settled) (.when (fun _ => ?_) fun _ => hs2) fun _ w3 hs3 => ?_
  · exact (stays_goes hs2 (release_goes hs2)).ensures fun _ _ h3 => h3.1
  refine .bind cancelled_steady fun stop w4 h4 => ?_
  exact .when (fun _ => drive_goes (settled_steady hs3 h4) later) fun _ => trivial

def Lapsed (w w' : World) : Prop := w'.session = w.session ∨ Idle w'.session

theorem Lapsed.trans {a b c : World} (hab : Lapsed a b) (hbc : Lapsed b c) : Lapsed a c := by
  rcases hbc with hbc | hbc
  · rcases hab with hab | hab
    · exact .inl (hbc.trans hab)
    · exact .inr (by rw [hbc]; exact hab)
  · exact .inr hbc

theorem Lapsed.of_steady (h : Steady w w') : Lapsed w w' := .inl h.session

theorem lapse_goes [Serves G control] {w0 : World} {reason : String} (h0 : Lapsed w0 w)
    (h : reason ≠ "ALL_KEYS_RELEASED") {c : Prop} [Decidable c] :
    (Program.when c (disarm env control reason)).Goes G (fun _ => Lapsed w0) E w :=
  .when (fun _ => (disarm_goes fun hr => absurd hr h).ensures fun _ _ h1 => .inr h1) fun _ => h0

theorem expire_goes [Serves G control] [Faults E] (now : ℚ) :
    (expire env control now).Goes G (fun _ => Lapsed w) E w := by
  refine .bind cancelled_steady fun stop w1 h1 => ?_
  refine .bind (lapse_goes (.of_steady h1) (by decide)) fun _ w2 h2 => .get_bind ?_
  refine .bind (F := fun _ => Lapsed w) (.when (fun _ => ?_) fun _ => h2) fun _ w3 h3 => .get_bind ?_
  · refine .bind uiFresh_goes fun fresh w3 h3 => ?_
    obtain ⟨recent, seen, -⟩ := h3
    exact lapse_goes (h2.trans (.of_steady seen.steady)) (by decide)
  refine .when (fun _ => ?_) fun _ => h3
  refine .bind (F := fun _ w4 => w4 = w3) (.need (fun _ _ => rfl) fun _ => Faults.fault _ _) fun last w4 h4 => ?_
  subst h4
  exact lapse_goes h3 (by decide)

theorem stepBody_goes (hs : Settled w) (begun : Event.stepBegin w.machine ∈ w.trace) :
    Does control (stepBody env control) (fun _ _ => True) w := by
  refine .bind clock_steady fun now w1 h1 => .get_bind ?_
  refine .bind raiseIf_does fun _ w2 h2 => ?_
  refine .bind (keep_goes rfl) fun _ w3 h3 => ?_
  refine .bind checkHealth_steady fun _ w4 h4 => ?_
  have expired : (expire env control now).Goes (guarantee control)
      (fun _ w5 => w5.channel = w4.channel ∧ Lapsed w4 w5) Raised w4 :=
    ((expire_goes now).recast (G := intents control) (H := guarantee control) rfl id
      fun _ h => h.1).weaken (fun _ _ h => ⟨h.1.2, h.2⟩) fun _ _ h => h.2
  have hs4 : Settled w4 := by
    have hs2 := settled_steady (settled_steady hs h1) h2
    rw [h3] at h4
    exact settled_steady (w := w2.onSession _) hs2 h4
  have channel4 : w4.channel = w.channel := by
    rw [h4.channel, h3]
    exact h2.channel.trans h1.channel
  have session4 : w4.session = { w.session with lastClock := some now } := by
    rw [h4.session, h3]
    change { w2.session with lastClock := some now } = _
    rw [h2.session, h1.session]
  have begun2 : Event.stepBegin w.machine ∈ w2.trace := mem_steady h2 (mem_steady h1 begun)
  have begun4 : Event.stepBegin w.machine ∈ w4.trace := by
    rw [h3] at h4
    exact mem_steady h4 begun2
  refine .bind (stays_goes hs4 expired.along) fun _ w5 h5 => .get_bind ?_
  obtain ⟨hs5, path, channel5, lapsed⟩ := h5
  refine .bind (F := fun _ => Settled) (.when (fun requested => ?_) fun _ => hs5) fun _ w6 hs6 => .get_bind ?_
  · have served : Served w5 := by
      intro hstate hm
      have session5 : w5.session = w4.session := by
        refine lapsed.resolve_right fun idle => ?_
        rcases hstate with hstate | hstate
        · exact idle.initializing hstate
        · exact idle.armed hstate
      refine ⟨w.machine, trace_kept path begun4, ?_, ?_, ?_⟩
      · rw [session5, session4] at requested
        exact requested
      · rw [channel5, channel4] at hm
        exact hm
      · rw [session5, session4] at hstate
        exact hstate
    exact (stays_goes hs5 ((stop_goes hs5 served).weaken (fun _ _ h => h) fun _ _ h => h.1)).ensures
      fun _ _ h6 => h6.1
  · exact .when (fun _ => feed_goes hs6 now) fun _ => trivial

theorem recover_goes (hs : Settled w) (generation : Nat) {error : PyError} (he : Raised error w) :
    (recover env control generation error).Goes (guarantee control) (fun _ _ => True) E w := by
  have general : (do
      fault env control error.text
      exceptException (stop env control) fun _ => return ()).Goes (guarantee control) (fun _ _ => True) E w := by
    refine .bind (stays_goes hs (fault_goes _)) fun _ w1 h1 => ?_
    have served : Served w1 := by
      intro hstate
      rcases hstate with hstate | hstate
      · exact absurd hstate h1.2.initializing
      · exact absurd hstate h1.2.armed
    exact except_goes ((stop_goes h1.1 served).ensures fun _ _ _ => trivial) (fun _ _ h => h.1.1)
      fun _ _ _ => .pure trivial
  cases error with
  | superseded m =>
    refine .bind clock_steady fun now w1 _ => ?_
    exact (keep_goes rfl).ensures fun _ _ _ => trivial
  | cancelled m =>
    refine .get_bind (.when (fun _ => disarm_quiet fun hr => ?_) fun _ => trivial)
    exact absurd (congrArg PyError.cancelled hr) he.2
  | fault f | motionRejected m | interrupt => exact general

theorem step_goes (hs : Settled w) :
    (step env control).Goes (guarantee control) (fun _ _ => True) E w := by
  refine .get_bind (.bind (F := fun _ w1 => w1 = w.log (.stepBegin w.machine))
    (.modify (.single .stepBegin) (.grew rfl (.log rfl)) rfl) fun _ w1 h1 => ?_)
  subst h1
  have settled : Settled (w.log (.stepBegin w.machine)) := settled_log hs rfl
  have begun : Event.stepBegin w.machine ∈ (w.log (.stepBegin w.machine)).trace := by simp [World.log]
  refine .handle ((settled_goes settled (stepBody_goes settled begun)).ensures fun _ _ _ => trivial)
    fun _ _ he => recover_goes he.1 _ he.2

structure Shut (w : World) : Prop where
  closing : w.session.closing = true
  idle : Idle w.session

theorem closing_step (h : Move control w w') (hc : w.session.closing = true) : w'.session.closing = true := by
  cases h with
  | observe hs => rw [hs.session]; exact hc
  | keep f hf => exact (congrArg Session.closing hf).trans hc
  | disarm reason normal => change (disarmed _ _ _ _ _).closing = true; rw [disarmed_eq]; exact hc
  | attend keys now => change (attended _ _ _).closing = true; rw [attended_eq]; exact hc
  | push enabled => change (pushed _ _).closing = true; rw [pushed_eq]; exact hc
  | wait => change (waiting _ _).closing = true; rw [waiting_eq]; exact hc
  | sample now words => change (sampled _ _ _).closing = true; rw [sampled_eq]; exact hc
  | release => change (released _ _).closing = true; rw [released_eq]; exact hc
  | closing => rfl
  | _ => exact hc

theorem closing_kept (h : Path (Move control) w w') (hc : w.session.closing = true) :
    w'.session.closing = true := h.keeps (P := fun w => w.session.closing = true) (fun _ _ => closing_step) hc

theorem idle_step (h : Move control w w') (hc : w.session.closing = true) (hi : Idle w.session) : Idle w'.session := by
  cases h with
  | observe hs => rw [hs.session]; exact hi
  | keep f hf =>
    exact ⟨(congrArg Session.keys hf).trans hi.keys, fun h => hi.initializing ((congrArg Session.state hf).symm.trans h),
      fun h => hi.armed ((congrArg Session.state hf).symm.trans h)⟩
  | disarm reason normal => exact idle_disarmed _ _ _ _
  | attend keys now => change Idle (attended _ _ _); rw [attended_eq]; exact ⟨hi.1, hi.2, hi.3⟩
  | hold p keys now h => rw [h.closing] at hc; cases hc
  | oppose p keys now h => rw [h.closing] at hc; cases hc
  | push enabled => change Idle (pushed _ _); rw [pushed_eq]; exact ⟨hi.1, hi.2, hi.3⟩
  | wait => change Idle (waiting _ _); rw [waiting_eq]; exact ⟨hi.1, hi.2, hi.3⟩
  | sample now words => change Idle (sampled _ _ _); rw [sampled_eq]; exact ⟨hi.1, hi.2, hi.3⟩
  | release => change Idle (released _ _); rw [released_eq]; exact ⟨hi.1, hi.2, hi.3⟩
  | start now hs ht => rw [hi.keys] at ht; exact absurd (target_empty control) ht
  | initialized hs => exact absurd hs hi.initializing
  | fault reason => exact ⟨hi.1, nofun, nofun⟩
  | clear | drop => exact ⟨rfl, hi.2, hi.3⟩
  | connect | leave | watch | takeStop | zeroed | closing | close => exact ⟨hi.1, hi.2, hi.3⟩
  | _ => exact hi

theorem shut_kept (h : Path (Move control) w w') (hw : Shut w) : Shut w' :=
  h.keeps (P := Shut) (fun _ _ hm hs => ⟨closing_step hm hs.closing, idle_step hm hs.closing hs.idle⟩) hw

theorem close_goes (hs : Settled w) :
    (close env control).Goes (guarantee control) (fun _ _ => True) E w := by
  refine .get_bind (.when (fun _ => ?_) fun _ => trivial)
  refine .bind (F := fun _ w1 => w1 = w.onSession fun s => { s with closing := true })
    (session_goes .closing) fun _ w1 h1 => ?_
  have closing1 : w1.session.closing = true := by rw [h1]; rfl
  have settled1 : Settled w1 := by rw [h1]; exact hs
  refine .bind (stays_goes settled1 (disarm_goes fun hr => ?_).along) fun _ w2 h2 => ?_
  · rw [h1]
    cases hf : w.session.failure with
    | none => rw [hf] at hr; exact absurd hr (by decide)
    | some failure =>
      rw [hf] at hr
      exact .inr (.inr (.inr (.inr (hf.trans (congrArg some hr)))))
  obtain ⟨settled2, path2, idle2⟩ := h2
  have shut2 : Shut w2 := ⟨closing_kept path2 closing1, idle2⟩
  have served : Served w2 := by
    intro hstate
    rcases hstate with hstate | hstate
    · exact absurd hstate idle2.initializing
    · exact absurd hstate idle2.armed
  have stopped : (exceptException (stop env control) fun error => do
      fault env control error.text
      bestEffortZero env).Goes (guarantee control) (fun _ => Answerable) (fun _ _ => False) w2 := by
    refine except_goes (stop_goes settled2 served) (fun _ _ h => h.1.1) fun error w3 h3 => ?_
    refine .bind (fault_goes _).along fun _ w4 h4 => ?_
    exact (bestEffortZero_goes (failed_kept h4.1 h3.2.1)).ensures fun _ _ h hm => .inr (.inr (h hm))
  refine .ensure (E := fun _ _ => False) stopped.along (fun _ w3 h3 => ?_) fun _ _ he => he.elim
  exact (session_goes (.close (shut_kept h3.1 shut2).idle h3.2)).ensures fun _ _ _ => trivial

theorem perform_goes (hs : Settled w) (o : Operation) :
    Does control (perform env control o) (fun _ _ => True) w := by
  cases o with
  | pump => exact pump_goes.ensures fun _ _ _ => trivial
  | step => exact step_goes hs
  | close => exact close_goes hs
  | fault reason => exact (fault_goes reason).ensures fun _ _ _ => trivial

theorem operate_goes (hs : Settled w) (o : Operation) :
    (operate env control o).Goes (guarantee control) (fun _ => Settled) E w :=
  .handle ((settled_goes hs (perform_goes hs o)).ensures fun _ _ h => h.1) fun _ _ h => .pure h.1

theorem run_goes (hs : Settled w) (ops : List Operation) :
    (run env control ops).Goes (guarantee control) (fun _ => Settled) E w := by
  induction ops generalizing w with
  | nil => exact .pure hs
  | cons o rest ih => exact .bind (operate_goes hs o) fun _ _ h => ih h

theorem initial_settled (control : Control) : Settled (initial control) := .inr fun _ _ h => by cases h

theorem run_path (env : Env) (control : Control) (ops : List Operation) :
    Path (Move control) (initial control) (run env control ops (initial control)).2 :=
  (run_goes (E := fun _ _ => True) (initial_settled control) ops).path

end Smartwheel.Wheel

import Smartwheel.Wheel.ChannelSpec

/-! What packets and disarms do: they change intent only, and never the channel. -/
namespace Smartwheel.Wheel
open Effect.Program Serial

variable {env : Env} {control : Control} {w : World} {E : PyError → World → Prop} {G : Guarantee World}

/-- Only readings have been taken: `recent`. -/
structure Seen (recent : History) (w w' : World) : Prop where
  session : w'.session = w.session
  channel : w'.channel = w.channel
  trace : w'.trace = recent ++ w.trace
  readings : ∀ e ∈ recent, e.isReading = true

namespace Seen
variable {a b c : World} {recent more : History}

theorem refl (w : World) : Seen [] w w := ⟨rfl, rfl, rfl, by simp⟩

theorem trans (hab : Seen recent a b) (hbc : Seen more b c) : Seen (more ++ recent) a c := by
  refine ⟨hbc.session.trans hab.session, hbc.channel.trans hab.channel, ?_, ?_⟩
  · rw [hbc.trace, hab.trace, List.append_assoc]
  · intro e he
    rcases List.mem_append.mp he with he | he
    · exact hbc.readings e he
    · exact hab.readings e he

theorem log {e : Event} (h : Seen recent a b) (he : e.isReading = true) :
    Seen (e :: recent) a (b.log e) := by
  refine ⟨h.session, h.channel, by rw [World.log, h.trace]; rfl, ?_⟩
  intro x hx
  rcases List.mem_cons.mp hx with rfl | hx
  · exact he
  · exact h.readings x hx

theorem steady (h : Seen recent a b) : Steady a b :=
  ⟨h.session, h.channel, recent, h.trace, fun e he => Event.quiet_of_reading (h.readings e he)⟩

end Seen

theorem uiFresh_goes [Watching G Event.quiet] : (uiFresh env).Goes G (fun fresh w' => ∃ recent, Seen recent w w' ∧
    (fresh = true → w.session.peerConnected = true ∧ Foreground w.session recent)) E w := by
  refine .get_bind ?_
  split
  · rename_i heartbeat shown beat
    simp only [Bool.and_eq_true] at shown
    refine .bind clock_goes fun now w1 h1 => .pure ⟨[.clock now], ?_, fun hf => ?_⟩
    · rw [h1]
      exact (Seen.refl w).log rfl
    · exact ⟨shown.1, shown.2, heartbeat, now, beat, by simp, by simpa using hf⟩
  · exact .pure ⟨[], .refl w, fun hf => by cases hf⟩

theorem normalRelease_goes [Watching G Event.quiet] (reason : String) :
    (normalRelease env control reason).Goes G (fun normal w' => Steady w w' ∧
      (normal = true → reason = "ALL_KEYS_RELEASED" ∧ control.hybridManual = true ∧
        w.session.foreground = true)) E w := by
  refine .ite (fun h => uiFresh_goes.ensures fun normal w' hw => ?_) fun _ => .pure ⟨.refl w, fun h => by cases h⟩
  obtain ⟨recent, seen, fresh⟩ := hw
  exact ⟨seen.steady, fun hn => ⟨h.1, h.2, (fresh hn).2.foreground⟩⟩

theorem idleState_idle : idleState control ≠ .initializing ∧ idleState control ≠ .armed := by
  unfold idleState
  split <;> decide

theorem idle_disarmed (reason : String) (normal motion : Bool) (s : Session) :
    Idle (disarmed control reason normal motion s) := by
  rw [disarmed_eq]
  refine ⟨rfl, ?_, ?_⟩ <;> dsimp only <;> split
  · decide
  · exact idleState_idle.1
  · decide
  · exact idleState_idle.2

section
variable [Serves G control]

theorem disarm_goes {reason : String} (h : reason = "ALL_KEYS_RELEASED" → Released w.session) :
    (disarm env control reason).Goes G
      (fun _ w' => Idle w'.session) E w := by
  refine .bind (normalRelease_goes reason) fun normal w1 h1 => .get_bind ?_
  obtain ⟨steady, normally⟩ := h1
  refine (record_goes rfl (.disarm reason normal fun hn => ?_)).ensures fun _ w2 h2 => ?_
  · obtain ⟨hr, hh, hf⟩ := normally hn
    rw [steady.session]
    exact ⟨hr, hh, hf, h hr⟩
  · subst h2
    exact idle_disarmed _ _ _ _

theorem disarm_quiet {reason : String} (h : reason = "ALL_KEYS_RELEASED" → Released w.session) :
    (disarm env control reason).Goes G (fun _ _ => True) E w :=
  (disarm_goes h).ensures fun _ _ _ => trivial

theorem disconnected_goes :
    (disconnected env control).Goes G (fun _ _ => True) E w := by
  refine .bind (session_goes .leave) fun _ w1 h1 => ?_
  subst h1
  exact disarm_quiet fun h => absurd h (by decide)

theorem requestHybridPush_goes :
    (requestHybridPush env control).Goes G (fun _ _ => True) E w := by
  refine .get_bind (.when (fun h => ?_) fun _ => trivial)
  refine .bind uiFresh_goes fun fresh w1 h1 => ?_
  obtain ⟨recent, seen, -⟩ := h1
  refine .when (fun hs => ?_) fun _ => trivial
  refine .bind cancelled_steady fun stop w2 h2 => ?_
  have steady := seen.steady.trans h2
  refine .when (fun _ => ?_) fun _ => trivial
  have idle : Idle w2.session := by
    rw [steady.session]
    exact ⟨hs.2.1, by simp [hs.2.2.2.2.1], by simp [hs.2.2.2.2.1]⟩
  have idle' : Idle (waiting w.channel.motionMayExist w2.session) := by
    rw [waiting_eq]
    exact ⟨idle.keys, idle.initializing, idle.armed⟩
  refine .bind (record_goes rfl ?_) fun _ w3 h3 => ?_
  · have wait : Move control w2 _ := .wait h.2.1 idle
    rw [steady.channel, steady.session] at wait
    exact wait
  subst h3
  refine .when (fun hm => ?_) fun _ => trivial
  refine .bind clock_steady fun now w4 h4 => ?_
  refine (record_goes rfl (.watch now ?_ ?_ ?_)).ensures fun _ w5 h5 => ?_
  · rw [h4.channel]
    change w2.channel.motionMayExist = false
    rw [steady.channel]
    simpa using hm
  · rw [h4.session]
    change (waiting w.channel.motionMayExist w2.session).stopZeroSamples = 0
    rw [waiting_eq]
  · rw [h4.session]
    exact idle'
  · trivial

theorem pushMode_goes [Faults E] (p : Packet) :
    (pushMode env control p).Goes G (fun _ _ => True) E w := by
  refine .get_bind ?_
  refine .bind (F := fun _ w1 => w1 = w) (.need (fun _ _ => rfl) fun _ => Faults.fault _ _) fun request w1 h1 => ?_
  subst h1
  obtain ⟨sequence, enabled⟩ := request
  refine .bind (keep_goes rfl) fun _ w2 h2 => ?_
  subst h2
  refine .when (fun h => ?_) fun _ => trivial
  refine .bind (disarm_goes fun hr => ?_) fun _ w3 idle => .get_bind ?_
  · split at hr <;> exact absurd hr (by decide)
  refine .bind (record_goes rfl (.push enabled h.2.2.2.1 idle)) fun _ w4 _ => ?_
  exact (journal_steady _).ensures fun _ _ _ => trivial

theorem intend_goes {p : Packet} {keys : Finset Key} {now : ℚ} (h : Accepted control p keys w.session) :
    (intend env control p keys now).Goes G (fun _ _ => True) E w := by
  refine .get_bind (.ite (fun _ => ?_) fun _ => ?_)
  · exact disarm_quiet fun hr => absurd hr (by decide)
  refine .ite (fun ht => .ite (fun hk => ?_) fun hk => .ite (fun hr => ?_) fun hr => ?_) fun ht => ?_
  · exact (record_goes rfl (.oppose p keys now h hk ht)).ensures fun _ _ _ => trivial
  · refine disarm_quiet fun _ => ?_
    rcases hr with hr | hr | hr
    · exact .inl hr
    · exact .inr (.inl hr)
    · exact .inr (.inr (.inl hr))
  · have idle : w.session.keys = ∅ := by
      by_contra hn
      exact hr (.inl hn)
    refine .bind (session_goes (.clear idle)) fun _ w1 h1 => ?_
    subst h1
    exact requestHybridPush_goes
  · exact (record_goes rfl (.hold p keys now h ht)).ensures fun _ _ _ => trivial

theorem keysPacket_goes [Faults E] (p : Packet) :
    (keysPacket env control p).Goes G (fun _ _ => True) E w := by
  refine .get_bind ?_
  refine .bind (F := fun request w1 => w1 = w ∧ p.keyRequest w.session.lastKeySequence = some request)
    (.need (fun _ h => ⟨rfl, h⟩) fun _ => Faults.fault _ _) fun request w1 h1 => ?_
  obtain ⟨rfl, carried⟩ := h1
  obtain ⟨sequence, keys⟩ := request
  refine .bind (keep_goes rfl) fun _ w2 h2 => ?_
  subst h2
  refine .when (fun h => ?_) fun _ => trivial
  obtain ⟨closed, closing, state, allowed, generation⟩ := h
  have unclosed : w1.session.closed = false := by simpa using closed
  have running : w1.session.closing = false := by simpa using closing
  have live : w1.session.state ≠ .fault := by rcases state with hs | hs | hs <;> simp [hs]
  refine .bind raiseIf_does fun _ w3 h3 => ?_
  refine .bind clock_steady fun now w4 h4 => ?_
  have steady := h3.trans h4
  refine .ite (fun hh => ?_) fun hh => ?_
  · refine .bind (F := fun _ w5 => w5 = w4) (.need (fun _ _ => rfl) fun _ => Faults.fault _ _)
      fun foreground w5 h5 => ?_
    subst h5
    refine .ite (fun _ => ?_) fun _ => ?_
    · refine .bind (record_goes rfl (.attend keys now allowed)) fun _ w6 h6 => ?_
      subst h6
      refine intend_goes ?_
      have accepted : Accepted control p keys (attended keys now w5.session) := by
        rw [attended_eq, steady.session]
        exact ⟨allowed, live, unclosed, running, generation,
          ⟨_, _, carried⟩, fun hk => by simp [hk], fun hk _ => by simp [hk]⟩
      exact accepted
    · exact .when (fun _ => disarm_quiet fun hr => absurd hr (by decide)) fun _ => trivial
  · refine .when (fun hp => ?_) fun _ => trivial
    refine intend_goes ?_
    have passive : w1.session.pushModeRequested = false := by simpa using hp.2
    rw [steady.session]
    exact ⟨allowed, live, unclosed, running, generation, ⟨_, _, carried⟩, fun _ => passive,
      fun _ hb => absurd hb hh⟩

theorem command_goes [Faults E] (p : Packet) :
    (command env control p).Goes G (fun _ _ => True) E w := by
  refine .bind raiseIf_does fun _ w1 h1 => ?_
  cases p.kind with
  | disarm | close => exact disarm_quiet fun h => absurd h (by decide)
  | arm => exact .when (fun _ => (keep_goes rfl).ensures fun _ _ _ => trivial) fun _ => trivial
  | pushMode => exact pushMode_goes p
  | keys => exact keysPacket_goes p
  | unknown => exact .raise (Faults.fault _ _)

theorem rejected_goes (message : String) :
    (rejected env control message).Goes G (fun _ _ => True) E w := by
  refine .bind (disarm_quiet fun h => ?_) fun _ w1 h1 => ?_
  · have first := congrArg (fun s : String => s.toList.head?) h
    simp at first
  · exact disconnected_goes

theorem serve_goes [Faults E] (e : SocketEvent) :
    (serve env control e).Goes G (fun _ _ => True) E w := by
  cases e with
  | connect => exact (session_goes .connect).ensures fun _ _ _ => trivial
  | drop => exact disconnected_goes
  | reject message => exact rejected_goes message
  | crash message => exact .raise (Faults.fault _ _)
  | packet p =>
    refine .handle (E := Broken) ?_ fun e w1 _ => ?_
    · exact .bind (command_goes p) fun _ _ _ => .when (fun _ => disconnected_goes) fun _ => trivial
    · split
      · exact .raise (Faults.fault _ _)
      · exact rejected_goes _

theorem serveAll_goes [Faults E] (events : List SocketEvent) :
    (serveAll env control events).Goes G (fun _ _ => True) E w := by
  induction events generalizing w with
  | nil => exact .pure trivial
  | cons e rest ih => exact .bind (serve_goes e) fun _ _ _ => ih

theorem pump_goes [Faults E] :
    (pump env control).Goes G (fun _ w' => ∃ before, w'.trace = .pumped :: before) E w := by
  refine .bind (watch_steady rfl) fun events w1 _ => ?_
  refine .bind (serveAll_goes events) fun _ w2 _ => ?_
  exact (note_goes rfl).ensures fun _ w3 h3 => ⟨w2.trace, by rw [h3]; rfl⟩

end

end Smartwheel.Wheel

import Smartwheel.Wheel.WriteGuard

/-! The servo is released only for a request to push that is still current, after three zero readings
that followed the stop, and never after a disarm that no held key has answered. -/
namespace Smartwheel.Wheel
open Modbus Effect Serial

variable {control : Control} {w w' : World}

namespace Event

def isDeadline : Event → Bool
  | .deadlineSet _ => true
  | _ => false

def isHeld : Event → Bool
  | .attended holding => holding
  | _ => false

/-- What requests a push in the generation `g`: a `push_mode` packet, idle keys, or keys that were
released normally. -/
def requestsPush (g : Nat) : Event → Bool
  | .pushPacket true g' | .pushRequested g' | .disarmed _ true g' _ => g' = g
  | _ => false

def gentle : Event → Bool
  | .disarmed reason normal _ faulted => reason = "ALL_KEYS_RELEASED" ∧ normal = true ∧ faulted = false
  | _ => true

theorem isDeadline_of_quiet {e : Event} (h : e.quiet = true) : e.isDeadline = false := by
  cases e <;> first | rfl | cases h

theorem isHeld_of_quiet {e : Event} (h : e.quiet = true) : e.isHeld = false := by
  cases e <;> first | rfl | cases h

theorem gentle_of_quiet {e : Event} (h : e.quiet = true) : e.gentle = true := by
  cases e <;> first | rfl | cases h

end Event

def readings (h : History) : List (ℚ × List Word) :=
  h.filterMap fun e => match e with
    | .sampled now words => some (now, words)
    | _ => none

theorem readings_append (l h : History) : readings (l ++ h) = readings l ++ readings h := by
  simp [readings]

variable {l : History}

theorem readings_plain (hl : ∀ e ∈ l, e.isSampled = false) : readings l = [] := by
  simp only [readings, List.filterMap_eq_nil_iff]
  intro e he
  have hp := hl e he
  cases e <;> first | rfl | cases hp

def Requested (s : Session) (h : History) : Prop :=
  s.pushModeRequested = true → ∃ e ∈ h, e.requestsPush s.armGeneration = true

theorem Requested.grow {s s' : Session} {h : History} (hr : Requested s h)
    (hp : s'.pushModeRequested = true → s.pushModeRequested = true)
    (hg : s'.armGeneration = s.armGeneration) : Requested s' (l ++ h) := by
  intro requested
  obtain ⟨e, he, hq⟩ := hr (hp requested)
  exact ⟨e, List.mem_append_right l he, by rw [hg]; exact hq⟩

theorem requested_step (h : Move control w w') (hr : Requested w.session w.trace) :
    Requested w'.session w'.trace := by
  cases h with
  | observe hs =>
    obtain ⟨es, ht, -⟩ := hs.trace
    rw [hs.session, ht]
    exact hr.grow id rfl
  | keep f hf =>
    have same := alike hf
    exact hr.grow (l := []) (fun h => same.pushModeRequested.symm.trans h) same.armGeneration
  | disarm reason normal =>
    intro requested
    simp only [World.log_session, World.onSession_session, disarmed_eq, Bool.and_eq_true] at requested
    refine ⟨_, List.mem_cons_self, ?_⟩
    simp [Event.requestsPush, requested.2]
  | attend keys now => exact hr.grow (l := [_]) (by simp) (by simp)
  | push enabled ha hi =>
    intro requested
    obtain rfl : enabled = true := by simpa using requested
    exact ⟨_, List.mem_cons_self, by simp [Event.requestsPush]⟩
  | wait ha hi => exact fun _ => ⟨_, List.mem_cons_self, by simp [Event.requestsPush]⟩
  | sample now words => exact hr.grow (l := [_]) (by simp) (by simp)
  | release => exact hr.grow (l := []) (by simp) (by simp)
  | clear | drop | connect | leave | book | rest | start | initialized | attempt | fault | closing | close =>
    exact hr.grow (l := []) id rfl
  | _ => exact hr.grow (l := [_]) id rfl

def Sampled (s : Session) (h : History) : Prop := s.samples = (readings h).take 3

theorem Sampled.grow {s s' : Session} {h : History} (hs : Sampled s h) (he : s'.samples = s.samples)
    (hl : ∀ e ∈ l, e.isSampled = false) : Sampled s' (l ++ h) := by
  rw [Sampled, he, readings_append, readings_plain hl, List.nil_append]
  exact hs

theorem sampled_step (h : Move control w w') (hs : Sampled w.session w.trace) :
    Sampled w'.session w'.trace := by
  cases h with
  | observe hst =>
    obtain ⟨es, ht, hes⟩ := hst.trace
    rw [hst.session, ht]
    exact hs.grow rfl fun e he => Event.isSampled_of_quiet (hes e he)
  | keep f hf => exact hs.grow (l := []) (alike hf).samples (by simp)
  | sample now words =>
    change (sampled now words w.session).samples = ((now, words) :: readings w.trace).take 3
    have before : w.session.samples = (readings w.trace).take 3 := hs
    simp [before, List.take_take]
  | disarm | attend | push | wait => exact hs.grow (l := [_]) (by simp) (by simp [Event.isSampled])
  | release => exact hs.grow (l := []) (by simp) (by simp)
  | clear | drop | connect | leave | book | rest | start | initialized | attempt | fault | closing | close =>
    exact hs.grow (l := []) rfl (by simp)
  | _ => exact hs.grow (l := [_]) rfl (by simp [Event.isSampled])

def Moving (w : World) : Prop :=
  w.channel.motionMayExist = true ∨ w.session.state = .initializing ∨ w.session.state = .armed

/-- A deadline that is set has its event, with at least the counted readings after it; motion and the
motion states only know deadlines that an acknowledged zero has set. -/
def Window (w : World) : Prop :=
  w.session.stopDeadline ≠ none → ∃ cause before,
    Latest Event.isDeadline (.deadlineSet cause) before w.trace ∧
    w.session.stopZeroSamples ≤ (readings (since Event.isDeadline w.trace)).length ∧
    (cause = true → zeroAcked before = true) ∧ (Moving w → cause = true)

theorem Window.grow (hw : Window w) (hd : w'.session.stopDeadline ≠ none → w.session.stopDeadline ≠ none)
    (hz : w'.session.stopZeroSamples ≤ w.session.stopZeroSamples + (readings l).length)
    (hm : Moving w' → Moving w) (ht : w'.trace = l ++ w.trace)
    (hl : ∀ e ∈ l, e.isDeadline = false) : Window w' := by
  intro set
  obtain ⟨cause, before, latest, counted, acked, moved⟩ := hw (hd set)
  refine ⟨cause, before, ?_, ?_, acked, moved ∘ hm⟩
  · rw [ht]
    exact latest.append hl
  · rw [ht, since_append _ hl, readings_append, List.length_append]
    omega

variable {purpose : Purpose}

theorem moving_of_guarded {request : Bytes} (hg : Guarded control purpose request w)
    (hm : moves request = true) : (w.session.state = .initializing ∨ w.session.state = .armed) ∧
      control.target w.session.keys ≠ (0, 0) := by
  cases purpose with
  | query =>
    obtain rfl : request = query := hg
    exact absurd hm (by decide +kernel)
  | initialization =>
    obtain ⟨-, state, recent, -, intended⟩ := hg
    exact ⟨.inl state, intended.target⟩
  | velocity target =>
    obtain ⟨-, state, -, recent, -, intended⟩ := hg
    exact ⟨.inr state, intended.target⟩
  | stop =>
    obtain rfl : request = zeroRequest := hg.1
    exact absurd hm (by decide +kernel)
  | release =>
    obtain rfl : request = releaseRequest := hg.1
    exact absurd hm (by decide +kernel)
  | recovery => exact hg.elim

theorem window_step (h : Move control w w') (hw : Window w) : Window w' := by
  cases h with
  | observe hs =>
    obtain ⟨es, ht, hes⟩ := hs.trace
    exact hw.grow (by rw [hs.session]; exact id) (by rw [hs.session]; omega)
      (by rw [Moving, hs.session, hs.channel]; exact id) ht fun e he => Event.isDeadline_of_quiet (hes e he)
  | keep f hf =>
    have same := alike hf
    refine hw.grow (l := []) ?_ ?_ ?_ rfl (by simp)
    · exact fun set none => set (same.stopDeadline.trans none)
    · exact same.stopZeroSamples.le
    · rintro (hm | hm | hm)
      · exact .inl hm
      · exact .inr (.inl (same.state.symm.trans hm))
      · exact .inr (.inr (same.state.symm.trans hm))
  | disarm reason normal =>
    have idle := @idle_disarmed control reason normal w.channel.motionMayExist w.session
    refine hw.grow (l := [_]) ?_ (by simp) ?_ rfl (by simp [Event.isDeadline])
    · simp
    · rintro (hm | hm | hm)
      · exact .inl hm
      · exact absurd hm idle.initializing
      · exact absurd hm idle.armed
  | attend keys now =>
    refine hw.grow (l := [_]) (by simp) ?_ (by simp [Moving]) rfl (by simp [Event.isDeadline])
    by_cases hk : keys = ∅ <;> simp [hk]
  | oppose p keys now h =>
    refine hw.grow (l := [_]) id (Nat.le_add_right _ _) ?_ rfl (by simp [Event.isDeadline])
    rintro (hm | hm | hm)
    · exact .inl hm
    · cases hm
    · cases hm
  | push | wait => exact hw.grow (l := [_]) (by simp) (by simp) (by simp [Moving]) rfl (by simp [Event.isDeadline])
  | sample now words =>
    refine hw.grow (l := [_]) (by simp) ?_ (by simp [Moving]) rfl (by simp [Event.isDeadline])
    have one : (readings [Event.sampled now words]).length = 1 := rfl
    rw [one, World.log_session, World.onSession_session, sampled_eq]
    dsimp only
    split
    · split <;> omega
    · omega
  | watch now hm hz hi =>
    intro _
    refine ⟨false, w.trace, .now _ _ _, ?_, nofun, ?_⟩
    · exact hz.le.trans (Nat.zero_le _)
    · rintro (moving | moving | moving)
      · exact absurd (hm.symm.trans moving) Bool.false_ne_true
      · exact absurd moving hi.initializing
      · exact absurd moving hi.armed
  | zeroed now hz => exact fun _ => ⟨true, w.trace, .now _ _ _, Nat.zero_le _, fun _ => hz, fun _ => rfl⟩
  | release => exact fun set => absurd (by simp) set
  | start => exact fun set => absurd rfl set
  | initialized hs => exact hw.grow (l := []) id le_rfl (fun _ => .inr (.inl hs)) rfl (by simp)
  | book f hf hm =>
    refine hw.grow (l := []) id le_rfl ?_ rfl (by simp)
    exact Or.imp_left fun moving => hm.symm.trans moving
  | rest f hf hm =>
    refine hw.grow (l := []) id le_rfl ?_ rfl (by simp)
    exact Or.imp_left fun moving => absurd (hm.symm.trans moving) Bool.false_ne_true
  | attempt purpose request hg =>
    refine hw.grow (l := []) id le_rfl ?_ rfl (by simp)
    rintro (moving | moving)
    · rcases Bool.or_eq_true_iff.mp moving with moving | moving
      · exact .inl moving
      · exact .inr (moving_of_guarded hg moving).1
    · exact .inr moving
  | fault reason =>
    refine hw.grow (l := []) id le_rfl ?_ rfl (by simp)
    rintro (moving | moving | moving)
    · exact .inl moving
    · cases moving
    · cases moving
  | connect | leave | clear | drop | closing | close => exact hw.grow (l := []) id le_rfl id rfl (by simp)
  | _ => exact hw.grow (l := [_]) id (Nat.le_add_right _ _) id rfl (by simp [Event.isDeadline])

def Halted (w : World) : Prop :=
  w.session.pushModeRequested = true → w.channel.motionMayExist = true → w.session.stopDeadline ≠ none →
    ∀ e ∈ since Event.isDeadline w.trace, e.isMoving = false

theorem Halted.grow (hh : Halted w) (hp : w'.session.pushModeRequested = true → w.session.pushModeRequested = true)
    (hm : w'.channel.motionMayExist = true → w.channel.motionMayExist = true)
    (hd : w'.session.stopDeadline ≠ none → w.session.stopDeadline ≠ none) (ht : w'.trace = l ++ w.trace)
    (hl : ∀ e ∈ l, e.isDeadline = false ∧ e.isMoving = false) : Halted w' := by
  intro requested motion set e he
  rw [ht, since_append _ fun e he => (hl e he).1] at he
  rcases List.mem_append.mp he with he | he
  · exact (hl e he).2
  · exact hh (hp requested) (hm motion) (hd set) e he

theorem still_of_guarded {request : Bytes} (hg : Guarded control purpose request w)
    (hp : Passive w.session) (requested : w.session.pushModeRequested = true) : moves request = false := by
  have idle := hp requested
  cases hm : moves request with
  | false => rfl
  | true =>
    rcases (moving_of_guarded hg hm).1 with hs | hs
    · exact absurd hs idle.initializing
    · exact absurd hs idle.armed

theorem halted_step (h : Move control w w') (hp : Passive w.session) (hh : Halted w) : Halted w' := by
  cases h with
  | observe hs =>
    obtain ⟨es, ht, hes⟩ := hs.trace
    refine hh.grow ?_ ?_ ?_ ht fun e he =>
      ⟨Event.isDeadline_of_quiet (hes e he), Event.isMoving_of_quiet (hes e he)⟩
    · rw [hs.session]; exact id
    · rw [hs.channel]; exact id
    · rw [hs.session]; exact id
  | keep f hf =>
    have same := alike hf
    refine hh.grow (l := []) ?_ id ?_ rfl (by simp)
    · exact fun requested => same.pushModeRequested.symm.trans requested
    · exact fun set none => set (same.stopDeadline.trans none)
  | disarm reason normal =>
    intro requested _ set
    simp only [World.log_session, World.onSession_session, disarmed_eq] at requested set
    simp [requested] at set
  | attend keys now => exact hh.grow (l := [_]) (by simp) id (by simp) rfl (by simp [Event.isDeadline, Event.isMoving])
  | push enabled =>
    intro requested _ set
    obtain rfl : enabled = true := by simpa using requested
    exact absurd (by simp) set
  | wait =>
    intro _ motion set
    have motion : w.channel.motionMayExist = true := motion
    exact absurd (by simp [motion]) set
  | watch now hm => exact fun _ motion => absurd (hm.symm.trans motion) Bool.false_ne_true
  | sample now words => exact hh.grow (l := [_]) (by simp) id (by simp) rfl (by simp [Event.isDeadline, Event.isMoving])
  | zeroed now hz =>
    intro _ _ _ e he
    cases he
  | release => exact fun _ _ set => absurd (by simp) set
  | start => exact fun _ _ set => absurd rfl set
  | book f hf hm => exact hh.grow (l := []) id (fun motion => hm.symm.trans motion) id rfl (by simp)
  | rest f hf hm => exact fun _ motion => absurd (hm.symm.trans motion) Bool.false_ne_true
  | attempt purpose request hg =>
    intro requested motion set
    have still := still_of_guarded hg hp requested
    refine hh requested ?_ set
    simpa [attempted, still] using motion
  | write purpose request hf hg =>
    intro requested motion set e he
    rw [World.log_trace, since_cons_plain _ rfl] at he
    rcases List.mem_cons.mp he with rfl | he
    · exact still_of_guarded hg hp requested
    · exact hh requested motion set e he
  | recover => exact hh.grow (l := [_]) id id id rfl (by simp [Event.isDeadline, Event.isMoving]; decide +kernel)
  | connect | leave | clear | drop | initialized | fault | closing | close =>
    exact hh.grow (l := []) id id id rfl (by simp)
  | _ => exact hh.grow (l := [_]) id id id rfl (by simp [Event.isDeadline, Event.isMoving])

/-- In `hybrid_manual`, a disarm that was no normal release inhibits releases until keys are held. -/
def Inhibited (s : Session) (h : History) : Prop :=
  (∀ e ∈ since Event.isHeld h, e.gentle = true) ∨ s.hybridReleaseInhibited = true ∨ s.state = .fault

theorem Inhibited.grow {s s' : Session} {h : History} (hi : Inhibited s h)
    (hs : s'.hybridReleaseInhibited = s.hybridReleaseInhibited) (hf : s.state = .fault → s'.state = .fault)
    (hl : ∀ e ∈ l, e.isHeld = false ∧ e.gentle = true) : Inhibited s' (l ++ h) := by
  rcases hi with hi | hi | hi
  · refine .inl fun e he => ?_
    rw [since_append _ fun e he => (hl e he).1] at he
    rcases List.mem_append.mp he with he | he
    · exact (hl e he).2
    · exact hi e he
  · exact .inr (.inl (hs.trans hi))
  · exact .inr (.inr (hf hi))

theorem inhibited_step (hybrid : control.hybridManual = true) (h : Move control w w')
    (hs : Shape control w.session) (hi : Inhibited w.session w.trace) : Inhibited w'.session w'.trace := by
  cases h with
  | observe hst =>
    obtain ⟨es, ht, hes⟩ := hst.trace
    rw [hst.session, ht]
    exact hi.grow rfl id fun e he => ⟨Event.isHeld_of_quiet (hes e he), Event.gentle_of_quiet (hes e he)⟩
  | keep f hf =>
    have same := alike hf
    exact hi.grow (l := []) same.hybridReleaseInhibited same.state.trans (by simp)
  | disarm reason normal hn =>
    by_cases hf : w.session.state = .fault
    · exact .inr (.inr (by simp [hf]))
    · cases normal with
      | false => exact .inr (.inl (by simp [hybrid]))
      | true =>
        obtain ⟨hreason, -, -, released⟩ := hn rfl
        have gentle : ∀ e ∈ since Event.isHeld w.trace, e.gentle = true := by
          rcases hi with hi | hi | hi
          · exact hi
          · -- keys or a motion state are held here, and they exclude the inhibition
            have failing : w.session.failure = none := by
              by_contra failed
              exact hf (hs.failing failed)
            have free : w.session.hybridReleaseInhibited = false := by
              refine hs.free hybrid ?_
              rcases released with h | h | h | h | h
              · exact .inl h
              · exact .inr (.inl h)
              · exact .inr (.inr h)
              · exact absurd h hf
              · rw [failing] at h; cases h
            exact absurd (free.symm.trans hi) Bool.false_ne_true
          · exact absurd hi hf
        refine .inl fun e he => ?_
        rw [World.log_trace, since_cons_plain _ rfl] at he
        rcases List.mem_cons.mp he with rfl | he
        · simp [Event.gentle, hreason, hf]
        · exact gentle e he
  | attend keys now =>
    by_cases hk : keys = ∅
    · exact hi.grow (l := [_]) (by simp [hk]) (by simp) (by simp [Event.isHeld, Event.gentle, hk])
    · refine .inl fun e he => ?_
      rw [World.log_trace, since_cons_mark _ (by simp [Event.isHeld, hk])] at he
      cases he
  | oppose p keys now h =>
    refine hi.grow (l := [_]) rfl (fun hf => absurd hf h.state) (by simp [Event.isHeld, Event.gentle])
  | push | wait | sample => exact hi.grow (l := [_]) (by simp) (by simp) (by simp [Event.isHeld, Event.gentle])
  | release => exact hi.grow (l := []) (by simp) (by simp) (by simp)
  | start now hr => exact hi.grow (l := []) rfl (fun hf => by rw [hf] at hr; cases hr) (by simp)
  | initialized hr => exact hi.grow (l := []) rfl (fun hf => by rw [hf] at hr; cases hr) (by simp)
  | fault reason => exact .inr (.inr rfl)
  | connect | leave | clear | book | rest | drop | attempt | closing | close =>
    exact hi.grow (l := []) rfl id (by simp)
  | _ => exact hi.grow (l := [_]) rfl id (by simp [Event.isHeld, Event.gentle])

structure ReleaseGuard (control : Control) (seen : Machine) (earlier : History) : Prop where
  allowed : control.armAllowed = true
  connected : seen.session.peerConnected = true
  target : control.target seen.session.keys = (0, 0)
  requested : seen.session.pushModeRequested = true
  asked : ∃ e ∈ earlier, e.requestsPush seen.session.armGeneration = true
  deadline : seen.session.stopDeadline ≠ none ∧ ∃ cause before,
    Latest Event.isDeadline (.deadlineSet cause) before earlier ∧
    (seen.channel.motionMayExist = true → cause = true ∧ zeroAcked before = true)
  halted : seen.channel.motionMayExist = true → zeroAcked earlier = true
  counted : 3 ≤ (readings (since Event.isDeadline earlier)).length
  stationary : ∃ recent, Pumped recent earlier ∧
    Stationary ((readings (since Event.isDeadline earlier)).take 3) recent
  normal : control.hybridManual = true → ∀ e ∈ since Event.isHeld earlier, e.gentle = true

structure Poised (control : Control) (w : World) : Prop where
  shape : Shape control w.session
  requested : Requested w.session w.trace
  sampled : Sampled w.session w.trace
  window : Window w
  halted : Halted w
  inhibited : control.hybridManual = true → Inhibited w.session w.trace

theorem poised_step (h : Move control w w') (hp : Poised control w) : Poised control w' where
  shape := shape_step h hp.shape
  requested := requested_step h hp.requested
  sampled := sampled_step h hp.sampled
  window := window_step h hp.window
  halted := halted_step h hp.shape.passive hp.halted
  inhibited hybrid := inhibited_step hybrid h hp.shape (hp.inhibited hybrid)

theorem initial_poised (control : Control) : Poised control (initial control) where
  shape := initial_shape control
  requested h := by cases h
  sampled := rfl
  window set := absurd rfl set
  halted h := by cases h
  inhibited _ := .inl fun e he => by cases he

theorem Releasable.guard {recent : History} (hr : Releasable control w.session recent)
    (hw : Pumped recent w.trace) (hp : Poised control w) : ReleaseGuard control w.machine w.trace := by
  obtain ⟨cause, before, latest, counted, acked, moved⟩ := hp.window hr.deadline
  have enough : 3 ≤ (readings (since Event.isDeadline w.trace)).length := hr.counted.trans counted
  have newest : (readings (since Event.isDeadline w.trace)).take 3 = w.session.samples := by
    have sampled : w.session.samples = (readings w.trace).take 3 := hp.sampled
    have split := congrArg readings (latest.eq_since rfl)
    rw [readings_append] at split
    rw [sampled, split, List.take_append_of_le_length enough]
  have zero : w.channel.motionMayExist = true → cause = true ∧ zeroAcked before = true :=
    fun motion => ⟨moved (.inl motion), acked (moved (.inl motion))⟩
  refine ⟨hr.allowed, hr.connected, hr.target, hr.requested, hp.requested hr.requested,
    ⟨hr.deadline, cause, before, latest, zero⟩, ?_, enough, ⟨recent, hw, newest ▸ hr.stationary⟩, ?_⟩
  · intro motion
    have still := hp.halted hr.requested motion hr.deadline
    have onward : zeroAcked (.deadlineSet cause :: before) = true := (zero motion).2
    rw [latest.eq_since rfl]
    exact zeroAcked_append still onward
  · intro hybrid
    rcases hp.inhibited hybrid with gentle | inhibited | fault
    · exact gentle
    · exact absurd ((hr.free hybrid).1.symm.trans inhibited) Bool.false_ne_true
    · exact absurd fault hr.state

theorem releasable_of_guarded (hg : Guarded control purpose releaseRequest w) :
    ∃ recent, Pumped recent w.trace ∧ Releasable control w.session recent := by
  cases purpose with
  | query =>
    have no : releaseRequest = query := hg
    exact absurd no (by decide +kernel)
  | initialization => exact absurd hg.1 (by decide +kernel)
  | velocity target =>
    have code := code_of_velocity hg.1
    exact absurd code (by decide +kernel)
  | stop =>
    have no : releaseRequest = zeroRequest := hg.1
    exact absurd no (by decide +kernel)
  | release => exact hg.2
  | recovery => exact hg.elim

def GuardedRelease (control : Control) : Event → History → Prop
  | .write _ request seen, earlier => request = releaseRequest → ReleaseGuard control seen earlier
  | _, _ => True

theorem guardedRelease_step (h : Move control w w') (hp : Poised control w)
    (ha : Always (GuardedRelease control) w.trace) : Always (GuardedRelease control) w'.trace := by
  cases h with
  | observe hs =>
    obtain ⟨es, ht, hes⟩ := hs.trace
    rw [ht]
    refine ha.append fun e he _ => ?_
    have hq := hes e he
    cases e <;> trivial
  | write purpose request hf hg =>
    refine ⟨?_, ha⟩
    rintro rfl
    obtain ⟨recent, pumped, releasable⟩ := releasable_of_guarded hg
    exact releasable.guard pumped hp
  | recover => exact ⟨fun no => absurd no (by decide +kernel), ha⟩
  | keep | book | connect | leave | clear | release | rest | start | initialized | drop | attempt | fault
  | closing | close => exact ha
  | _ => exact ⟨trivial, ha⟩

/-- The servo is released only with the socket connected, arming allowed, a zero target and a push request of this
generation, after three fresh zero readings that followed the deadline of the stop (and, while the chair may move, an
acknowledged zero that is the last word); in `hybrid_manual` every disarm since keys were last held was a normal
release. -/
theorem release_guarded (env : Env) (control : Control) (ops : List Operation) {purpose : Purpose}
    {seen : Machine} {later earlier : History}
    (h : (run env control ops (initial control)).2.trace =
      later ++ .write purpose releaseRequest seen :: earlier) : ReleaseGuard control seen earlier := by
  have kept : Poised control (run env control ops (initial control)).2 ∧
      Always (GuardedRelease control) (run env control ops (initial control)).2.trace :=
    (run_path env control ops).keeps (P := fun w => Poised control w ∧ Always (GuardedRelease control) w.trace)
      (fun _ _ step ⟨hp, ha⟩ => ⟨poised_step step hp, guardedRelease_step step hp ha⟩)
      ⟨initial_poised control, trivial⟩
  exact kept.2.split h rfl

def Event.isRelease : Event → Bool
  | .write _ request seen => request = releaseRequest ∧ seen.channel.motionMayExist = true
  | _ => false

/-- On the bench keys that are let go do release the servo. -/
theorem bench_release_guarded :
    let control := Bench.control true .hybridManual
    ∃ purpose seen later earlier,
      (run (Bench.environment Bench.lettingGo) control (Bench.cycles 16) (initial control)).2.trace =
        later ++ .write purpose releaseRequest seen :: earlier ∧
      seen.channel.motionMayExist = true ∧ ReleaseGuard control seen earlier := by
  intro control
  have written : (run (Bench.environment Bench.lettingGo) control (Bench.cycles 16)
      (initial control)).2.trace.any Event.isRelease = true := by decide +kernel
  obtain ⟨e, hm, he⟩ := List.any_eq_true.mp written
  obtain ⟨later, earlier, split⟩ := List.append_of_mem hm
  cases e with
  | write purpose request seen =>
    have he : request = releaseRequest ∧ seen.channel.motionMayExist = true := by
      simpa [Event.isRelease] using he
    obtain ⟨rfl, moving⟩ := he
    exact ⟨purpose, seen, later, earlier, split, moving,
      release_guarded (Bench.environment Bench.lettingGo) control (Bench.cycles 16) split⟩
  | _ => cases he

end Smartwheel.Wheel

import Smartwheel.Wheel.StepSpec

/-! Invariants of the session alone: what goes together in every state that is reached. -/
namespace Smartwheel.Wheel
open Serial

variable {control : Control} {w w' : World}

def Passive (s : Session) : Prop := s.pushModeRequested = true → Idle s

def Free (control : Control) (s : Session) : Prop :=
  control.hybridManual = true → s.keys ≠ ∅ ∨ s.state = .initializing ∨ s.state = .armed →
    s.hybridReleaseInhibited = false

/-- A failure is only recorded in `FAULT`. -/
def Failing (s : Session) : Prop := s.failure ≠ none → s.state = .fault

def Closed (s : Session) : Prop := s.closed = true → Idle s

theorem keys_of_target {keys : Finset Key} (h : control.target keys ≠ (0, 0)) : keys ≠ ∅ := by
  rintro rfl
  exact h (target_empty control)

theorem Idle.congr {s s' : Session} (h : Idle s) (hk : s'.keys = s.keys) (hs : s'.state = s.state) :
    Idle s' := by
  refine ⟨hk.trans h.keys, ?_, ?_⟩ <;> rw [hs]
  · exact h.initializing
  · exact h.armed

structure Alike (s' s : Session) : Prop where
  state : s'.state = s.state
  failure : s'.failure = s.failure
  keys : s'.keys = s.keys
  armGeneration : s'.armGeneration = s.armGeneration
  lastKeys : s'.lastKeys = s.lastKeys
  lastFeedback : s'.lastFeedback = s.lastFeedback
  samples : s'.samples = s.samples
  stopRequested : s'.stopRequested = s.stopRequested
  stopDeadline : s'.stopDeadline = s.stopDeadline
  stopZeroSamples : s'.stopZeroSamples = s.stopZeroSamples
  pushModeRequested : s'.pushModeRequested = s.pushModeRequested
  foreground : s'.foreground = s.foreground
  hybridReleaseInhibited : s'.hybridReleaseInhibited = s.hybridReleaseInhibited
  closed : s'.closed = s.closed

theorem alike {s s' : Session} (h : s'.core = s.core) : Alike s' s where
  state := (congrArg Session.state h :)
  failure := (congrArg Session.failure h :)
  keys := (congrArg Session.keys h :)
  armGeneration := (congrArg Session.armGeneration h :)
  lastKeys := (congrArg Session.lastKeys h :)
  lastFeedback := (congrArg Session.lastFeedback h :)
  samples := (congrArg Session.samples h :)
  stopRequested := (congrArg Session.stopRequested h :)
  stopDeadline := (congrArg Session.stopDeadline h :)
  stopZeroSamples := (congrArg Session.stopZeroSamples h :)
  pushModeRequested := (congrArg Session.pushModeRequested h :)
  foreground := (congrArg Session.foreground h :)
  hybridReleaseInhibited := (congrArg Session.hybridReleaseInhibited h :)
  closed := (congrArg Session.closed h :)

theorem passive_step (h : Move control w w') (hp : Passive w.session) : Passive w'.session := by
  intro requested
  cases h with
  | observe hs =>
    rw [hs.session] at requested ⊢
    exact hp requested
  | keep f hf => 
    have same := alike hf
    exact (hp (same.pushModeRequested.symm.trans requested)).congr same.keys same.state
  | disarm reason normal => exact idle_disarmed _ _ _ _
  | attend keys now =>
    have hi : Idle w.session := by
      simp at requested
      exact hp requested.2
    exact hi.congr (by simp) (by simp)
  | hold p keys now h ht =>
    exact absurd ((h.quietly (keys_of_target ht)).symm.trans requested) Bool.false_ne_true
  | oppose p keys now h hk => exact absurd ((h.quietly hk).symm.trans requested) Bool.false_ne_true
  | push enabled ha hi => exact hi.congr (by simp) (by simp)
  | wait ha hi => exact hi.congr (by simp) (by simp)
  | sample now words =>
    have hi : Idle w.session := hp (by simpa using requested)
    exact hi.congr (by simp) (by simp)
  | release => simp at requested
  | start now hs ht => exact absurd (hp requested).keys (keys_of_target ht)
  | initialized hs => exact absurd hs (hp requested).initializing
  | fault reason => exact ⟨(hp requested).1, nofun, nofun⟩
  | clear | drop => exact ⟨rfl, (hp requested).2, (hp requested).3⟩
  | connect | leave | watch | takeStop | zeroed | closing | close => exact (hp requested).congr rfl rfl
  | _ => exact hp requested

theorem free_step (h : Move control w w') (hf : Free control w.session) : Free control w'.session := by
  intro hybrid held
  have unheld : Idle w'.session → w'.session.hybridReleaseInhibited = false := by
    intro hi
    rcases held with h | h | h
    · exact absurd hi.keys h
    · exact absurd h hi.initializing
    · exact absurd h hi.armed
  cases h with
  | observe hs =>
    rw [hs.session] at held ⊢
    exact hf hybrid held
  | keep f hc =>
    have same := alike hc
    rw [World.onSession_session, same.keys, same.state] at held
    exact same.hybridReleaseInhibited.trans (hf hybrid held)
  | disarm reason normal => exact unheld (idle_disarmed _ _ _ _)
  | attend keys now =>
    have before := hf hybrid (by simpa using held)
    simp [before]
  | hold p keys now h ht => exact h.free (keys_of_target ht) hybrid
  | oppose p keys now h hk => exact h.free hk hybrid
  | push enabled ha hi => exact unheld (hi.congr (by simp) (by simp))
  | wait ha hi => exact unheld (hi.congr (by simp) (by simp))
  | sample now words =>
    have before := hf hybrid (by simpa using held)
    simpa using before
  | release =>
    have before := hf hybrid (by simpa using held)
    simpa using before
  | start now hs ht => exact hf hybrid (.inl (keys_of_target ht))
  | initialized hs => exact hf hybrid (.inr (.inl hs))
  | fault reason =>
    refine hf hybrid (held.imp id fun h => ?_)
    rcases h with h | h <;> cases h
  | clear hk | drop => exact hf hybrid (held.imp (fun h => absurd rfl h) id)
  | _ => exact hf hybrid held

theorem failing_step (h : Move control w w') (hf : Failing w.session) : Failing w'.session := by
  intro failed
  cases h with
  | observe hs =>
    rw [hs.session] at failed ⊢
    exact hf failed
  | keep f hc =>
    have same := alike hc
    exact same.state.trans (hf fun none => failed (same.failure.trans none))
  | disarm | attend | push | wait | sample | release =>
    have before := hf (by simpa using failed)
    simp [before]
  | oppose p keys now h => exact absurd (hf failed) h.state
  | start now hs => rw [hf failed] at hs; cases hs
  | initialized hs => rw [hf failed] at hs; cases hs
  | fault reason => rfl
  | _ => exact hf failed

theorem closed_step (h : Move control w w') (hc : Closed w.session) : Closed w'.session := by
  intro closed
  cases h with
  | observe hs =>
    rw [hs.session] at closed ⊢
    exact hc closed
  | keep f hf =>
    have same := alike hf
    exact (hc (same.closed.symm.trans closed)).congr same.keys same.state
  | disarm reason normal => exact idle_disarmed _ _ _ _
  | hold p keys now h | oppose p keys now h => exact absurd (h.closed.symm.trans closed) Bool.false_ne_true
  | attend | push | wait | sample | release =>
    have hi : Idle w.session := hc (by simpa using closed)
    exact hi.congr (by simp) (by simp)
  | start now hs ht => exact absurd (hc closed).keys (keys_of_target ht)
  | initialized hs => exact absurd hs (hc closed).initializing
  | fault reason => exact ⟨(hc closed).1, nofun, nofun⟩
  | clear | drop => exact ⟨rfl, (hc closed).2, (hc closed).3⟩
  | close hi => exact hi.congr rfl rfl
  | connect | leave | watch | takeStop | zeroed | closing => exact (hc closed).congr rfl rfl
  | _ => exact hc closed

structure Shape (control : Control) (s : Session) : Prop where
  passive : Passive s
  free : Free control s
  failing : Failing s
  closed : Closed s

theorem shape_step (h : Move control w w') (hs : Shape control w.session) : Shape control w'.session :=
  ⟨passive_step h hs.passive, free_step h hs.free, failing_step h hs.failing, closed_step h hs.closed⟩

theorem initial_shape (control : Control) : Shape control (initial control).session where
  passive h := by cases h
  free _ _ := rfl
  failing h := absurd rfl h
  closed h := by cases h

/-- After any calls: a push is requested and the wheel closed only while it is idle, a failure is in `FAULT`, and where
releases are inhibited no key is held. -/
theorem session_shaped (env : Env) (control : Control) (ops : List Operation) :
    Shape control (run env control ops (initial control)).2.session :=
  (run_path env control ops).keeps (P := fun w => Shape control w.session) (fun _ _ step => shape_step step) (initial_shape control)

end Smartwheel.Wheel

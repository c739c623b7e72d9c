import Smartwheel.Interactive.CoordinatorSpec

/-! The phases of `run`: what holds in each of them, kept by every event. -/
namespace Smartwheel.Interactive
open Effect Effect.Program

namespace Coordinator
variable {s : Coordinator} {a : Answers} {C honest : Prop}

theorem control_path {s' : Coordinator} (h : Path (moves C a).step s s') :
    Path (WindowControl.Moved C a.command a.token) s.control s'.control := by
  induction h with
  | refl => exact .refl
  | tail _ step ih =>
    rcases step with same | moved
    · rwa [same]
    · exact ih.tail moved

theorem operationDropped_goes (k : s.Sound honest)
    (done : ∀ f, s.future = some f → ∃ e, f.progress = .done (.error e)) (error : String) :
    Does C a (operationDropped error) (fun _ => Sound honest) (fun _ => Sound honest) s := by
  unfold operationDropped
  apply Goes.get_bind
  apply Goes.bind (F := fun _ s' => s'.Failed honest)
  · apply Goes.when
    · intro busy
      obtain ⟨⟨work, p⟩, future⟩ := Option.isSome_iff_exists.mp busy
      obtain ⟨e, rfl⟩ := done _ future
      apply (change_goes s rfl id).ensures
      rintro _ _ rfl
      have dropped := k.drop future s.operation (fun _ _ h => nomatch h) fun _ _ _ _ h => nomatch h
      exact ⟨dropped, fun _ _ _ => rfl⟩
    · intro idle
      exact ⟨k, fun _ _ _ => Option.not_isSome_iff_eq_none.mp idle⟩
  rintro _ s₁ k₁
  exact (operationFailed_goes k₁ error).weaken (fun _ _ h => h.1.sound) fun _ _ h => h.1

theorem finishOperation_goes (k : s.Sound honest) (closing : s.closing = true)
    (busy : ¬(s.future.isNone ∧ s.active = none)) :
    Does C a ((finishOperation a).handle operationDropped) (fun _ => Sound honest) (fun _ => Sound honest) s := by
  have shut {P : Prop} (opened : s.closing = false) : P := by
    rw [closing] at opened
    cases opened
  apply Goes.handle (E := fun _ s' => s'.Sound honest ∧ ∀ f, s'.future = some f → ∃ e, f.progress = .done (.error e))
  · unfold finishOperation
    apply Goes.get_bind
    split
    · rename_i idle
      have occupied : s.active ≠ none := fun h => busy ⟨Option.isNone_iff_eq_none.mpr idle, h⟩
      obtain ⟨h, active⟩ := Option.ne_none_iff_exists'.mp occupied
      have wanted : ({ s with desiredAfterStop := some .close } : Coordinator).Sound honest :=
        k.frame k.custody.behind rfl rfl id
      apply (beginStop_goes active .close).weaken
      · rintro _ _ rfl
        exact wanted.submitStop idle active
      · rintro _ _ rfl
        refine ⟨wanted, fun f hf => ?_⟩
        rw [show s.future = some f from hf] at idle
        cases idle
    · rename_i work e future
      refine .raise ⟨k, fun f hf => ?_⟩
      rw [future] at hf
      cases hf
      exact ⟨e, rfl⟩
    · rename_i work answer future
      -- Whatever a consumed operation raises, a closing window has nothing new in the slot.
      apply Goes.tighten
      apply (completeDone_goes k shut future).loosen.weaken
      · exact fun _ _ h => ⟨h.1, h.2.sound⟩
      · rintro e s' ⟨kept, failed, free⟩
        refine ⟨kept, failed.sound, fun f hf => ?_⟩
        rw [free (kept closing)] at hf
        cases hf
    · exact .pure k
  · rintro e s' ⟨k', done⟩
    exact operationDropped_goes k' done e

theorem collect_goes (k : s.Sound honest) (closing : s.closing = true) (idle : s.future = none)
    (inactive : s.active = none) (agreeing : C → s.Delivers → s.control.Agreeing) :
    Does C a (pollSave a) (fun _ s' => s'.Sound honest ∧ s'.future = none ∧ s'.active = none)
      (fun _ s' => (s'.Sound honest ∧ s'.future = none ∧ s'.active = none) ∧ s'.saver = none) s := by
  have shut {P : Prop} (opened : s.closing = false) : P := by
    rw [closing] at opened
    cases opened
  apply (pollSave_goes k shut agreeing).weaken
  · rintro _ s' ⟨kept, _⟩
    exact ⟨kept.sound, kept.future.trans idle, kept.active.trans inactive⟩
  · rintro _ s' ⟨kept, unsaved⟩
    exact ⟨⟨kept.sound, kept.future.trans idle, kept.active.trans inactive⟩, unsaved closing⟩

structure Settles (honest : Prop) (s : Coordinator) (result : RunResult) : Prop where
  sound : s.Sound honest
  idle : s.future = none
  confirmed : honest → ∀ r h, Call.started r h ∈ s.calls →
    Closed h s.calls ∨ h ∈ result.unconfirmedOwnedSessions
  kept : honest → ∀ r h, Call.started r h ∈ s.calls → h.mappingEnabled = true →
    (∃ save ∈ result.saves, save.sessionId = h.sessionId) ∨
      ∃ pending ∈ result.pendingSessions, pending.sessionId = h.sessionId

theorem putPending_mem {rows : List PendingSession} {row : PendingSession} {id : String}
    (h : row.sessionId = id ∨ ∃ r ∈ rows, r.sessionId = id) : ∃ r ∈ putPending rows row, r.sessionId = id := by
  unfold putPending
  split
  · rename_i known
    obtain ⟨old, ho, hs⟩ := List.any_eq_true.mp known
    have hs : old.sessionId = row.sessionId := by simpa using hs
    rcases h with same | ⟨r, hr, same⟩
    · exact ⟨row, List.mem_map.mpr ⟨old, ho, if_pos hs⟩, same⟩
    · by_cases hf : r.sessionId = row.sessionId
      · exact ⟨row, List.mem_map.mpr ⟨r, hr, if_pos hf⟩, hf.symm.trans same⟩
      · exact ⟨r, List.mem_map.mpr ⟨r, hr, if_neg hf⟩, same⟩
  · rcases h with same | ⟨r, hr, same⟩
    · exact ⟨row, List.mem_append_right _ (List.mem_singleton.mpr rfl), same⟩
    · exact ⟨r, List.mem_append_left _ hr, same⟩

theorem putPending_foldl {rows put : List PendingSession} {id : String}
    (h : (∃ row ∈ rows, row.sessionId = id) ∨ ∃ row ∈ put, row.sessionId = id) :
    ∃ row ∈ rows.foldl putPending put, row.sessionId = id := by
  induction rows generalizing put with
  | nil =>
    rcases h with ⟨row, hr, _⟩ | h
    · cases hr
    · exact h
  | cons first rows ih =>
    apply ih
    rcases h with ⟨row, hr, same⟩ | before
    · rcases List.mem_cons.mp hr with rfl | hr
      · exact .inr (putPending_mem (.inl same))
      · exact .inl ⟨row, hr, same⟩
    · exact .inr (putPending_mem (.inr before))

theorem pending_of_waiting {h : Handle} (waiting : s.pendingMap = some h) :
    ∃ pending ∈ s.pendingSessions, pending.sessionId = h.sessionId := by
  unfold pendingSessions
  apply putPending_foldl
  left
  refine ⟨⟨h.sessionId, h.directory, "SAVE_PENDING"⟩, List.mem_append_right _ ?_, rfl⟩
  rw [waiting]
  exact List.mem_singleton.mpr rfl

theorem conclude_goes (k : s.Sound honest) (idle : s.future = none) (inactive : s.active = none)
    (unsaved : s.saver = none) :
    Does C a conclude (fun v s' => s'.Settles honest v.1) (fun _ => Sound honest) s := by
  have framed {control : WindowControl} (behind : control.Behind) : ({ s with control } : Coordinator).Sound honest :=
    k.frame behind rfl rfl id
  unfold conclude
  apply Goes.get_bind
  apply Goes.bind (F := fun _ s' => ∃ control : WindowControl, control.Behind ∧ s' = { s with control })
  · apply (onControl_goes (WindowControl.bind_goes (E := fun _ _ => False) none)).weaken
    · rintro _ _ ⟨control, rfl, rfl⟩
      exact ⟨_, k.custody.behind.bound _, rfl⟩
    · rintro _ _ ⟨_, _, never⟩
      exact never.elim
  rintro _ _ ⟨control, behind, rfl⟩
  have keeps : Status.Keeps fun v => { v with
      state := if s.finalErrors ≠ [] then .failed else .closed
      canStart := false, canStop := false, message := s.finalResult.message, result := some s.finalResult } :=
    ⟨fun _ => rfl, fun _ => rfl, fun _ => rfl, fun _ => rfl, fun _ => rfl, fun _ => rfl, fun _ => rfl⟩
  apply Goes.bind (F := fun _ s' => ∃ control : WindowControl, control.Behind ∧ s' = { s with control })
  · apply (onControl_goes (WindowControl.transition_goes (by exact behind) keeps)).weaken
    · rintro _ _ ⟨control, rfl, settled⟩
      exact ⟨control, settled.behind, rfl⟩
    · rintro _ _ ⟨control, rfl, settled⟩
      exact framed settled.behind
  rintro _ _ ⟨control, behind, rfl⟩
  have nobody (h : Handle) : ¬s.Arriving h := by
    rintro ⟨r, hr⟩
    rw [idle] at hr
    cases hr
  refine .pure ⟨framed behind, idle, fun hh r h called => ?_, fun hh r h called map => ?_⟩
  · rcases (k.ledger hh).accounted r h called with hc | hu | ha | ha
    · exact .inl hc
    · exact .inr hu
    · rw [inactive] at ha
      cases ha
    · exact (nobody h ha).elim
  · rcases (k.ledger hh).kept r h called map with ha | ha | ha | ⟨v, hv, _⟩ | ha
    · rw [inactive] at ha
      cases ha
    · exact (nobody h ha).elim
    · exact .inr (pending_of_waiting ha)
    · rw [unsaved] at hv
      cases hv
    · exact .inl ha

theorem ends {α : Type} {x : Act α} {F : α → Coordinator → Prop} {E : String → Coordinator → Prop}
    (h : Does C a x F E s) :
    (∃ v s', x s = (.value v, s') ∧ Path (WindowControl.Moved C a.command a.token) s.control s'.control ∧
      (s.closing = true → s'.closing = true) ∧ F v s') ∨
    ∃ e s', x s = (.raised e, s') ∧ Path (WindowControl.Moved C a.command a.token) s.control s'.control ∧
      (s.closing = true → s'.closing = true) ∧ E e s' := by
  have path := control_path h.path
  have uncut := h.uncut id
  cases hx : (x s).1 with
  | value v =>
    obtain ⟨closing, hF⟩ := h.value hx
    exact .inl ⟨v, (x s).2, Prod.ext hx rfl, path, closing, hF⟩
  | raised e =>
    obtain ⟨closing, hE⟩ := h.raised hx
    exact .inr ⟨e, (x s).2, Prod.ext hx rfl, path, closing, hE⟩
  | cut => exact absurd hx uncut

end Coordinator

namespace Machine
open Coordinator
variable {m : Machine} {a : Answers} {C honest : Prop} {s : Coordinator}

def Stands (honest : Prop) (m : Machine) : Prop :=
  match m.phase with
  | .begin => m.me.Free honest ∧ m.me.closing = false ∧ m.me.control.Agreeing ∧
      m.me.control.status.canStart = false ∧ m.me.control.status.canStop = false ∧ m.me.calls = []
  | .opening | .completing | .closing => m.me.Ready honest
  | .finishing _ => m.me.closing = true
  | .collecting _ => m.me.closing = true ∧ m.me.future = none ∧ m.me.active = none
  | .concluding _ => m.me.future = none ∧ m.me.active = none ∧ m.me.saver = none
  | .ended (.ok (result, _)) => m.me.Settles honest result
  | .ended (.error _) => True

structure Safe (honest : Prop) (m : Machine) : Prop where
  sound : m.me.Sound honest
  stands : m.Stands honest

structure Moves (C honest : Prop) (a : Answers) (s : Coordinator) (m' : Machine) : Prop where
  safe : m'.Safe honest
  path : Path (WindowControl.Moved C a.command a.token) s.control m'.me.control

theorem Moves.after {s' : Coordinator} {m' : Machine}
    (path : Path (WindowControl.Moved C a.command a.token) s.control s'.control) (h : Moves C honest a s' m') :
    Moves C honest a s m' :=
  ⟨h.safe, path.trans h.path⟩

theorem leave_moves (k : s.Sound honest) (escaped : Option String) : Moves C honest a s (leave escaped s) := by
  unfold leave
  rcases ends (requestClose_goes (C := C) (a := a) k.custody.behind none) with
    ⟨_, s', hx, path, _, shut⟩ | ⟨e, s', hx, path, _, shut, _⟩
  · rw [hx]
    have sound := shut.sound k
    obtain ⟨_, _, _, _, _, _⟩ := shut
    exact ⟨⟨sound, rfl⟩, path⟩
  · rw [hx]
    exact ⟨⟨shut.sound k, trivial⟩, path⟩

theorem guarded_moves {α : Type} {x : Act α} {next : α → Coordinator → Machine}
    (hx : Does C a x (fun _ => Ready honest) (fun _ => Failed honest) s)
    (hnext : ∀ v s', s'.Ready honest → Moves C honest a s' (next v s')) :
    Moves C honest a s (guarded x next s) := by
  unfold guarded
  rcases ends hx with ⟨v, s', hv, path, _, ready⟩ | ⟨e, s', he, path, _, failed⟩
  · rw [hv]
    exact (hnext v s' ready).after path
  rw [he]
  dsimp only
  rcases ends (operationFailed_goes (C := C) (a := a) failed e) with
    ⟨_, s'', hf, path', _, ready, _⟩ | ⟨e', s'', hf, path', _, sound, _⟩
  · rw [hf]
    exact ⟨⟨ready.sound, ready⟩, path.trans path'⟩
  · rw [hf]
    exact ((leave_moves sound (some e')).after path').after path

def Collects (m : Machine) : Prop := m.phase = .closing ∨ ∃ escaped, m.phase = .collecting escaped

theorem begin_moves (k : s.Free honest) (opened : s.closing = false) (agreeing : s.control.Agreeing)
    (canStart : s.control.status.canStart = false) (canStop : s.control.status.canStop = false)
    (uncalled : s.calls = []) : Moves C honest a s (advance a ⟨s, .begin⟩) := by
  unfold advance
  dsimp only
  split
  · have keeps : Status.Keeps fun v => { v with
        state := .closed, message := "已在设备启动前取消。", result := some s.cancelledResult } :=
      ⟨fun _ => rfl, fun _ => rfl, fun _ => rfl, fun _ => rfl, fun _ => rfl, fun _ => rfl, fun _ => rfl⟩
    have framed {control : WindowControl} (behind : control.Behind) : ({ s with control } : Coordinator).Sound honest :=
      k.sound.frame behind rfl rfl id
    have uncalled' {r : Request} {h : Handle} (called : Call.started r h ∈ s.calls) {P : Prop} : P := by
      rw [uncalled] at called
      cases called
    rcases ends (onControl_goes (C := C) (a := a) (WindowControl.transition_goes k.sound.custody.behind keeps)) with
      ⟨_, s', hx, path, _, control, rfl, settled⟩ | ⟨e, s', hx, path, _, control, rfl, settled⟩
    · rw [hx]
      have sound := framed settled.behind
      exact ⟨⟨sound, sound, k.idle, fun _ _ _ called => uncalled' called, fun _ _ _ called => uncalled' called⟩, path⟩
    · rw [hx]
      exact ⟨⟨framed settled.behind, trivial⟩, path⟩
  · have numbered : ({ s with sequence := s.sequence + 1 } : Coordinator).Sound honest :=
      k.sound.frame k.sound.custody.behind rfl rfl id
    rcases ends (beginStart_goes (C := C) (a := a) (s := s) false) with
      ⟨_, s', hx, path, _, request, preview, rfl⟩ | ⟨e, s', hx, path, _, rfl⟩
    · rw [hx]
      have submitted := numbered.submitStart k.idle k.inactive (k.unsaved opened) opened request
        fun h => by rw [preview] at h; cases h
      refine ⟨⟨submitted, submitted, k.settled, fun _ => ⟨agreeing, fun h => ?_, fun h => ?_, ?_, fun h => ?_⟩⟩, path⟩
      · rw [show s.control.status.canStart = true from h] at canStart
        cases canStart
      · rw [show s.control.status.canStop = true from h] at canStop
        cases canStop
      · intro h p hf
        cases hf
      · exact absurd (k.unsaved opened) h
    · rw [hx]
      exact (leave_moves numbered (some e)).after path

theorem finishing_moves {escaped : Option String} (k : s.Sound honest) (closing : s.closing = true) :
    Moves C honest a s (advance a ⟨s, .finishing escaped⟩) := by
  unfold advance
  dsimp only
  split
  · rename_i free
    have sound : (cancelSaver s).Sound honest := by
      refine k.frame k.custody.behind rfl ?_ id
      change (s.saver.map OwnedSave.cancel).map OwnedSave.handle = s.saver.map OwnedSave.handle
      cases s.saver <;> rfl
    exact ⟨⟨sound, closing, Option.isNone_iff_eq_none.mp free.1, free.2⟩, .refl⟩
  · rename_i busy
    rcases ends (finishOperation_goes (C := C) (a := a) k closing busy) with
      ⟨_, s', hx, path, kept, sound⟩ | ⟨e, s', hx, path, _, sound⟩
    · rw [hx]
      exact ⟨⟨sound, kept closing⟩, path⟩
    · rw [hx]
      exact ⟨⟨sound, trivial⟩, path⟩

theorem collecting_moves {escaped : Option String} (k : s.Sound honest) (closing : s.closing = true)
    (idle : s.future = none) (inactive : s.active = none) (agreeing : C → s.Delivers → s.control.Agreeing) :
    Moves C honest a s (advance a ⟨s, .collecting escaped⟩) := by
  unfold advance
  dsimp only
  split
  · rename_i unsaved
    exact ⟨⟨k, idle, inactive, unsaved⟩, .refl⟩
  · rcases ends (collect_goes (C := C) (a := a) k closing idle inactive agreeing) with
      ⟨_, s', hx, path, kept, sound, idle', inactive'⟩ | ⟨e, s', hx, path, kept, ⟨sound, idle', inactive'⟩, unsaved⟩
    · rw [hx]
      exact ⟨⟨sound, kept closing, idle', inactive'⟩, path⟩
    · rw [hx]
      -- The handler drops no saver: its result was taken before the publication raised.
      have dropped : ({ s' with errors := s'.errors ++ [e], saver := none } : Coordinator).Sound honest :=
        sound.frame sound.custody.behind rfl (by rw [unsaved]) id
      exact ⟨⟨dropped, kept closing, idle', inactive'⟩, path⟩

theorem concluding_moves {escaped : Option String} (k : s.Sound honest) (idle : s.future = none)
    (inactive : s.active = none) (unsaved : s.saver = none) :
    Moves C honest a s (advance a ⟨s, .concluding escaped⟩) := by
  have noted : ({ s with errors := s.errors ++ a.closeGui.toList } : Coordinator).Sound honest :=
    k.frame k.custody.behind rfl rfl id
  unfold advance
  cases escaped with
  | some e => exact ⟨⟨noted, trivial⟩, .refl⟩
  | none =>
    rcases ends (conclude_goes (C := C) (a := a) noted idle inactive unsaved) with
      ⟨result, s', hx, path, _, settles⟩ | ⟨e, s', hx, path, _, sound⟩
    · have concluded : (addError a.closeGui s).2.conclude = (.value result, s') := hx
      simp only [concluded]
      exact ⟨⟨settles.sound, settles⟩, path⟩
    · have concluded : (addError a.closeGui s).2.conclude = (.raised e, s') := hx
      simp only [concluded]
      exact ⟨⟨sound, trivial⟩, path⟩

/-- One segment. `C` may rest the documents' agreement on what is published when a save result is taken. -/
theorem advance_moves (safe : m.Safe honest) (agreeing : C → m.Collects → m.me.Delivers → m.me.control.Agreeing) :
    Moves C honest a m.me (m.advance a) := by
  obtain ⟨me, phase⟩ := m
  obtain ⟨sound, stands⟩ := safe
  cases phase with
  | begin =>
    obtain ⟨free, opened, agreeing, canStart, canStop, uncalled⟩ := stands
    exact begin_moves free opened agreeing canStart canStop uncalled
  | opening => exact guarded_moves (openingRound_goes stands) fun _ s' ready => ⟨⟨ready.sound, ready⟩, .refl⟩
  | completing => exact guarded_moves (completeOperation_goes stands) fun _ s' ready => ⟨⟨ready.sound, ready⟩, .refl⟩
  | closing =>
    apply guarded_moves (closingRound_goes stands fun hc => agreeing hc (.inl rfl))
    intro stop s' ready
    split
    · exact leave_moves ready.sound none
    · exact ⟨⟨ready.sound, ready⟩, .refl⟩
  | finishing escaped => exact finishing_moves sound stands
  | collecting escaped =>
    exact collecting_moves sound stands.1 stands.2.1 stands.2.2 fun hc => agreeing hc (.inr ⟨escaped, rfl⟩)
  | concluding escaped => exact concluding_moves sound stands.1 stands.2.1 stands.2.2
  | ended outcome => exact ⟨⟨sound, stands⟩, .refl⟩

theorem interrupt_moves (safe : m.Safe honest) : Moves C honest a m.me m.interrupt := by
  obtain ⟨me, phase⟩ := m
  obtain ⟨sound, stands⟩ := safe
  have idle : Moves C honest a me ⟨me, phase⟩ := ⟨⟨sound, stands⟩, .refl⟩
  cases phase with
  | opening =>
    unfold interrupt
    dsimp only
    rcases ends (requestClose_goes (C := C) (a := a) sound.custody.behind none) with
      ⟨_, s', hx, path, _, shut⟩ | ⟨e, s', hx, path, _, shut, _⟩
    · rw [hx]
      exact (leave_moves (shut.sound sound) none).after path
    · rw [hx]
      exact (leave_moves (shut.sound sound) (some e)).after path
  | begin | completing | closing | finishing _ | collecting _ | concluding _ | ended _ => exact idle

theorem work_stands (safe : m.Safe honest) {w : Coordinator.WorkStep} (h : honest → w.Honest) :
    ({ m with me := m.me.work w } : Machine).Safe honest := by
  obtain ⟨me, phase⟩ := m
  obtain ⟨sound, stands⟩ := safe
  have sound' : (me.work w).Sound honest :=
    ⟨sound.custody.work w, fun hh => (sound.ledger hh).work sound.custody (h hh)⟩
  -- With nothing submitted the worker does nothing.
  have resting (idle : me.future = none) : me.work w = me := by
    rcases work_cases me w with same | ⟨_, _, _, _, busy, _⟩
    · exact same
    · rw [idle] at busy
      cases busy
  refine ⟨sound', ?_⟩
  have ready (k : me.Ready honest) : (me.work w).Ready honest := by
    refine ⟨sound', ?_, fun opened => ?_⟩
    · rcases work_cases me w with same | ⟨_, _, _, _, _, moved⟩
      · rw [same]
        exact k.settled
      · rw [moved]
        exact k.settled
    · apply (k.offer ?_).work
      rcases work_cases me w with same | ⟨_, _, _, _, _, moved⟩
      · rwa [same] at opened
      · rwa [moved] at opened
  cases phase with
  | begin =>
    change Free honest (me.work w) ∧ _
    rw [resting stands.1.idle]
    exact stands
  | opening | completing | closing => exact ready stands
  | finishing escaped =>
    change (me.work w).closing = true
    rcases work_cases me w with same | ⟨_, _, _, _, _, moved⟩
    · rw [same]
      exact stands
    · rw [moved]
      exact stands
  | collecting escaped =>
    change (me.work w).closing = true ∧ _
    rw [resting stands.2.1]
    exact stands
  | concluding escaped =>
    change (me.work w).future = none ∧ _
    rw [resting stands.1]
    exact stands
  | ended outcome =>
    cases outcome with
    | error e => trivial
    | ok result =>
      change (me.work w).Settles honest _
      rw [resting stands.idle]
      exact stands

theorem exited_safe (safe : m.Safe honest) {me : Coordinator} (same : me = { m.me with gui := me.gui, saver := me.saver })
    (saver : me.saver.map OwnedSave.handle = m.me.saver.map OwnedSave.handle) :
    ({ m with me } : Machine).Safe honest := by
  obtain ⟨before, phase⟩ := m
  obtain ⟨sound, stands⟩ := safe
  have sound' : me.Sound honest := by
    rw [same]
    exact sound.frame sound.custody.behind rfl saver id
  have unsaved (h : before.saver = none) : me.saver = none := by
    rw [h] at saver
    exact Option.map_eq_none_iff.mp saver
  have ready (k : before.Ready honest) : me.Ready honest := by
    refine ⟨sound', ?_, fun opened => ?_⟩
    · rw [same]
      exact k.settled
    · rw [same] at opened
      obtain ⟨agreeing, start, stop, stopping, saving⟩ := k.offer opened
      have previewing (h : before.Previewing) : me.Previewing := by
        rw [same]
        exact ⟨h.active, h.idle, h.empty⟩
      refine ⟨?_, fun h => ?_, ?_, ?_, fun h => previewing (saving fun hs => h (unsaved hs))⟩
      · rw [same]
        exact agreeing
      · rw [same] at h
        exact ⟨previewing (start h).1, unsaved (start h).2⟩
      · rw [same]
        exact stop
      · rw [same]
        exact stopping
  refine ⟨sound', ?_⟩
  cases phase with
  | begin =>
    obtain ⟨free, rest⟩ := stands
    refine ⟨⟨sound', ?_, ?_, ?_, fun _ => unsaved (free.unsaved rest.1)⟩, ?_⟩
    · rw [same]
      exact free.settled
    · rw [same]
      exact free.idle
    · rw [same]
      exact free.inactive
    · change me.closing = false ∧ me.control.Agreeing ∧ me.control.status.canStart = false ∧
        me.control.status.canStop = false ∧ me.calls = []
      rw [same]
      exact rest
  | opening | completing | closing => exact ready stands
  | finishing escaped =>
    change me.closing = true
    rw [same]
    exact stands
  | collecting escaped =>
    change me.closing = true ∧ me.future = none ∧ me.active = none
    rw [same]
    exact stands
  | concluding escaped =>
    refine ⟨?_, ?_, unsaved stands.2.2⟩
    · change me.future = none
      rw [same]
      exact stands.1
    · change me.active = none
      rw [same]
      exact stands.2.1
  | ended outcome =>
    cases outcome with
    | error e => trivial
    | ok result =>
      obtain ⟨_, idle, confirmed, kept⟩ := stands
      refine ⟨sound', ?_, ?_, ?_⟩
      · change me.future = none
        rw [same]
        exact idle
      · change honest → ∀ r h, Call.started r h ∈ me.calls → Closed h me.calls ∨ _
        rw [same]
        exact confirmed
      · change honest → ∀ r h, Call.started r h ∈ me.calls → _
        rw [same]
        exact kept

end Machine

def Event.Honest : Event → Prop
  | .work w => w.Honest
  | _ => True

def Answers.silent : Answers where
  stopRequested := false
  retry := .ok false
  reopenGui := none
  command := .absent
  token := ""
  prepare := none
  openGui := none
  startSave := none
  discard := .ok ""
  saveFile := none
  inspect := .ok ("", "")
  storage := none
  now := 0
  closeGui := none

def Event.answers : Event → Answers
  | .advance a => a
  | _ => .silent

namespace Machine
open Coordinator
variable {m m' : Machine} {C honest : Prop}

theorem next_moves (safe : m.Safe honest) {e : Event} (h : honest → e.Honest)
    (agreeing : C → ∀ a, e = .advance a → m.Collects → m.me.Delivers → m.me.control.Agreeing) :
    Moves C honest e.answers m.me (m.next e) := by
  cases e with
  | advance a => exact advance_moves safe fun hc => agreeing hc a rfl
  | interrupt => exact interrupt_moves safe
  | work w =>
    refine ⟨work_stands safe h, ?_⟩
    change Path _ m.me.control (m.me.work w).control
    rcases work_cases m.me w with same | ⟨_, _, _, _, _, moved⟩
    · rw [same]
    · rw [moved]
  | guiExited code =>
    unfold next
    dsimp only
    split
    · exact ⟨exited_safe safe rfl rfl, .refl⟩
    · exact ⟨safe, .refl⟩
  | saverExited code =>
    refine ⟨exited_safe safe rfl ?_, .refl⟩
    cases m.me.saver <;> rfl

theorem first_goes (owner : Owner) (token : String) (disk : Nat → Status → Option String) :
    let c := WindowControl.opening owner token disk
    (WindowControl.publish false id).Goes (WindowControl.guarantee C .absent token) (fun _ => c.Noted c.status)
      (fun _ => c.Noted c.status) c :=
  WindowControl.noted_goes (fun _ _ hd => nomatch hd)
    ⟨fun _ => rfl, fun _ => rfl, fun _ => rfl, fun _ => rfl, fun _ => rfl, fun _ => rfl, fun _ => rfl⟩ fun _ => rfl

theorem open_path {request : Request} {owner : Owner} {token : String} {disk : Nat → Status → Option String}
    (h : Machine.open request owner token disk = some m) :
    Path (WindowControl.Moved C .absent token) (.opening owner token disk) m.me.control := by
  have path := (first_goes (C := C) owner token disk).path
  unfold Machine.open at h
  cases hx : WindowControl.publish false id (.opening owner token disk) with
  | mk outcome control =>
    rw [hx] at h path
    cases outcome with
    | raised e | cut => cases h
    | value v =>
      cases h
      exact path

theorem open_safe {request : Request} {owner : Owner} {token : String} {disk : Nat → Status → Option String}
    (h : Machine.open request owner token disk = some m) : m.Safe honest ∧ m.phase = .begin ∧
      m.me.control.status = (WindowControl.opening owner token disk).status ∧ m.me.control.Behind ∧
      m.me.control.Agreeing := by
  have first := first_goes (C := True) owner token disk
  unfold Machine.open at h
  cases hx : WindowControl.publish false id (.opening owner token disk) with
  | mk outcome control =>
    rw [hx] at h
    cases outcome with
    | raised e | cut => cases h
    | value v =>
      cases h
      obtain ⟨_, noted⟩ := first.value (a := v) (by rw [hx])
      rw [hx] at noted
      have agreeing := noted.agreeing fun d hd => nomatch hd
      have behind := noted.behind ⟨fun d hd => (nomatch hd), fun d hd => (nomatch hd), fun d hd => (nomatch hd)⟩
      have custody : (Coordinator.opened request control).Custody := by
        refine ⟨behind, fun r p h => (nomatch h), fun h p hf => (nomatch hf), ?_, fun h => absurd rfl h,
          fun h => absurd rfl h⟩
        rintro (⟨h, ha, _⟩ | ⟨r, p, hr, _⟩)
        · cases ha
        · cases hr
      have ledger : (Coordinator.opened request control).Ledger :=
        ⟨fun r a h => (nomatch h), fun h a hf => (nomatch hf), fun _ => rfl, trivial, trivial, trivial,
          fun r h hm => (nomatch hm), fun r h hm => (nomatch hm)⟩
      have sound : (Coordinator.opened request control).Sound honest := ⟨custody, fun _ => ledger⟩
      refine ⟨⟨sound, ⟨sound, rfl, rfl, rfl, fun _ => rfl⟩, rfl, agreeing, ?_, ?_, rfl⟩, rfl, noted.status, behind,
        agreeing⟩
      · exact congrArg Status.canStart noted.status
      · exact congrArg Status.canStop noted.status

end Machine
end Smartwheel.Interactive

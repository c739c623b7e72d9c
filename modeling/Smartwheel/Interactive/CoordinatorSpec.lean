import Smartwheel.Interactive.Custody

/-! What each method of the coordinator does to its sessions and to the published status, whatever the backend,
the window and the files answer. -/
namespace Smartwheel.Interactive
open Effect Effect.Program

namespace Coordinator
variable {s : Coordinator} {a : Answers} {C honest : Prop} {h : Handle}

def moves (C : Prop) (a : Answers) : Guarantee Coordinator where
  step s s' := s'.control = s.control ∨ WindowControl.Moved C a.command a.token s.control s'.control
  whole s s' := s.closing = true → s'.closing = true
  cuts := False
  whole_refl _ := id
  whole_trans h k := k ∘ h

abbrev Does (C : Prop) (a : Answers) {α : Type} (x : Act α) (F : α → Coordinator → Prop) (E : String → Coordinator → Prop)
    (s : Coordinator) : Prop := x.Goes (moves C a) F E s

variable {E : String → Coordinator → Prop}

theorem change_goes {f : Coordinator → Coordinator} (s : Coordinator)
    (same : (f s).control = s.control) (closing : s.closing = true → (f s).closing = true) :
    Does C a (.modify f) (fun _ s' => s' = f s) E s :=
  .modify (.single (.inl same)) closing rfl

theorem change_bind {β : Type} {f : Coordinator → Coordinator} {x : Unit → Act β} {F : β → Coordinator → Prop}
    {E : String → Coordinator → Prop} (same : (f s).control = s.control)
    (closing : s.closing = true → (f s).closing = true) (next : Does C a (x ()) F E (f s)) :
    Does C a (.modify f >>= x) F E s :=
  (change_goes s same closing).bind fun _ _ changed => changed ▸ next

theorem onControl_goes {α : Type} {x : Program WindowControl String α} {F : α → WindowControl → Prop}
    {E : String → WindowControl → Prop}
    (hx : x.Goes (WindowControl.guarantee C a.command a.token) F E s.control) :
    Does C a (onControl x) (fun v s' => ∃ control, s' = { s with control } ∧ F v control)
      (fun e s' => ∃ control, s' = { s with control } ∧ E e control) s := by
  obtain ⟨path, ends⟩ := hx
  have lifted : Path (moves C a).step s { s with control := (x s.control).2 } :=
    path.lift (fun control => { s with control }) fun _ _ h => .inr h
  refine ⟨lifted, ?_⟩
  change Ends _ _ _ _ (x s.control).1 { s with control := (x s.control).2 }
  cases hr : (x s.control).1 with
  | value v =>
    rw [hr] at ends
    exact ⟨id, _, rfl, ends.2⟩
  | raised e =>
    rw [hr] at ends
    exact ⟨id, _, rfl, ends.2⟩
  | cut =>
    rw [hr] at ends
    exact ends

inductive Shown (s : Coordinator) (shown : Status) : Coordinator → Prop
  | mk (control : WindowControl) (settled : control.Settled shown) : Shown s shown { s with control }

theorem state_goes {values : Status → Status} (behind : s.control.Behind) (keeps : Status.Keeps values) (st : State)
    (message : String) (start stop : Bool) :
    Does C a (state st message start stop values)
      (fun _ => Shown s (values { WindowControl.bump true s.control.status with
        state := st, message, canStart := start, canStop := stop }))
      (fun _ => Shown s (values { WindowControl.bump true s.control.status with
        state := st, message, canStart := start, canStop := stop })) s := by
  have keeps' : Status.Keeps fun v => values { v with state := st, message, canStart := start, canStop := stop } :=
    ⟨fun _ => keeps.owner _, fun _ => keeps.generation _, fun _ => keeps.viewGeneration _,
      fun _ => keeps.activeSession _, fun _ => keeps.commandToken _, fun _ => keeps.lastSequence _,
      fun _ => keeps.lastCommand _⟩
  apply (onControl_goes (WindowControl.transition_goes behind keeps')).weaken
  · rintro _ _ ⟨control, rfl, settled⟩
    exact ⟨control, settled⟩
  · rintro _ _ ⟨control, rfl, settled⟩
    exact ⟨control, settled⟩

theorem keeps_id : Status.Keeps id :=
  ⟨fun _ => rfl, fun _ => rfl, fun _ => rfl, fun _ => rfl, fun _ => rfl, fun _ => rfl, fun _ => rfl⟩

theorem keeps_save (save : SaveInfo) : Status.Keeps fun v => { v with save } :=
  ⟨fun _ => rfl, fun _ => rfl, fun _ => rfl, fun _ => rfl, fun _ => rfl, fun _ => rfl, fun _ => rfl⟩

inductive Shut (s : Coordinator) : Coordinator → Prop
  | mk (errors : List String) (control : WindowControl) (saver : Option OwnedSave) (behind : control.Behind)
      (agreeing : s.control.Agreeing → control.Agreeing)
      (kept : saver = s.saver ∨ saver = s.saver.map OwnedSave.cancel) :
      Shut s { s with errors, closing := true, control, saver }

variable {s' : Coordinator}

theorem Shut.sound (k : s.Sound honest) (shut : Shut s s') : s'.Sound honest := by
  obtain ⟨errors, control, saver, behind, _, kept⟩ := shut
  refine k.frame behind rfl ?_ (fun _ => rfl)
  rcases kept with rfl | rfl
  · rfl
  · cases s.saver <;> rfl

theorem requestClose_goes (behind : s.control.Behind) (error : Option String) :
    Does C a (requestClose error) (fun _ => Shut s) (fun _ s' => Shut s s' ∧ s.closing = false) s := by
  unfold requestClose addError
  refine change_bind rfl id ?_
  apply Goes.get_bind
  -- The status is published only where the window was not closing yet.
  apply Goes.bind (F := fun _ s' => ∃ control : WindowControl, control.Behind ∧
    (s.control.Agreeing → control.Agreeing) ∧
    s' = { s with errors := s.errors ++ error.toList, closing := true, control })
  · apply Goes.when
    · intro opened
      apply Goes.bind (change_goes _ rfl fun _ => rfl)
      rintro _ _ rfl
      refine (state_goes (by exact behind) keeps_id _ _ _ _).weaken ?_ ?_
      · rintro _ _ ⟨control, settled⟩
        exact ⟨control, settled.behind, fun _ => settled.agreeing, rfl⟩
      · rintro _ _ ⟨control, settled⟩
        exact ⟨⟨_, control, _, settled.behind, fun _ => settled.agreeing, .inl rfl⟩, opened⟩
    · intro closing
      refine ⟨s.control, behind, id, ?_⟩
      rw [Bool.not_eq_false] at closing
      rw [← show s.closing = true from closing]
  rintro _ _ ⟨control, behind', agreeing, rfl⟩
  apply (change_goes _ rfl id).ensures
  rintro _ _ rfl
  exact ⟨_, control, _, behind', agreeing, .inr rfl⟩

structure Ready (honest : Prop) (s : Coordinator) : Prop where
  sound : s.Sound honest
  settled : s.failedOperation = none
  offer : s.closing = false → s.Offer

structure Failed (honest : Prop) (s : Coordinator) : Prop where
  sound : s.Sound honest
  consumed : ∀ operation, s.failedOperation = some operation → operation.starts = false → s.future = none

theorem Ready.failed (k : s.Ready honest) : s.Failed honest :=
  ⟨k.sound, fun operation h => by rw [k.settled] at h; cases h⟩

theorem Failed.of_settled (k : s.Sound honest) (settled : s.failedOperation = none) : s.Failed honest :=
  ⟨k, fun operation h => by rw [settled] at h; cases h⟩

theorem Shut.ready (k : s.Sound honest) (settled : s.failedOperation = none) (shut : Shut s s') : s'.Ready honest := by
  have sound := shut.sound k
  obtain ⟨errors, control, saver, _, _, _⟩ := shut
  exact ⟨sound, settled, fun h => nomatch h⟩

theorem raiseWhere_goes {F : Unit → Coordinator → Prop} {error : Option String}
    (hv : F () s) (he : ∀ e, E e s) : Does C a (raiseWhere error) F E s := by
  unfold raiseWhere
  cases error with
  | some e => exact .raise (he e)
  | none => exact .pure hv

theorem beginStart_goes (mapping : Bool) :
    Does C a (beginStart a mapping) (fun _ s' => ∃ request, request.mappingEnabled = mapping ∧
      s' = submitStart { s with sequence := s.sequence + 1 } request)
      (fun _ s' => s' = { s with sequence := s.sequence + 1 }) s := by
  unfold beginStart sessionRequest
  apply Goes.bind (F := fun request s' => request.mappingEnabled = mapping ∧
    s' = { s with sequence := s.sequence + 1 })
  · refine change_bind rfl id ?_
    apply Goes.get_bind
    apply Goes.bind (F := fun _ s' => s' = { s with sequence := s.sequence + 1 })
      (raiseWhere_goes (by rfl) fun _ => by rfl)
    rintro _ _ rfl
    exact .pure ⟨rfl, rfl⟩
  rintro request _ ⟨rfl, rfl⟩
  apply (change_goes _ rfl id).ensures
  rintro _ _ rfl
  exact ⟨request, rfl, rfl⟩

theorem beginStop_goes (active : s.active = some h) (after : After) :
    Does C a (beginStop after) (fun _ s' => s' = submitStop { s with desiredAfterStop := some after } h)
      (fun _ s' => s' = { s with desiredAfterStop := some after }) s := by
  unfold beginStop
  apply Goes.get_bind
  split
  · rename_i inactive
    rw [active] at inactive
    cases inactive
  rename_i h' same
  rw [active] at same
  cases same
  refine change_bind rfl id ?_
  apply Goes.bind (F := fun _ s' => s' = { s with desiredAfterStop := some after })
    (.raiseIf (fun _ => by rfl) fun _ => by rfl)
  rintro _ _ rfl
  exact change_goes _ rfl id

theorem releaseUnconfirmed_goes (h : Handle) (behind : s.control.Behind) :
    Does C a (releaseUnconfirmed h) (fun _ s' => ∃ control : WindowControl, control.Behind ∧ s' = s.release h control)
      E s := by
  unfold releaseUnconfirmed
  refine change_bind rfl id ?_
  apply (onControl_goes (WindowControl.bind_goes (E := fun _ _ => False) none)).weaken
  · rintro _ _ ⟨control, rfl, rfl⟩
    exact ⟨_, behind.bound _, rfl⟩
  · rintro _ _ ⟨_, _, never⟩
    exact never.elim

theorem operationFailed_goes (k : s.Failed honest) (error : String) :
    Does C a (operationFailed error) (fun _ s' => s'.Ready honest ∧ s'.closing = true)
      (fun _ s' => s'.Sound honest ∧ s'.closing = true) s := by
  unfold operationFailed
  apply Goes.bind (F := fun _ => Shut s)
  · apply (requestClose_goes k.sound.custody.behind (some error)).weaken (fun _ _ shut => shut)
    rintro _ _ ⟨shut, _⟩
    refine ⟨shut.sound k.sound, ?_⟩
    obtain ⟨_, _, _, _, _, _⟩ := shut
    rfl
  rintro _ s₁ shut
  have sound := shut.sound k.sound
  have closing : s₁.closing = true := by
    obtain ⟨_, _, _, _, _, _⟩ := shut
    rfl
  have consumed : ∀ operation, s₁.failedOperation = some operation → operation.starts = false → s₁.future = none := by
    obtain ⟨_, _, _, _, _, _⟩ := shut
    exact k.consumed
  clear shut
  apply Goes.bind (F := fun _ s' => s'.Sound honest ∧ s'.closing = true)
  · unfold giveUp
    apply Goes.get_bind
    cases hf : s₁.failedOperation with
    | none => exact .pure ⟨sound, closing⟩
    | some operation =>
      cases ha : s₁.active with
      | none => exact .pure ⟨sound, closing⟩
      | some active =>
        apply Goes.when
        · rintro ⟨stopping, _⟩
          apply (releaseUnconfirmed_goes active sound.custody.behind).ensures
          rintro _ _ ⟨control, behind, rfl⟩
          exact ⟨sound.release (consumed operation hf stopping) ha closing behind, closing⟩
        · exact fun _ => ⟨sound, closing⟩
  rintro _ s₂ ⟨sound₂, closing₂⟩
  apply (change_goes _ rfl id).ensures
  rintro _ _ rfl
  refine ⟨⟨?_, rfl, fun h => ?_⟩, closing₂⟩
  · exact sound₂.frame sound₂.custody.behind rfl rfl id
  · rw [show s₂.closing = false from h] at closing₂
    cases closing₂

variable {shown : Status}

theorem Shown.sound (k : s.Sound honest) (hs : Shown s shown s') : s'.Sound honest := by
  obtain ⟨control, settled⟩ := hs
  exact k.frame settled.behind rfl rfl id

theorem Shown.failed (k : s.Sound honest) (settled : s.failedOperation = none)
    (hs : Shown s shown s') : s'.Failed honest := by
  have sound := hs.sound k
  obtain ⟨control, _⟩ := hs
  exact .of_settled sound settled

theorem Shown.offer (hs : Shown s shown s') (start : shown.canStart = true → s.Previewing ∧ s.saver = none)
    (stop : shown.canStop = true → shown.state ≠ .starting →
      ∃ h, s.active = some h ∧ h.mappingEnabled = true ∧ s.future = none)
    (stopping : ∀ h p, s.future = some ⟨.stop h, p⟩ → s.desiredAfterStop = some .map →
      h.mappingEnabled = false ∧ s.pendingMap = none)
    (saving : s.saver ≠ none → s.Previewing) : s'.Offer := by
  obtain ⟨control, shown', agreeing, _⟩ := hs
  subst shown'
  refine ⟨agreeing, fun h => ?_, stop, stopping, fun h => ?_⟩
  · exact ⟨⟨(start h).1.active, (start h).1.idle, (start h).1.empty⟩, (start h).2⟩
  · exact ⟨(saving h).active, (saving h).idle, (saving h).empty⟩

theorem Shown.ready (k : s.Sound honest) (settled : s.failedOperation = none) (hs : Shown s shown s')
    (start : shown.canStart = true → s.Previewing ∧ s.saver = none)
    (stop : shown.canStop = true → shown.state ≠ .starting →
      ∃ h, s.active = some h ∧ h.mappingEnabled = true ∧ s.future = none)
    (stopping : ∀ h p, s.future = some ⟨.stop h, p⟩ → s.desiredAfterStop = some .map →
      h.mappingEnabled = false ∧ s.pendingMap = none)
    (saving : s.saver ≠ none → s.Previewing) : s'.Ready honest := by
  have sound := hs.sound k
  have offer := hs.offer start stop stopping saving
  obtain ⟨control, _⟩ := hs
  exact ⟨sound, settled, fun _ => offer⟩

structure Spent (honest : Prop) (s : Coordinator) : Prop where
  failed : s.Failed honest
  free : s.closing = true → s.future = none

theorem Shown.spent (k : s.Sound honest) (settled : s.failedOperation = none)
    (free : s.closing = true → s.future = none) (hs : Shown s shown s') : s'.Spent honest := by
  have failed := hs.failed k settled
  obtain ⟨control, _⟩ := hs
  exact ⟨failed, free⟩

theorem openGui_goes (error : Option String) :
    Does C a (openGui error) (fun _ s' => s' = { s with gui := some none }) (fun _ s' => s' = s) s := by
  unfold openGui
  apply Goes.bind (F := fun _ s' => s' = s) (raiseWhere_goes (by rfl) fun _ => by rfl)
  rintro _ _ rfl
  exact change_goes _ rfl id

structure Free (honest : Prop) (s : Coordinator) : Prop where
  sound : s.Sound honest
  settled : s.failedOperation = none
  idle : s.future = none
  inactive : s.active = none
  unsaved : s.closing = false → s.saver = none

theorem announce_goes (k : s.Free honest) (opened : s.closing = false) (mapping : Bool)
    (alone : mapping = true → s.pendingMap = none) (st : State) (message : String) (stop : Bool)
    (offered : stop = true → st = .starting) :
    Does C a (do
      beginStart a mapping
      state st message false stop id) (fun _ => Ready honest) (fun _ => Spent honest) s := by
  have numbered : ({ s with sequence := s.sequence + 1 } : Coordinator).Sound honest :=
    k.sound.frame k.sound.custody.behind rfl rfl id
  apply Goes.bind
  · apply (beginStart_goes mapping).weaken (fun _ _ h => h)
    rintro _ _ rfl
    exact ⟨.of_settled numbered k.settled, fun _ => k.idle⟩
  rintro _ _ ⟨request, rfl, rfl⟩
  have submitted := numbered.submitStart k.idle k.inactive (k.unsaved opened) opened request alone
  refine (state_goes submitted.custody.behind keeps_id _ _ _ _).weaken ?_ ?_
  · rintro _ _ hs
    apply hs.ready submitted k.settled
    · intro hstart
      cases hstart
    · exact fun hstop other => absurd (offered hstop) other
    · intro h p hf
      cases hf
    · exact fun hs => absurd (k.unsaved opened) hs
  · rintro _ _ hs
    refine hs.spent submitted k.settled fun closing => ?_
    rw [show s.closing = true from closing] at opened
    cases opened

theorem startSave_goes (k : s.Sound honest) (settled : s.failedOperation = none) (idle : s.future = none)
    (preview : ∃ h, s.active = some h ∧ h.mappingEnabled = false) (unsaved : s.saver = none)
    (waiting : s.pendingMap = some h) :
    Does C a (startSave a h) (fun _ => Ready honest) (fun _ => Spent honest) s := by
  unfold startSave
  refine change_bind rfl id ?_
  split
  · refine change_bind rfl id ?_
    refine .raise ⟨.of_settled ?_ settled, fun _ => idle⟩
    exact k.frame k.custody.behind (by rw [waiting]) rfl id
  · refine change_bind rfl id ?_
    have started := k.startSave idle unsaved waiting (s.saveSequence + 1)
    refine (state_goes (by exact started.custody.behind) (keeps_save _) _ _ _ _).weaken ?_ ?_
    · rintro _ _ hs
      apply hs.ready started settled
      · intro hstart
        cases hstart
      · intro hstop
        cases hstop
      · intro h p hf
        rw [show s.future = some ⟨.stop h, p⟩ from hf] at idle
        cases idle
      · exact fun _ => ⟨preview, idle, rfl⟩
    · rintro _ _ hs
      exact hs.spent started settled fun _ => idle

theorem stop_goes (k : s.Sound honest) (settled : s.failedOperation = none) (idle : s.future = none)
    (active : s.active = some h) (unsaved : s.closing = false → s.saver = none) (after : After)
    (mapping : s.closing = false → after = .map → h.mappingEnabled = false ∧ s.pendingMap = none)
    (quiet : s.closing = false → s.control.Agreeing ∧ s.control.status.canStart = false ∧
      (s.control.status.canStop = true → s.control.status.state = .starting)) :
    Does C a (beginStop after) (fun _ => Ready honest) (fun _ => Spent honest) s := by
  have wanted : ({ s with desiredAfterStop := some after } : Coordinator).Sound honest :=
    k.frame k.custody.behind rfl rfl id
  apply (beginStop_goes active after).weaken
  · rintro _ _ rfl
    refine ⟨wanted.submitStop idle active, settled, fun opened => ?_⟩
    obtain ⟨agreeing, start, stop⟩ := quiet opened
    refine ⟨agreeing, fun h => ?_, fun h other => absurd (stop h) other, ?_, fun hs => absurd (unsaved opened) hs⟩
    · rw [show s.control.status.canStart = true from h] at start
      cases start
    · intro h' p hf desired
      cases hf
      exact mapping opened (Option.some.inj desired)
  · rintro _ _ rfl
    exact ⟨.of_settled wanted settled, fun _ => idle⟩

theorem stopAnnounced_goes (k : s.Sound honest) (settled : s.failedOperation = none) (idle : s.future = none)
    (active : s.active = some h) (unsaved : s.saver = none) (st : State) (message : String) (stop : Bool)
    (offered : stop = true → st = .starting) (after : After)
    (mapping : after = .map → h.mappingEnabled = false ∧ s.pendingMap = none) :
    Does C a (do
      state st message false stop id
      beginStop after) (fun _ => Ready honest) (fun _ => Spent honest) s := by
  apply Goes.bind (F := fun _ => Shown s _)
  · refine (state_goes k.custody.behind keeps_id st message false stop).weaken (fun _ _ h => h) ?_
    rintro _ _ hs
    exact hs.spent k settled fun _ => idle
  rintro _ s₁ hs
  have sound := hs.sound k
  obtain ⟨control, shown, agreeing, _⟩ := hs
  apply stop_goes sound settled idle active (fun _ => unsaved) after fun _ => mapping
  intro _
  rw [shown]
  exact ⟨agreeing, rfl, offered⟩

variable {operation : Operation}

theorem sessionStarted_goes (k : s.Sound honest) (settled : s.failedOperation = none)
    (idle : s.future = none) (active : s.active = some h) (unsaved : s.saver = none)
    (kind : operation = .startMap ↔ h.mappingEnabled = true) :
    Does C a (sessionStarted a operation) (fun _ => Ready honest) (fun _ => Spent honest) s := by
  unfold sessionStarted
  apply Goes.get_bind
  split
  · rename_i closing
    apply stop_goes k settled idle active (fun _ => unsaved) .close (fun _ h => nomatch h)
    intro opened
    rw [closing] at opened
    cases opened
  split
  · exact stopAnnounced_goes k settled idle active unsaved .stopping _ false (fun h => nomatch h) .preview
      fun h => nomatch h
  apply Goes.bind (F := fun _ s' => s' = { s with gui := s'.gui })
  · apply Goes.when
    · intro _
      apply (openGui_goes a.openGui).weaken
      · rintro _ _ rfl
        rfl
      · rintro _ _ rfl
        exact ⟨.of_settled k settled, fun _ => idle⟩
    · exact fun _ => rfl
  rintro _ s₁ hs₁
  have k₁ : s₁.Sound honest := by
    rw [hs₁]
    exact k.frame k.custody.behind rfl rfl id
  have settled₁ : s₁.failedOperation = none := by rw [hs₁]; exact settled
  have idle₁ : s₁.future = none := by rw [hs₁]; exact idle
  have active₁ : s₁.active = some h := by rw [hs₁]; exact active
  have unsaved₁ : s₁.saver = none := by rw [hs₁]; exact unsaved
  have pending₁ : s₁.pendingMap = s.pendingMap := by rw [hs₁]
  have stopping₁ (h : Handle) (p : Progress) : s₁.future ≠ some ⟨.stop h, p⟩ := by
    rw [idle₁]
    exact fun h => nomatch h
  clear hs₁
  split
  · rename_i map
    refine (state_goes k₁.custody.behind keeps_id _ _ _ _).weaken ?_
      fun _ _ hs => hs.spent k₁ settled₁ fun _ => idle₁
    rintro _ _ hs
    apply hs.ready k₁ settled₁
    · intro hstart
      cases hstart
    · exact fun _ _ => ⟨h, active₁, kind.mp map, idle₁⟩
    · exact fun h p hf => absurd hf (stopping₁ h p)
    · exact fun saving => absurd unsaved₁ saving
  rename_i other
  have preview : ∃ h, s₁.active = some h ∧ h.mappingEnabled = false := by
    refine ⟨h, active₁, ?_⟩
    rw [← Bool.not_eq_true]
    exact fun hm => other (kind.mpr hm)
  split
  · rename_i handle waiting
    exact startSave_goes k₁ settled₁ idle₁ preview unsaved₁ (pending₁.trans waiting)
  · rename_i waiting
    refine (state_goes k₁.custody.behind keeps_id _ _ _ _).weaken ?_
      fun _ _ hs => hs.spent k₁ settled₁ fun _ => idle₁
    rintro _ _ hs
    apply hs.ready k₁ settled₁
    · exact fun _ => ⟨⟨preview, idle₁, pending₁.trans waiting⟩, unsaved₁⟩
    · intro hstop
      cases hstop
    · exact fun h p hf => absurd hf (stopping₁ h p)
    · exact fun saving => absurd unsaved₁ saving

theorem preview_goes (k : s.Free honest) (message : String) :
    Does C a (.when (s.closing = false) do
      .modify fun s => { s with cancelStart := false }
      beginStart a false
      state .stopping message false false id) (fun _ => Ready honest) (fun _ => Spent honest) s := by
  apply Goes.when
  · intro opened
    refine change_bind rfl id ?_
    have free : ({ s with cancelStart := false } : Coordinator).Free honest :=
      ⟨k.sound.frame k.sound.custody.behind rfl rfl id, k.settled, k.idle, k.inactive,
        k.unsaved⟩
    exact announce_goes free opened false (fun h => nomatch h) _ _ _ fun h => nomatch h
  · intro closing
    exact ⟨k.sound, k.settled, fun opened => absurd opened closing⟩

theorem Custody.unsaved_of_start {r : Request} {p : Progress} (c : s.Custody) (future : s.future = some ⟨.start r, p⟩) :
    s.saver = none := by
  by_contra saving
  exact c.saving saving r p future

theorem startCompleted_goes {r : Request} {answer : Answer} (k : s.Sound honest)
    (future : s.future = some ⟨.start r, .done (.ok answer)⟩)
    (kind : operation = if r.mappingEnabled then .startMap else .startPreview) :
    Does C a (startCompleted a operation answer) (fun _ => Ready honest) (fun _ => Spent honest)
      (s.drop (some operation)) := by
  have unsaved := k.custody.unsaved_of_start future
  obtain ⟨inactive, requested, _⟩ := k.custody.starting r _ future
  have starts : operation.starts = true := by
    rw [kind]
    split <;> rfl
  unfold startCompleted
  match answer with
  | .cancelledBeforeStart =>
    have dropped : (s.drop none).Sound honest := k.drop future none (fun _ _ h => nomatch h) fun _ _ _ h => nomatch h
    refine change_bind rfl id ?_
    apply Goes.bind (F := fun _ => Free honest)
    · apply Goes.when
      · intro _
        apply (requestClose_goes (by exact dropped.custody.behind) none).weaken
        · rintro _ _ shut
          have sound := shut.sound dropped
          obtain ⟨errors, control, saver, _, _, kept⟩ := shut
          exact ⟨sound, rfl, rfl, inactive, fun h => nomatch h⟩
        · rintro _ _ ⟨shut, _⟩
          have kept := (shut.ready dropped rfl).failed
          obtain ⟨_, _, _, _, _, _⟩ := shut
          exact ⟨kept, fun _ => rfl⟩
      · exact fun _ => ⟨dropped, rfl, rfl, inactive, fun _ => unsaved⟩
    rintro _ s₁ free
    exact Goes.get_bind (preview_goes free _)
  | .session (some h) =>
    apply Goes.get_bind
    apply Goes.bind (F := fun _ s' => s' = s.drop (some operation) ∧ identified s.nextRequest h = true)
    · -- The check refuses every session but the one asked for.
      apply Goes.raiseIf
      · intro mismatch
        have other : honest → ∀ h', (Except.ok (.session (some h)) : Except String Answer) ≠ .ok (.session (some h')) := by
          intro hh h' same
          cases same
          rcases (k.ledger hh).answers r _ future with hc | ⟨h', hs, identity⟩
          · cases hc
          · cases hs
            rw [show (s.drop (some operation)).nextRequest = s.nextRequest from rfl, requested] at mismatch
            simp [identified, identity] at mismatch
        have dropped := k.drop future (some operation) other fun _ _ _ h => nomatch h
        exact ⟨⟨dropped, fun _ _ _ => by rfl⟩, fun _ => by rfl⟩
      · intro matching
        exact ⟨rfl, (Bool.not_eq_false _).mp matching⟩
    rintro _ _ ⟨rfl, identity⟩
    have same : r.sessionId = h.sessionId ∧ r.mappingEnabled = h.mappingEnabled := by
      rw [requested] at identity
      simpa [identified] using identity
    refine change_bind rfl id ?_
    apply Goes.bind (F := fun _ s' => ∃ control : WindowControl, control.Behind ∧ s' = s.activate h control)
    · apply (onControl_goes (WindowControl.bind_goes (E := fun _ _ => False) (some h))).weaken
      · rintro _ _ ⟨control, rfl, rfl⟩
        exact ⟨_, k.custody.behind.bound _, rfl⟩
      · rintro _ _ ⟨_, _, never⟩
        exact never.elim
    rintro _ _ ⟨control, behind, rfl⟩
    apply sessionStarted_goes (k.activate future rfl same behind) rfl rfl rfl unsaved
    rw [kind, same.2]
    cases h.mappingEnabled <;> simp
  | .session none =>
    have dropped := k.drop future (some operation) (fun _ _ h => nomatch h) fun _ _ _ h => nomatch h
    exact .raise ⟨⟨dropped, fun _ _ _ => by rfl⟩, fun _ => by rfl⟩
  | .closed closed text =>
    have dropped := k.drop future (some operation) (fun _ _ h => nomatch h) fun _ _ _ h => nomatch h
    exact .raise ⟨⟨dropped, fun _ _ _ => by rfl⟩, fun _ => by rfl⟩

theorem sessionStopped_goes (k : s.Free honest)
    (mapping : s.closing = false → s.desiredAfterStop = some .map → s.pendingMap = none) :
    Does C a (sessionStopped a) (fun _ => Ready honest) (fun _ => Spent honest) s := by
  unfold sessionStopped
  apply Goes.get_bind
  split
  · rename_i closing
    have kept {control : WindowControl} (behind : control.Behind) : ({ s with control } : Coordinator).Ready honest := by
      refine ⟨?_, k.settled, fun opened => ?_⟩
      · exact k.sound.frame behind rfl rfl id
      · rw [show s.closing = false from opened] at closing
        cases closing
    apply (onControl_goes (WindowControl.transition_goes k.sound.custody.behind keeps_id)).weaken
    · rintro _ _ ⟨control, rfl, settled⟩
      exact kept settled.behind
    · rintro _ _ ⟨control, rfl, settled⟩
      exact ⟨(kept settled.behind).failed, fun _ => k.idle⟩
  rename_i opened
  rw [Bool.not_eq_true] at opened
  split
  · rename_i desired
    exact announce_goes k opened true (fun _ => mapping opened desired.1) .starting _ true fun _ => rfl
  · have preview := preview_goes (C := C) (a := a) k "正在切换：恢复当前帧实时预览。"
    rwa [Program.when, if_pos opened] at preview

theorem stopCompleted_goes {answer : Answer} (k : s.Sound honest)
    (future : s.future = some ⟨.stop h, .done (.ok answer)⟩)
    (kind : operation = if h.mappingEnabled then .stopMap else .stopPreview)
    (offer : s.closing = false → s.Offer) :
    Does C a (stopCompleted a operation answer) (fun _ => Ready honest) (fun _ => Spent honest)
      (s.drop (some operation)) := by
  have unopened (hc : ∀ closed text, answer = .closed closed text → normalClose closed = false)
      (hs : honest → ∀ h, answer ≠ .session (some h)) : (s.drop (some operation)).Spent honest := by
    refine ⟨⟨k.drop future (some operation) ?_ ?_, fun _ _ _ => by rfl⟩, fun _ => by rfl⟩
    · exact fun hh h same => hs hh h (Except.ok.inj same)
    · exact fun _ closed text _ same => hc closed text (Except.ok.inj same)
  obtain ⟨active, _⟩ := k.custody.stopping h _ future
  unfold stopCompleted
  match answer with
  | .cancelledBeforeStart => exact .raise (unopened (fun _ _ h => nomatch h) fun _ _ h => nomatch h)
  | .session other =>
    refine .raise (unopened (fun _ _ h => nomatch h) ?_)
    intro hh h' _
    obtain ⟨_, _, same, _⟩ := (k.ledger hh).stops h _ future
    cases same
  | .closed closed text =>
    apply Goes.bind (F := fun _ s' => s' = s.drop (some operation) ∧ normalClose closed = true)
    · apply Goes.raiseIf
      · intro abnormal
        refine unopened ?_ fun _ _ h => nomatch h
        intro closed' text' same
        cases same
        exact abnormal
      · exact fun normal => ⟨rfl, (Bool.not_eq_false _).mp normal⟩
    rintro _ _ ⟨rfl, normal⟩
    apply Goes.get_bind
    refine change_bind rfl id ?_
    apply Goes.bind (F := fun _ s' => ∃ control : WindowControl, control.Behind ∧ s' = { s with
      future := none, operation := none, failedOperation := none, active := none, control })
    · apply (onControl_goes (WindowControl.bind_goes (E := fun _ _ => False) none)).weaken
      · rintro _ _ ⟨control, rfl, rfl⟩
        exact ⟨_, k.custody.behind.bound _, rfl⟩
      · rintro _ _ ⟨_, _, never⟩
        exact never.elim
    rintro _ _ ⟨control, behind, rfl⟩
    have ended := k.closeActive future normal behind
    have unsaved (opened : s.closing = false) : s.saver = none := by
      by_contra saving
      have free := ((offer opened).saving saving).idle
      rw [future] at free
      cases free
    have same_active : (s.drop (some operation)).active = some h := active
    rw [same_active]
    -- A map joins the waiting one's place, a preview is handed to `discard`.
    apply Goes.bind (F := fun _ s' => s'.Free honest ∧
      (s'.closing = false → s'.desiredAfterStop = some .map → s'.pendingMap = none))
    · unfold disposeStopped
      cases hm : h.mappingEnabled with
      | true =>
        rw [hm, if_pos rfl] at kind
        rw [if_pos kind]
        apply (change_goes _ rfl id).ensures
        rintro _ _ rfl
        refine ⟨⟨?_, rfl, rfl, rfl, unsaved⟩, fun opened desired => ?_⟩
        · unfold Coordinator.closeActive at ended
          rwa [hm, if_pos rfl] at ended
        · have preview := ((offer opened).stopping h _ future desired).1
          rw [hm] at preview
          cases preview
      | false =>
        rw [hm, if_neg (by decide)] at kind
        rw [kind, if_neg (by decide)]
        have kept : ({ s with future := none, operation := none, failedOperation := none, active := none, control } :
            Coordinator).Sound honest := by
          unfold Coordinator.closeActive at ended
          rwa [hm, if_neg (by decide)] at ended
        have discarded := kept.discard hm fun hh => by
          obtain ⟨_, _, same, called⟩ := (k.ledger hh).stops h _ future
          cases same
          exact ⟨closed, called, normal⟩
        refine change_bind rfl id ?_
        cases a.discard with
        | error e => exact .raise ⟨.of_settled discarded rfl, fun _ => rfl⟩
        | ok status =>
          apply Goes.raiseIf
          · exact fun _ => ⟨.of_settled discarded rfl, fun _ => rfl⟩
          · exact fun _ => ⟨⟨discarded, rfl, rfl, rfl, unsaved⟩,
              fun opened desired => ((offer opened).stopping h _ future desired).2⟩
    rintro _ s₁ ⟨free, mapping⟩
    exact sessionStopped_goes free mapping

theorem completeDone_goes {work : Work} {result : Except String Answer} (k : s.Sound honest)
    (offer : s.closing = false → s.Offer) (future : s.future = some ⟨work, .done result⟩) :
    Does C a (completeOperation a) (fun _ => Ready honest) (fun _ => Spent honest) s := by
  unfold completeOperation
  apply Goes.get_bind
  cases work with
  | start r =>
    have submitted := (k.custody.starting r _ future).2.2
    rw [future, submitted]
    refine change_bind rfl id ?_
    cases result with
    | error e =>
      have dropped := k.drop future (if r.mappingEnabled then some .startMap else some .startPreview)
        (fun _ _ h => nomatch h) fun _ _ _ h => nomatch h
      refine .raise ⟨⟨?_, fun _ _ _ => by rfl⟩, fun _ => by rfl⟩
      cases hm : r.mappingEnabled <;> rw [hm] at dropped <;> exact dropped
    | ok answer =>
      have starts : (if r.mappingEnabled then Operation.startMap else .startPreview).starts = true := by
        cases r.mappingEnabled <;> rfl
      dsimp only
      rw [if_pos starts]
      exact startCompleted_goes k future rfl
  | stop h =>
    have submitted := (k.custody.stopping h _ future).2
    rw [future, submitted]
    refine change_bind rfl id ?_
    cases result with
    | error e =>
      have dropped := k.drop future (some (if h.mappingEnabled then .stopMap else .stopPreview))
        (fun _ _ h => nomatch h) fun _ _ _ _ h => nomatch h
      exact .raise ⟨⟨dropped, fun _ _ _ => by rfl⟩, fun _ => by rfl⟩
    | ok answer =>
      have stops : (if h.mappingEnabled then Operation.stopMap else .stopPreview).starts = false := by
        cases h.mappingEnabled <;> rfl
      dsimp only
      rw [stops, if_neg (by decide)]
      exact stopCompleted_goes k future rfl offer

theorem completeOperation_goes (k : s.Ready honest) :
    Does C a (completeOperation a) (fun _ => Ready honest) (fun _ => Failed honest) s := by
  cases hf : s.future with
  | none =>
    unfold completeOperation
    apply Goes.get_bind
    rw [hf]
    exact .pure k
  | some f =>
    obtain ⟨work, p⟩ := f
    cases p with
    | done result => exact (completeDone_goes k.sound k.offer hf).weaken (fun _ _ h => h) fun _ _ h => h.failed
    | queued | running =>
      unfold completeOperation
      apply Goes.get_bind
      rw [hf]
      exact .pure k

/-! ### The save process -/

theorem poll_session {owner : Owner} {v : OwnedSave} {file : Option (Except String ResultDocument)}
    {result : SaveResult} (h : v.poll owner file = .ok (some result)) : result.sessionId = v.handle.sessionId := by
  unfold OwnedSave.poll at h
  split at h
  · cases h
  split at h
  · cases h
  · split at h
    · cases h
    split at h
    · cases h
    split at h
    · cases h
    rename_i same
    split at h
    · cases h
    split at h
    · cases h
    cases h
    exact not_not.mp same
  · cases h
    rfl

theorem poll_running {owner : Owner} {v : OwnedSave} {file : Option (Except String ResultDocument)}
    (h : v.poll owner file ≠ .ok none) : v.exitCode ≠ none := by
  intro running
  apply h
  unfold OwnedSave.poll
  rw [running]

structure Kept (honest : Prop) (s s' : Coordinator) : Prop where
  sound : s'.Sound honest
  failedOperation : s'.failedOperation = s.failedOperation
  future : s'.future = s.future
  active : s'.active = s.active

theorem Kept.trans {s₁ s₂ : Coordinator} (h : Kept honest s s₁) (k : Kept honest s₁ s₂) : Kept honest s s₂ :=
  ⟨k.sound, k.failedOperation.trans h.failedOperation, k.future.trans h.future, k.active.trans h.active⟩

theorem Shut.kept (k : s.Sound honest) (shut : Shut s s') : Kept honest s s' := by
  have sound := shut.sound k
  obtain ⟨_, _, _, _, _, _⟩ := shut
  exact ⟨sound, rfl, rfl, rfl⟩

theorem saved_goes {v : OwnedSave} {result : SaveResult} (k : s.Sound honest) (saver : s.saver = some v)
    (same : result.sessionId = v.handle.sessionId) (agreeing : C → s.control.Agreeing)
    (offer : s.closing = false → s.Offer) :
    Does C a (saved result) (fun _ s' => Kept honest s s' ∧ (s'.closing = false → s'.Offer))
      (fun _ s' => Kept honest s s' ∧ s'.saver = none) s := by
  have taken := k.saved saver same
  unfold saved
  refine change_bind rfl id ?_
  apply Goes.bind (F := fun _ s' => Kept honest s s' ∧ ∃ control : WindowControl,
    s' = { s with results := s.results ++ [result], saver := none, control })
  · apply (onControl_goes (WindowControl.noted_goes (by exact agreeing) (keeps_save _) fun _ => rfl)).weaken
    · rintro _ _ ⟨control, rfl, noted⟩
      have sound := @Sound.frame _ _ { s with results := s.results ++ [result], saver := none, control } taken
        (noted.behind k.custody.behind) rfl rfl id
      exact ⟨⟨sound, rfl, rfl, rfl⟩, control, rfl⟩
    · rintro _ _ ⟨control, rfl, noted⟩
      have sound := @Sound.frame _ _ { s with results := s.results ++ [result], saver := none, control } taken
        (noted.behind k.custody.behind) rfl rfl id
      exact ⟨⟨sound, rfl, rfl, rfl⟩, rfl⟩
  rintro _ _ ⟨kept, control, rfl⟩
  apply Goes.get_bind
  apply Goes.when
  · intro opened
    obtain ⟨active, idle, empty⟩ := (offer opened).saving (by rw [saver]; exact fun h => nomatch h)
    refine (state_goes kept.sound.custody.behind keeps_id _ _ _ _).weaken ?_ ?_
    · rintro _ _ hs
      have offer' := hs.offer (fun _ => ⟨⟨active, idle, empty⟩, rfl⟩) (fun h => nomatch h)
        (fun h p hf => by
          rw [show s.future = some ⟨.stop h, p⟩ from hf] at idle
          cases idle)
        fun saving => absurd rfl saving
      have sound := hs.sound kept.sound
      obtain ⟨control', _⟩ := hs
      exact ⟨⟨sound, rfl, rfl, rfl⟩, fun _ => offer'⟩
    · rintro _ _ hs
      have sound := hs.sound kept.sound
      obtain ⟨control', _⟩ := hs
      exact ⟨⟨sound, rfl, rfl, rfl⟩, rfl⟩
  · exact fun closing => ⟨kept, fun opened => absurd opened closing⟩

def Delivers (s : Coordinator) : Prop := ∃ v, s.saver = some v ∧ v.exitCode ≠ none

theorem pollSave_goes (k : s.Sound honest) (offer : s.closing = false → s.Offer)
    (agreeing : C → s.Delivers → s.control.Agreeing) :
    Does C a (pollSave a) (fun _ s' => Kept honest s s' ∧ (s'.closing = false → s'.Offer))
      (fun _ s' => Kept honest s s' ∧ (s.closing = true → s'.saver = none)) s := by
  unfold pollSave
  apply Goes.get_bind
  split
  · exact .pure ⟨⟨k, rfl, rfl, rfl⟩, offer⟩
  rename_i saver hsaver
  -- From here on the saver is `v`, cancelled where the window is closing.
  generalize hv : (if s.closing then saver.cancel else saver) = v
  have ended : v.exitCode = saver.exitCode ∧ v.handle = saver.handle := by
    subst hv
    split <;> exact ⟨rfl, rfl⟩
  have cancelled : ({ s with saver := some v } : Coordinator).Sound honest := by
    refine k.frame k.custody.behind rfl ?_ id
    rw [hsaver, Option.map_some, Option.map_some, ended.2]
  have offered (opened : s.closing = false) : ({ s with saver := some v } : Coordinator).Offer := by
    obtain ⟨agrees, start, stop, stopping, saving⟩ := offer opened
    have previewing := saving (by rw [hsaver]; exact fun h => nomatch h)
    refine ⟨agrees, fun h => ?_, stop, stopping, fun _ => ⟨previewing.active, previewing.idle, previewing.empty⟩⟩
    have unsaved := (start h).2
    rw [hsaver] at unsaved
    cases unsaved
  have here : Kept honest s { s with saver := some v } := ⟨cancelled, rfl, rfl, rfl⟩
  have delivers (h : v.exitCode ≠ none) : s.Delivers := ⟨saver, hsaver, ended.1 ▸ h⟩
  apply Goes.bind (F := fun _ s' => s' = { s with saver := some v })
  · subst hv
    apply Goes.when
    · intro closing
      apply (change_goes s rfl id).ensures
      rintro _ _ rfl
      unfold cancelSaver
      rw [hsaver, if_pos closing, Option.map_some]
    · intro opened
      rw [if_neg opened, ← hsaver]
  rintro _ _ rfl
  dsimp only
  cases polled : v.poll s.control.status.owner a.saveFile with
  | ok result =>
    cases result with
    | none => exact .pure ⟨here, offered⟩
    | some result =>
      have live := poll_running (by rw [polled]; exact fun h => nomatch h)
      apply (saved_goes cancelled rfl (poll_session polled) (fun hc => agreeing hc (delivers live)) offered).weaken
      · exact fun _ s' hs => ⟨here.trans hs.1, hs.2⟩
      · exact fun _ s' hs => ⟨here.trans hs.1, fun _ => hs.2⟩
  | error e =>
    have live := poll_running (by rw [polled]; exact fun h => nomatch h)
    have stopped : v.isRunning = false := by
      unfold OwnedSave.isRunning
      cases he : v.exitCode with
      | none => exact absurd he live
      | some _ => rfl
    apply Goes.bind (F := fun _ s' => Kept honest s s' ∧ (∃ w, s'.saver = some w ∧ w.handle = v.handle) ∧
      (s.control.Agreeing → s'.control.Agreeing) ∧ (s'.closing = false → s'.Offer))
    · apply Goes.when
      · intro _
        refine change_bind rfl id ?_
        have noted : ({ s with saver := some v, savePollError := some e } : Coordinator).Sound honest :=
          cancelled.frame k.custody.behind rfl rfl id
        apply (requestClose_goes (by exact k.custody.behind) _).weaken
        · rintro _ _ shut
          have kept := shut.kept noted
          obtain ⟨errors, control, w, _, agrees, hw⟩ := shut
          refine ⟨⟨kept.sound, rfl, rfl, rfl⟩, ?_, agrees, fun h => nomatch h⟩
          rcases hw with rfl | rfl
          · exact ⟨v, rfl, rfl⟩
          · exact ⟨v.cancel, rfl, rfl⟩
        · rintro _ _ ⟨shut, opened⟩
          have kept := shut.kept noted
          refine ⟨⟨kept.sound, kept.failedOperation, kept.future, kept.active⟩, fun closing => ?_⟩
          rw [show s.closing = false from opened] at closing
          cases closing
      · exact fun _ => ⟨here, ⟨v, rfl, rfl⟩, id, offered⟩
    rintro _ s₁ ⟨kept, ⟨w, hw, same⟩, agrees, offer₁⟩
    rw [stopped, if_neg (by decide)]
    apply (saved_goes kept.sound hw (congrArg Handle.sessionId same.symm) (fun hc => agrees (agreeing hc (delivers live))) offer₁).weaken
    · exact fun _ s' hs => ⟨kept.trans hs.1, hs.2⟩
    · exact fun _ s' hs => ⟨kept.trans hs.1, fun _ => hs.2⟩

/-! ### The segments of the main loop -/

theorem Kept.ready (k : s.Ready honest) (kept : Kept honest s s')
    (offer : s'.closing = false → s'.Offer) : s'.Ready honest :=
  ⟨kept.sound, kept.failedOperation.trans k.settled, offer⟩

theorem Ready.frame (k : s.Ready honest) (same : s' = { s with
      gui := s'.gui, guiRetryUsed := s'.guiRetryUsed, lastStorageCheck := s'.lastStorageCheck,
      cancelStart := s'.cancelStart, savePollError := s'.savePollError }) : s'.Ready honest := by
  rw [same]
  refine ⟨?_, k.settled, fun opened => ?_⟩
  · exact k.sound.frame k.sound.custody.behind rfl rfl id
  · obtain ⟨agreeing, start, stop, stopping, saving⟩ := k.offer opened
    refine ⟨agreeing, fun h => ?_, stop, stopping, fun h => ?_⟩
    · exact ⟨⟨(start h).1.active, (start h).1.idle, (start h).1.empty⟩, (start h).2⟩
    · exact ⟨(saving h).active, (saving h).idle, (saving h).empty⟩

theorem inspectActive_goes (k : s.Ready honest) :
    Does C a (inspectActive a) (fun _ => Ready honest) (fun _ => Failed honest) s := by
  unfold inspectActive
  apply Goes.get_bind
  apply Goes.when _ fun _ => k
  intro _
  cases a.inspect with
  | error e => exact .raise k.failed
  | ok answer =>
    obtain ⟨observed, text⟩ := answer
    apply Goes.bind (F := fun _ s' => s' = s) (.raiseIf (fun _ => by exact k.failed) fun _ => by rfl)
    rintro _ s rfl
    cases a.storage with
    | none => exact .pure k
    | some check =>
      apply Goes.when _ fun _ => k
      intro _
      cases check with
      | error e => exact .raise k.failed
      | ok value =>
        refine change_bind rfl id ?_
        have checked := @Ready.frame _ _ { s with lastStorageCheck := some a.now } k rfl
        exact .raiseIf (fun _ => checked.failed) fun _ => checked

theorem closingRound_goes (k : s.Ready honest) (agreeing : C → s.Delivers → s.control.Agreeing) :
    Does C a (closingRound a) (fun _ => Ready honest) (fun _ => Failed honest) s := by
  unfold closingRound
  apply Goes.bind (F := fun _ => Ready honest)
  · apply (pollSave_goes k.sound k.offer agreeing).weaken
    · exact fun _ s' hs => hs.1.ready k hs.2
    · exact fun _ s' hs => .of_settled hs.1.sound (hs.1.failedOperation.trans k.settled)
  rintro _ s₁ k₁
  apply Goes.get_bind
  split
  · rename_i closing
    apply Goes.bind (F := fun _ => Ready honest)
    · apply Goes.when _ fun _ => k₁
      rintro ⟨idle, active⟩
      obtain ⟨h, active⟩ := Option.ne_none_iff_exists'.mp active
      have shut {P : Prop} (opened : s₁.closing = false) : P := by
        rw [closing] at opened
        cases opened
      exact (stop_goes k₁.sound k₁.settled (Option.isNone_iff_eq_none.mp idle) active shut .close (fun _ h => nomatch h)
        shut).weaken (fun _ _ h => h) fun _ _ h => h.failed
    rintro _ s₂ k₂
    exact Goes.get_bind (.pure k₂)
  · apply Goes.bind (inspectActive_goes k₁)
    exact fun _ s₂ k₂ => .pure k₂

theorem command_goes {action : Action} (k : s.Ready honest) (opened : s.closing = false)
    (offered : s.control.status.can action = true) :
    Does C a (command action) (fun _ => Ready honest) (fun _ => Failed honest) s := by
  obtain ⟨agreeing, start, stop, stopping, saving⟩ := k.offer opened
  unfold command
  cases action with
  | start =>
    obtain ⟨⟨⟨h, active, preview⟩, idle, empty⟩, unsaved⟩ := start offered
    refine change_bind rfl id ?_
    have ready := @Ready.frame _ _ { s with cancelStart := false } k rfl
    exact (stopAnnounced_goes ready.sound ready.settled idle active unsaved .starting _ true (fun _ => rfl) .map
      fun _ => ⟨preview, empty⟩).weaken (fun _ _ h => h) fun _ _ h => h.failed
  | stop =>
    apply Goes.get_bind
    split
    · refine change_bind rfl id ?_
      have ready := @Ready.frame _ _ { s with cancelStart := true } k rfl
      refine (state_goes (by exact ready.sound.custody.behind) keeps_id _ _ _ _).weaken ?_
        fun _ _ hs => hs.failed ready.sound ready.settled
      rintro _ _ hs
      apply hs.ready ready.sound ready.settled
      · intro hstart
        cases hstart
      · intro hstop
        cases hstop
      · exact stopping
      · intro h
        exact ⟨(saving h).active, (saving h).idle, (saving h).empty⟩
    · rename_i other
      obtain ⟨h, active, map, idle⟩ := stop offered other
      have unsaved := (k.sound.custody.alone (.inl ⟨h, active, map⟩)).2
      exact (stopAnnounced_goes k.sound k.settled idle active unsaved .stopping _ false (fun h => nomatch h) .preview
        fun h => nomatch h).weaken (fun _ _ h => h) fun _ _ h => h.failed

theorem takeCommand_goes (k : s.Ready honest) :
    Does C a (takeCommand a) (fun _ => Ready honest) (fun _ => Failed honest) s := by
  unfold takeCommand
  apply Goes.get_bind
  apply Goes.when _ fun _ => k
  intro opened
  obtain ⟨agreeing, start, stop, stopping, saving⟩ := k.offer opened
  -- Receiving changes the acknowledgement, not what is offered.
  have received {received : Option Action} {control : WindowControl} (hr : s.control.Received received control) :
      ({ s with control } : Coordinator).Ready honest := by
    obtain ⟨⟨_, state, _, _, can, _⟩, agreeing', behind, _⟩ := hr
    refine ⟨?_, k.settled, fun _ => ⟨agreeing', fun h => ?_, fun h other => ?_, stopping, fun h => ?_⟩⟩
    · exact k.sound.frame (behind k.sound.custody.behind) rfl rfl id
    · obtain ⟨previewing, unsaved⟩ := start ((can .start).symm.trans h)
      exact ⟨⟨previewing.active, previewing.idle, previewing.empty⟩, unsaved⟩
    · exact stop ((can .stop).symm.trans h) fun same => other (state.trans same)
    · exact ⟨(saving h).active, (saving h).idle, (saving h).empty⟩
  apply Goes.bind (F := fun v s' => ∃ control, s' = { s with control } ∧ s.control.Received v control)
  · apply (onControl_goes (WindowControl.receive_goes agreeing)).weaken (fun _ _ h => h)
    rintro _ _ ⟨control, rfl, hr⟩
    exact (received hr).failed
  rintro v _ ⟨control, rfl, hr⟩
  cases v with
  | none => exact .pure (received hr)
  | some action => exact command_goes (received hr) opened ((hr.acknowledges.can action).trans (hr.offered action rfl))

theorem watchWindow_goes (k : s.Ready honest) :
    Does C a (watchWindow a) (fun _ => Ready honest) (fun _ => Failed honest) s := by
  unfold watchWindow
  apply Goes.get_bind
  split
  case h_2 => exact .pure k
  rename_i code _
  apply Goes.when _ fun _ => k
  intro _
  apply Goes.bind (F := fun _ s' => s' = s)
  · unfold retryEvidence
    apply Goes.get_bind
    split
    · cases a.retry with
      | ok evidence => exact .pure rfl
      | error e => exact .raise k.failed
    · exact .pure rfl
  rintro evidence _ rfl
  split
  · refine change_bind rfl id ?_
    apply (openGui_goes a.reopenGui).weaken
    · rintro _ _ rfl
      exact k.frame rfl
    · rintro _ _ rfl
      exact (k.frame rfl).failed
  · apply (requestClose_goes k.sound.custody.behind _).weaken
    · exact fun _ _ shut => shut.ready k.sound k.settled
    · exact fun _ _ shut => (shut.1.ready k.sound k.settled).failed

theorem openingRound_goes (k : s.Ready honest) :
    Does C a (openingRound a) (fun _ => Ready honest) (fun _ => Failed honest) s := by
  unfold openingRound
  apply Goes.bind (F := fun _ => Ready honest)
  · apply Goes.when _ fun _ => k
    intro _
    apply (requestClose_goes k.sound.custody.behind none).weaken
    · exact fun _ _ shut => shut.ready k.sound k.settled
    · exact fun _ _ shut => (shut.1.ready k.sound k.settled).failed
  rintro _ s₁ k₁
  apply Goes.bind (watchWindow_goes k₁)
  exact fun _ s₂ k₂ => takeCommand_goes k₂

end Coordinator
end Smartwheel.Interactive

import Smartwheel.Interactive.Coordinator
import Smartwheel.Interactive.ControlSpec

/-! Who owns a session: at most one is started, active or stopped at a time, and none is lost between the worker,
the window, the save process and the evidence of an unconfirmed close. -/
namespace Smartwheel.Interactive
open Effect

def held : List Call → List String
  | [] => []
  | .start request :: calls => request.sessionId :: held calls
  | .startFailed request :: calls => (held calls).erase request.sessionId
  | .stopped handle (some closed) :: calls =>
    if normalClose closed then (held calls).erase handle.sessionId else held calls
  | .started .. :: calls | .stopped _ none :: calls | .discard _ :: calls => held calls

/-- A stop of the session returned and satisfies `normal_close`. -/
def Closed (handle : Handle) (calls : List Call) : Prop :=
  ∃ closed, Call.stopped handle (some closed) ∈ calls ∧ normalClose closed = true

theorem Closed.cons {handle : Handle} {calls : List Call} (h : Closed handle calls) (call : Call) :
    Closed handle (call :: calls) :=
  h.imp fun _ h => ⟨List.mem_cons_of_mem call h.1, h.2⟩

namespace Coordinator
variable {s : Coordinator} {r : Request} {h : Handle} {p : Progress}

def Mapping (s : Coordinator) : Prop :=
  (∃ h, s.active = some h ∧ h.mappingEnabled = true) ∨
    ∃ r p, s.future = some ⟨.start r, p⟩ ∧ r.mappingEnabled = true

structure Custody (s : Coordinator) : Prop where
  behind : s.control.Behind
  starting : ∀ r p, s.future = some ⟨.start r, p⟩ → s.active = none ∧ s.nextRequest = some r ∧
    s.operation = some (if r.mappingEnabled then .startMap else .startPreview)
  stopping : ∀ h p, s.future = some ⟨.stop h, p⟩ → s.active = some h ∧
    s.operation = some (if h.mappingEnabled then .stopMap else .stopPreview)
  alone : s.Mapping → s.pendingMap = none ∧ s.saver = none
  saving : s.saver ≠ none → ∀ r p, s.future ≠ some ⟨.start r, p⟩
  released : s.unconfirmed ≠ [] → s.future = none ∧ s.active = none ∧ s.closing = true

structure Previewing (s : Coordinator) : Prop where
  active : ∃ h, s.active = some h ∧ h.mappingEnabled = false
  idle : s.future = none
  empty : s.pendingMap = none

structure Offer (s : Coordinator) : Prop where
  agreeing : s.control.Agreeing
  start : s.control.status.canStart = true → s.Previewing ∧ s.saver = none
  stop : s.control.status.canStop = true → s.control.status.state ≠ .starting →
    ∃ h, s.active = some h ∧ h.mappingEnabled = true ∧ s.future = none
  stopping : ∀ h p, s.future = some ⟨.stop h, p⟩ → s.desiredAfterStop = some .map →
    h.mappingEnabled = false ∧ s.pendingMap = none
  saving : s.saver ≠ none → s.Previewing

def owned (s : Coordinator) : List String :=
  match s.future with
  | none => s.active.toList.map Handle.sessionId
  | some ⟨.start _, .queued⟩ => []
  | some ⟨.start r, .running⟩ => [r.sessionId]
  | some ⟨.start r, .done (.ok (.session (some _)))⟩ => [r.sessionId]
  | some ⟨.start _, .done _⟩ => []
  | some ⟨.stop h, .done (.ok (.closed closed _))⟩ => if normalClose closed then [] else [h.sessionId]
  | some ⟨.stop h, _⟩ => [h.sessionId]

def Arriving (s : Coordinator) (h : Handle) : Prop :=
  ∃ r, s.future = some ⟨.start r, .done (.ok (.session (some h)))⟩

def Keeping (s : Coordinator) (h : Handle) : Prop :=
  s.active = some h ∨ s.Arriving h ∨ s.pendingMap = some h ∨ (∃ v, s.saver = some v ∧ v.handle = h) ∨
    ∃ result ∈ s.results, result.sessionId = h.sessionId

structure Ledger (s : Coordinator) : Prop where
  answers : ∀ r a, s.future = some ⟨.start r, .done (.ok a)⟩ → a = .cancelledBeforeStart ∨
    ∃ h, a = .session (some h) ∧ r.sessionId = h.sessionId ∧ r.mappingEnabled = h.mappingEnabled
  stops : ∀ h a, s.future = some ⟨.stop h, .done (.ok a)⟩ →
    ∃ closed text, a = .closed closed text ∧ Call.stopped h (some closed) ∈ s.calls
  held : s.unconfirmed = [] → held s.calls = s.owned
  few : Always (fun call earlier => (Interactive.held (call :: earlier)).length ≤ 1) s.calls
  starts : Always (fun call earlier => ∀ r, call = .start r → Interactive.held earlier = []) s.calls
  discards : Always (fun call earlier => ∀ h, call = .discard h → h.mappingEnabled = false ∧ Closed h earlier) s.calls
  accounted : ∀ r h, Call.started r h ∈ s.calls →
    Closed h s.calls ∨ h ∈ s.unconfirmed ∨ s.active = some h ∨ s.Arriving h
  kept : ∀ r h, Call.started r h ∈ s.calls → h.mappingEnabled = true → s.Keeping h

theorem Custody.unreleased_of_active (c : s.Custody) (active : s.active = some h) : s.unconfirmed = [] := by
  by_contra released
  rw [(c.released released).2.1] at active
  cases active

theorem Custody.unreleased_of_future (c : s.Custody) (future : s.future.isSome) : s.unconfirmed = [] := by
  by_contra released
  rw [(c.released released).1] at future
  cases future

/-! ### The worker -/

def WorkStep.Honest (w : WorkStep) : Prop :=
  ∀ answer, w = .start answer → ∀ r x, answer r = .ok x →
    ∃ h, x = some h ∧ r.sessionId = h.sessionId ∧ r.mappingEnabled = h.mappingEnabled

theorem Custody.progress {work : Work} (c : s.Custody) (hf : s.future = some ⟨work, p⟩) (p' : Progress)
    (calls : List Call) : ({ s with future := some ⟨work, p'⟩, calls } : Coordinator).Custody where
  behind := c.behind
  starting r q hq := by
    cases hq
    exact c.starting r p hf
  stopping h q hq := by
    cases hq
    exact c.stopping h p hf
  alone hm := by
    apply c.alone
    rcases hm with hm | ⟨r, q, hq, hr⟩
    · exact .inl hm
    · cases hq
      exact .inr ⟨r, p, hf, hr⟩
  saving hs r q hq := by
    cases hq
    exact c.saving hs r p hf
  released hu := by
    have none_future := (c.released hu).1
    rw [hf] at none_future
    cases none_future

theorem Offer.progress {work : Work} (o : s.Offer) (hf : s.future = some ⟨work, p⟩) (p' : Progress)
    (calls : List Call) : ({ s with future := some ⟨work, p'⟩, calls } : Coordinator).Offer where
  agreeing := o.agreeing
  start hs := by
    have free := (o.start hs).1.idle
    rw [hf] at free
    cases free
  stop hs ht := by
    obtain ⟨_, _, _, free⟩ := o.stop hs ht
    rw [hf] at free
    cases free
  stopping h q hq := by
    cases hq
    exact o.stopping h p hf
  saving hs := by
    have free := (o.saving hs).idle
    rw [hf] at free
    cases free

theorem work_cases (s : Coordinator) (w : WorkStep) : s.work w = s ∨ ∃ work p p' new,
    s.future = some ⟨work, p⟩ ∧ s.work w = { s with future := some ⟨work, p'⟩, calls := new ++ s.calls } := by
  unfold work
  split
  · split
    · rename_i hf
      split
      · exact .inr ⟨_, _, _, [], hf, rfl⟩
      · split
        · exact .inr ⟨_, _, _, [], hf, rfl⟩
        · exact .inr ⟨_, _, _, [.start _], hf, rfl⟩
    · exact .inl rfl
  · split
    · rename_i hf
      split
      · exact .inr ⟨_, _, _, [.startFailed _], hf, rfl⟩
      · split
        · exact .inr ⟨_, _, _, [.started _ _], hf, rfl⟩
        · exact .inr ⟨_, _, _, [], hf, rfl⟩
    · exact .inl rfl
  · split
    · rename_i hf
      split
      · exact .inr ⟨_, _, _, [.stopped _ none], hf, rfl⟩
      · exact .inr ⟨_, _, _, [.stopped _ (some _)], hf, rfl⟩
    · exact .inl rfl

theorem Custody.work (c : s.Custody) (w : WorkStep) : (s.work w).Custody := by
  rcases work_cases s w with same | ⟨_, _, _, _, hf, moved⟩
  · rwa [same]
  · rw [moved]
    exact c.progress hf _ _

theorem Offer.work (o : s.Offer) (w : WorkStep) : (s.work w).Offer := by
  rcases work_cases s w with same | ⟨_, _, _, _, hf, moved⟩
  · rwa [same]
  · rw [moved]
    exact o.progress hf _ _

theorem Ledger.progress {work : Work} {p' : Progress} {new : List Call} (l : s.Ledger)
    (hf : s.future = some ⟨work, p⟩) (undone : ∀ x, p ≠ .done x)
    (answers : ∀ r a, work = .start r → p' = .done (.ok a) → a = .cancelledBeforeStart ∨
      ∃ h, a = .session (some h) ∧ r.sessionId = h.sessionId ∧ r.mappingEnabled = h.mappingEnabled)
    (stops : ∀ h a, work = .stop h → p' = .done (.ok a) →
      ∃ closed text, a = .closed closed text ∧ Call.stopped h (some closed) ∈ new)
    (held : Interactive.held s.calls = s.owned → Interactive.held (new ++ s.calls) =
      owned { s with future := some ⟨work, p'⟩, calls := new ++ s.calls })
    (few : Always (fun call earlier => (Interactive.held (call :: earlier)).length ≤ 1) (new ++ s.calls))
    (starts : Always (fun call earlier => ∀ r, call = .start r → Interactive.held earlier = []) (new ++ s.calls))
    (kind : ∀ call ∈ new, ∀ h, call ≠ .discard h)
    (arrived : ∀ r h, Call.started r h ∈ new → ∃ q, work = .start q ∧ p' = .done (.ok (.session (some h)))) :
    ({ s with future := some ⟨work, p'⟩, calls := new ++ s.calls } : Coordinator).Ledger := by
  have closed {h : Handle} (hc : Closed h s.calls) : Closed h (new ++ s.calls) :=
    hc.imp fun _ hc => ⟨List.mem_append_right _ hc.1, hc.2⟩
  have pending {h : Handle} (ha : s.Arriving h) : False := by
    obtain ⟨r, hr⟩ := ha
    rw [hf] at hr
    cases hr
    exact undone _ rfl
  constructor
  · intro r a hr
    cases hr
    exact answers r a rfl rfl
  · intro h a hr
    cases hr
    obtain ⟨c, t, ha, hc⟩ := stops h a rfl rfl
    exact ⟨c, t, ha, List.mem_append_left _ hc⟩
  · exact fun hu => held (l.held hu)
  · exact few
  · exact starts
  · exact l.discards.append fun call hc _ h hd => absurd hd (kind call hc h)
  · intro r h hm
    rcases List.mem_append.mp hm with hn | ho
    · obtain ⟨q, hw, hp⟩ := arrived r h hn
      exact .inr (.inr (.inr ⟨q, by rw [hw, hp]⟩))
    · rcases l.accounted r h ho with hc | hu | ha | ha
      · exact .inl (closed hc)
      · exact .inr (.inl hu)
      · exact .inr (.inr (.inl ha))
      · exact (pending ha).elim
  · intro r h hm hmap
    rcases List.mem_append.mp hm with hn | ho
    · obtain ⟨q, hw, hp⟩ := arrived r h hn
      exact .inr (.inl ⟨q, by rw [hw, hp]⟩)
    · rcases l.kept r h ho hmap with ha | ha | hk
      · exact .inl ha
      · exact (pending ha).elim
      · exact .inr (.inr hk)

theorem owned_few (s : Coordinator) : s.owned.length ≤ 1 := by
  unfold owned
  split
  case h_1 => cases s.active <;> simp
  case h_6 => split <;> simp
  all_goals simp

theorem Ledger.call {work : Work} {p' : Progress} {call : Call} (l : s.Ledger) (hf : s.future = some ⟨work, p⟩)
    (undone : ∀ x, p ≠ .done x)
    (held : Interactive.held (call :: s.calls) = owned { s with future := some ⟨work, p'⟩, calls := call :: s.calls })
    (begins : ∀ r, call = .start r → Interactive.held s.calls = []) (kind : ∀ h, call ≠ .discard h)
    (answers : ∀ r a, work = .start r → p' = .done (.ok a) → a = .cancelledBeforeStart ∨
      ∃ h, a = .session (some h) ∧ r.sessionId = h.sessionId ∧ r.mappingEnabled = h.mappingEnabled)
    (stops : ∀ h a, work = .stop h → p' = .done (.ok a) → ∃ closed text, a = .closed closed text ∧ call = .stopped h (some closed))
    (arrived : ∀ r h, call = .started r h → ∃ q, work = .start q ∧ p' = .done (.ok (.session (some h)))) :
    ({ s with future := some ⟨work, p'⟩, calls := call :: s.calls } : Coordinator).Ledger := by
  apply @Ledger.progress _ _ _ _ [call] l hf undone answers
  · intro h a hw hp
    obtain ⟨closed, text, ha, hc⟩ := stops h a hw hp
    exact ⟨closed, text, ha, List.mem_singleton.mpr hc.symm⟩
  · exact fun _ => held
  · refine ⟨?_, l.few⟩
    show (Interactive.held (call :: s.calls)).length ≤ 1
    rw [held]
    exact owned_few _
  · exact ⟨begins, l.starts⟩
  · intro other hc h
    rw [List.mem_singleton.mp hc]
    exact kind h
  · exact fun r h hc => arrived r h (List.mem_singleton.mp hc).symm

theorem Ledger.work (l : s.Ledger) (c : s.Custody) {w : WorkStep} (honest : w.Honest) : (s.work w).Ledger := by
  cases w with
  | check preflight stopRequested =>
    dsimp only [Coordinator.work]
    split
    case h_2 => exact l
    rename_i r hf
    have none_yet : s.owned = [] := by simp [owned, hf]
    -- Nothing was begun, so nothing is held before or after.
    have unbegun (x : Except String Answer) (hx : ∀ h, x ≠ .ok (.session h)) (ha : ∀ a, x = .ok a →
        a = .cancelledBeforeStart) : ({ s with future := some ⟨.start r, .done x⟩ } : Coordinator).Ledger := by
      apply @Ledger.progress _ _ _ _ [] l hf (fun _ h => nomatch h)
      · intro q a _ hp
        exact .inl (ha a (Progress.done.inj hp))
      · intro h a hw
        cases hw
      · intro held
        rw [List.nil_append, held, none_yet]
        cases x with
        | error e => rfl
        | ok a => cases ha a rfl; rfl
      · exact l.few
      · exact l.starts
      · intro call hc
        cases hc
      · intro q h hc
        cases hc
    split
    · exact unbegun _ (fun _ h => nomatch h) fun _ h => nomatch h
    · split
      · exact unbegun _ (fun _ h => nomatch h) fun _ h => (Except.ok.inj h).symm
      · have unreleased := c.unreleased_of_future (by rw [hf]; rfl)
        have free : Interactive.held s.calls = [] := (l.held unreleased).trans none_yet
        refine l.call hf nofun ?_ (fun _ _ => free) nofun nofun nofun nofun
        simp [Interactive.held, free, owned]
  | start answer =>
    dsimp only [Coordinator.work]
    split
    case h_2 => exact l
    rename_i r hf
    have unreleased := c.unreleased_of_future (by rw [hf]; rfl)
    have one : Interactive.held s.calls = [r.sessionId] := (l.held unreleased).trans (by simp [owned, hf])
    split
    · refine l.call hf nofun ?_ nofun nofun nofun nofun nofun
      simp [Interactive.held, one, owned]
    · rename_i x hx
      obtain ⟨h, rfl, identity⟩ := honest answer rfl r x hx
      refine l.call hf nofun ?_ nofun nofun ?_ nofun ?_
      · simp [Interactive.held, one, owned]
      · intro q a hw hp
        cases hw
        cases hp
        exact .inr ⟨h, rfl, identity⟩
      · intro q h' hc
        cases hc
        exact ⟨_, rfl, rfl⟩
  | stop answer =>
    dsimp only [Coordinator.work]
    split
    case h_2 => exact l
    rename_i h hf
    have unreleased := c.unreleased_of_future (by rw [hf]; rfl)
    have one : Interactive.held s.calls = [h.sessionId] := (l.held unreleased).trans (by simp [owned, hf])
    split
    · refine l.call hf nofun ?_ nofun nofun nofun nofun nofun
      simp [Interactive.held, one, owned]
    · rename_i closed text hx
      refine l.call hf nofun ?_ nofun nofun nofun ?_ nofun
      · cases hn : normalClose closed <;> simp [Interactive.held, one, owned, hn]
      · intro h' a hw hp
        cases hw
        cases hp
        exact ⟨closed, text, rfl, rfl⟩

/-! ### The coordinator's own steps -/

structure Sound (honest : Prop) (s : Coordinator) : Prop where
  custody : s.Custody
  ledger : honest → s.Ledger

variable {honest : Prop}

theorem Sound.frame {s' : Coordinator} (k : s.Sound honest) (behind : s'.control.Behind)
    (same : (s'.future, s'.operation, s'.nextRequest, s'.active, s'.pendingMap, s'.results, s'.unconfirmed, s'.calls) =
      (s.future, s.operation, s.nextRequest, s.active, s.pendingMap, s.results, s.unconfirmed, s.calls))
    (saver : s'.saver.map OwnedSave.handle = s.saver.map OwnedSave.handle)
    (closing : s.closing = true → s'.closing = true) : s'.Sound honest := by
  simp only [Prod.mk.injEq] at same
  obtain ⟨future, operation, nextRequest, active, pendingMap, results, unconfirmed, calls⟩ := same
  have none_saver : s'.saver = none ↔ s.saver = none := by
    rw [← Option.map_eq_none_iff (f := OwnedSave.handle), saver, Option.map_eq_none_iff]
  have same_owned : s'.owned = s.owned := by
    unfold owned
    rw [future, active]
  obtain ⟨c, l⟩ := k
  refine ⟨⟨behind, ?_, ?_, ?_, ?_, ?_⟩, fun h => ?_⟩
  · rw [future, operation, nextRequest, active]
    exact c.starting
  · rw [future, operation, active]
    exact c.stopping
  · intro hm
    unfold Mapping at hm
    rw [active, future] at hm
    rw [pendingMap, none_saver]
    exact c.alone hm
  · rw [future, Ne, none_saver]
    exact c.saving
  · rw [unconfirmed, future, active]
    exact fun hu => ⟨(c.released hu).1, (c.released hu).2.1, closing (c.released hu).2.2⟩
  · obtain ⟨answers, stops, held, few, starts, discards, accounted, kept⟩ := l h
    refine ⟨?_, ?_, ?_, calls ▸ few, calls ▸ starts, calls ▸ discards, ?_, ?_⟩
    · rw [future]
      exact answers
    · rw [future, calls]
      exact stops
    · rw [unconfirmed, calls, same_owned]
      exact held
    · unfold Arriving
      rw [calls, unconfirmed, active, future]
      exact accounted
    · rw [calls]
      intro r h hm hmap
      rcases kept r h hm hmap with hk | ⟨q, hk⟩ | hk | ⟨v, hv, hk⟩ | hk
      · exact .inl (active.trans hk)
      · exact .inr (.inl ⟨q, future.trans hk⟩)
      · exact .inr (.inr (.inl (pendingMap.trans hk)))
      · have hv' : s'.saver.map OwnedSave.handle = some h := by rw [saver, hv, Option.map_some, hk]
        obtain ⟨v', hv', hk'⟩ := Option.map_eq_some_iff.mp hv'
        exact .inr (.inr (.inr (.inl ⟨v', hv', hk'⟩)))
      · exact .inr (.inr (.inr (.inr (results ▸ hk))))

def submitStart (s : Coordinator) (request : Request) : Coordinator :=
  { s with
    nextRequest := some request
    operation := some (if request.mappingEnabled then .startMap else .startPreview)
    future := some ⟨.start request, .queued⟩ }

theorem Sound.submitStart (k : s.Sound honest) (idle : s.future = none) (inactive : s.active = none)
    (unsaved : s.saver = none) (unclosed : s.closing = false) (request : Request)
    (alone : request.mappingEnabled = true → s.pendingMap = none) : (s.submitStart request).Sound honest := by
  obtain ⟨c, l⟩ := k
  have unreleased : s.unconfirmed = [] := by
    by_contra released
    have closed := (c.released released).2.2
    rw [unclosed] at closed
    cases closed
  have nobody (h : Handle) : ¬s.Arriving h := by
    rintro ⟨r, hr⟩
    rw [idle] at hr
    cases hr
  refine ⟨⟨c.behind, ?_, ?_, ?_, fun hs => absurd unsaved hs, fun hu => absurd unreleased hu⟩, fun h => ?_⟩
  · intro r p hr
    cases hr
    exact ⟨inactive, rfl, rfl⟩
  · intro h p hr
    cases hr
  · rintro (⟨h, ha, _⟩ | ⟨r, p, hr, hm⟩)
    · rw [show (s.submitStart request).active = s.active from rfl, inactive] at ha
      cases ha
    · cases hr
      exact ⟨alone hm, unsaved⟩
  · obtain ⟨answers, stops, held, few, starts, discards, accounted, kept⟩ := l h
    refine ⟨?_, ?_, ?_, few, starts, discards, ?_, ?_⟩
    · intro r a hr
      cases hr
    · intro r a hr
      cases hr
    · intro hu
      rw [show (s.submitStart request).calls = s.calls from rfl, held unreleased]
      simp [owned, idle, inactive, Coordinator.submitStart]
    · intro r h hm
      rcases accounted r h hm with ha | ha | ha | ha
      · exact .inl ha
      · exact .inr (.inl ha)
      · exact .inr (.inr (.inl ha))
      · exact (nobody h ha).elim
    · intro r h hm hmap
      rcases kept r h hm hmap with ha | ha | ha
      · exact .inl ha
      · exact (nobody h ha).elim
      · exact .inr (.inr ha)

def submitStop (s : Coordinator) (active : Handle) : Coordinator :=
  { s with
    stopAttempts := Function.update s.stopAttempts active.sessionId (s.stopAttempts active.sessionId + 1)
    operation := some (if active.mappingEnabled then .stopMap else .stopPreview)
    future := some ⟨.stop active, .queued⟩ }

theorem Sound.submitStop (k : s.Sound honest) (idle : s.future = none) (active : s.active = some h) :
    (s.submitStop h).Sound honest := by
  obtain ⟨c, l⟩ := k
  have unreleased := c.unreleased_of_active active
  have nobody (h : Handle) : ¬s.Arriving h := by
    rintro ⟨r, hr⟩
    rw [idle] at hr
    cases hr
  refine ⟨⟨c.behind, ?_, ?_, ?_, ?_, fun hu => absurd unreleased hu⟩, fun hh => ?_⟩
  · intro r p hr
    cases hr
  · intro h p hr
    cases hr
    exact ⟨active, rfl⟩
  · rintro (hm | ⟨r, p, hr, _⟩)
    · exact c.alone (.inl hm)
    · cases hr
  · intro _ r p hr
    cases hr
  · obtain ⟨answers, stops, held, few, starts, discards, accounted, kept⟩ := l hh
    refine ⟨?_, ?_, ?_, few, starts, discards, ?_, ?_⟩
    · intro r a hr
      cases hr
    · intro r a hr
      cases hr
    · intro hu
      rw [show (s.submitStop h).calls = s.calls from rfl, held unreleased]
      simp [owned, idle, active, Coordinator.submitStop]
    · intro r h hm
      rcases accounted r h hm with ha | ha | ha | ha
      · exact .inl ha
      · exact .inr (.inl ha)
      · exact .inr (.inr (.inl ha))
      · exact (nobody h ha).elim
    · intro r h hm hmap
      rcases kept r h hm hmap with ha | ha | ha
      · exact .inl ha
      · exact (nobody h ha).elim
      · exact .inr (.inr ha)

theorem Ledger.consume {s' : Coordinator} (l : s.Ledger) (idle : s'.future = none) (calls : s'.calls = s.calls)
    (held : s'.unconfirmed = [] → Interactive.held s.calls = s'.active.toList.map Handle.sessionId)
    (account : ∀ h, Closed h s.calls ∨ h ∈ s.unconfirmed ∨ s.active = some h ∨ s.Arriving h →
      Closed h s.calls ∨ h ∈ s'.unconfirmed ∨ s'.active = some h)
    (keep : ∀ h, h.mappingEnabled = true → s.Keeping h → s'.Keeping h) : s'.Ledger := by
  have free (work : Work) (x : Progress) : s'.future ≠ some ⟨work, x⟩ := by
    rw [idle]
    exact fun h => nomatch h
  refine ⟨fun r a hr => absurd hr (free _ _), fun h a hh => absurd hh (free _ _), ?_, calls ▸ l.few, calls ▸ l.starts,
    calls ▸ l.discards, ?_, ?_⟩
  · intro hu
    rw [calls, held hu]
    unfold owned
    rw [idle]
  · rw [calls]
    intro r h hm
    rcases account h (l.accounted r h hm) with ha | ha | ha
    · exact .inl ha
    · exact .inr (.inl ha)
    · exact .inr (.inr (.inl ha))
  · rw [calls]
    exact fun r h hm hmap => keep h hmap (l.kept r h hm hmap)

def activate (s : Coordinator) (h : Handle) (control : WindowControl) : Coordinator :=
  { s with future := none, operation := none, active := some h, failedOperation := none, control }

theorem Sound.activate {a : Answer} (k : s.Sound honest) (future : s.future = some ⟨.start r, .done (.ok a)⟩)
    (session : a = .session (some h)) (identity : r.sessionId = h.sessionId ∧ r.mappingEnabled = h.mappingEnabled)
    {control : WindowControl} (behind : control.Behind) : (s.activate h control).Sound honest := by
  obtain ⟨c, l⟩ := k
  subst session
  have unreleased := c.unreleased_of_future (by rw [future]; rfl)
  refine ⟨⟨behind, ?_, ?_, ?_, ?_, fun hu => absurd unreleased hu⟩, fun hh => ?_⟩
  · intro r p hr
    cases hr
  · intro h p hr
    cases hr
  · rintro (⟨h', ha, hm⟩ | ⟨r, p, hr, _⟩)
    · cases ha
      exact c.alone (.inr ⟨r, _, future, identity.2.trans hm⟩)
    · cases hr
  · intro _ r p hr
    cases hr
  · refine (l hh).consume (by rfl) (by rfl) ?_ ?_ ?_
    · intro _
      rw [(l hh).held unreleased]
      simp [owned, future, Coordinator.activate, identity.1]
    · intro h' ha
      rcases ha with ha | ha | ha | ⟨q, ha⟩
      · exact .inl ha
      · exact .inr (.inl ha)
      · rw [(c.starting r _ future).1] at ha
        cases ha
      · rw [future] at ha
        cases ha
        exact .inr (.inr rfl)
    · intro h' _ ha
      rcases ha with ha | ⟨q, ha⟩ | ha
      · rw [(c.starting r _ future).1] at ha
        cases ha
      · rw [future] at ha
        cases ha
        exact .inl rfl
      · exact .inr (.inr ha)

def drop (s : Coordinator) (failed : Option Operation) : Coordinator :=
  { s with future := none, operation := none, failedOperation := failed }

theorem Sound.drop {work : Work} {x : Except String Answer} (k : s.Sound honest)
    (future : s.future = some ⟨work, .done x⟩) (failed : Option Operation)
    (unstarted : honest → ∀ h, x ≠ .ok (.session (some h)))
    (unclosed : ∀ h closed text, work = .stop h → x = .ok (.closed closed text) → normalClose closed = false) :
    (s.drop failed).Sound honest := by
  obtain ⟨c, l⟩ := k
  have unreleased := c.unreleased_of_future (by rw [future]; rfl)
  refine ⟨⟨c.behind, ?_, ?_, ?_, ?_, fun hu => absurd unreleased hu⟩, fun hh => ?_⟩
  · intro r p hr
    cases hr
  · intro h p hr
    cases hr
  · rintro (hm | ⟨r, p, hr, _⟩)
    · exact c.alone (.inl hm)
    · cases hr
  · intro _ r p hr
    cases hr
  · have nobody (h : Handle) : ¬s.Arriving h := by
      rintro ⟨q, ha⟩
      rw [future] at ha
      cases ha
      exact unstarted hh h rfl
    refine (l hh).consume (by rfl) (by rfl) ?_ ?_ ?_
    · intro _
      rw [(l hh).held unreleased]
      cases work with
      | start r =>
        rw [show (s.drop failed).active = s.active from rfl, (c.starting r _ future).1]
        unfold owned
        rw [future]
        rcases x with e | (_ | (_ | h) | _)
        · rfl
        · rfl
        · rfl
        · exact (unstarted hh h rfl).elim
        · rfl
      | stop h =>
        rw [show (s.drop failed).active = s.active from rfl, (c.stopping h _ future).1]
        unfold owned
        rw [future]
        rcases x with e | (_ | _ | ⟨closed, text⟩)
        · rfl
        · rfl
        · rfl
        · dsimp only
          rw [unclosed h closed text rfl rfl]
          rfl
    · intro h' ha
      rcases ha with ha | ha | ha | ha
      · exact .inl ha
      · exact .inr (.inl ha)
      · exact .inr (.inr ha)
      · exact (nobody h' ha).elim
    · intro h' _ ha
      rcases ha with ha | ha | ha
      · exact .inl ha
      · exact (nobody h' ha).elim
      · exact .inr (.inr ha)

def closeActive (s : Coordinator) (h : Handle) (control : WindowControl) : Coordinator :=
  { s with
    future := none
    operation := none
    failedOperation := none
    active := none
    control
    pendingMap := if h.mappingEnabled then some h else s.pendingMap }

theorem Sound.closeActive {closed : Option CloseState} {text : String} (k : s.Sound honest)
    (future : s.future = some ⟨.stop h, .done (.ok (.closed closed text))⟩) (normal : normalClose closed = true)
    {control : WindowControl} (behind : control.Behind) : (s.closeActive h control).Sound honest := by
  obtain ⟨c, l⟩ := k
  have unreleased := c.unreleased_of_future (by rw [future]; rfl)
  obtain ⟨active, _⟩ := c.stopping h _ future
  refine ⟨⟨behind, ?_, ?_, ?_, ?_, fun hu => absurd unreleased hu⟩, fun hh => ?_⟩
  · intro r p hr
    cases hr
  · intro h p hr
    cases hr
  · rintro (⟨h', ha, _⟩ | ⟨r, p, hr, _⟩)
    · cases ha
    · cases hr
  · intro _ r p hr
    cases hr
  · have ended : Closed h s.calls := by
      obtain ⟨closed', text', same, called⟩ := (l hh).stops h _ future
      cases same
      exact ⟨closed, called, normal⟩
    refine (l hh).consume (by rfl) (by rfl) ?_ ?_ ?_
    · intro _
      rw [(l hh).held unreleased]
      simp [owned, future, Coordinator.closeActive, normal]
    · intro h' ha
      rcases ha with ha | ha | ha | ⟨q, ha⟩
      · exact .inl ha
      · exact .inr (.inl ha)
      · rw [active] at ha
        cases ha
        exact .inl ended
      · rw [future] at ha
        cases ha
    · intro h' hmap ha
      have waiting : h.mappingEnabled = true → (s.closeActive h control).pendingMap = some h := fun hm => by
        simp [Coordinator.closeActive, hm]
      rcases ha with ha | ⟨q, ha⟩ | ha | ha
      · rw [active] at ha
        cases ha
        exact .inr (.inr (.inl (waiting hmap)))
      · rw [future] at ha
        cases ha
      · -- A waiting map excludes that the stopped session was one.
        refine .inr (.inr (.inl ?_))
        unfold Coordinator.closeActive
        dsimp only
        by_cases hm : h.mappingEnabled = true
        · rw [(c.alone (.inl ⟨h, active, hm⟩)).1] at ha
          cases ha
        · rw [if_neg hm]
          exact ha
      · exact .inr (.inr (.inr ha))

/-- `backend.discard` of a session that has closed normally. -/
theorem Sound.discard (k : s.Sound honest) (preview : h.mappingEnabled = false) (ended : honest → Closed h s.calls) :
    ({ s with calls := .discard h :: s.calls } : Coordinator).Sound honest := by
  obtain ⟨c, l⟩ := k
  refine ⟨⟨c.behind, c.starting, c.stopping, c.alone, c.saving, c.released⟩, fun hh => ?_⟩
  obtain ⟨answers, stops, held, few, starts, discards, accounted, kept⟩ := l hh
  have now : (Interactive.held (.discard h :: s.calls)).length ≤ 1 := by
    change (Interactive.held s.calls).length ≤ 1
    cases hc : s.calls with
    | nil => simp [Interactive.held]
    | cons call calls =>
      rw [hc] at few
      exact few.1
  refine ⟨answers, ?_, held, ⟨now, few⟩, ⟨fun _ hd => (nomatch hd), starts⟩, ⟨?_, discards⟩, ?_, ?_⟩
  · intro h a hf
    obtain ⟨closed, text, same, called⟩ := stops h a hf
    exact ⟨closed, text, same, List.mem_cons_of_mem _ called⟩
  · intro h' same
    cases same
    exact ⟨preview, ended hh⟩
  · intro r h' hm
    rcases List.mem_cons.mp hm with hm | hm
    · cases hm
    · exact (accounted r h' hm).imp_left fun hc => hc.cons _
  · intro r h' hm hmap
    rcases List.mem_cons.mp hm with hm | hm
    · cases hm
    · exact kept r h' hm hmap

theorem Sound.startSave (k : s.Sound honest) (idle : s.future = none) (unsaved : s.saver = none)
    (waiting : s.pendingMap = some h) (job : Nat) :
    ({ s with saveSequence := job, pendingMap := none, savePollError := none, saver := some ⟨h, job, false, none⟩ } :
      Coordinator).Sound honest := by
  obtain ⟨c, l⟩ := k
  refine ⟨⟨c.behind, c.starting, c.stopping, ?_, ?_, c.released⟩, fun hh => ?_⟩
  · intro hm
    have empty := (c.alone hm).1
    rw [waiting] at empty
    cases empty
  · intro _ r p hr
    rw [show s.future = some ⟨.start r, p⟩ from hr] at idle
    cases idle
  · obtain ⟨answers, stops, held, few, starts, discards, accounted, kept⟩ := l hh
    refine ⟨answers, stops, held, few, starts, discards, accounted, ?_⟩
    intro r h' hm hmap
    rcases kept r h' hm hmap with ha | ha | ha | ⟨v, hv, _⟩ | ha
    · exact .inl ha
    · exact .inr (.inl ha)
    · rw [waiting] at ha
      cases ha
      exact .inr (.inr (.inr (.inl ⟨_, rfl, rfl⟩)))
    · rw [unsaved] at hv
      cases hv
    · exact .inr (.inr (.inr (.inr ha)))

theorem Sound.saved {v : OwnedSave} {result : SaveResult} (k : s.Sound honest) (saver : s.saver = some v)
    (same : result.sessionId = v.handle.sessionId) :
    ({ s with results := s.results ++ [result], saver := none } : Coordinator).Sound honest := by
  obtain ⟨c, l⟩ := k
  refine ⟨⟨c.behind, c.starting, c.stopping, fun hm => ⟨(c.alone hm).1, rfl⟩, fun hs => absurd rfl hs, c.released⟩,
    fun hh => ?_⟩
  obtain ⟨answers, stops, held, few, starts, discards, accounted, kept⟩ := l hh
  refine ⟨answers, stops, held, few, starts, discards, accounted, ?_⟩
  intro r h' hm hmap
  rcases kept r h' hm hmap with ha | ha | ha | ⟨w, hw, hk⟩ | ⟨x, hx, hk⟩
  · exact .inl ha
  · exact .inr (.inl ha)
  · exact .inr (.inr (.inl ha))
  · rw [saver] at hw
    cases hw
    refine .inr (.inr (.inr (.inr ⟨result, ?_, same.trans (congrArg Handle.sessionId hk)⟩)))
    exact List.mem_append_right _ (List.mem_singleton.mpr rfl)
  · exact .inr (.inr (.inr (.inr ⟨x, List.mem_append_left _ hx, hk⟩)))

def release (s : Coordinator) (h : Handle) (control : WindowControl) : Coordinator :=
  { s with
    unconfirmed := s.unconfirmed ++ [h]
    pendingMap := if h.mappingEnabled then some h else s.pendingMap
    active := none
    control }

theorem Sound.release (k : s.Sound honest) (idle : s.future = none) (active : s.active = some h)
    (closing : s.closing = true) {control : WindowControl} (behind : control.Behind) :
    (s.release h control).Sound honest := by
  obtain ⟨c, l⟩ := k
  have free (work : Work) (p : Progress) : (s.release h control).future ≠ some ⟨work, p⟩ := by
    rw [show (s.release h control).future = s.future from rfl, idle]
    exact fun h => nomatch h
  refine ⟨⟨behind, fun r p hr => absurd hr (free _ _), fun h p hr => absurd hr (free _ _), ?_,
    fun _ r p => free _ _, fun _ => ⟨idle, rfl, closing⟩⟩, fun hh => ?_⟩
  · rintro (⟨h', ha, _⟩ | ⟨r, p, hr, _⟩)
    · cases ha
    · exact absurd hr (free _ _)
  · refine (l hh).consume idle (by rfl) ?_ ?_ ?_
    · intro hu
      simp [Coordinator.release] at hu
    · intro h' ha
      rcases ha with ha | ha | ha | ⟨q, ha⟩
      · exact .inl ha
      · exact .inr (.inl (List.mem_append_left _ ha))
      · rw [active] at ha
        cases ha
        exact .inr (.inl (List.mem_append_right _ (List.mem_singleton.mpr rfl)))
      · rw [idle] at ha
        cases ha
    · intro h' hmap ha
      rcases ha with ha | ⟨q, ha⟩ | ha | ha
      · rw [active] at ha
        cases ha
        exact .inr (.inr (.inl (by simp [Coordinator.release, hmap])))
      · rw [idle] at ha
        cases ha
      · refine .inr (.inr (.inl ?_))
        unfold Coordinator.release
        dsimp only
        by_cases hm : h.mappingEnabled = true
        · rw [(c.alone (.inl ⟨h, active, hm⟩)).1] at ha
          cases ha
        · rw [if_neg hm]
          exact ha
      · exact .inr (.inr (.inr ha))

end Coordinator
end Smartwheel.Interactive

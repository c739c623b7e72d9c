import Smartwheel.Wheel.Bench
import Smartwheel.Wheel.Shape

/-! Every initialization write, every pre-enable zero and every nonzero velocity of every run is written
for a user intent that is current at that moment. -/
namespace Smartwheel.Wheel
open Modbus Effect

variable {control : Control} {w w' : World}

namespace Event

def turns : Event → Bool
  | .disarmed .. | .refreshed .. => true
  | _ => false

def isSampled : Event → Bool
  | .sampled .. => true
  | _ => false

theorem turns_of_quiet {e : Event} (h : e.quiet = true) : e.turns = false := by
  cases e <;> first | rfl | cases h

theorem isSampled_of_quiet {e : Event} (h : e.quiet = true) : e.isSampled = false := by
  cases e <;> first | rfl | cases h

end Event

/-- The held keys were last refreshed at `last`, by a packet of the current generation that carried them;
no disarm has happened since. -/
def RefreshedAt (last : ℚ) (s : Session) (h : History) : Prop :=
  ∃ p before, Latest Event.turns (.refreshed last p) before h ∧
    p.armGeneration = some (s.armGeneration : Int) ∧
    ∃ previous sequence, p.keyRequest previous = some (sequence, s.keys)

def Refreshed (s : Session) (h : History) : Prop :=
  s.keys ≠ ∅ → ∃ last, s.lastKeys = some last ∧ RefreshedAt last s h

/-- The latest valid feedback was taken at `last_feedback`. -/
def Observed (s : Session) (h : History) : Prop :=
  ∀ last, s.lastFeedback = some last → ∃ words before, Latest Event.isSampled (.sampled last words) before h

variable {h : History} {s s' : Session}

theorem Refreshed.grow {l : History} (hr : Refreshed s h)
    (hk : s'.keys = s.keys) (hl : s'.lastKeys = s.lastKeys) (hg : s'.armGeneration = s.armGeneration)
    (hes : ∀ e ∈ l, e.turns = false) : Refreshed s' (l ++ h) := by
  intro held
  rw [hk] at held
  obtain ⟨last, hlast, p, before, latest, generation, carried⟩ := hr held
  exact ⟨last, hl.trans hlast, p, before, latest.append hes, by rw [hg]; exact generation, by rw [hk]; exact carried⟩

theorem Refreshed.log {e : Event} (hr : Refreshed s h)
    (hk : s'.keys = s.keys) (hl : s'.lastKeys = s.lastKeys) (hg : s'.armGeneration = s.armGeneration)
    (he : e.turns = false) : Refreshed s' (e :: h) :=
  hr.grow (l := [e]) hk hl hg (by simpa using he)

theorem Refreshed.none (hk : s.keys = ∅) : Refreshed s h :=
  fun held => absurd hk held

theorem Accepted.refreshed {p : Packet} {keys : Finset Key} (h : Accepted control p keys s)
    (now : ℚ) (trace : History) (hk : s'.keys = keys) (hl : s'.lastKeys = some now)
    (hg : s'.armGeneration = s.armGeneration) : Refreshed s' (.refreshed now p :: trace) := by
  refine fun _ => ⟨now, hl, p, trace, .now _ _ _, ?_, ?_⟩
  · rw [hg]; exact h.generation
  · rw [hk]; exact h.carried

theorem refreshed_step (h : Move control w w') (hr : Refreshed w.session w.trace) :
    Refreshed w'.session w'.trace := by
  cases h with
  | observe hs =>
    obtain ⟨es, ht, hes⟩ := hs.trace
    rw [hs.session, ht]
    exact hr.grow rfl rfl rfl fun e he => Event.turns_of_quiet (hes e he)
  | keep f hf =>
    have same := alike hf
    exact hr.grow (l := []) same.keys same.lastKeys same.armGeneration (by simp)
  | disarm reason normal => exact .none (idle_disarmed _ _ _ _).keys
  | hold p keys now h => exact h.refreshed now _ rfl rfl rfl
  | oppose p keys now h => exact h.refreshed now _ rfl rfl rfl
  | attend | push | wait | sample => exact hr.log (by simp) (by simp) (by simp) rfl
  | release => exact hr.grow (l := []) (by simp) (by simp) (by simp) (by simp)
  | clear | drop => exact .none rfl
  | connect | leave | book | rest | start | initialized | attempt | fault | closing | close =>
    exact hr.grow (l := []) rfl rfl rfl (by simp)
  | _ => exact hr.log rfl rfl rfl rfl

theorem Observed.grow {l : History} (ho : Observed s h)
    (hl : s'.lastFeedback = s.lastFeedback) (hes : ∀ e ∈ l, e.isSampled = false) :
    Observed s' (l ++ h) := by
  intro last hlast
  obtain ⟨words, before, latest⟩ := ho last (hl.symm.trans hlast)
  exact ⟨words, before, latest.append hes⟩

theorem observed_step (h : Move control w w') (ho : Observed w.session w.trace) :
    Observed w'.session w'.trace := by
  cases h with
  | observe hs =>
    obtain ⟨es, ht, hes⟩ := hs.trace
    rw [hs.session, ht]
    exact ho.grow rfl fun e he => Event.isSampled_of_quiet (hes e he)
  | keep f hf => exact ho.grow (l := []) (alike hf).lastFeedback (by simp)
  | sample now words =>
    intro last hlast
    obtain rfl : now = last := by simpa using hlast
    exact ⟨words, w.trace, .now _ _ _⟩
  | disarm | attend | push | wait => exact ho.grow (l := [_]) (by simp) (by simp [Event.isSampled])
  | release => exact ho.grow (l := []) (by simp) (by simp)
  | clear | drop | connect | leave | book | rest | start | initialized | attempt | fault | closing | close =>
    exact ho.grow (l := []) rfl (by simp)
  | _ => exact ho.grow (l := [_]) rfl (by simp [Event.isSampled])

/-- The intent behind a write: `recent` is what happened since the socket was pumped. -/
structure Current (control : Control) (s : Session) (recent earlier : History) : Prop where
  pumped : Pumped recent earlier
  allowed : control.armAllowed = true
  connected : s.peerConnected = true
  running : s.stopRequested = false
  held : s.keys ≠ ∅
  target : control.target s.keys ≠ (0, 0)
  refreshed : ∃ now last, Event.clock now ∈ recent ∧ s.lastKeys = some last ∧ now - last < quarter ∧
    RefreshedAt last s earlier
  observed : ∃ now last words before, Event.clock now ∈ recent ∧ s.lastFeedback = some last ∧
    now - last ≤ quarter ∧ Latest Event.isSampled (.sampled last words) before earlier
  foreground : control.hybridManual = true → Foreground s recent

structure IntentGuard (control : Control) (purpose : Purpose) (request : Bytes) (seen : Machine)
    (earlier : History) : Prop where
  current : ∃ recent, Current control seen.session recent earlier
  initializing : request ∈ initializationWrites ∨ purpose = .initialization →
    seen.session.state = .initializing
  armed : functionCode request = 0x10 → request ≠ zeroRequest →
    seen.session.state = .armed ∧ control.velocityRequest (control.target seen.session.keys) = .ok request

def Intentional (purpose : Purpose) (request : Bytes) : Prop :=
  request ∈ initializationWrites ∨ purpose = .initialization ∨
    functionCode request = 0x10 ∧ request ≠ zeroRequest

instance (purpose : Purpose) (request : Bytes) : Decidable (Intentional purpose request) :=
  inferInstanceAs (Decidable (_ ∨ _))

variable {request : Bytes}

theorem code_of_initialization (h : request ∈ initializationWrites) : functionCode request = 6 := by
  revert h
  have all : ∀ r ∈ initializationWrites, functionCode r = 6 := by decide +kernel
  exact all request

theorem code_of_velocity {target : ℚ × ℚ} (h : control.velocityRequest target = .ok request) :
    functionCode request = 0x10 := by
  obtain ⟨left, right, rfl⟩ := Control.velocityRequest_eq_ok h
  rfl

theorem intent_of_guarded {purpose : Purpose} (hg : Guarded control purpose request w)
    (hi : Intentional purpose request) (hr : Refreshed w.session w.trace) (ho : Observed w.session w.trace) :
    IntentGuard control purpose request w.machine w.trace := by
  have current : ∀ recent, Pumped recent w.trace → Intended control w.session recent →
      Current control w.session recent w.trace := by
    intro recent pumped intended
    obtain ⟨now, last, seen, hc, hl, hn, hs, hf⟩ := intended.fresh
    have held := keys_of_target intended.target
    obtain ⟨last', hl', refreshed⟩ := hr held
    obtain rfl : last = last' := Option.some.inj (hl.symm.trans hl')
    obtain ⟨words, before, latest⟩ := ho seen hs
    exact ⟨pumped, intended.allowed, intended.connected, intended.running, held, intended.target,
      ⟨now, last, hc, hl, hn, refreshed⟩, ⟨now, seen, words, before, hc, hs, hf, latest⟩, intended.foreground⟩
  cases purpose with
  | query =>
    obtain rfl : request = query := hg
    exact absurd hi (by decide +kernel)
  | initialization =>
    obtain ⟨hm, state, recent, pumped, intended⟩ := hg
    refine ⟨⟨recent, current recent pumped intended⟩, fun _ => state, fun hc hz => ?_⟩
    rcases hm with hm | hm
    · rw [code_of_initialization hm] at hc
      cases hc
    · exact absurd hm hz
  | velocity target =>
    obtain ⟨built, state, rfl, recent, pumped, intended⟩ := hg
    refine ⟨⟨recent, current recent pumped intended⟩, fun hm => ?_, fun _ _ => ⟨state, built⟩⟩
    rcases hm with hm | hm
    · have code := code_of_velocity built
      rw [code_of_initialization hm] at code
      cases code
    · cases hm
  | stop =>
    obtain rfl : request = zeroRequest := hg.1
    exact absurd hi (by decide +kernel)
  | release =>
    obtain rfl : request = releaseRequest := hg.1
    exact absurd hi (by decide +kernel)
  | recovery => exact hg.elim

def GuardedWrite (control : Control) : Event → History → Prop
  | .write purpose request seen, earlier =>
    Intentional purpose request → IntentGuard control purpose request seen earlier
  | _, _ => True

structure Minded (control : Control) (w : World) : Prop where
  refreshed : Refreshed w.session w.trace
  observed : Observed w.session w.trace
  guarded : Always (GuardedWrite control) w.trace

theorem guarded_step (h : Move control w w') (hm : Minded control w) :
    Always (GuardedWrite control) w'.trace := by
  cases h with
  | observe hs =>
    obtain ⟨es, ht, hes⟩ := hs.trace
    rw [ht]
    refine hm.guarded.append fun e he _ => ?_
    have hq := hes e he
    cases e <;> trivial
  | write purpose request hf hg =>
    exact ⟨fun hi => intent_of_guarded hg hi hm.refreshed hm.observed, hm.guarded⟩
  | recover => exact ⟨fun hi => absurd hi (by decide +kernel), hm.guarded⟩
  | keep | book | connect | leave | clear | release | rest | start | initialized | drop | attempt | fault
  | closing | close => exact hm.guarded
  | _ => exact ⟨trivial, hm.guarded⟩

theorem minded_step (h : Move control w w') (hm : Minded control w) : Minded control w' :=
  ⟨refreshed_step h hm.refreshed, observed_step h hm.observed, guarded_step h hm⟩

theorem initial_minded (control : Control) : Minded control (initial control) :=
  ⟨fun h => absurd rfl h, fun _ h => (by cases h), trivial⟩

/-- An initialization write, a pre-enable zero or a nonzero velocity is written only for held keys that a packet of
the current generation refreshed in time and that want motion, with fresh feedback, no stop pending, and the state
that belongs to the write. -/
theorem intent_write_guarded (env : Env) (control : Control) (ops : List Operation) {purpose : Purpose}
    {request : Bytes} {seen : Machine} {later earlier : History}
    (h : (run env control ops (initial control)).2.trace = later ++ .write purpose request seen :: earlier)
    (hi : Intentional purpose request) : IntentGuard control purpose request seen earlier := by
  have minded : Minded control (run env control ops (initial control)).2 :=
    (run_path env control ops).keeps (fun _ _ => minded_step) (initial_minded control)
  exact minded.guarded.split h hi

def Event.isVelocity : Event → Bool
  | .write _ request _ => functionCode request = 0x10 ∧ request ≠ zeroRequest
  | _ => false

/-- On the bench the held key does send a velocity. -/
theorem bench_intent_guarded :
    let control := Bench.control true .hybridManual
    ∃ purpose request seen later earlier,
      (run (Bench.environment Bench.driving) control (Bench.cycles 11) (initial control)).2.trace =
        later ++ .write purpose request seen :: earlier ∧
      request ≠ zeroRequest ∧ IntentGuard control purpose request seen earlier := by
  intro control
  have written : (run (Bench.environment Bench.driving) control (Bench.cycles 11)
      (initial control)).2.trace.any Event.isVelocity = true := by decide +kernel
  obtain ⟨e, hm, he⟩ := List.any_eq_true.mp written
  obtain ⟨later, earlier, split⟩ := List.append_of_mem hm
  cases e with
  | write purpose request seen =>
    have hv : functionCode request = 0x10 ∧ request ≠ zeroRequest := by simpa [Event.isVelocity] using he
    exact ⟨purpose, request, seen, later, earlier, split, hv.2,
      intent_write_guarded (Bench.environment Bench.driving) control (Bench.cycles 11) split (.inr (.inr hv))⟩
  | _ => cases he

end Smartwheel.Wheel

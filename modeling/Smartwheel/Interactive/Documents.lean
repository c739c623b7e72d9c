import Mathlib.Data.List.Dedup
import Smartwheel.Interactive.Panel
import Smartwheel.Interactive.Rounds

/-! Conservation of sessions: whatever is clicked, asked to stop, raised or reported, a window owns one session at a
time, and every session it started is closed or given up, with its map saved or reported. -/
namespace Smartwheel.Interactive
open Effect

def Coordinator.sessions (s : Coordinator) : List String :=
  let working := match s.future with
    | some ⟨.start request, _⟩ => [request.sessionId]
    | some ⟨.stop handle, _⟩ => [handle.sessionId]
    | none => []
  (working ++ s.active.toList.map Handle.sessionId).dedup

namespace Machine
variable {m m₀ : Machine}

structure Conserved (m : Machine) : Prop where
  one : m.me.sessions.length ≤ 1
  few : Always (fun call earlier => (held (call :: earlier)).length ≤ 1) m.me.calls
  starts : Always (fun call earlier => ∀ request, call = .start request → held earlier = []) m.me.calls
  discards : Always (fun call earlier => ∀ handle, call = .discard handle →
    handle.mappingEnabled = false ∧ Closed handle earlier) m.me.calls
  confirmed : ∀ result code, m.phase = .ended (.ok (result, code)) → ∀ request handle,
    Call.started request handle ∈ m.me.calls →
      Closed handle m.me.calls ∨ handle ∈ result.unconfirmedOwnedSessions
  kept : ∀ result code, m.phase = .ended (.ok (result, code)) → ∀ request handle,
    Call.started request handle ∈ m.me.calls → handle.mappingEnabled = true →
      (∃ save ∈ result.saves, save.sessionId = handle.sessionId) ∨
        ∃ pending ∈ result.pendingSessions, pending.sessionId = handle.sessionId

theorem one_session {s : Coordinator} (c : s.Custody) : s.sessions.length ≤ 1 := by
  have single (l : List String) (h : l.length ≤ 1) : l.dedup.length ≤ 1 :=
    (List.dedup_sublist l).length_le.trans h
  unfold Coordinator.sessions
  cases hf : s.future with
  | none =>
    apply single
    cases s.active <;> simp
  | some f =>
    obtain ⟨work, p⟩ := f
    cases work with
    | start r =>
      rw [(c.starting r p hf).1]
      exact single _ (by simp)
    | stop h =>
      rw [(c.stopping h p hf).1]
      simp

theorem Safe.conserved (safe : m.Safe True) : m.Conserved := by
  obtain ⟨⟨custody, ledger⟩, stands⟩ := safe
  obtain ⟨_, _, _, few, starts, discards, _, _⟩ := ledger trivial
  refine ⟨one_session custody, few, starts, discards, fun result code ended => ?_, fun result code ended => ?_⟩
  · unfold Stands at stands
    rw [ended] at stands
    exact stands.confirmed trivial
  · unfold Stands at stands
    rw [ended] at stands
    exact stands.kept trivial

theorem run_safe {honest : Prop} {events : List Event} (safe : m₀.Safe honest)
    (h : honest → ∀ e ∈ events, e.Honest) : (events.foldl next m₀).Safe honest := by
  induction events generalizing m₀ with
  | nil => exact safe
  | cons e events ih =>
    apply ih
    · exact (next_moves (C := False) safe (fun hh => h hh e (List.mem_cons_self ..)) fun hc => hc.elim).safe
    · exact fun hh e' he => h hh e' (List.mem_cons_of_mem e he)

theorem sessions_conserved {request : Request} {owner : Owner} {token : String}
    {disk : Nat → Status → Option String} (opened : Machine.open request owner token disk = some m₀)
    {events : List Event} (honest : ∀ e ∈ events, e.Honest) : (events.foldl next m₀).Conserved :=
  (run_safe (open_safe opened).1 fun _ => honest).conserved

end Machine

/-! A window that is asked for one map: its preview, the map, the stop, and the close while the map is being saved. -/
namespace Bench

def owner : Owner := ⟨"/robot", "w", 7, "11", "/robot/.phase1_runtime/mapping_windows/w"⟩

def request : Request := ⟨"r", "/robot/maps/r", "all", true, none, "experiment", []⟩

def token (n : Nat) : String := String.ofList (List.replicate 31 '0') ++ toString n

def opened : Machine :=
  let control := WindowControl.opening owner (token 0) fun _ _ => none
  ⟨.opened request { control with writes := 1, published := [control.status] }, .begin⟩

def quiet : Answers := { Answers.silent with inspect := .ok ("RUNNING", ""), discard := .ok "SESSION_DATA_DISCARDED" }

def click (generation : Nat) (active : String) (n : Nat) (action : String) : Answers := { quiet with
  token := token n
  command := .document <| owner.identity ++ [("generation", .int generation), ("active_session_id", .str active),
    ("command_token", .str (token (n - 1))), ("sequence", .int n), ("nonce", .str (token (n + 4))),
    ("action", .str action)] }

def round (a : Answers) : List Event := [.advance a, .advance quiet, .advance quiet]

def started : List Event :=
  [.work (.check none false), .work (.start fun r => .ok (some ⟨r.sessionId, r.outputDir, "/rt", r.mappingEnabled⟩))] ++
    round quiet

def stopped : Event := .work (.stop fun _ => .ok (some ⟨"STOPPED", some 0, []⟩, ""))

def mapped : List Event :=
  [.advance quiet] ++ started ++ round (click 1 "w_p0001" 1 "start") ++ [stopped] ++ round quiet ++ started ++
    round (click 4 "w_m0002" 2 "stop") ++ [stopped] ++ round quiet ++ started

def closed : List Event :=
  mapped ++ [.saverExited 0] ++ round { quiet with stopRequested := true } ++ [stopped] ++
    List.replicate 6 (.advance quiet)

def saves (m : Machine) : List String :=
  match m.phase with
  | .ended (.ok (result, _)) => result.saves.map SaveResult.sessionId
  | _ => []

theorem open_opened : Machine.open request owner (token 0) (fun _ _ => none) = some opened := rfl

theorem round_honest (a : Answers) : ∀ e ∈ round a, e.Honest := by
  simp [round, Event.Honest]

theorem started_honest : ∀ e ∈ started, e.Honest := by
  have checks : (Event.work (.check none false)).Honest := fun answer h => nomatch h
  have starts : (Event.work (.start fun r =>
      .ok (some ⟨r.sessionId, r.outputDir, "/rt", r.mappingEnabled⟩))).Honest := by
    rintro answer ⟨⟩ r x ⟨⟩
    exact ⟨_, rfl, rfl, rfl⟩
  intro e he
  rcases List.mem_append.mp he with he | he
  · simp only [List.mem_cons, List.not_mem_nil, or_false] at he
    rcases he with rfl | rfl
    · exact checks
    · exact starts
  · exact round_honest quiet e he

theorem closed_honest : ∀ e ∈ closed, e.Honest := by
  have stops : stopped.Honest := fun answer h => nomatch h
  have advances (a : Answers) : (Event.advance a).Honest := trivial
  simp only [closed, mapped, List.forall_mem_append, List.forall_mem_singleton, and_assoc]
  refine ⟨advances quiet, started_honest, round_honest _, stops, round_honest _, started_honest, round_honest _, stops,
    round_honest _, started_honest, trivial, round_honest _, stops, ?_⟩
  intro e he
  rw [List.eq_of_mem_replicate he]
  exact advances quiet

end Bench

theorem bench_sessions_conserved :
    Bench.saves (Bench.closed.foldl Machine.next Bench.opened) = ["w_m0002"] ∧
      (Bench.closed.foldl Machine.next Bench.opened).Conserved :=
  ⟨by decide +kernel, Machine.sessions_conserved Bench.open_opened Bench.closed_honest⟩

/-! ### What the documents of one window say of each other: within a generation they agree, and a new session comes with
a new view generation. A panel relies on it and closes its window where a document breaks it. -/

structure Consistent (documents : List Status) : Prop where
  generation : ∀ d ∈ documents, ∀ d' ∈ documents, d.generation = d'.generation → d.Agrees d'
  view : ∀ d ∈ documents, ∀ d' ∈ documents, d.viewGeneration = d'.viewGeneration → d.activeSession = d'.activeSession

namespace WindowControl
variable {c c' : WindowControl} {file : CommandFile} {token : String}

def Shows (c : WindowControl) : Prop :=
  ∀ d ∈ c.published.head?, d.generation = c.status.generation → d.viewGeneration = c.status.viewGeneration

structure Faithful (c : WindowControl) : Prop where
  behind : c.Behind
  state : ∀ d ∈ c.published, d.generation = c.status.generation → d.state = c.status.state
  latest : ∀ newest ∈ c.published.head?, ∀ d ∈ c.published, d.generation ≤ newest.generation
  consistent : Consistent c.published

theorem Faithful.agreeing (f : c.Faithful) (shows : c.Shows) : c.Agreeing := by
  intro d hd same
  have view : d.viewGeneration = c.status.viewGeneration := by
    cases hp : c.published with
    | nil =>
      rw [hp] at hd
      cases hd
    | cons newest older =>
      have first : newest ∈ c.published.head? := by
        rw [hp]
        rfl
      have among : newest ∈ c.published := List.mem_of_mem_head? first
      have above := f.latest newest first d hd
      have below := f.behind.generation newest among
      have current : newest.generation = c.status.generation := by omega
      have agrees := f.consistent.generation d hd newest among (same.trans current.symm)
      exact agrees.viewGeneration.symm.trans (shows newest first current)
  exact ⟨f.state d hd same, view, f.behind.binding d hd view⟩

theorem Faithful.published (f : c.Faithful) (agreeing : c.Agreeing) :
    ({ c with published := c.status :: c.published } : WindowControl).Faithful where
  behind := f.behind.published
  state d hd same := by
    rcases List.mem_cons.mp hd with rfl | hd
    · rfl
    · exact f.state d hd same
  latest newest hn d hd := by
    cases hn
    exact f.behind.published.generation d hd
  consistent := by
    constructor
    · intro d hd d' hd' same
      rcases List.mem_cons.mp hd with rfl | hd
      · rcases List.mem_cons.mp hd' with rfl | hd'
        · exact ⟨rfl, rfl, rfl⟩
        · exact agreeing d' hd' same.symm
      · rcases List.mem_cons.mp hd' with rfl | hd'
        · exact (agreeing d hd same).symm
        · exact f.consistent.generation d hd d' hd' same
    · intro d hd d' hd' same
      rcases List.mem_cons.mp hd with rfl | hd
      · rcases List.mem_cons.mp hd' with rfl | hd'
        · rfl
        · exact (f.behind.binding d' hd' same.symm).symm
      · rcases List.mem_cons.mp hd' with rfl | hd'
        · exact f.behind.binding d hd same
        · exact f.consistent.view d hd d' hd' same

theorem Moved.faithful (h : Moved True file token c c') (f : c.Faithful) : c'.Faithful := by
  have behind := h.behind f.behind
  cases h with
  | transition values keeps =>
    refine ⟨behind, fun d hd same => ?_, f.latest, f.consistent⟩
    -- The new generation has no document.
    exact (f.behind.bumped keeps d hd same).state
  | noted values keeps state =>
    refine ⟨behind, fun d hd same => ?_, f.latest, f.consistent⟩
    exact (f.state d hd (same.trans (keeps.generation _))).trans (state _).symm
  | bound handle => exact ⟨behind, f.state, f.latest, f.consistent⟩
  | answered command =>
    have kept := answered_acknowledges c command token
    have published := answered_published c command token
    refine ⟨behind, fun d hd same => ?_, published ▸ f.latest, published ▸ f.consistent⟩
    exact (f.state d (published ▸ hd) (same.trans kept.generation)).trans kept.state.symm
  | counted => exact ⟨behind, f.state, f.latest, f.consistent⟩
  | published agreeing => exact f.published (agreeing trivial)

end WindowControl

namespace Panel
variable {p : Panel} {documents : List Status}

structure Trusting (documents : List Status) (p : Panel) : Prop where
  status : ∀ s ∈ p.status, s ∈ documents
  patient : ∀ fault, p.failed = some fault → ¬fault.Contradiction

variable {fault : PanelFault}

theorem bind_error {α : Type} {x : Except PanelFault α} {f : α → Except PanelFault Unit}
    (h : (x >>= f) = .error fault) : x = .error fault ∨ ∃ v, x = .ok v ∧ f v = .error fault := by
  cases x with
  | error e => exact .inl (congrArg _ (Except.error.inj h))
  | ok v => exact .inr ⟨v, rfl, h⟩

theorem require_error {c : Prop} [Decidable c] {e : PanelFault} (h : require c e = .error fault) : fault = e ∧ ¬c := by
  unfold require at h
  split at h
  · cases h
  · cases h
    exact ⟨rfl, by assumption⟩

theorem checkAgainst_error {before read : Status} (h : checkAgainst before read = .error fault)
    (contradiction : fault.Contradiction) :
    before.generation = read.generation ∧ ¬before.Agrees read ∨
      before.viewGeneration = read.viewGeneration ∧ before.activeSession ≠ read.activeSession := by
  unfold checkAgainst at h
  rcases bind_error h with h | ⟨-, -, h⟩
  · obtain ⟨-, differs⟩ := require_error h
    obtain ⟨same, differs⟩ := not_or.mp differs
    exact .inl ⟨(not_not.mp same).symm, fun agrees => differs
      ⟨agrees.activeSession, agrees.viewGeneration, agrees.state⟩⟩
  rcases bind_error h with h | ⟨-, -, h⟩
  · obtain ⟨-, differs⟩ := require_error h
    obtain ⟨same, differs⟩ := not_or.mp differs
    exact .inr ⟨(not_not.mp same).symm, fun equal => differs equal.symm⟩
  rcases bind_error h with h | ⟨last, -, h⟩
  · exact absurd contradiction (number_error h)
  · obtain ⟨rfl, -⟩ := require_error h
    rcases contradiction with h | h <;> cases h

theorem check_error {read : Status} (h : p.check read = .error fault)
    (contradiction : fault.Contradiction) : ∃ before ∈ p.status, checkAgainst before read = .error fault := by
  have other {c : Prop} [Decidable c] {e : PanelFault} (h : require c e = .error fault) (he : ¬e.Contradiction) :
      ∃ before ∈ p.status, checkAgainst before read = .error fault := by
    obtain ⟨rfl, -⟩ := require_error h
    exact absurd contradiction he
  unfold check at h
  rcases bind_error h with h | ⟨-, -, h⟩
  · exact other h (by simp [PanelFault.Contradiction])
  rcases bind_error h with h | ⟨_, -, h⟩
  · exact absurd contradiction (number_error h)
  rcases bind_error h with h | ⟨_, -, h⟩
  · exact absurd contradiction (number_error h)
  rcases bind_error h with h | ⟨_, -, h⟩
  · exact absurd contradiction (number_error h)
  rcases bind_error h with h | ⟨-, -, h⟩
  · exact other h (by simp [PanelFault.Contradiction])
  rcases bind_error h with h | ⟨-, -, h⟩
  · exact other h (by simp [PanelFault.Contradiction])
  cases hs : p.status with
  | none =>
    rw [hs] at h
    cases h
  | some before =>
    rw [hs] at h
    exact ⟨before, rfl, h⟩

theorem check_consistent {read : Status} (consistent : Consistent documents)
    (status : ∀ s ∈ p.status, s ∈ documents) (among : read ∈ documents) (h : p.check read = .error fault) :
    ¬fault.Contradiction := by
  intro contradiction
  obtain ⟨before, hb, refused⟩ := check_error h contradiction
  have earlier := status before hb
  rcases checkAgainst_error refused contradiction with ⟨same, differs⟩ | ⟨same, differs⟩
  · exact differs (consistent.generation before earlier read among same)
  · exact differs (consistent.view before earlier read among same)

theorem Trusting.next (trusting : p.Trusting documents) (consistent : Consistent documents) {e : PanelEvent}
    (reads : ∀ read ∈ e.reads, read ∈ documents) : (p.next e).Trusting documents := by
  have polled {read : Status} {p₁ : Panel} (h : p.Polled read p₁) (among : read ∈ documents) :
      p₁.Trusting documents := by
    constructor
    · rcases h.seen with unseen | seen
      · rw [unseen.status]
        exact trusting.status
      · rw [seen.status]
        rintro s ⟨⟩
        exact among
    · intro fault failed contradiction
      rcases h.accused fault failed contradiction with before | refused
      · exact trusting.patient fault before contradiction
      · exact check_consistent consistent trusting.status among refused contradiction
  have refused {p₁ p₂ : Panel} (h : p₁.Trusting documents) (refused : p₁.Refused p₂) : p₂.Trusting documents := by
    obtain ⟨fault, other⟩ := refused
    refine ⟨h.status, ?_⟩
    rintro _ ⟨⟩
    exact other
  have clicked {p₁ p₂ : Panel} {read : Status} {nonce : String} (h : p₁.Trusting documents)
      (clicked : p₁.Clicked read nonce p₂) : p₂.Trusting documents := by
    obtain ⟨c, -, -, -, -, -⟩ := clicked
    exact ⟨h.status, h.patient⟩
  have idle : ({ p with sending := none } : Panel).Trusting documents := ⟨trusting.status, trusting.patient⟩
  cases e with
  | poll read a => exact polled (poll_polled p read a) (reads read rfl)
  | click read a nonce identity =>
    obtain ⟨p₁, h, requested⟩ := request_cases p read a nonce identity
    have trusting₁ := polled h (reads read rfl)
    change (request read a nonce identity p).2.Trusting documents
    rcases requested with same | closed | requested
    · rw [same]
      exact trusting₁
    · exact refused trusting₁ closed
    · exact clicked trusting₁ requested
  | commit error =>
    change (p.commit error).1.Trusting documents
    rcases commit_cases p error with same | sent | closed
    · rw [same]
      exact trusting
    · rw [← sent]
      exact ⟨idle.status, idle.patient⟩
    · exact refused idle closed

theorem trusts (consistent : Consistent documents) (owner : Owner) {events : List PanelEvent}
    (reads : ∀ e ∈ events, ∀ read ∈ e.reads, read ∈ documents) : (events.foldl next (new owner)).Trusting documents := by
  have start : (new owner).Trusting documents := ⟨fun s hs => (nomatch hs), fun fault h => (nomatch h)⟩
  generalize new owner = p at start
  induction events generalizing p with
  | nil => exact start
  | cons e events ih =>
    apply ih fun e' he => reads e' (List.mem_cons_of_mem e he)
    exact start.next consistent (reads e (List.mem_cons_self ..))

end Panel

namespace Machine
variable {m m₀ : Machine}

def Presented (m : Machine) (e : Event) : Prop :=
  ∀ a, e = .advance a → m.Collects → m.me.Delivers → m.me.control.Shows

theorem documents_faithful {request : Request} {owner : Owner} {token : String}
    {disk : Nat → Status → Option String} (opened : Machine.open request owner token disk = some m₀)
    (run : Run Presented m₀ m) : m.me.control.Faithful := by
  have safe : m₀.Safe False := (open_safe opened).1
  have unpublished : (WindowControl.opening owner token disk).Faithful :=
    ⟨⟨fun d hd => (nomatch hd), fun d hd => (nomatch hd), fun d hd => (nomatch hd)⟩, fun d hd => (nomatch hd),
      fun newest hn => (nomatch hn), ⟨fun d hd => (nomatch hd), fun d hd => (nomatch hd)⟩⟩
  have first : m₀.me.control.Faithful :=
    (open_path (C := True) opened).keeps (fun _ _ moved => moved.faithful) unpublished
  have kept : m.Safe False ∧ m.me.control.Faithful := by
    apply run.keeps (P := fun m => m.Safe False ∧ m.me.control.Faithful) _ ⟨safe, first⟩
    rintro m _ ⟨e, presented, rfl⟩ ⟨safe, faithful⟩
    have moves := next_moves (C := True) safe (e := e) (fun h => h.elim)
      fun _ a advances collects delivers => faithful.agreeing (presented a advances collects delivers)
    exact ⟨moves.safe, moves.path.keeps (fun _ _ moved => moved.faithful) faithful⟩
  exact kept.2

/-- The documents of a window do not contradict each other, and no panel finds that they do. -/
theorem documents_consistent {request : Request} {owner : Owner} {token : String}
    {disk : Nat → Status → Option String} (opened : Machine.open request owner token disk = some m₀)
    (run : Run Presented m₀ m) :
    Consistent m.me.control.published ∧
      ∀ (viewer : Owner) (events : List PanelEvent),
        (∀ e ∈ events, ∀ read ∈ e.reads, read ∈ m.me.control.published) →
        ∀ fault, (events.foldl Panel.next (.new viewer)).failed = some fault →
          fault ≠ .changedWithinGeneration ∧ fault ≠ .changedWithoutView := by
  have consistent := (documents_faithful opened run).consistent
  refine ⟨consistent, fun viewer events reads fault failed => ?_⟩
  exact not_or.mp ((Panel.trusts consistent viewer reads).patient fault failed)

instance (m : Machine) : Decidable m.Collects :=
  match h : m.phase with
  | .closing => isTrue (.inl h)
  | .collecting escaped => isTrue (.inr ⟨escaped, h⟩)
  | .begin | .opening | .completing | .finishing _ | .concluding _ | .ended _ =>
    isFalse (by rintro (h' | ⟨_, h'⟩) <;> simp [h] at h')

instance (s : Coordinator) : Decidable s.Delivers :=
  decidable_of_iff (∃ v ∈ s.saver, v.exitCode ≠ none) (by simp [Coordinator.Delivers])

instance (c : WindowControl) : Decidable c.Shows :=
  inferInstanceAs (Decidable (∀ d ∈ c.published.head?, _))

instance (m : Machine) : (e : Event) → Decidable (m.Presented e)
  | .advance _ => decidable_of_iff (m.Collects → m.me.Delivers → m.me.control.Shows)
      ⟨fun h _ _ => h, fun h => h _ rfl⟩
  | .interrupt | .work _ | .guiExited _ | .saverExited _ => isTrue fun _ h => nomatch h

end Machine

def Bench.polls (m : Machine) : List PanelEvent := m.me.control.published.reverse.map fun d => .poll d ⟨none, none⟩

theorem bench_documents_consistent :
    Consistent (Bench.closed.foldl Machine.next Bench.opened).me.control.published ∧
      ((Bench.polls (Bench.closed.foldl Machine.next Bench.opened)).foldl Panel.next (.new Bench.owner)).failed = none := by
  have run : Machine.Run Machine.Presented Bench.opened (Bench.closed.foldl Machine.next Bench.opened) :=
    Allowed.path (by decide +kernel)
  exact ⟨(Machine.documents_consistent Bench.open_opened run).1, by decide +kernel⟩

def Bench.undiscarded : List Event :=
  Bench.mapped ++ Bench.round { Bench.quiet with stopRequested := true } ++
    [Bench.stopped, .advance Bench.quiet, .advance { Bench.quiet with discard := .error "data still referenced" },
      .saverExited 0] ++ List.replicate 3 (.advance Bench.quiet)

theorem undiscarded_contradicts : Machine.open Bench.request Bench.owner (Bench.token 0) (fun _ _ => none) =
      some Bench.opened ∧
    let m := Bench.undiscarded.foldl Machine.next Bench.opened
    ¬Consistent m.me.control.published ∧
      ((Bench.polls m).foldl Panel.next (.new Bench.owner)).failed = some .changedWithinGeneration := by
  refine ⟨rfl, fun consistent => ?_, by decide +kernel⟩
  have differs : ∃ d ∈ (Bench.undiscarded.foldl Machine.next Bench.opened).me.control.published,
      ∃ d' ∈ (Bench.undiscarded.foldl Machine.next Bench.opened).me.control.published,
        d.generation = d'.generation ∧ d'.viewGeneration ≠ d.viewGeneration := by decide +kernel
  obtain ⟨d, hd, d', hd', same, views⟩ := differs
  exact views (consistent.generation d hd d' hd' same).viewGeneration

end Smartwheel.Interactive

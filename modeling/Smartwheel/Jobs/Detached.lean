import Smartwheel.Jobs.Manager

/-! The job.json of a detached offline job, between its worker, the panel that submitted it and any number of panels
that only look at it. No lock is shared: a panel reads the file, then looks for the worker, then may write. -/
namespace Smartwheel.Jobs.Detached

/-- What the panels look at in job.json; `identified` says that it has a worker_identity. -/
structure Row where
  status : Status
  identified : Bool
deriving DecidableEq, Repr

/-- The process of `job_worker`. -/
inductive Worker where
  | absent
  | starting
  | loaded
  | working
  | finished
  | exited (code : Int)
deriving DecidableEq, Repr

def Worker.alive : Worker → Bool
  | .absent | .exited _ => false
  | _ => true

def Worker.done : Worker → Bool
  | .finished | .exited _ => true
  | _ => false

/-- What a panel does next with this job: in `submit` before and after `Popen`, in the handler that waits for the
worker, in `_refresh_detached` after the read and after the probe. -/
inductive Phase where
  | launching
  | launched
  | stopping
  | idle
  | read (row : Row)
  | writing (row : Row)
  | closed
deriving DecidableEq, Repr

def Phase.pending : Phase → Option Row
  | .writing row => some row
  | _ => none

/-- A panel; `owned` says that `_workers` has the process, `row` is its copy. -/
structure Panel where
  owned : Bool
  row : Row
  phase : Phase
deriving DecidableEq, Repr

/-- `receipt` is for a worker_launch.json with the identity, `cancel` for cancel.json, `requested` for the worker's
`_cancel`; `final` is the terminal status the worker has written. -/
structure System where
  file : Row
  receipt : Bool
  cancel : Bool
  requested : Bool
  worker : Worker
  final : Option Status
  panels : List Panel
deriving DecidableEq, Repr

structure Probe where
  receipt : Bool
  proc : Bool
  young : Bool
deriving DecidableEq, Repr

namespace System

/-- `_detached_liveness`: alive, starting. -/
def liveness (s : System) (panel : Panel) (row : Row) (a : Probe) : Bool × Bool :=
  if panel.owned then (s.worker.alive, false)
  else if row.identified ∨ s.receipt ∧ a.receipt then (a.proc && s.worker.alive, false)
  else (false, row.status = .queued && a.young)

/-- The status of a job whose worker is gone: `returncode` is known to the panel that owns it. -/
def lost (s : System) (panel : Panel) : Status :=
  match s.worker with
  | .exited code => if panel.owned ∧ code ≠ 0 then .failed else .interrupted
  | _ => .interrupted

/-- What a panel that has read `row` decides to write, if it does. -/
def verdict (s : System) (panel : Panel) (row : Row) (a : Probe) : Option Status :=
  let (alive, starting) := s.liveness panel row a
  if row.status.active ∧ !alive ∧ !starting then some (s.lost panel) else none

inductive Act where
  | popen (ok : Bool)
  | receipt (ok proc : Bool)
  | reaped
  | read (ok : Bool)
  | probe (a : Probe)
  | write (ok : Bool)
  | cancel (ok : Bool)
  | close
deriving DecidableEq, Repr

inductive Action where
  | panel (index : Nat) (act : Act)
  | open (a : Probe)
  | load
  | identify
  | save (status : Status)
  | observe
  | signal
  | finish (status : Status)
  | exit (code : Int)
deriving DecidableEq, Repr

def terminal : Status → Bool
  | .complete | .failed | .cancelled | .pending => true
  | _ => false

def act (s : System) (panel : Panel) : Act → System × Panel
  | .popen ok =>
    if panel.phase = .launching then
      if ok then ({ s with worker := .starting }, { panel with owned := true, phase := .launched })
      else (s, { panel with phase := .writing { panel.row with status := .failed } })
    else (s, panel)
  | .receipt ok proc =>
    if panel.phase = .launched then
      if ok then ({ s with receipt := proc && s.worker.alive }, { panel with phase := .idle })
      else ({ s with requested := true }, { panel with phase := .stopping })
    else (s, panel)
  | .reaped =>
    if panel.phase = .stopping ∧ !s.worker.alive then
      (s, { panel with phase := .writing { panel.row with status := .failed } })
    else (s, panel)
  | .read ok =>
    if panel.phase = .idle ∧ ok then (s, { panel with phase := .read s.file }) else (s, panel)
  | .probe a =>
    match panel.phase with
    | .read row =>
      match s.verdict panel row a with
      | some status => (s, { panel with phase := .writing { row with status } })
      | none => (s, { panel with row, phase := .idle })
    | _ => (s, panel)
  | .write ok =>
    match panel.phase with
    | .writing row => (if ok then { s with file := row } else s, { panel with row, phase := .idle })
    | _ => (s, panel)
  | .cancel ok =>
    if panel.phase = .idle ∧ panel.row.status.active ∧ ok then ({ s with cancel := true }, panel) else (s, panel)
  | .close => (s, { panel with phase := .closed })

def next (s : System) : Action → System
  | .panel index a =>
    match s.panels[index]? with
    | some panel =>
      let (s', panel') := s.act panel a
      { s' with panels := s.panels.set index panel' }
    | none => s
  | .open a =>
    -- `_load_history` does not write what it finds
    let panel : Panel := ⟨false, s.file, .idle⟩
    let row := if (s.verdict panel s.file a).isSome then { s.file with status := .interrupted } else s.file
    { s with panels := s.panels ++ [{ panel with row }] }
  | .load =>
    -- a job that is no longer QUEUED is refused
    if s.worker = .starting then { s with worker := if s.file.status = .queued then .loaded else .exited 1 } else s
  | .identify => if s.worker = .loaded then { s with worker := .working, file := ⟨.queued, true⟩ } else s
  | .save status =>
    if s.worker = .working ∧ status.active then { s with file := ⟨status, true⟩ } else s
  | .observe => if s.worker = .working ∧ s.cancel then { s with requested := true } else s
  | .signal => if s.worker.alive then { s with requested := true } else s
  | .finish status =>
    if s.worker = .working ∧ terminal status ∧ (status = .cancelled → s.requested) then
      { s with worker := .finished, file := ⟨status, true⟩, final := some status }
    else s
  | .exit code => if s.worker.alive then { s with worker := .exited code } else s

/-- `submit` has written the row of the new job. -/
def initial : System where
  file := ⟨.queued, false⟩
  receipt := false
  cancel := false
  requested := false
  worker := .absent
  final := none
  panels := [⟨false, ⟨.queued, false⟩, .launching⟩]

def decision (s : System) (panel : Panel) : Act → Option Status
  | .popen false => if panel.phase = .launching then some .failed else none
  | .reaped => if panel.phase = .stopping ∧ !s.worker.alive then some .failed else none
  | .probe a =>
    match panel.phase with
    | .read row => s.verdict panel row a
    | _ => none
  | _ => none

/-- A panel decides to write before the worker's terminal status is there, or decides for the same one; and it does
not stand between a decision and its write when another one comes. -/
def Timely (s : System) : Action → Prop
  | .panel index a =>
    ∀ panel ∈ s.panels[index]?, ∀ status ∈ s.decision panel a, ∀ t ∈ s.final, status = t
  | .finish status => ∀ panel ∈ s.panels, ∀ row ∈ panel.phase.pending, row.status = status
  | _ => True

def TimelyRun : System → List Action → Prop
  | _, [] => True
  | s, e :: actions => s.Timely e ∧ TimelyRun (s.next e) actions

instance (s : System) (e : Action) : Decidable (s.Timely e) := by
  unfold Timely
  split
  · infer_instance
  · infer_instance
  · infer_instance

instance TimelyRun.decidable : ∀ (s : System) (actions : List Action), Decidable (s.TimelyRun actions)
  | _, [] => isTrue trivial
  | s, e :: actions =>
    have : Decidable ((s.next e).TimelyRun actions) := TimelyRun.decidable (s.next e) actions
    inferInstanceAs (Decidable (s.Timely e ∧ (s.next e).TimelyRun actions))

structure Kept (s : System) : Prop where
  file : ∀ t, s.final = some t → s.file.status = t ∧ s.worker.done = true
  writing : ∀ t, s.final = some t → ∀ panel ∈ s.panels, ∀ row, panel.phase = .writing row → row.status = t
  launching : ∀ (i : Nat) panel, s.panels[i]? = some panel → panel.phase = .launching → i = 0 ∧ s.worker = .absent

variable {s : System} {panel : Panel}

theorem act_spec (s : System) (panel : Panel) (a : Act) :
    (s.act panel a).1.final = s.final ∧
    ((s.act panel a).1.file = s.file ∨ panel.phase = .writing (s.act panel a).1.file) ∧
    ((s.act panel a).1.worker = s.worker ∨ panel.phase = .launching) ∧
    ((s.act panel a).2.phase = .launching → panel.phase = .launching ∧ (s.act panel a).1.worker = s.worker) ∧
    (∀ row, (s.act panel a).2.phase = .writing row → panel.phase = .writing row ∨ s.decision panel a = some row.status) := by
  have rest {a : Act} (row : Row) (at_ : panel.phase = .writing row) :
      panel.phase = .writing row ∨ s.decision panel a = some row.status := .inl at_
  cases a with
  | popen ok =>
    by_cases at_ : panel.phase = .launching
    · cases ok <;> simp +contextual [act, decision, at_, eq_comm]
    · simpa [act, at_] using rest
  | receipt ok proc =>
    by_cases at_ : panel.phase = .launched
    · cases ok <;> simp [act, at_]
    · simpa [act, at_] using rest
  | reaped =>
    by_cases at_ : panel.phase = .stopping ∧ (!s.worker.alive) = true
    · simp only [act, decision, if_pos at_]
      simp +contextual [eq_comm]
    · simp only [act, if_neg at_]
      simpa using rest
  | read ok =>
    by_cases at_ : panel.phase = .idle ∧ ok = true
    · simp [act, at_]
    · simp only [act, if_neg at_]
      simpa using rest
  | probe a =>
    cases at_ : panel.phase with
    | read row =>
      cases decided : s.verdict panel row a with
      | none => simp [act, at_, decided]
      | some status => simp +contextual [act, decision, at_, decided, eq_comm]
    | _ => simp [act, at_]
  | write ok =>
    cases at_ : panel.phase with
    | writing row => cases ok <;> simp [act, at_]
    | _ => simp [act, at_]
  | cancel ok =>
    by_cases at_ : panel.phase = .idle ∧ panel.row.status.active = true ∧ ok = true
    · simp [act, at_]
    · simp only [act, if_neg at_]
      simpa using rest
  | close => simp [act]

theorem Kept.act (h : s.Kept) {index : Nat} {a : Act} (timely : s.Timely (.panel index a)) :
    (s.next (.panel index a)).Kept := by
  simp only [next]
  split
  · rename_i panel at_
    obtain ⟨final, file, worker, launching, writing⟩ := s.act_spec panel a
    have inside := List.mem_of_getElem? at_
    have last (t : Status) (above : (s.act panel a).1.final = some t) : s.final = some t := final ▸ above
    refine ⟨fun t above => ⟨?_, ?_⟩, fun t above other found row at_' => ?_, fun i other found at_' => ?_⟩
    · obtain same | written := file
      · exact same ▸ (h.file t (last t above)).1
      · exact h.writing t (last t above) panel inside _ written
    · obtain same | absent := worker
      · exact same ▸ (h.file t (last t above)).2
      · have gone := (h.launching index panel at_ absent).2
        simpa [gone, Worker.done] using (h.file t (last t above)).2
    · obtain old | new := List.mem_or_eq_of_mem_set found
      · exact h.writing t (last t above) other old row at_'
      · subst new
        obtain old | decided := writing row at_'
        · exact h.writing t (last t above) panel inside row old
        · exact timely panel at_ row.status decided t (last t above)
    · rw [List.getElem?_set] at found
      split at found
      · rename_i here
        subst here
        split at found
        · cases found
          obtain ⟨before, same⟩ := launching at_'
          exact same ▸ h.launching index panel at_ before
        · simp at found
      · rename_i elsewhere
        obtain ⟨first, absent⟩ := h.launching i other found at_'
        obtain same | before := worker
        · exact ⟨first, same ▸ absent⟩
        · exact absurd ((h.launching index panel at_ before).1.trans first.symm) elsewhere
  · exact h

theorem Kept.quiet (h : s.Kept) {worker : Worker} {requested : Bool} (done : s.worker.done = true → worker.done = true)
    (absent : s.worker = .absent → worker = .absent) : Kept { s with worker, requested } :=
  ⟨fun t above => ⟨(h.file t above).1, done (h.file t above).2⟩, h.writing,
    fun i panel at_ launching => ⟨(h.launching i panel at_ launching).1, absent (h.launching i panel at_ launching).2⟩⟩

theorem Kept.live (h : s.Kept) {worker : Worker} {file : Row} (live : s.worker.done = false)
    (there : s.worker ≠ .absent) : Kept { s with worker, file } := by
  have early {t : Status} (above : s.final = some t) : False := by simpa [live] using (h.file t above).2
  exact ⟨fun t above => (early above).elim, fun t above => (early above).elim,
    fun i panel at_ launching => absurd (h.launching i panel at_ launching).2 there⟩

theorem kept_next (h : s.Kept) {e : Action} (timely : s.Timely e) : (s.next e).Kept := by
  cases e with
  | panel index a => exact h.act timely
  | «open» a =>
    refine ⟨h.file, fun t above panel found row at_ => ?_, fun i panel found at_ => ?_⟩
    · obtain old | new := List.mem_append.mp found
      · exact h.writing t above panel old row at_
      · simp only [List.mem_singleton] at new
        simp [new] at at_
    · simp only [next, List.getElem?_append] at found
      split at found
      · exact h.launching i panel found at_
      · have new := List.mem_of_getElem? found
        simp only [List.mem_singleton] at new
        simp [new] at at_
  | load =>
    simp only [next]
    split
    · rename_i at_
      exact h.live (by simp [at_, Worker.done]) (by simp [at_])
    · exact h
  | identify =>
    simp only [next]
    split
    · rename_i at_
      exact h.live (by simp [at_, Worker.done]) (by simp [at_])
    · exact h
  | save status =>
    simp only [next]
    split
    · rename_i at_
      exact h.live (by simp [at_.1, Worker.done]) (by simp [at_.1])
    · exact h
  | observe =>
    simp only [next]
    split
    · exact h.quiet id id
    · exact h
  | signal =>
    simp only [next]
    split
    · exact h.quiet id id
    · exact h
  | finish status =>
    simp only [next]
    split
    · rename_i at_
      refine ⟨fun t above => ?_, fun t above panel found row at_' => ?_, fun i panel found at_' => ?_⟩
      · cases above
        exact ⟨rfl, rfl⟩
      · cases above
        exact timely panel found row (by simp [at_', Phase.pending])
      · exact absurd (h.launching i panel found at_').2 (by simp [at_.1])
    · exact h
  | exit code =>
    simp only [next]
    split
    · rename_i alive
      refine h.quiet (fun _ => rfl) fun absent => ?_
      simp [absent, Worker.alive] at alive
    · exact h

theorem kept_initial : initial.Kept := by
  refine ⟨fun t above => ?_, fun t above => ?_, fun i panel found _ => ?_⟩
  · simp [initial] at above
  · simp [initial] at above
  · obtain ⟨bound, -⟩ := List.getElem?_eq_some_iff.mp found
    simp only [initial, List.length_singleton, Nat.lt_one_iff] at bound
    exact ⟨bound, rfl⟩

theorem kept_run {actions : List Action} (h : s.Kept) (timely : s.TimelyRun actions) : (actions.foldl next s).Kept := by
  induction actions generalizing s with
  | nil => exact h
  | cons e actions ih => exact ih (kept_next h timely.1) timely.2

namespace Bench

def working : List Action :=
  [.panel 0 (.popen true), .panel 0 (.receipt true true), .load, .identify, .save .running, .open ⟨true, true, false⟩,
    .panel 1 (.read true)]

def completed : List Action := working ++ [.finish .complete, .exit 0]

def late : List Action := [.panel 1 (.probe ⟨true, true, false⟩), .panel 1 (.write true)]

def timely : List Action := [.panel 0 (.read true), .panel 0 (.probe ⟨true, true, false⟩), .panel 0 (.write true)]

end Bench

end System
end Smartwheel.Jobs.Detached

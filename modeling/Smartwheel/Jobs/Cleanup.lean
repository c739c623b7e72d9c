import Smartwheel.Effect.History

/-! `cleanup` of a component: what is left of its processes when it says that none is. -/
namespace Smartwheel.Cleanup
open Effect

inductive Status where
  | running | stopped | zombie
deriving DecidableEq

/-- A process; the parent is that of `/proc/<pid>/stat`. -/
structure Proc where
  parent : ℕ
  startTicks : ℕ
  status : Status
  subreaper : Bool

abbrev Processes := ℕ → Option Proc

/-- `Process`. -/
structure Record where
  pid : ℕ
  parent : ℕ
  startTicks : ℕ
  status : Status

def Proc.record (p : Proc) (pid : ℕ) : Record := ⟨pid, p.parent, p.startTicks, p.status⟩

structure Walk where
  owned : List ℕ
  pending : List ℕ
  result : List Record

def visit (w : Walk) (r : Record) : Walk :=
  if r.pid ∈ w.owned then w else ⟨r.pid :: w.owned, w.pending ++ [r.pid], w.result ++ [r]⟩

def walk (snapshot : List Record) : ℕ → Walk → List Record
  | 0, w => w.result
  | k + 1, w =>
    match w.pending.getLast? with
    | none => w.result
    | some pid => walk snapshot k ((snapshot.filter (·.parent = pid)).foldl visit { w with pending := w.pending.dropLast })

/-- What `descendants` makes of what it has read. -/
def descendantsOf (owner : ℕ) (snapshot : List Record) : List Record :=
  walk snapshot (snapshot.length + 1) ⟨[owner], [owner], []⟩

/-! ### The processes by themselves -/

variable (owner : ℕ)

inductive Below (t : Processes) : ℕ → Prop
  | child {d : ℕ} {p : Proc} (there : t d = some p) (other : d ≠ owner) (own : p.parent = owner) : Below t d
  | deeper {d : ℕ} {p : Proc} (there : t d = some p) (above : Below t p.parent) : Below t d

inductive Adopts (t : Processes) : ℕ → ℕ → Prop
  | here {a : ℕ} {p : Proc} (there : t a = some p) (living : p.status ≠ .zombie) (subreaper : p.subreaper = true) : Adopts t a a
  | up {a r : ℕ} {p : Proc} (there : t a = some p) (not : p.status = .zombie ∨ p.subreaper = false) (above : Adopts t p.parent r) : Adopts t a r
  | outside {a r : ℕ} (gone : t a = none) (other : r ≠ owner) : Adopts t a r

def put (t : Processes) (pid : ℕ) (p : Option Proc) : Processes := fun other => if other = pid then p else t other

def adopted (t : Processes) (q r : ℕ) : Processes := fun pid => (t pid).map fun p => if p.parent = q then { p with parent := r } else p

inductive Elapse : Processes → Processes → Prop
  | fork {t : Processes} {f pid ticks : ℕ} {p : Proc} (there : t f = some p) (living : p.status ≠ .zombie) (other : f ≠ owner)
      (free : t pid = none) : Elapse t (put t pid (some ⟨f, ticks, .running, false⟩))
  | exit {t : Processes} {q r : ℕ} {p : Proc} (there : t q = some p) (living : p.status ≠ .zombie) (other : q ≠ owner)
      (adopter : Adopts owner t p.parent r) : Elapse t (adopted (put t q (some { p with status := .zombie })) q r)
  | reap {t : Processes} {z : ℕ} {p : Proc} (there : t z = some p) (dead : p.status = .zombie) (other : p.parent ≠ owner) :
      Elapse t (put t z none)
  | change {t : Processes} {pid : ℕ} {p : Proc} {status : Status} {subreaper : Bool} (there : t pid = some p) (living : p.status ≠ .zombie)
      (still : status ≠ .zombie) (other : pid ≠ owner) : Elapse t (put t pid (some { p with status, subreaper }))

/-! ### The cleanup among them -/

inductive Signal where
  | sigint | sigterm | sigkill
deriving DecidableEq

/-- The calls of `descendants`: at the start of a turn, again when nothing was found, and at the end. -/
inductive Call where
  | first | second | last

inductive Pc where
  | reaping (call : Call)
  /-- The directory is read up to a pid. -/
  | listing (call : Call) (next : ℕ) (listed : List ℕ)
  | reading (call : Call) (left : List ℕ) (snapshot : List Record)
  | signalling (remaining : List Record)
  | waiting
  | returned (clean : Bool)

structure Run where
  processes : Processes
  signals : List Signal
  sent : List (ℕ × ℕ)
  pc : Pc

/-- What follows a call of `descendants`. -/
def Call.resume (result : List Record) : Call → Pc
  | .first => if result = [] then .reaping .second else .signalling result
  | .second => if result = [] then .returned true else .signalling []
  | .last => .returned (result = [])

variable (child : Option ℕ)

def skips (s : Run) (record : Record) : Prop :=
  record.status = .zombie ∨ (record.pid, record.startTicks) ∈ s.sent ∨ s.signals.head? = some .sigint ∧ child ≠ some record.pid

/-- One step, of the other processes or of `cleanup`. -/
inductive Step : Run → Run → Prop
  | elapse {s : Run} {t : Processes} (step : Elapse owner s.processes t) : Step s { s with processes := t }
  -- `child.poll` and `os.waitpid`
  | reap {s : Run} {call : Call} {z : ℕ} {p : Proc} (pc : s.pc = .reaping call) (there : s.processes z = some p) (dead : p.status = .zombie)
      (own : p.parent = owner) : Step s { s with processes := put s.processes z none }
  | reaped {s : Run} {call : Call} (pc : s.pc = .reaping call)
      (none_ : ∀ z p, s.processes z = some p → p.status = .zombie → p.parent ≠ owner) : Step s { s with pc := .listing call 0 [] }
  | entry {s : Run} {call : Call} {next pid : ℕ} {listed : List ℕ} (pc : s.pc = .listing call next listed) (there : s.processes pid ≠ none)
      (from_ : next ≤ pid) (least : ∀ other, next ≤ other → s.processes other ≠ none → pid ≤ other) :
      Step s { s with pc := .listing call (pid + 1) (listed ++ [pid]) }
  | listed {s : Run} {call : Call} {next : ℕ} {listed : List ℕ} (pc : s.pc = .listing call next listed)
      (all : ∀ other, next ≤ other → s.processes other = none) : Step s { s with pc := .reading call listed [] }
  | read {s : Run} {call : Call} {pid : ℕ} {left : List ℕ} {snapshot : List Record} (pc : s.pc = .reading call (pid :: left) snapshot) :
      Step s { s with pc := .reading call left (snapshot ++ ((s.processes pid).map (·.record pid)).toList) }
  -- what may not be read is unrelated
  | refused {s : Run} {call : Call} {pid : ℕ} {left : List ℕ} {snapshot : List Record} (pc : s.pc = .reading call (pid :: left) snapshot)
      (unrelated : ¬Below owner s.processes pid) : Step s { s with pc := .reading call left snapshot }
  | found {s : Run} {call : Call} {snapshot : List Record} (pc : s.pc = .reading call [] snapshot) :
      Step s { s with pc := call.resume (descendantsOf owner snapshot) }
  | skip {s : Run} {record : Record} {remaining : List Record} (pc : s.pc = .signalling (record :: remaining)) (skips : skips child s record) :
      Step s { s with pc := .signalling remaining }
  -- what is signalled exits by itself
  | signal {s : Run} {record : Record} {remaining : List Record} (pc : s.pc = .signalling (record :: remaining)) (goes : ¬skips child s record)
      (delivered : Bool) :
      Step s { s with sent := if delivered then (record.pid, record.startTicks) :: s.sent else s.sent, pc := .signalling remaining }
  | signalled {s : Run} (pc : s.pc = .signalling []) : Step s { s with pc := .waiting }
  | again {s : Run} (pc : s.pc = .waiting) : Step s { s with pc := .reaping .first }
  | expired {s : Run} {signal next : Signal} {rest : List Signal} (pc : s.pc = .waiting) (signals : s.signals = signal :: next :: rest) :
      Step s { s with signals := next :: rest, sent := [], pc := .reaping .first }
  | ended {s : Run} {signal : Signal} (pc : s.pc = .waiting) (signals : s.signals = [signal]) :
      Step s { s with signals := [], pc := .reaping .last }

/-- `cleanup` begins. -/
def start (t : Processes) : Run := ⟨t, [.sigint, .sigterm, .sigkill], [], .reaping .first⟩

/-! ### Nobody is left -/

variable {owner child} {t t' : Processes} {s s' : Run}

def Own (owner : ℕ) (t : Processes) (c : ℕ) : Prop := c ≠ owner ∧ ∃ p, t c = some p ∧ p.parent = owner

theorem own_of_adopts {a r : ℕ} (h : Adopts owner t a r) (same : r = owner) (other : a ≠ owner) : ∃ c, Own owner t c := by
  induction h with
  | here _ _ _ => exact absurd same other
  | @up a _ p there _ _ ih =>
    by_cases own : p.parent = owner
    · exact ⟨a, other, p, there, own⟩
    · exact ih same own
  | outside _ away => exact absurd same away

theorem Elapse.own (h : Elapse owner t t') {c : ℕ} (own : Own owner t c) : Own owner t' c := by
  obtain ⟨other, p, there, mine⟩ := own
  refine ⟨other, ?_⟩
  cases h with
  | @fork f pid ticks _ _ _ _ free =>
    have different : c ≠ pid := fun same => by simp [same, free] at there
    exact ⟨p, by rw [put, if_neg different, there], mine⟩
  | @exit q r p' there' _ away _ =>
    have kept : p.parent ≠ q := fun same => away (same.symm.trans mine)
    by_cases same : c = q
    · rw [same, there'] at there
      cases there
      exact ⟨{ p with status := .zombie }, by simp [adopted, put, same, kept], mine⟩
    · exact ⟨p, by simp [adopted, put, same, there, kept], mine⟩
  | @reap z p' there' _ away =>
    have different : c ≠ z := fun same => by
      rw [same, there'] at there
      cases there
      exact away mine
    exact ⟨p, by rw [put, if_neg different, there], mine⟩
  | @change pid p' status subreaper there' _ _ _ =>
    by_cases same : c = pid
    · rw [same, there'] at there
      cases there
      exact ⟨{ p with status, subreaper }, by rw [put, if_pos same], mine⟩
    · exact ⟨p, by rw [put, if_neg same, there], mine⟩

theorem Elapse.none (h : Elapse owner t t') (childless : ∀ c, ¬Own owner t c) (c : ℕ) : ¬Own owner t' c := by
  rintro ⟨other, p, there, mine⟩
  have before {d : ℕ} (away : d ≠ owner) {q : Proc} (known : t d = some q) (own : q.parent = owner) : False := childless d ⟨away, q, known, own⟩
  cases h with
  | @fork f pid ticks _ _ _ away _ =>
    unfold put at there
    split at there
    · cases there
      exact away mine
    · exact before other there mine
  | @exit q r p' there' _ away adopter =>
    obtain ⟨p₀, known, rfl⟩ := Option.map_eq_some_iff.mp there
    have parent : p₀.parent ≠ owner := fun own => by
      unfold put at known
      split at known
      · cases known
        exact before away there' own
      · exact before other known own
    split at mine
    · obtain ⟨d, own⟩ := own_of_adopts adopter mine fun own => before away there' own
      exact childless d own
    · exact parent mine
  | reap there' _ _ =>
    unfold put at there
    split at there
    · cases there
    · exact before other there mine
  | change there' _ _ away =>
    unfold put at there
    split at there
    · cases there
      exact before away there' mine
    · exact before other there mine

theorem foldl_visit (l : List Record) (w : Walk) (h : (∃ r ∈ l, r.pid ∉ w.owned) ∨ w.result ≠ []) : (l.foldl visit w).result ≠ [] := by
  induction l generalizing w with
  | nil => exact h.resolve_left fun ⟨_, there, _⟩ => by cases there
  | cons a l ih =>
    rw [List.foldl_cons]
    by_cases known : a.pid ∈ w.owned
    · rw [visit, if_pos known]
      refine ih w (h.imp_left fun ⟨r, there, new⟩ => ⟨r, (List.mem_cons.mp there).resolve_left fun same => new (same ▸ known), new⟩)
    · rw [visit, if_neg known]
      exact ih _ (.inr (by simp))

theorem walk_found {snapshot : List Record} (k : ℕ) {w : Walk} (h : w.result ≠ []) : walk snapshot k w ≠ [] := by
  induction k generalizing w with
  | zero => exact h
  | succ k ih =>
    rw [walk]
    split
    · exact h
    · exact ih (foldl_visit _ _ (.inr h))

theorem descendantsOf_found {snapshot : List Record} {r : Record} (there : r ∈ snapshot) (mine : r.parent = owner) (other : r.pid ≠ owner) :
    descendantsOf owner snapshot ≠ [] := by
  unfold descendantsOf
  rw [walk]
  exact walk_found _ (foldl_visit _ _ (.inl ⟨r, List.mem_filter.mpr ⟨there, decide_eq_true mine⟩, List.mem_singleton.not.mpr other⟩))

def Scanned (owner : ℕ) (s : Run) : Prop :=
  match s.pc with
  | .listing _ next listed => (∀ c, ¬Own owner s.processes c) ∨ ∃ c, Own owner s.processes c ∧ (c ∈ listed ∨ next ≤ c)
  | .reading _ left snapshot => (∀ c, ¬Own owner s.processes c) ∨
      ∃ c, Own owner s.processes c ∧ (c ∈ left ∨ ∃ r ∈ snapshot, r.pid = c ∧ r.parent = owner)
  | .returned true => ∀ c, ¬Own owner s.processes c
  | _ => True

theorem Scanned.elapse (h : Scanned owner s) (step : Elapse owner s.processes t) : Scanned owner { s with processes := t } := by
  have still {P : ℕ → Prop} (before : (∀ c, ¬Own owner s.processes c) ∨ ∃ c, Own owner s.processes c ∧ P c) :
      (∀ c, ¬Own owner t c) ∨ ∃ c, Own owner t c ∧ P c :=
    before.imp step.none fun ⟨c, own, met⟩ => ⟨c, step.own own, met⟩
  unfold Scanned at h ⊢
  dsimp only
  split
  next _ _ _ pc =>
    rw [pc] at h
    exact still h
  next _ _ _ pc =>
    rw [pc] at h
    exact still h
  next pc =>
    rw [pc] at h
    exact step.none h
  next => trivial

theorem Scanned.step (h : Scanned owner s) (step : Step owner child s s') : Scanned owner s' := by
  cases step with
  | elapse step => exact h.elapse step
  | reap pc _ _ _ => simp [Scanned, pc]
  | reaped pc _ =>
    by_cases some_ : ∃ c, Own owner s.processes c
    · obtain ⟨c, own⟩ := some_
      exact .inr ⟨c, own, .inr (Nat.zero_le c)⟩
    · exact .inl (not_exists.mp some_)
  | @entry call next pid listed pc there from_ least =>
    simp only [Scanned, pc] at h
    refine h.imp_right fun ⟨c, own, met⟩ => ⟨c, own, ?_⟩
    rcases met with seen | ahead
    · exact .inl (List.mem_append_left _ seen)
    · obtain ⟨-, p, here, -⟩ := id own
      rcases (least c ahead (by simp [here])).eq_or_lt with same | later
      · exact .inl (by simp [same])
      · exact .inr later
  | @listed call next listed pc all =>
    simp only [Scanned, pc] at h
    refine h.imp_right fun ⟨c, own, met⟩ => ⟨c, own, .inl (met.resolve_right fun ahead => ?_)⟩
    obtain ⟨-, p, here, -⟩ := id own
    rw [all c ahead] at here
    cases here
  | @read call pid left snapshot pc =>
    simp only [Scanned, pc] at h
    refine h.imp_right fun ⟨c, own, met⟩ => ⟨c, own, ?_⟩
    rcases met with ahead | ⟨r, there, same⟩
    · rcases List.mem_cons.mp ahead with rfl | later
      · obtain ⟨-, p, here, mine⟩ := id own
        exact .inr ⟨p.record c, by simp [here], rfl, mine⟩
      · exact .inl later
    · exact .inr ⟨r, List.mem_append_left _ there, same⟩
  | @refused call pid left snapshot pc unrelated =>
    simp only [Scanned, pc] at h
    refine h.imp_right fun ⟨c, own, met⟩ => ⟨c, own, met.imp_left fun ahead => (List.mem_cons.mp ahead).resolve_left fun same => ?_⟩
    obtain ⟨other, p, here, mine⟩ := own
    exact unrelated (same ▸ .child here other mine)
  | @found call snapshot pc =>
    simp only [Scanned, pc] at h
    have empty (nothing : descendantsOf owner snapshot = []) : ∀ c, ¬Own owner s.processes c :=
      h.resolve_right fun ⟨c, own, met⟩ => by
        rcases met with ahead | ⟨r, there, rfl, mine⟩
        · cases ahead
        · exact descendantsOf_found there mine own.1 nothing
    cases call with
    | first => by_cases nothing : descendantsOf owner snapshot = [] <;> simp [Scanned, Call.resume, nothing]
    | second =>
      by_cases nothing : descendantsOf owner snapshot = []
      · simpa [Scanned, Call.resume, nothing] using empty nothing
      · simp [Scanned, Call.resume, nothing]
    | last =>
      by_cases nothing : descendantsOf owner snapshot = []
      · simpa [Scanned, Call.resume, nothing] using empty nothing
      · simp [Scanned, Call.resume, nothing]
  | skip _ _ | signal _ _ _ | signalled _ | again _ | expired _ _ | ended _ _ => trivial

def alone : Processes := fun pid => if pid = 2 then some ⟨1, 70, .running, true⟩ else none

end Smartwheel.Cleanup

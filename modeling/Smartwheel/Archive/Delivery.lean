import Mathlib.Data.List.Nodup
import Mathlib.Data.List.Perm.Basic
import Smartwheel.Archive.Durable

/-! Every accepted job has one result, in order: successes whose files are durable, then errors. -/
namespace Smartwheel.Archive
open Effect

namespace Event

def isDequeued : Event → Bool
  | .dequeued _ => true
  | _ => false

end Event

def submitted (log : List Event) : List Job :=
  (log.filterMap fun e => match e with
    | .submitted job => some job
    | _ => none).reverse

def finished (log : List Event) : List (Job × Option String) :=
  (log.filterMap fun e => match e with
    | .result job error => some (job, error)
    | _ => none).reverse

def polled (log : List Event) : List ArchiveResult :=
  (log.filterMap fun e => match e with
    | .polled r => some r
    | _ => none).reverse

def answer (r : Job × Option String) : ArchiveResult := ⟨r.1.key, r.1.path, r.2⟩

def Worker.active : Worker → List Job
  | .dequeued job _ _ | .committing job _ | .finished job _ => [job]
  | _ => []

def Stage.effects (job : Job) : Stage → List Event
  | .sync => [.written job]
  | .link | .rename _ => [.fileSynced job, .written job]
  | .unlink _ none | .syncDirectory => [.linked job, .fileSynced job, .written job]
  | .close none => [.directorySynced job, .linked job, .fileSynced job, .written job]
  | _ => []

structure Since (job : Job) (events log : List Event) : Prop where
  taken : log.find? Event.isDequeued = some (.dequeued job)
  done : events.Sublist (since Event.isDequeued log)

/-- The file of a job was written, synced and given its name, and the directory synced, in this order and
since the job was taken from the queue. -/
def Committed (job : Job) (log : List Event) : Prop := Since job ((Stage.close none).effects job) log

def Proper : Event → List Event → Prop
  | .submitted _, earlier => Event.closed ∉ earlier ∧ ∀ r ∈ finished earlier, r.2 = none
  | .result job none, earlier => Committed job earlier
  | _, _ => True

def Working (w : World) : Prop :=
  match w.worker with
  | .waiting => True
  | .dequeued job prior _ => prior = w.failure ∧ Since job [] w.log
  | .committing job stage => w.failure = none ∧ Since job (stage.effects job) w.log
  | .finished job none => w.failure = none ∧ Committed job w.log
  | .finished _ (some _) => True
  | .returned => w.closing = true ∧ w.waiting = []

structure Orderly (c : Config) (w : World) : Prop where
  order : submitted w.log = (finished w.log).map (·.1) ++ (w.worker.active ++ w.waiting)
  answers : (finished w.log).map answer = polled w.log ++ w.results
  outstanding : w.outstanding =
    w.results.map (fun r => (r.key, r.path)) ++ (w.worker.active ++ w.waiting).map fun j => (j.key, j.path)
  distinct : (w.outstanding.map (·.1)).Nodup
  paths : w.paths.Perm (w.outstanding.map (·.2))
  bounded : w.outstanding.length ≤ c.capacity
  split : (finished w.log).Pairwise fun a b => a.2.isSome → b.2.isSome
  unfailed : w.failure = none → ∀ r ∈ finished w.log, r.2 = none
  open_ : w.closing = false → Event.closed ∉ w.log
  working : Working w
  proper : Always Proper w.log

theorem initial_orderly (c : Config) : Orderly c initial where
  order := rfl
  answers := rfl
  outstanding := rfl
  distinct := .nil
  paths := .nil
  bounded := Nat.zero_le _
  split := .nil
  unfailed := fun _ _ h => (by cases h)
  open_ := fun _ h => (by cases h)
  working := trivial
  proper := trivial

section
variable {c : Config} {w w' : World} {job : Job} {events more log : List Event}

theorem Since.grow (h : Since job events log) (plain : ∀ e ∈ more, e.isDequeued = false) :
    Since job events (more ++ log) := by
  have none : more.find? Event.isDequeued = none := by
    refine List.find?_eq_none.mpr fun e he => ?_
    simp [plain e he]
  refine ⟨by rw [List.find?_append, none, Option.none_or, h.taken], ?_⟩
  rw [since_append log plain]
  exact h.done.trans (List.sublist_append_right _ _)

theorem Since.add {e : Event} (h : Since job events log) (plain : e.isDequeued = false) :
    Since job (e :: events) (e :: log) := by
  refine ⟨by rw [List.find?_cons_of_neg (by simp [plain]), h.taken], ?_⟩
  rw [since_cons_plain log plain]
  exact h.done.cons_cons e

theorem Since.weaken (h : Since job events log) : Since job [] log := ⟨h.taken, List.nil_sublist _⟩

theorem working_more (h : Working w) (worker : w'.worker = w.worker) (failure : w'.failure = w.failure)
    (ended : w.closing = true → w.waiting = [] → w'.closing = true ∧ w'.waiting = [])
    (grown : w'.log = more ++ w.log) (plain : ∀ e ∈ more, e.isDequeued = false) : Working w' := by
  unfold Working at h ⊢
  rw [worker, failure, grown]
  split at h
  · exact trivial
  · exact ⟨h.1, h.2.grow plain⟩
  · exact ⟨h.1, h.2.grow plain⟩
  · exact ⟨h.1, h.2.grow plain⟩
  · exact trivial
  · exact ended h.1 h.2

/-! A call of a producer. -/

theorem objection_none (h : w.objection c job = none) :
    w.closing = false ∧ w.failure = none ∧ job.key ∉ w.outstanding.map (·.1) ∧ job.path ∉ w.paths ∧
      w.outstanding.length < c.capacity := by
  unfold World.objection at h
  split at h
  · cases h
  split at h
  · cases h
  split at h
  · cases h
  split at h
  · cases h
  rename_i opened
  split at h
  · cases h
  rename_i live
  split at h
  · cases h
  rename_i fresh
  split at h
  · cases h
  rename_i room
  have fresh := not_or.mp fresh
  refine ⟨by simpa using opened, live, ?_, fresh.2, by omega⟩
  intro known
  obtain ⟨p, hp, same⟩ := List.mem_map.mp known
  exact fresh.1 (List.any_eq_true.mpr ⟨p, hp, by simpa using same⟩)

theorem orderly_enqueue (h : Orderly c w) (fits : w.objection c job = none) : Orderly c (w.enqueue job) := by
  obtain ⟨opened, live, key, path, room⟩ := objection_none fits
  have names : (w.enqueue job).outstanding.map (·.1) = w.outstanding.map (·.1) ++ [job.key] := List.map_append
  have paths : (w.enqueue job).outstanding.map (·.2) = w.outstanding.map (·.2) ++ [job.path] := List.map_append
  have accepted : submitted (w.enqueue job).log = submitted w.log ++ [job] := List.reverse_cons
  refine ⟨?_, h.answers, ?_, ?_, ?_, ?_, h.split, h.unfailed, fun opened' => ?_, ?_, ⟨?_, ?_⟩, h.proper⟩
  · rw [accepted, h.order]
    simp [World.enqueue, finished]
  · show w.outstanding ++ [(job.key, job.path)] = _
    rw [h.outstanding]
    simp [World.enqueue]
  · rw [names]
    exact List.nodup_append.mpr ⟨h.distinct, List.nodup_singleton _, fun a ha b hb => by
      rw [List.mem_singleton.mp hb]
      exact fun same => key (same ▸ ha)⟩
  · rw [paths]
    exact (h.paths.cons job.path).trans (List.perm_append_singleton _ _).symm
  · show (w.outstanding ++ [_]).length ≤ c.capacity
    rw [List.length_append]
    exact room
  · exact List.not_mem_cons_of_ne_of_not_mem (by simp) (h.open_ opened')
  · refine working_more h.working rfl rfl (fun closed => ?_) (List.singleton_append (l := w.log)).symm (by simp [Event.isDequeued])
    rw [opened] at closed
    cases closed
  · exact h.open_ opened
  · exact h.unfailed live

theorem orderly_submit (h : Orderly c w) (job : Job) : Orderly c (w.submit c job).2 := by
  unfold World.submit
  cases fits : w.objection c job with
  | some error => exact h
  | none => exact orderly_enqueue h fits

theorem orderly_close (h : Orderly c w) (timeoutValid : Bool) : Orderly c (w.close timeoutValid) := by
  unfold World.close
  split
  · refine ⟨h.order, h.answers, h.outstanding, h.distinct, h.paths, h.bounded, h.split, h.unfailed,
      fun opened => (by cases opened), ?_, trivial, h.proper⟩
    exact working_more h.working rfl rfl (fun _ ended => ⟨rfl, ended⟩) (List.singleton_append (l := w.log)).symm
      (by simp [Event.isDequeued])
  · exact h

/-- The results of `poll` are all known, and are forgotten. -/
theorem forgetAll_ok {rest : List (String × Path)} (results : List ArchiveResult) :
    ∀ w : World, w.outstanding = results.map (fun r => (r.key, r.path)) ++ rest →
      w.paths.Perm (w.outstanding.map (·.2)) →
      ∃ paths, paths.Perm (rest.map (·.2)) ∧
        w.forgetAll results = (.ok { w with outstanding := rest, paths := paths },
          { w with outstanding := rest, paths := paths }) := by
  induction results with
  | nil =>
    intro w outstanding perm
    have outstanding : w.outstanding = rest := outstanding
    refine ⟨w.paths, outstanding ▸ perm, ?_⟩
    rw [World.forgetAll, ← outstanding]
  | cons r results ih =>
    intro w outstanding perm
    rw [List.map_cons, List.cons_append] at outstanding
    have known : r.path ∈ w.paths := by
      rw [perm.mem_iff, outstanding]
      exact List.mem_cons_self
    have dropped : w.forget r = .ok { w with
        outstanding := results.map (fun r => (r.key, r.path)) ++ rest, paths := w.paths.erase r.path } := by
      have found : w.outstanding.any (·.1 = r.key) = true := by simp [outstanding]
      have erased : w.outstanding.eraseP (·.1 = r.key) = results.map (fun r => (r.key, r.path)) ++ rest := by
        rw [outstanding, List.eraseP_cons_of_pos (by simp)]
      rw [World.forget, found, if_neg (by simp), if_neg (not_not.mpr known), erased]
    obtain ⟨paths, perm', all⟩ := ih
      { w with outstanding := results.map (fun r => (r.key, r.path)) ++ rest, paths := w.paths.erase r.path } rfl (by
        rw [outstanding, List.map_cons] at perm
        have erased := perm.erase r.path
        rwa [List.erase_cons_head] at erased)
    exact ⟨paths, perm', by rw [World.forgetAll, dropped]; exact all⟩

theorem polling (results : List ArchiveResult) (log : List Event) :
    submitted ((results.map Event.polled).reverse ++ log) = submitted log ∧
      finished ((results.map Event.polled).reverse ++ log) = finished log ∧
      polled ((results.map Event.polled).reverse ++ log) = polled log ++ results := by
  refine ⟨?_, ?_, ?_⟩
  · simp [submitted, List.filterMap_append]
  · simp [finished, List.filterMap_append]
  · simp [polled, List.filterMap_append]

theorem orderly_poll (h : Orderly c w) : w.poll.1 = .ok w.results ∧ Orderly c w.poll.2 := by
  obtain ⟨paths, perm, all⟩ := forgetAll_ok w.results { w with results := [] } h.outstanding h.paths
  have polling := polling w.results w.log
  have plain : ∀ e ∈ (w.results.map Event.polled).reverse, ∃ r, e = .polled r := by
    intro e he
    obtain ⟨r, -, rfl⟩ := List.mem_map.mp (List.mem_reverse.mp he)
    exact ⟨r, rfl⟩
  have live := h.outstanding
  have distinct := h.distinct
  have bounded := h.bounded
  rw [live, List.map_append] at distinct
  rw [live, List.length_append] at bounded
  unfold World.poll
  rw [all]
  refine ⟨rfl, ?_, ?_, rfl, ?_, perm, ?_, ?_, ?_, fun opened known => ?_, ?_, ?_⟩
  · rw [polling.1, polling.2.1]
    exact h.order
  · rw [polling.2.1, polling.2.2, h.answers]
    exact (List.append_nil _).symm
  · exact (List.nodup_append.mp distinct).2.1
  · exact (Nat.le_add_left _ _).trans bounded
  · rw [polling.2.1]
    exact h.split
  · rw [polling.2.1]
    exact h.unfailed
  · rcases List.mem_append.mp known with here | earlier
    · obtain ⟨r, impossible⟩ := plain _ here
      cases impossible
    · exact h.open_ opened earlier
  · refine working_more h.working rfl rfl (fun closed ended => ⟨closed, ended⟩) rfl fun e he => ?_
    obtain ⟨r, rfl⟩ := plain e he
    rfl
  · refine h.proper.append fun e he _ => ?_
    obtain ⟨r, rfl⟩ := plain e he
    exact trivial

/-! A step of the worker. -/

def Event.isEffect : Event → Bool
  | .written _ | .fileSynced _ | .linked _ | .directorySynced _ => true
  | _ => false

theorem orderly_goes {worker : Worker} (h : Orderly c w) (active : worker.active = w.worker.active)
    (effects : ∀ e ∈ more, e.isEffect = true)
    (working : Working { w with worker := worker, log := more ++ w.log }) :
    Orderly c { w with worker := worker, log := more ++ w.log } := by
  have keeps {α : Type} {f : Event → Option α} (skips : ∀ e, e.isEffect = true → f e = none) :
      (more ++ w.log).filterMap f = w.log.filterMap f := by
    have none : more.filterMap f = [] := List.filterMap_eq_nil_iff.mpr fun e he => skips e (effects e he)
    rw [List.filterMap_append, none, List.nil_append]
  have accepted : submitted (more ++ w.log) = submitted w.log :=
    congrArg List.reverse (keeps fun e he => by cases e <;> first | rfl | cases he)
  have reported : finished (more ++ w.log) = finished w.log :=
    congrArg List.reverse (keeps fun e he => by cases e <;> first | rfl | cases he)
  have delivered : polled (more ++ w.log) = polled w.log :=
    congrArg List.reverse (keeps fun e he => by cases e <;> first | rfl | cases he)
  refine ⟨?_, ?_, ?_, h.distinct, h.paths, h.bounded, ?_, ?_, fun opened known => ?_, working, ?_⟩
  · show submitted (more ++ w.log) = (finished (more ++ w.log)).map (·.1) ++ (worker.active ++ w.waiting)
    rw [accepted, reported, active]
    exact h.order
  · show (finished (more ++ w.log)).map answer = polled (more ++ w.log) ++ w.results
    rw [reported, delivered]
    exact h.answers
  · show w.outstanding = _ ++ (worker.active ++ w.waiting).map _
    rw [active]
    exact h.outstanding
  · show (finished (more ++ w.log)).Pairwise _
    rw [reported]
    exact h.split
  · show w.failure = none → ∀ r ∈ finished (more ++ w.log), r.2 = none
    rw [reported]
    exact h.unfailed
  · rcases List.mem_append.mp known with here | earlier
    · have impossible := effects _ here
      cases impossible
    · exact h.open_ opened earlier
  · refine h.proper.append fun e he _ => ?_
    have effect := effects e he
    cases e <;> first | exact trivial | cases effect

theorem orderly_goto {stage : Stage} (h : Orderly c w) (active : [job] = w.worker.active) (live : w.failure = none)
    (effects : Since job (stage.effects job) w.log) : Orderly c (w.goto job stage) :=
  @orderly_goes c w [] (.committing job stage) h active (fun _ h => (by cases h)) ⟨live, effects⟩

theorem orderly_happen {stage : Stage} {e : Event} (h : Orderly c w) (active : [job] = w.worker.active)
    (live : w.failure = none) (effect : e.isEffect = true) (plain : e.isDequeued = false)
    (since : Since job events w.log) (next : stage.effects job = e :: events) :
    Orderly c (e.happen (w.goto job stage)) := by
  have further : Since job (stage.effects job) (e :: w.log) := by
    rw [next]
    exact since.add plain
  exact @orderly_goes c w [e] (.committing job stage) h active (fun x hx => List.mem_singleton.mp hx ▸ effect)
    ⟨live, further⟩

theorem orderly_finish {error : Option String} (h : Orderly c w) (active : [job] = w.worker.active)
    (committed : error = none → w.failure = none ∧ Committed job w.log) : Orderly c (w.finish job error) := by
  refine @orderly_goes c w [] (.finished job error) h active (fun _ h => (by cases h)) ?_
  cases error with
  | none => exact committed rfl
  | some e => exact trivial

theorem orderly_fails {error : String} (h : Orderly c w) (active : [job] = w.worker.active) :
    Orderly c (w.finish job (some error)) := orderly_finish h active fun h => (by cases h)

theorem orderly_commit {stage : Stage} (h : Orderly c w) (worker : w.worker = .committing job stage) (io : Io) :
    Orderly c (w.commit job io stage) := by
  have active : [job] = w.worker.active := by rw [worker]; rfl
  have working := h.working
  unfold Working at working
  rw [worker] at working
  obtain ⟨live, since⟩ := working
  have failing {stage : Stage} (none : stage.effects job = []) : Orderly c (w.goto job stage) :=
    orderly_goto h active live (none ▸ since.weaken)
  cases stage with
  | start =>
    simp only [World.commit]
    split
    · exact orderly_fails h active
    · cases io with
      | done => exact failing rfl
      | failed unsupported e => exact orderly_fails h active
  | create =>
    simp only [World.commit]
    split
    · exact failing rfl
    · cases io with
      | done | failed unsupported e => exact failing rfl
  | write =>
    cases io with
    | done => exact orderly_happen h active live rfl rfl since rfl
    | failed unsupported e => exact failing rfl
  | sync =>
    cases io with
    | done => exact orderly_happen h active live rfl rfl since rfl
    | failed unsupported e => exact failing rfl
  | link =>
    simp only [World.commit]
    split
    · exact failing rfl
    · cases io with
      | done => exact orderly_happen h active live rfl rfl since rfl
      | failed unsupported e =>
        cases unsupported with
        | true => exact orderly_goto h active live since
        | false => exact failing rfl
  | rename linking =>
    cases io with
    | done => exact orderly_happen h active live rfl rfl since rfl
    | failed unsupported e => exact failing rfl
  | unlink created error =>
    cases error with
    | none =>
      cases created with
      | false => exact orderly_goto h active live since
      | true =>
        cases io with
        | done => exact orderly_goto h active live since
        | failed unsupported e => exact failing rfl
    | some chain =>
      cases created with
      | false => exact failing rfl
      | true =>
        cases io with
        | done | failed unsupported e => exact failing rfl
  | syncDirectory =>
    cases io with
    | done => exact orderly_happen h active live rfl rfl since rfl
    | failed unsupported e => exact failing rfl
  | close error =>
    cases io with
    | done =>
      cases error with
      | none => exact orderly_finish h active fun _ => ⟨live, since⟩
      | some chain => exact orderly_fails h active
    | failed unsupported e => exact orderly_fails h active

theorem orderly_dequeue {rest : List Job} (h : Orderly c w) (worker : w.worker = .waiting)
    (queue : w.waiting = job :: rest) :
    Orderly c
      { w with waiting := rest, worker := .dequeued job w.failure w.closing, log := .dequeued job :: w.log } := by
  have order := h.order
  have outstanding := h.outstanding
  rw [worker, queue] at order outstanding
  refine ⟨order, h.answers, outstanding, h.distinct, h.paths, h.bounded, h.split, h.unfailed, fun opened => ?_,
    ⟨rfl, rfl, List.nil_sublist _⟩, trivial, h.proper⟩
  exact List.not_mem_cons_of_ne_of_not_mem (by simp) (h.open_ opened)

theorem orderly_report {error : Option String} (h : Orderly c w) (worker : w.worker = .finished job error) :
    Orderly c (w.report job error) := by
  have working := h.working
  unfold Working at working
  rw [worker] at working
  have order := h.order
  have outstanding := h.outstanding
  rw [worker] at order outstanding
  have done : finished (w.report job error).log = finished w.log ++ [(job, error)] := List.reverse_cons
  refine ⟨?_, ?_, ?_, h.distinct, h.paths, h.bounded, ?_, ?_, fun opened => ?_, trivial, ?_, h.proper⟩
  · rw [done, List.map_append, List.append_assoc]
    exact order
  · rw [done, List.map_append, h.answers, List.append_assoc]
    rfl
  · show w.outstanding = (w.results ++ [(⟨job.key, job.path, error⟩ : ArchiveResult)]).map _ ++ _
    rw [outstanding]
    simp [Worker.active, World.report]
  · rw [done]
    refine List.pairwise_append.mpr ⟨h.split, List.pairwise_singleton _ _, fun a ha b hb failed => ?_⟩
    rw [List.mem_singleton.mp hb]
    cases error with
    | some e => rfl
    | none =>
      rw [h.unfailed working.1 a ha] at failed
      cases failed
  · rw [done]
    intro unfailed r hr
    have unfailed : w.failure.or error = none := unfailed
    obtain ⟨before, here⟩ := Option.or_eq_none_iff.mp unfailed
    rcases List.mem_append.mp hr with hr | hr
    · exact h.unfailed before r hr
    · rw [List.mem_singleton.mp hr]
      exact here
  · exact List.not_mem_cons_of_ne_of_not_mem (by simp) (h.open_ opened)
  · cases error with
    | some e => exact trivial
    | none => exact working.2

theorem orderly_work (h : Orderly c w) (io : Io) : Orderly c (w.work io) := by
  have working := h.working
  unfold Working at working
  unfold World.work
  split
  · rename_i worker
    split
    · rename_i queue
      exact orderly_dequeue h worker queue
    · rename_i queue
      split
      · rename_i closed
        have active : Worker.returned.active = w.worker.active := by rw [worker]; rfl
        exact @orderly_goes c w [] .returned h active (fun _ h => (by cases h)) ⟨closed, queue⟩
      · exact h
  · rename_i worker
    exact orderly_fails h (by rw [worker]; rfl)
  · rename_i worker
    exact orderly_fails h (by rw [worker]; rfl)
  · rename_i worker
    rw [worker] at working
    exact orderly_goto h (by rw [worker]; rfl) working.1.symm working.2
  · rename_i worker
    exact orderly_commit h worker io
  · rename_i worker
    exact orderly_report h worker
  · exact h

theorem orderly_step (step : Step c w w') (h : Orderly c w) : Orderly c w' := by
  cases step with
  | submit job => exact orderly_submit h job
  | poll => exact (orderly_poll h).2
  | close timeoutValid => exact orderly_close h timeoutValid
  | work io => exact orderly_work h io

def Stage.weight : Stage → Nat
  | .start => 10
  | .create => 9
  | .write => 8
  | .sync => 7
  | .link => 6
  | .rename _ => 5
  | .unlink .. => 4
  | .syncDirectory => 3
  | .close _ => 2

def Worker.weight : Worker → Nat
  | .dequeued .. => 11
  | .committing _ stage => stage.weight
  | .finished .. => 1
  | _ => 0

def World.remaining (w : World) : Nat := 12 * w.waiting.length + w.worker.weight

theorem commit_advances {stage : Stage} (io : Io) :
    (w.commit job io stage).waiting = w.waiting ∧ (w.commit job io stage).worker.weight < stage.weight := by
  cases stage <;> cases io <;> simp only [World.commit] <;> repeat' split
  all_goals exact ⟨rfl, by simp [World.goto, World.finish, Event.happen, Worker.weight, Stage.weight]⟩

theorem work_advances (h : Orderly c w) (some : w.worker.active ++ w.waiting ≠ []) (io : Io) :
    (w.work io).remaining < w.remaining := by
  have working := h.working
  unfold Working at working
  unfold World.work World.remaining
  split
  · rename_i worker
    rw [worker] at some ⊢
    split
    · rename_i queue
      rw [queue, List.length_cons]
      simp only [Worker.weight]
      omega
    · rename_i queue
      exact absurd queue some
  · rename_i worker
    rw [worker]
    simp only [World.finish, Worker.weight]
    omega
  · rename_i worker
    rw [worker]
    simp only [World.finish, Worker.weight]
    omega
  · rename_i worker
    rw [worker]
    simp only [World.goto, Worker.weight, Stage.weight]
    omega
  · rename_i job stage worker
    obtain ⟨waiting, less⟩ := @commit_advances w job stage io
    have weight : (Worker.committing job stage).weight = stage.weight := rfl
    rw [worker, waiting, weight]
    omega
  · rename_i worker
    rw [worker]
    simp only [World.report, Worker.weight]
    omega
  · rename_i worker
    rw [worker] at some working
    exact absurd working.2 some

/-- Whatever producers call and the disk answers: the results that were and can be polled are those of a first part of
the accepted jobs in order, and the worker gets to the last of them; successes come before errors, each of a file that
was committed before; what is outstanding was accepted and not polled, and fits; and after a failure or a close
nothing is accepted. -/
theorem results_delivered (c : Config) (run : Effect.Path (Step c) initial w) :
    submitted w.log = (finished w.log).map (·.1) ++ (w.worker.active ++ w.waiting) ∧
      (finished w.log).map answer = polled w.log ++ w.results ∧
      (w.worker.active ++ w.waiting ≠ [] → ∀ io, (w.work io).remaining < w.remaining) ∧
      (finished w.log).Pairwise (fun a b => a.2.isSome → b.2.isSome) ∧
      Always Proper w.log ∧
      w.outstanding.length = w.waiting.length + w.worker.active.length + w.results.length ∧
      w.outstanding.length + (polled w.log).length = (submitted w.log).length ∧
      w.outstanding.length ≤ c.capacity ∧
      w.poll.1 = .ok w.results := by
  have h : Orderly c w := run.keeps (fun _ _ => orderly_step) (initial_orderly c)
  have all := congrArg List.length h.order
  have answers := congrArg List.length h.answers
  have outstanding := congrArg List.length h.outstanding
  simp only [List.length_append, List.length_map] at all answers outstanding
  exact ⟨h.order, h.answers, work_advances h, h.split, h.proper, by omega, by omega, h.bounded, (orderly_poll h).1⟩

end

def bench : List Io := [.done, .done, .done, .done, .done, .done, .done, .done, .done, .done, .done]

def benchJob : Job := ⟨"1", ⟨true, ["raw", "1.json"]⟩, [123, 125]⟩

def benchDone : World := (bench.foldl World.work (initial.submit ⟨8, by decide⟩ benchJob).2).poll.2

theorem bench_delivered : polled benchDone.log = [⟨"1", ⟨true, ["raw", "1.json"]⟩, none⟩] ∧
    Always Proper benchDone.log := by
  have works : ∀ (l : List Io) (w : World), Effect.Path (Step ⟨8, by decide⟩) w (l.foldl World.work w) := by
    intro l
    induction l with
    | nil => exact fun _ => .refl
    | cons io rest ih => exact fun w => (Effect.Path.single (Step.work io)).trans (ih _)
  have run : Effect.Path (Step ⟨8, by decide⟩) initial benchDone :=
    (Effect.Path.single (.submit benchJob)).trans ((works bench _).tail .poll)
  exact ⟨by decide +kernel, (results_delivered ⟨8, by decide⟩ run).2.2.2.2.1⟩

end Smartwheel.Archive

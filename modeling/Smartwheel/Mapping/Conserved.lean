import Smartwheel.Mapping.Accounting

/-! The worker keeps the accounts of the mapping input, and every run does. -/
namespace Smartwheel.Mapping
open Effect

variable {c : Config} {j j' : Input}

theorem kept_receiveImu (h : Kept c j) (idle : j.main = .idle) (completed : Except String Bool) :
    Kept c (j.receiveImu c completed) := by
  have fails (reason : String) : Kept c (j.fail reason) :=
    h.same (same_thread j _ _ _ _ _ _ _) rfl (placed_of_idle idle)
  unfold Input.receiveImu
  split
  · exact fails _
  · exact fails _
  · split
    · exact h
    · rename_i new
      have unready : j.ready = false := by
        cases ready : j.ready with
        | false => rfl
        | true => exact absurd (.inr ready) new
      have once := h.once
      rw [unready, if_neg (by decide)] at once
      have readied : Kept c { j with ready := true } :=
        ⟨h.pipe, h.acknowledged, Nat.le_trans once (Nat.zero_le _), h.held, h.bytes, h.bound, h.limit, h.placed, h.archived,
          h.shown, h.full⟩
      have free := h.jobs_length (.inr unready)
      unfold Input.submit
      dsimp only
      split
      · rename_i j' outcome
        split at outcome
        · cases outcome
        · split at outcome
          · cases outcome
          · obtain rfl := (Prod.mk.inj outcome).2
            obtain ⟨t, f, pipe⟩ := h.pipe
            refine ⟨⟨t, f, ?_, pipe.put, pipe.index, pipe.holds, pipe.order⟩, h.acknowledged, ?_, h.held, h.bytes, h.bound,
              h.limit, h.placed, h.archived, h.shown, h.full⟩
            · show (j.jobs ++ [Job.bootstrap]).filterMap Job.number = _
              rw [List.filterMap_append, pipe.queued]
              exact List.append_nil _
            · show boots (j.jobs ++ [Job.bootstrap]) j.worker j.results ≤ 1
              unfold boots at once ⊢
              rw [List.countP_append]
              have one : [Job.bootstrap].countP (·.number.isNone) = 1 := rfl
              omega
      · rename_i reason j' outcome
        split at outcome
        · obtain rfl := (Prod.mk.inj outcome).2
          exact readied.same (same_thread _ _ _ _ _ _ _ _) rfl (placed_of_idle idle)
        · split at outcome
          · rename_i full
            exact absurd full (Nat.not_le_of_lt free)
          · cases outcome

theorem kept_failWorker (h : Kept c j) (reason : String) : Kept c (j.failWorker reason) := by
  obtain ⟨t, f, pipe⟩ := h.pipe
  refine ⟨⟨t, f, pipe.queued, pipe.put, pipe.index, trivial, pipe.order⟩, h.acknowledged, ?_, h.held, h.bytes, h.bound,
    h.limit, h.placed, h.archived, h.shown, h.full⟩
  have once := h.once
  unfold boots at once ⊢
  refine Nat.le_trans ?_ once
  exact Nat.add_le_add_right (Nat.add_le_add_left (Nat.zero_le _) _) _

theorem kept_take (h : Kept c j) (worker : j.worker = .waiting) {job : Job} {rest : List Job}
    (jobs : j.jobs = job :: rest) : Kept c { j with jobs := rest, worker := .working job } := by
  obtain ⟨t, f, pipe⟩ := h.pipe
  have holds := pipe.holds
  rw [worker] at holds
  obtain ⟨done, archived⟩ := holds
  have order := pipe.order
  have queued := pipe.queued
  rw [jobs] at queued
  have once := h.once
  unfold boots at once
  rw [jobs, worker] at once
  cases job with
  | bootstrap =>
    refine ⟨⟨t, f, queued, pipe.put, pipe.index, ⟨done, archived⟩, order⟩, h.acknowledged, ?_, h.held, h.bytes, h.bound,
      h.limit, h.placed, h.archived, h.shown, h.full⟩
    rw [List.countP_cons_of_pos rfl] at once
    exact once
  | output o =>
    have queued' : o.number :: rest.filterMap Job.number = between t j.submitted := queued
    have more : t < j.submitted := by
      have length := congrArg List.length queued'
      rw [List.length_cons, between_length] at length
      omega
    rw [between_cons more] at queued'
    obtain ⟨number, others⟩ := List.cons.inj queued'
    refine ⟨⟨t + 1, f, others, pipe.put, pipe.index, ⟨number, congrArg (· + 1) done, archived.trans done.symm⟩, order.1,
      order.2.1, ?_, more⟩,
      h.acknowledged, ?_, h.held, h.bytes, h.bound, h.limit, h.placed, h.archived, h.shown, h.full⟩
    · show j.outputs ≤ t + 1
      omega
    · exact once

theorem kept_archive (h : Kept c j) {o : Output} (worker : j.worker = .working (.output o)) (report : Report) :
    Kept c (j.archive c o report) := by
  obtain ⟨t, f, pipe⟩ := h.pipe
  have holds := pipe.holds
  rw [worker] at holds
  obtain ⟨number, taken, archived⟩ := holds
  have order := pipe.order
  have once := h.once
  unfold boots at once
  rw [worker] at once
  have same : (if c.realtime then o else { o with report }).number = t := by
    split <;> exact number
  refine ⟨⟨t, f, pipe.queued, pipe.put, pipe.index, ⟨same, ?_, taken, ?_⟩, order.1, ?_, ?_, order.2.2.2⟩, h.acknowledged, once,
    h.held, h.bytes, h.bound, h.limit, h.placed, ⟨h.archived.1, Nat.le_succ_of_le h.archived.2.1, rfl⟩, h.shown, h.full⟩
  · omega
  · show j.outputs + 1 = t
    omega
  · show f ≤ j.outputs + 1
    omega
  · show j.outputs + 1 ≤ t
    omega

theorem kept_put (h : Kept c j) {result : Result} (worker : j.worker = .putting result) :
    Kept c { j with results := j.results ++ [result], worker := .waiting } ∧
      j.results.length < c.pendingOutputLimit + 2 := by
  obtain ⟨t, f, pipe⟩ := h.pipe
  have holds := pipe.holds
  have order := pipe.order
  have once := h.once
  unfold boots at once
  rw [worker] at holds once
  cases result with
  | bootstrap =>
    obtain ⟨done, archived⟩ := holds
    refine ⟨⟨⟨t, f, pipe.queued, ?_, fun o index mem => ?_, ⟨done, archived⟩, order⟩, h.acknowledged, ?_, h.held, h.bytes,
      h.bound, h.limit, h.placed, h.archived, h.shown, h.full⟩, h.results_length pipe (.inl (by rw [worker]; rfl))⟩
    · show (j.results ++ [Result.bootstrap]).filterMap Result.number = _
      rw [List.filterMap_append, pipe.put]
      exact List.append_nil _
    · rcases List.mem_append.mp mem with mem | mem
      · exact pipe.index o index mem
      · cases List.mem_singleton.mp mem
    · show boots j.jobs .waiting (j.results ++ [Result.bootstrap]) ≤ if j.ready then 1 else 0
      unfold boots
      rw [List.countP_append]
      have one : [Result.bootstrap].countP (·.number.isNone) = 1 := rfl
      have held : (Worker.putting .bootstrap).boots = 1 := rfl
      have none_ : Worker.waiting.boots = 0 := rfl
      omega
  | output o index =>
    obtain ⟨number, indexed, taken, archived⟩ := holds
    refine ⟨⟨⟨t, f + 1, pipe.queued, ?_, fun o' index' mem => ?_, ⟨taken, archived⟩, ?_, ?_, order.2.2⟩, h.acknowledged, ?_,
      h.held, h.bytes, h.bound, h.limit, h.placed, h.archived, h.shown, h.full⟩, h.results_length pipe (.inr taken)⟩
    · show (j.results ++ [Result.output o index]).filterMap Result.number = _
      rw [List.filterMap_append, pipe.put, between_snoc order.1]
      have last : o.number = f + 1 := by omega
      exact congrArg (fun n => between j.acknowledged.length f ++ [n]) last
    · rcases List.mem_append.mp mem with mem | mem
      · exact pipe.index o' index' mem
      · obtain ⟨rfl, rfl⟩ := Result.output.inj (List.mem_singleton.mp mem)
        omega
    · show j.acknowledged.length ≤ f + 1
      omega
    · show f + 1 ≤ j.outputs
      omega
    · show boots j.jobs .waiting (j.results ++ [Result.output o index]) ≤ if j.ready then 1 else 0
      unfold boots
      rw [List.countP_append]
      exact once

theorem kept_work (h : Kept c j) (archived : Except String Report) : Kept c (j.work c archived) := by
  unfold Input.work
  split
  · rename_i worker
    split
    · exact kept_take h worker ‹_›
    · split
      · obtain ⟨t, f, pipe⟩ := h.pipe
        refine ⟨⟨t, f, pipe.queued, pipe.put, pipe.index, trivial, pipe.order⟩, h.acknowledged, ?_, h.held, h.bytes, h.bound,
          h.limit, h.placed, h.archived, h.shown, h.full⟩
        have once := h.once
        unfold boots at once ⊢
        rw [worker] at once
        exact once
      · exact h
  · rename_i job worker
    split
    · exact kept_failWorker h _
    · obtain ⟨t, f, pipe⟩ := h.pipe
      have holds := pipe.holds
      rw [worker] at holds
      refine ⟨⟨t, f, pipe.queued, pipe.put, pipe.index, holds, pipe.order⟩, h.acknowledged, ?_, h.held, h.bytes, h.bound,
        h.limit, h.placed, h.archived, h.shown, h.full⟩
      have once := h.once
      unfold boots at once ⊢
      rw [worker] at once
      exact once
    · exact kept_archive h worker _
  · rename_i result worker
    obtain ⟨kept, room⟩ := kept_put h worker
    split
    · rename_i full
      exact absurd full (by omega)
    · exact kept
  · exact h

theorem kept_step (step : Step c j j') (h : Kept c j) : Kept c j' := by
  cases step with
  | receiveSource s idle => exact kept_receiveSource h s idle
  | receiveImu completed idle => exact kept_receiveImu h idle completed
  | poll idle => exact h.same (same_thread j _ _ _ _ _ _ _) (submitted_of_idle idle).symm trivial
  | close idle =>
    unfold Input.close
    split
    · exact h
    · exact h.same (same_thread j _ _ _ _ _ _ _) (submitted_of_idle idle).symm trivial
  | fail reason idle => exact h.same (same_thread j _ _ _ _ _ _ _) rfl (placed_of_idle idle)
  | proceed check stop failure => exact kept_proceed h check stop failure
  | work archived => exact kept_work h archived
  | checkpoint synced grows bound =>
    exact ⟨h.pipe, h.acknowledged, h.once, h.held, h.bytes, h.bound, h.limit, h.placed, h.archived, h.shown, h.full⟩
  | error checkpointError statusError =>
    exact ⟨h.pipe, h.acknowledged, h.once, h.held, h.bytes, h.bound, h.limit, h.placed, h.archived, h.shown, h.full⟩

theorem kept_path (run : Path (Step c) (.initial c) j) : Kept c j :=
  run.keeps (fun _ _ => kept_step) (initial_kept c)

theorem mem_between {low high n : Nat} (lower : low < n) (upper : n ≤ high) : n ∈ between low high := by
  unfold between
  rw [List.mem_range'_1]
  omega

/-- The mapping input counts and reserves every output from its acceptance to the result of its archiving, neither
queue is ever full, and an output is published once and in order: by its own result, or in the realtime mode by no
result at all. -/
theorem input_accounted (run : Path (Step c) (.initial c) j) :
    (j.enqueuedOutputs = j.acknowledged.length + j.pending.length ∧
      j.acknowledged.length ≤ j.archivedOutputs ∧ j.archivedOutputs ≤ j.submitted) ∧
    (j.pendingBytes = (j.pending.map (·.2)).sum ∧ j.pendingBytes ≤ maxPendingBytes) ∧
    j.full = false ∧
    (j.acknowledged = List.range' 1 j.acknowledged.length ∧ j.published.Pairwise fun p q => p.1 < q.1) ∧
    (c.realtime = false → ∀ p ∈ j.published, p.2 = true ∧ p.1 ∈ j.acknowledged) ∧
    (c.realtime = true → ∀ p ∈ j.published, p.2 = false) := by
  have kept := kept_path run
  obtain ⟨t, f, pipe⟩ := kept.pipe
  obtain ⟨lower, upper, -⟩ := kept.archived
  have order := pipe.order
  refine ⟨⟨kept.held, lower, by omega⟩, ⟨kept.bytes, kept.bound⟩, kept.full, ⟨kept.acknowledged, kept.shown.order⟩,
    fun strict p mem => ⟨?_, ?_⟩, fun realtime p mem => ?_⟩
  · rw [kept.shown.via p mem, strict]
    rfl
  · have bound := kept.shown.bound p mem
    rw [if_neg (by rw [strict]; decide)] at bound
    rw [kept.acknowledged]
    exact mem_between (kept.shown.positive p mem) bound
  · rw [kept.shown.via p mem, realtime]
    rfl

/-! One frame of the left side in the strict mode. -/

namespace Bench

def config : Config where
  sides := [.left]
  realtime := false
  continuous := true
  periodic := false
  maxPairDelta := 50
  period := 0

def frame : Source where
  message := .left
  stopped := false
  mismatch := false
  inspected := .ok (some ⟨.left, 10, 10, 4⟩)
  frozen := .error ""
  stoppedLater := false

def goes (j : Input) : Input := j.proceed config .pass false none

def works (j : Input) : Input := j.work config (.ok ⟨false, true⟩)

def polls (j : Input) : Input := { j with main := .polling true }

def booted : Input := goes (goes (goes (polls (works (works (works (.initial config)))))))

def archived : Input := works (works (goes (goes (booted.receiveSource config frame))))

def early : Input := goes (goes (polls archived))

def published : Input := goes (goes (goes (goes (polls (works early)))))

theorem reaches {P : Input → Input} {j : Input} (step : ∀ j, Step config j (P j)) (run : Path (Step config) (.initial config) j) :
    Path (Step config) (.initial config) (P j) := run.tail (step j)

theorem goes_step (j : Input) : Step config j (goes j) := .proceed .pass false none

theorem works_step (j : Input) : Step config j (works j) := .work _

/-- The main thread is idle where the next frame or poll begins, and one output is published at the end. -/
theorem served : (works (works (works (.initial config)))).main = .idle ∧ booted.main = .idle ∧ archived.main = .idle ∧
    early.main = .idle ∧ (works early).main = .idle ∧
    early.enqueuedOutputs ≠ early.archivedOutputs + early.pending.length ∧ published.published = [(1, true)] := by
  decide +kernel

theorem boots_run : Path (Step config) (.initial config) booted := by
  have worked := reaches works_step (reaches works_step (reaches works_step .refl))
  have polled : Path (Step config) (.initial config) (polls (works (works (works (.initial config))))) :=
    worked.tail (.poll served.1)
  exact reaches goes_step (reaches goes_step (reaches goes_step polled))

theorem archives_run : Path (Step config) (.initial config) archived := by
  have received : Path (Step config) (.initial config) (booted.receiveSource config frame) :=
    boots_run.tail (.receiveSource frame served.2.1)
  exact reaches works_step (reaches works_step (reaches goes_step (reaches goes_step received)))

theorem early_run : Path (Step config) (.initial config) early :=
  reaches goes_step (reaches goes_step (archives_run.tail (.poll served.2.2.1)))

theorem publishes_run : Path (Step config) (.initial config) published := by
  have polled : Path (Step config) (.initial config) (polls (works early)) :=
    (reaches works_step early_run).tail (.poll served.2.2.2.2.1)
  exact reaches goes_step (reaches goes_step (reaches goes_step (reaches goes_step polled)))

end Bench

/-- An output that is archived, and whose result is still to come, is counted twice. -/
theorem archived_early : ∃ j, Path (Step Bench.config) (.initial Bench.config) j ∧ j.main = .idle ∧
    j.enqueuedOutputs ≠ j.archivedOutputs + j.pending.length :=
  ⟨Bench.early, Bench.early_run, Bench.served.2.2.2.1, Bench.served.2.2.2.2.2.1⟩

theorem bench_input_accounted :
    Bench.published.published = [(1, true)] ∧ Bench.published.enqueuedOutputs =
      Bench.published.acknowledged.length + Bench.published.pending.length :=
  ⟨Bench.served.2.2.2.2.2.2, (input_accounted Bench.publishes_run).1.1⟩

end Smartwheel.Mapping

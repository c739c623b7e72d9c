import Smartwheel.Disk.Tiling
import Smartwheel.Feedback.JournalSpec

/-! What a step of the worker keeps, and what every run of the journal does. -/
namespace Smartwheel.Feedback.Journal
open Effect

variable {ρ : Type} {c : Config ρ} {j j' : Journal}

/-! The batch is a first part of the queue. -/

theorem fill_taken (queue lines : List Line) (size : Nat) : ∃ taken,
    (fill queue lines size).2.1 = lines ++ taken ∧ queue = taken ++ (fill queue lines size).1 := by
  induction queue generalizing lines size with
  | nil => exact ⟨[], (List.append_nil _).symm, rfl⟩
  | cons next rest ih =>
    unfold fill
    split
    · exact ⟨[], (List.append_nil _).symm, rfl⟩
    · split
      · exact ⟨[], (List.append_nil _).symm, rfl⟩
      · obtain ⟨taken, lines', rest'⟩ := ih (lines ++ [next]) (size + next.length)
        refine ⟨next :: taken, ?_, ?_⟩
        · rw [lines', List.append_assoc, List.singleton_append]
        · rw [List.cons_append, ← rest']

theorem fill_batch {queue lines : List Line} {size : Nat} (batch : Batch lines size)
    (records : ∀ line ∈ queue, line.length ≤ journalRecordBytes) :
    Batch (fill queue lines size).2.1 (fill queue lines size).2.2 := by
  induction queue generalizing lines size with
  | nil => exact batch
  | cons next rest ih =>
    unfold fill
    split
    · exact batch
    · rename_i room
      split
      · exact batch
      · rename_i fits
        have more : Batch (lines ++ [next]) (size + next.length) := by
          refine ⟨by rw [total_append, batch.sizes]; rfl, ?_, ?_⟩
          · rw [List.length_append, List.length_singleton]
            omega
          · by_cases empty : lines = []
            · have record := records next (List.mem_cons_self ..)
              have sizes := batch.sizes
              rw [empty, total_nil] at sizes
              rw [sizes, Nat.zero_add]
              exact record
            · have bytes : ¬ journalBatchBytes < size + next.length := fun above => fits ⟨empty, above⟩
              omega
        exact ih more fun line mem => records line (List.mem_cons_of_mem _ mem)

structure Moved (j j' : Journal) : Prop where
  closing : j'.closing = j.closing
  error : j'.error = j.error
  accepted : j'.accepted = j.accepted
  written : j'.written = j.written
  queue : ∀ line ∈ j'.queue, line ∈ j.queue
  counts : j'.enqueuedEvents = j.enqueuedEvents ∧ j'.writtenEvents = j.writtenEvents ∧
    j'.pendingEvents = j.pendingEvents ∧ j'.pendingBytes = j.pendingBytes
  batches : j'.maxBatchEvents ≤ max j.maxBatchEvents journalBatchEvents ∧
    j'.maxBatchBytes ≤ max j.maxBatchBytes journalBatchBytes

theorem Moved.kept (moved : Moved j j') (h : Kept c j) (working : Working j')
    (final : j'.finalization.isSome → j'.closing = true) (synced : j'.finalFsyncComplete = true → Complete j') :
    Kept c j' := by
  obtain ⟨enqueued, written, events, bytes⟩ := moved.counts
  obtain ⟨rest, split, count, sum⟩ := h.accounted.pending
  have batchEvents := h.accounted.batchEvents
  have batchBytes := h.accounted.batchBytes
  obtain ⟨moreEvents, moreBytes⟩ := moved.batches
  have accounted : Accounted c j' := by
    refine ⟨?_, ?_, ⟨rest, ?_, ?_, ?_⟩, ?_, ?_, ?_, by omega, by omega⟩
    · rw [enqueued, moved.accepted, h.accounted.enqueued]
    · rw [written, moved.written, h.accounted.written]
    · rw [moved.accepted, moved.written, split]
    · rw [events, count]
    · rw [bytes, sum]
    · rw [events]
      exact h.accounted.events
    · rw [bytes]
      exact h.accounted.bytes
    · rw [moved.accepted]
      exact h.accounted.lines
  refine ⟨accounted, working, fun line mem => ?_, fun failed => ?_, final, synced⟩
  · rw [moved.accepted]
    exact h.queued line (moved.queue line mem)
  · rw [moved.closing]
    exact h.failed (moved.error ▸ failed)

theorem moved_file (j : Journal) (file buffer : List UInt8) (torn : Bool) (worker : Worker) (writes : Nat)
    (final : Option Line) (synced exited : Bool) :
    Moved j { j with
      file, buffer, torn, worker, writeCount := writes, finalization := final, finalFsyncComplete := synced,
      workerExited := exited } :=
  ⟨rfl, rfl, rfl, rfl, fun _ mem => mem, ⟨rfl, rfl, rfl, rfl⟩, ⟨Nat.le_max_left _ _, Nat.le_max_left _ _⟩⟩

theorem Complete.moved (h : Complete j) (worker : Worker) (writes : Nat) (synced exited : Bool) :
    Complete { j with worker, writeCount := writes, finalFsyncComplete := synced, workerExited := exited } :=
  ⟨h.closing, h.accepted, h.final, h.buffer⟩

theorem kept_gather (h : Kept c j) {lines : List Line} {size : Nat} (flow : Flowing j lines) (batch : Batch lines size)
    (file : j.file = j.written.flatten) (timedOut : Bool) : Kept c (j.gather lines size timedOut) := by
  obtain ⟨taken, lines', queue'⟩ := fill_taken j.queue lines size
  have filled := fill_batch batch fun line mem => h.accounted.lines line (h.queued line mem)
  have queued (line : Line) (mem : line ∈ (fill j.queue lines size).1) : line ∈ j.queue := by
    rw [queue']
    exact List.mem_append_right _ mem
  have accepted : j.accepted = j.written ++ ((fill j.queue lines size).2.1 ++ (fill j.queue lines size).1) := by
    rw [lines', List.append_assoc, ← queue']
    exact flow.accepted
  have unsynced {p : Prop} (synced : j.finalFsyncComplete = true) : p := by
    rw [flow.unsynced] at synced
    cases synced
  unfold gather
  dsimp only
  split
  · refine Moved.kept (j := j) ⟨rfl, rfl, rfl, rfl, queued, ⟨rfl, rfl, rfl, rfl⟩, ?_, ?_⟩ h ?_ h.final unsynced
    · exact max_le_max (Nat.le_refl _) filled.events
    · exact max_le_max (Nat.le_refl _) filled.bytes
    · exact ⟨⟨accepted, flow.buffer, flow.torn, flow.unsynced⟩, filled, file⟩
  · refine Moved.kept (j := j) ⟨rfl, rfl, rfl, rfl, queued, ⟨rfl, rfl, rfl, rfl⟩, ?_, ?_⟩ h ?_ h.final unsynced
    · exact Nat.le_max_left _ _
    · exact Nat.le_max_left _ _
    · exact ⟨⟨accepted, flow.buffer, flow.torn, flow.unsynced⟩, filled, file⟩

theorem kept_write (h : Kept c j) {output : Output} (worker : j.worker = .writing output) (io : Io) :
    Kept c (j.write output io) := by
  have working := h.working
  unfold Working at working
  rw [worker] at working
  cases output with
  | batch lines size =>
    obtain ⟨flow, batch, file⟩ := working
    have unsynced {p : Prop} (synced : j.finalFsyncComplete = true) : p := by
      rw [flow.unsynced] at synced
      cases synced
    cases io with
    | done =>
      refine (moved_file j _ _ _ _ _ _ _ _).kept h ?_ h.final unsynced
      refine ⟨⟨flow.accepted, flow.buffer, flow.torn, flow.unsynced⟩, batch, ?_⟩
      show j.file ++ lines.flatten = _
      rw [file]
    | failed arrived kept reason =>
      refine (moved_file j _ _ _ _ _ _ _ _).kept h ?_ h.final unsynced
      refine ⟨j.file ++ lines.flatten, ?_, Disk.cut_write _ _ _ _, fun intact => (by cases intact)⟩
      rw [file]
      exact flow.whole_more
  | finalization last =>
    obtain ⟨flow, empty, closing, file, composed⟩ := working
    have unsynced {p : Prop} (synced : j.finalFsyncComplete = true) : p := by
      rw [flow.unsynced] at synced
      cases synced
    have accepted : j.accepted = j.written := by
      rw [flow.accepted, empty, List.append_nil, List.append_nil]
    cases io with
    | done =>
      refine (moved_file j _ _ _ _ _ _ _ _).kept h ?_ h.final unsynced
      refine ⟨⟨closing, accepted, ⟨last, composed, ?_⟩, flow.buffer⟩, flow.torn⟩
      show j.file ++ last = j.accepted.flatten ++ last
      rw [file, accepted]
    | failed arrived kept reason =>
      refine (moved_file j _ _ _ _ _ _ _ _).kept h ?_ h.final unsynced
      refine ⟨j.file ++ last, .inr ⟨last, composed, ?_⟩, Disk.cut_write _ _ _ _, fun intact => (by cases intact)⟩
      show j.file ++ last = j.accepted.flatten ++ last
      rw [file, accepted]

theorem kept_afterWrite (h : Kept c j) {output : Output} {failure : Option String}
    (worker : j.worker = .wrote output failure) : Kept c (j.afterWrite output failure) := by
  have working := h.working
  unfold Working at working
  rw [worker] at working
  have moved := moved_file j j.file j.buffer j.torn (j.afterWrite output failure).worker (j.writeCount + 1)
    j.finalization j.finalFsyncComplete j.workerExited
  refine moved.kept h ?_ h.final fun synced => (h.synced synced).moved _ _ _ _
  unfold Working afterWrite
  cases failure with
  | some reason => cases output <;> exact working
  | none =>
    cases output with
    | batch lines size =>
      obtain ⟨flow, batch, file⟩ := working
      exact ⟨⟨flow.accepted, flow.buffer, flow.torn, flow.unsynced⟩, batch, file⟩
    | finalization last =>
      exact ⟨working.1.moved _ _ _ _, working.2⟩

theorem kept_count (h : Kept c j) {lines : List Line} {size : Nat} (worker : j.worker = .counting lines size) :
    Kept c (j.count lines size) := by
  have working := h.working
  unfold Working at working
  rw [worker] at working
  obtain ⟨flow, batch, file⟩ := working
  obtain ⟨rest, split, count, sum⟩ := h.accounted.pending
  have same : rest = lines ++ j.queue := by
    rw [flow.accepted] at split
    exact (List.append_cancel_left split).symm
  have events := h.accounted.events
  have bytes := h.accounted.bytes
  have sizes := batch.sizes
  rw [same, List.length_append] at count
  rw [same, total_append] at sum
  refine ⟨⟨h.accounted.enqueued, ?_, ⟨j.queue, ?_, ?_, ?_⟩, ?_, ?_, h.accounted.lines, h.accounted.batchEvents,
    h.accounted.batchBytes⟩, ⟨⟨?_, flow.buffer, flow.torn, flow.unsynced⟩, ?_⟩, h.queued, h.failed, h.final, ?_⟩
  · show j.writtenEvents + lines.length = (j.written ++ lines).length
    rw [List.length_append, h.accounted.written]
  · show j.accepted = j.written ++ lines ++ j.queue
    rw [flow.accepted, List.append_assoc]
  · show j.pendingEvents - lines.length = j.queue.length
    omega
  · show j.pendingBytes - size = total j.queue
    omega
  · show j.pendingEvents - lines.length ≤ c.maxEvents
    omega
  · show j.pendingBytes - size ≤ c.maxBytes
    omega
  · show j.accepted = j.written ++ lines ++ ([] ++ j.queue)
    rw [flow.accepted, List.append_assoc, List.nil_append]
  · show j.file = (j.written ++ lines).flatten
    rw [file, List.flatten_append]
  · intro synced
    have unsynced : j.finalFsyncComplete = true := synced
    rw [flow.unsynced] at unsynced
    cases unsynced

theorem kept_closeOutput (h : Kept c j) (worker : j.worker = .closing) (io : Io) : Kept c (j.closeOutput io) := by
  have working := h.working
  unfold Working at working
  rw [worker] at working
  obtain ⟨content, whole, cut, exact_⟩ := working
  have complete (synced : j.finalFsyncComplete = true) (rest : List UInt8) (none_ : j.buffer = [] → rest = [])
      (worker : Worker) : Complete { j with file := j.file ++ rest, buffer := [], worker } := by
    have complete := h.synced synced
    obtain ⟨last, composed, file⟩ := complete.final
    refine ⟨complete.closing, complete.accepted, ⟨last, composed, ?_⟩, rfl⟩
    show j.file ++ rest = _
    rw [none_ complete.buffer, List.append_nil]
    exact file
  cases io with
  | done =>
    refine (moved_file j _ _ _ _ _ _ _ _).kept h ?_ h.final fun synced => complete synced _ id _
    refine ⟨content, whole, ?_, fun intact => ?_⟩
    · show List.IsPrefix (j.file ++ j.buffer ++ []) content
      rw [List.append_nil]
      exact cut
    · obtain ⟨file, buffer⟩ := exact_ intact
      refine ⟨?_, rfl⟩
      show j.file ++ j.buffer = content
      rw [buffer, List.append_nil, file]
  | failed arrived kept reason =>
    have none_ (empty : j.buffer = []) : j.buffer.take arrived = [] := by
      rw [empty, List.take_nil]
    refine (moved_file j _ _ _ _ _ _ _ _).kept h ?_ h.final fun synced => complete synced _ none_ _
    refine ⟨content, whole, ?_, fun intact => ?_⟩
    · show List.IsPrefix (j.file ++ j.buffer.take arrived ++ []) content
      rw [List.append_nil]
      refine List.IsPrefix.trans ?_ cut
      exact (List.prefix_append_right_inj j.file).mpr (List.take_prefix arrived j.buffer)
    · obtain ⟨file, buffer⟩ := exact_ intact
      refine ⟨?_, rfl⟩
      show j.file ++ j.buffer.take arrived = content
      rw [none_ buffer, List.append_nil, file]

theorem kept_worker (h : Kept c j) (worker : Worker) (working : Working { j with worker }) :
    Kept c { j with worker } :=
  (moved_file j _ _ _ _ _ _ _ _).kept h working h.final fun synced => (h.synced synced).moved _ _ _ _

theorem kept_work (h : Kept c j) (timedOut : Bool) (io : Io) : Kept c (j.work c timedOut io) := by
  have working := h.working
  have filed := filed_of_working working
  unfold Working at working
  unfold work
  cases worker : j.worker with
  | waiting =>
    rw [worker] at working
    dsimp only
    split
    · rename_i empty
      split
      · rename_i closing
        exact kept_worker h _ ⟨⟨working.1.accepted, working.1.buffer, working.1.torn, working.1.unsynced⟩, empty, closing,
          working.2⟩
      · exact h
    · exact kept_gather h working.1 ⟨rfl, Nat.zero_le _, Nat.zero_le _⟩ working.2 timedOut
  | gathering lines size =>
    rw [worker] at working
    exact kept_gather h working.1 working.2.1 working.2.2 timedOut
  | writing output => exact kept_write h worker io
  | wrote output failure => exact kept_afterWrite h worker
  | counting lines size => exact kept_count h worker
  | finalizing =>
    rw [worker] at working
    obtain ⟨flow, empty, closing, file⟩ := working
    refine (moved_file j _ _ _ _ _ _ _ _).kept h ?_ (fun _ => closing) fun synced => ?_
    · exact ⟨⟨flow.accepted, flow.buffer, flow.torn, flow.unsynced⟩, empty, closing, file, rfl⟩
    · have unsynced : j.finalFsyncComplete = true := synced
      rw [flow.unsynced] at unsynced
      cases unsynced
  | syncing =>
    rw [worker] at working
    cases io with
    | done => exact kept_worker h _ ⟨working.1.moved _ _ _ _, working.2⟩
    | failed arrived kept reason => exact kept_worker h _ filed
  | synced =>
    rw [worker] at working
    exact (moved_file j _ _ _ _ _ _ _ _).kept h filed h.final fun _ => working.1.moved _ _ _ _
  | failing reason =>
    have closed := closed_failLocked j reason
    exact kept_worker (closed.kept h) _ (closed.filed filed)
  | closing => exact kept_closeOutput h worker io
  | closeFailed reason =>
    have closed := closed_failLocked j ("ASYNC_JOURNAL_CLOSE_FAILED: " ++ reason)
    exact kept_worker (closed.kept h) _ (closed.filed filed)
  | exiting =>
    exact (moved_file j _ _ _ _ _ _ _ _).kept h filed h.final fun synced => (h.synced synced).moved _ _ _ _
  | exited => exact h

theorem closeEnd_eq (j : Journal) (alive : Bool) :
    (j.closeEnd alive).2 = if alive then j.failLocked "ASYNC_JOURNAL_CLOSE_TIMEOUT" else j := by
  unfold closeEnd
  dsimp only
  generalize (if alive then j.failLocked "ASYNC_JOURNAL_CLOSE_TIMEOUT" else j) = k
  split
  · rfl
  · split <;> rfl

theorem kept_step (step : Step c j j') (h : Kept c j) : Kept c j' := by
  cases step with
  | call record now => exact kept_call h record now
  | work timedOut io => exact kept_work h timedOut io
  | closeBegin =>
    have closed : Closed j j.closeBegin :=
      ⟨rfl, rfl, rfl, rfl, rfl, ⟨rfl, rfl, rfl⟩, rfl, rfl, ⟨rfl, rfl, rfl, rfl⟩, ⟨rfl, rfl⟩⟩
    exact closed.kept h
  | closeEnd alive joined =>
    rw [closeEnd_eq]
    split
    · exact (closed_failLocked j _).kept h
    · exact h

theorem kept_path (run : Path (Step c) initial j) : Kept c j :=
  run.keeps (fun _ _ => kept_step) (initial_kept c)

/-! A journal that closes accepts nothing. -/

theorem work_accepts_none (j : Journal) (timedOut : Bool) (io : Io) :
    (j.work c timedOut io).accepted = j.accepted ∧ (j.closing = true → (j.work c timedOut io).closing = true) := by
  have gathers (lines : List Line) (size : Nat) :
      (j.gather lines size timedOut).accepted = j.accepted ∧ (j.gather lines size timedOut).closing = j.closing := by
    unfold gather
    dsimp only
    split <;> exact ⟨rfl, rfl⟩
  unfold work
  split
  · split
    · split <;> exact ⟨rfl, id⟩
    · exact ⟨(gathers [] 0).1, fun closing => (gathers [] 0).2.trans closing⟩
  · exact ⟨(gathers _ _).1, fun closing => (gathers _ _).2.trans closing⟩
  · cases io <;> exact ⟨rfl, id⟩
  · exact ⟨rfl, id⟩
  · exact ⟨rfl, id⟩
  · exact ⟨rfl, id⟩
  · cases io <;> exact ⟨rfl, id⟩
  · exact ⟨rfl, id⟩
  · exact ⟨rfl, fun _ => rfl⟩
  · cases io <;> exact ⟨rfl, id⟩
  · exact ⟨rfl, fun _ => rfl⟩
  · exact ⟨rfl, id⟩
  · exact ⟨rfl, id⟩

theorem closing_step (step : Step c j j') (closing : j.closing = true) :
    j'.closing = true ∧ j'.accepted = j.accepted := by
  cases step with
  | call record now =>
    unfold call
    rw [if_pos (.inr closing)]
    exact ⟨closing, rfl⟩
  | work timedOut io =>
    obtain ⟨accepted, closes⟩ := work_accepts_none (c := c) j timedOut io
    exact ⟨closes closing, accepted⟩
  | closeBegin => exact ⟨rfl, rfl⟩
  | closeEnd alive joined =>
    rw [closeEnd_eq]
    split
    · exact ⟨rfl, rfl⟩
    · exact ⟨closing, rfl⟩

theorem closing_path (run : Path (Step c) j j') (closing : j.closing = true) : j'.accepted = j.accepted := by
  have kept : j'.closing = true ∧ j'.accepted = j.accepted := by
    refine run.keeps (P := fun k => k.closing = true ∧ k.accepted = j.accepted) (fun a b step h => ?_) ⟨closing, rfl⟩
    obtain ⟨closes, accepted⟩ := closing_step step h.1
    exact ⟨closes, accepted.trans h.2⟩
  exact kept.2

/-- `close` that raises nothing has found the journal complete and synced. -/
theorem closed_complete (h : Kept c j) (alive : Bool) (returns : (j.closeEnd alive).1 = none) :
    j.finalFsyncComplete = true ∧ Complete j := by
  cases alive with
  | true =>
    unfold closeEnd failLocked at returns
    simp at returns
  | false =>
    simp only [closeEnd, Bool.false_eq_true, if_false] at returns
    split at returns
    · cases returns
    · split at returns
      · rename_i synced
        exact ⟨synced, h.synced synced⟩
      · cases returns

/-- The file of a journal is cut out of its accepted lines in their order and one last record, and only where an
operation has failed; every counter counts what it says; and `close` returns only from a complete journal. -/
theorem journal_accounted (run : Path (Step c) initial j) :
    Filed j ∧
    (j.enqueuedEvents = j.writtenEvents + j.pendingEvents ∧ j.enqueuedEvents = j.accepted.length ∧
      j.pendingBytes = total (j.accepted.drop j.writtenEvents) ∧ j.pendingEvents ≤ c.maxEvents ∧
      j.pendingBytes ≤ c.maxBytes) ∧
    (∀ lines size, j.worker = .writing (.batch lines size) →
      lines.length ≤ journalBatchEvents ∧ total lines ≤ journalBatchBytes) ∧
    ((j.error.isSome ∨ j.closing = true) → ∀ j', Path (Step c) j j' → j'.accepted = j.accepted) ∧
    ∀ alive, (j.closeEnd alive).1 = none → j.finalFsyncComplete = true ∧ j.writtenEvents = j.accepted.length ∧
      ∃ last, j.finalization = some last ∧ j.file = j.accepted.flatten ++ last := by
  have kept := kept_path run
  obtain ⟨rest, split, count, sum⟩ := kept.accounted.pending
  have length : j.accepted.length = j.written.length + rest.length := by
    rw [split, List.length_append]
  have enqueued := kept.accounted.enqueued
  have written := kept.accounted.written
  refine ⟨filed_of_working kept.working, ⟨by omega, enqueued, ?_, kept.accounted.events, kept.accounted.bytes⟩, ?_, ?_, ?_⟩
  · rw [written, split, List.drop_left, sum]
  · intro lines size worker
    have working := kept.working
    unfold Working at working
    rw [worker] at working
    obtain ⟨flow, batch, file⟩ := working
    have bytes := batch.bytes
    rw [batch.sizes] at bytes
    exact ⟨batch.events, bytes⟩
  · intro above j' later
    rcases above with failed | closing
    · exact closing_path later (kept.failed failed)
    · exact closing_path later closing
  · intro alive returns
    obtain ⟨synced, complete⟩ := closed_complete kept alive returns
    refine ⟨synced, ?_, complete.final⟩
    rw [written, complete.accepted]

/-! One record, written whole and written in part. -/

namespace Bench

def config : Config Line where
  maxEvents := 2
  maxBytes := 8
  encode := fun line _ _ => .ok line
  finalize := fun _ => [0]
  bounds := ⟨by decide, by decide⟩

def called : Journal := (initial.call config [1, 2] 0).2

def works (j : Journal) : Journal := j.work config true .done

def begun : Journal := works called

def torn : Journal := begun.work config true (.failed 1 0 "disk full")

def closing : Journal := (works (works (works begun))).closeBegin

def closed : Journal := works (works (works (works (works (works (works (works closing)))))))

theorem begins : Path (Step config) initial begun := (Relation.ReflTransGen.single (.call [1, 2] 0)).tail (.work true .done)

theorem tears : Path (Step config) initial torn := begins.tail (.work true (.failed 1 0 "disk full"))

theorem works_on {j : Journal} (run : Path (Step config) initial j) : Path (Step config) initial (works j) :=
  run.tail (.work true .done)

theorem closes : Path (Step config) initial closed := by
  have closing_ : Path (Step config) initial closing := (works_on (works_on (works_on begins))).tail .closeBegin
  exact works_on (works_on (works_on (works_on (works_on (works_on (works_on (works_on closing_)))))))

end Bench

theorem bench_journal_accounted :
    (Bench.closed.closeEnd false).1 = none ∧ Bench.closed.workerExited = true ∧
      Bench.closed.writtenEvents = Bench.closed.accepted.length ∧ Bench.closed.file = [1, 2, 0] := by
  have returns : (Bench.closed.closeEnd false).1 = none := by decide +kernel
  exact ⟨returns, by decide +kernel, ((journal_accounted Bench.closes).2.2.2.2 false returns).2.1, by decide +kernel⟩

/-- A write that fails half way leaves half a record in the file. -/
theorem torn_journal : ∃ j, Path (Step Bench.config) initial j ∧ ¬ Whole j j.file := by
  refine ⟨Bench.torn, Bench.tears, fun whole => ?_⟩
  have file : Bench.torn.file = [1] := by decide +kernel
  have accepted : Bench.torn.accepted = [[1, 2]] := by decide +kernel
  have final : Bench.torn.finalization = none := by decide +kernel
  rcases whole with ⟨n, same⟩ | ⟨last, composed, -⟩
  · rw [file, accepted] at same
    cases n with
    | zero | succ n => simp at same
  · rw [final] at composed
    cases composed

end Smartwheel.Feedback.Journal

import Mathlib.Algebra.Order.BigOperators.Group.List
import Smartwheel.Feedback.AsyncJournal

/-! What the journal keeps: its counters, and that its file is a first part of what was accepted, followed at
most by one last record, cut only by an operation that failed. -/
namespace Smartwheel.Feedback.Journal

variable {ρ : Type} {c : Config ρ} {j j' : Journal}

@[simp] theorem total_nil : total [] = 0 := rfl
@[simp] theorem total_append (l l' : List Line) : total (l ++ l') = total l + total l' := by simp [total]

structure Batch (lines : List Line) (size : Nat) : Prop where
  sizes : size = total lines
  events : lines.length ≤ journalBatchEvents
  bytes : size ≤ journalBatchBytes

def Whole (j : Journal) (content : List UInt8) : Prop :=
  (∃ n, content = (j.accepted.take n).flatten) ∨
    ∃ last, j.finalization = some last ∧ content = j.accepted.flatten ++ last

def Filed (j : Journal) : Prop :=
  ∃ content, Whole j content ∧ List.IsPrefix (j.file ++ j.buffer) content ∧
    (j.torn = false → j.file = content ∧ j.buffer = [])

structure Complete (j : Journal) : Prop where
  closing : j.closing = true
  accepted : j.accepted = j.written
  final : ∃ last, j.finalization = some last ∧ j.file = j.accepted.flatten ++ last
  buffer : j.buffer = []

structure Flowing (j : Journal) (lines : List Line) : Prop where
  accepted : j.accepted = j.written ++ (lines ++ j.queue)
  buffer : j.buffer = []
  torn : j.torn = false
  unsynced : j.finalFsyncComplete = false

def Working (j : Journal) : Prop :=
  match j.worker with
  | .waiting => Flowing j [] ∧ j.file = j.written.flatten
  | .gathering lines size | .writing (.batch lines size) =>
    Flowing j lines ∧ Batch lines size ∧ j.file = j.written.flatten
  | .wrote (.batch lines size) none | .counting lines size =>
    Flowing j lines ∧ Batch lines size ∧ j.file = j.written.flatten ++ lines.flatten
  | .finalizing => Flowing j [] ∧ j.queue = [] ∧ j.closing = true ∧ j.file = j.written.flatten
  | .writing (.finalization last) =>
    Flowing j [] ∧ j.queue = [] ∧ j.closing = true ∧ j.file = j.written.flatten ∧ j.finalization = some last
  | .wrote (.finalization _) none | .syncing | .synced => Complete j ∧ j.torn = false
  | .wrote (.batch _ _) (some _) | .wrote (.finalization _) (some _) | .failing _ | .closing | .closeFailed _
  | .exiting | .exited => Filed j

structure Accounted (c : Config ρ) (j : Journal) : Prop where
  enqueued : j.enqueuedEvents = j.accepted.length
  written : j.writtenEvents = j.written.length
  pending : ∃ rest, j.accepted = j.written ++ rest ∧ j.pendingEvents = rest.length ∧ j.pendingBytes = total rest
  events : j.pendingEvents ≤ c.maxEvents
  bytes : j.pendingBytes ≤ c.maxBytes
  lines : ∀ line ∈ j.accepted, line.length ≤ journalRecordBytes
  batchEvents : j.maxBatchEvents ≤ journalBatchEvents
  batchBytes : j.maxBatchBytes ≤ journalBatchBytes

structure Kept (c : Config ρ) (j : Journal) : Prop where
  accounted : Accounted c j
  working : Working j
  queued : ∀ line ∈ j.queue, line ∈ j.accepted
  failed : j.error.isSome → j.closing = true
  final : j.finalization.isSome → j.closing = true
  synced : j.finalFsyncComplete = true → Complete j

theorem initial_kept (c : Config ρ) : Kept c initial where
  accounted := ⟨rfl, rfl, ⟨[], rfl, rfl, rfl⟩, Nat.zero_le _, Nat.zero_le _, fun _ h => (by cases h), Nat.zero_le _,
    Nat.zero_le _⟩
  working := ⟨⟨rfl, rfl, rfl, rfl⟩, rfl⟩
  queued := fun _ h => (by cases h)
  failed := fun h => (by cases h)
  final := fun h => (by cases h)
  synced := fun h => (by cases h)

theorem Flowing.whole {lines : List Line} (h : Flowing j lines) : Whole j j.written.flatten :=
  .inl ⟨j.written.length, by rw [h.accepted, List.take_left]⟩

theorem Flowing.whole_more {lines : List Line} (h : Flowing j lines) : Whole j (j.written.flatten ++ lines.flatten) := by
  refine .inl ⟨(j.written ++ lines).length, ?_⟩
  rw [h.accepted, ← List.append_assoc, List.take_left, List.flatten_append]

theorem Complete.filed (h : Complete j) : Filed j := by
  obtain ⟨last, composed, file⟩ := h.final
  refine ⟨j.file, .inr ⟨last, composed, file⟩, ?_, fun _ => ⟨rfl, h.buffer⟩⟩
  simp [h.buffer]

theorem filed_of_working (h : Working j) : Filed j := by
  unfold Working at h
  have flowing {lines : List Line} (flow : Flowing j lines) (file : j.file = j.written.flatten) : Filed j := by
    have content : j.file ++ j.buffer = j.written.flatten := by rw [flow.buffer, List.append_nil, file]
    exact ⟨_, flow.whole, content ▸ List.prefix_rfl, fun _ => ⟨file, flow.buffer⟩⟩
  have further {lines : List Line} (flow : Flowing j lines) (file : j.file = j.written.flatten ++ lines.flatten) :
      Filed j := by
    have content : j.file ++ j.buffer = j.written.flatten ++ lines.flatten := by
      rw [flow.buffer, List.append_nil, file]
    exact ⟨_, flow.whole_more, content ▸ List.prefix_rfl, fun _ => ⟨file, flow.buffer⟩⟩
  split at h
  · exact flowing h.1 h.2
  · exact flowing h.1 h.2.2
  · exact flowing h.1 h.2.2
  · exact further h.1 h.2.2
  · exact further h.1 h.2.2
  · exact flowing h.1 h.2.2.2
  · exact flowing h.1 h.2.2.2.1
  · exact h.1.filed
  · exact h.1.filed
  · exact h.1.filed
  all_goals exact h

/-! A producer calls, or the journal closes. -/

theorem Filed.accept (h : Filed j) (line : Line) (open_ : j.finalization = none) : Filed (j.accept line) := by
  obtain ⟨content, whole, cut, exact_⟩ := h
  refine ⟨content, ?_, cut, exact_⟩
  rcases whole with ⟨n, same⟩ | ⟨last, composed, -⟩
  · refine .inl ⟨min n j.accepted.length, ?_⟩
    show content = ((j.accepted ++ [line]).take _).flatten
    rw [List.take_append_of_le_length (Nat.min_le_right _ _), same]
    congr 1
    by_cases le : n ≤ j.accepted.length
    · rw [Nat.min_eq_left le]
    · rw [Nat.min_eq_right (by omega), List.take_length, List.take_of_length_le (by omega)]
  · rw [open_] at composed
    cases composed

theorem working_accept (h : Working j) (line : Line) (open_ : j.closing = false)
    (final : j.finalization = none) : Working (j.accept line) := by
  have closed {p : Prop} (closing : j.closing = true) : p := by
    rw [open_] at closing
    cases closing
  have flows {lines : List Line} (flow : Flowing j lines) : Flowing (j.accept line) lines := by
    refine ⟨?_, flow.buffer, flow.torn, flow.unsynced⟩
    show j.accepted ++ [line] = j.written ++ (lines ++ (j.queue ++ [line]))
    rw [flow.accepted]
    simp only [List.append_assoc]
  have worker : (j.accept line).worker = j.worker := rfl
  unfold Working at h ⊢
  rw [worker]
  split at h
  · exact ⟨flows h.1, h.2⟩
  · exact ⟨flows h.1, h.2⟩
  · exact ⟨flows h.1, h.2⟩
  · exact ⟨flows h.1, h.2⟩
  · exact ⟨flows h.1, h.2⟩
  · exact closed h.2.2.1
  · exact closed h.2.2.1
  · exact closed h.1.closing
  · exact closed h.1.closing
  · exact closed h.1.closing
  all_goals exact h.accept line final

theorem kept_accept (h : Kept c j) (line : Line) (open_ : j.closing = false) (size : line.length ≤ journalRecordBytes)
    (events : j.pendingEvents < c.maxEvents) (bytes : j.pendingBytes + line.length ≤ c.maxBytes) :
    Kept c (j.accept line) := by
  have final : j.finalization = none := by
    cases composed : j.finalization with
    | none => rfl
    | some last =>
      have closing := h.final (by rw [composed]; rfl)
      rw [open_] at closing
      cases closing
  obtain ⟨rest, split, count, sum⟩ := h.accounted.pending
  refine ⟨⟨?_, h.accounted.written, ⟨rest ++ [line], ?_, ?_, ?_⟩, events, bytes, fun l hl => ?_, h.accounted.batchEvents,
    h.accounted.batchBytes⟩, working_accept h.working line open_ final, fun l hl => ?_, h.failed, h.final, fun synced => ?_⟩
  · show j.enqueuedEvents + 1 = (j.accepted ++ [line]).length
    rw [List.length_append, h.accounted.enqueued]
    rfl
  · show j.accepted ++ [line] = j.written ++ (rest ++ [line])
    rw [split, List.append_assoc]
  · show j.pendingEvents + 1 = (rest ++ [line]).length
    rw [List.length_append, count]
    rfl
  · show j.pendingBytes + line.length = total (rest ++ [line])
    rw [total_append, sum]
    rfl
  · rcases List.mem_append.mp hl with hl | hl
    · exact h.accounted.lines l hl
    · rw [List.mem_singleton.mp hl]
      exact size
  · rcases List.mem_append.mp hl with hl | hl
    · exact List.mem_append_left _ (h.queued l hl)
    · exact List.mem_append_right _ hl
  · have closing := (h.synced synced).closing
    rw [open_] at closing
    cases closing

structure Closed (j j' : Journal) : Prop where
  closing : j'.closing = true
  worker : j'.worker = j.worker
  accepted : j'.accepted = j.accepted
  written : j'.written = j.written
  queue : j'.queue = j.queue
  file : j'.file = j.file ∧ j'.buffer = j.buffer ∧ j'.torn = j.torn
  synced : j'.finalFsyncComplete = j.finalFsyncComplete
  final : j'.finalization = j.finalization
  counts : j'.enqueuedEvents = j.enqueuedEvents ∧ j'.writtenEvents = j.writtenEvents ∧
    j'.pendingEvents = j.pendingEvents ∧ j'.pendingBytes = j.pendingBytes
  batches : j'.maxBatchEvents = j.maxBatchEvents ∧ j'.maxBatchBytes = j.maxBatchBytes

theorem closed_failLocked (j : Journal) (reason : String) : Closed j (j.failLocked reason) :=
  ⟨rfl, rfl, rfl, rfl, rfl, ⟨rfl, rfl, rfl⟩, rfl, rfl, ⟨rfl, rfl, rfl, rfl⟩, ⟨rfl, rfl⟩⟩

theorem Closed.filed (closed : Closed j j') (h : Filed j) : Filed j' := by
  obtain ⟨content, whole, cut, exact_⟩ := h
  obtain ⟨file, buffer, torn⟩ := closed.file
  refine ⟨content, ?_, by rwa [file, buffer], fun intact => ?_⟩
  · unfold Whole
    rw [closed.accepted, closed.final]
    exact whole
  · rw [file, buffer]
    exact exact_ (torn ▸ intact)

theorem Closed.complete (closed : Closed j j') (h : Complete j) : Complete j' := by
  obtain ⟨file, buffer, torn⟩ := closed.file
  refine ⟨closed.closing, ?_, ?_, ?_⟩
  · rw [closed.accepted, closed.written]
    exact h.accepted
  · rw [closed.final, closed.accepted, file]
    exact h.final
  · rw [buffer]
    exact h.buffer

theorem Closed.working (closed : Closed j j') (h : Working j) : Working j' := by
  obtain ⟨file, buffer, torn⟩ := closed.file
  have flows {lines : List Line} (flow : Flowing j lines) : Flowing j' lines := by
    refine ⟨?_, buffer.trans flow.buffer, torn.trans flow.torn, closed.synced.trans flow.unsynced⟩
    rw [closed.accepted, closed.written, closed.queue]
    exact flow.accepted
  unfold Working at h ⊢
  rw [closed.worker]
  split at h
  · exact ⟨flows h.1, by rw [file, closed.written]; exact h.2⟩
  · exact ⟨flows h.1, h.2.1, by rw [file, closed.written]; exact h.2.2⟩
  · exact ⟨flows h.1, h.2.1, by rw [file, closed.written]; exact h.2.2⟩
  · exact ⟨flows h.1, h.2.1, by rw [file, closed.written]; exact h.2.2⟩
  · exact ⟨flows h.1, h.2.1, by rw [file, closed.written]; exact h.2.2⟩
  · exact ⟨flows h.1, closed.queue.trans h.2.1, closed.closing, by rw [file, closed.written]; exact h.2.2.2⟩
  · refine ⟨flows h.1, closed.queue.trans h.2.1, closed.closing, ?_, closed.final.trans h.2.2.2.2⟩
    rw [file, closed.written]
    exact h.2.2.2.1
  · exact ⟨closed.complete h.1, torn.trans h.2⟩
  · exact ⟨closed.complete h.1, torn.trans h.2⟩
  · exact ⟨closed.complete h.1, torn.trans h.2⟩
  all_goals exact closed.filed h

theorem Closed.accounted (closed : Closed j j') (h : Accounted c j) : Accounted c j' := by
  obtain ⟨enqueued, written, events, bytes⟩ := closed.counts
  obtain ⟨rest, split, count, sum⟩ := h.pending
  refine ⟨?_, ?_, ⟨rest, ?_, ?_, ?_⟩, ?_, ?_, ?_, ?_, ?_⟩
  · rw [enqueued, closed.accepted, h.enqueued]
  · rw [written, closed.written, h.written]
  · rw [closed.accepted, closed.written, split]
  · rw [events, count]
  · rw [bytes, sum]
  · rw [events]
    exact h.events
  · rw [bytes]
    exact h.bytes
  · rw [closed.accepted]
    exact h.lines
  · rw [closed.batches.1]
    exact h.batchEvents
  · rw [closed.batches.2]
    exact h.batchBytes

theorem Closed.kept (closed : Closed j j') (h : Kept c j) : Kept c j' := by
  refine ⟨closed.accounted h.accounted, closed.working h.working, ?_, fun _ => closed.closing, fun _ => closed.closing,
    fun synced => closed.complete (h.synced (closed.synced ▸ synced))⟩
  rw [closed.queue, closed.accepted]
  exact h.queued

theorem kept_call (h : Kept c j) (record : ρ) (now : Int) : Kept c (j.call c record now).2 := by
  unfold call
  split
  · exact h
  · rename_i alive
    split
    · exact (closed_failLocked j _).kept h
    · rename_i line encoded
      split
      · have rejected (reason : String) :
            Closed j ({ j with rejectedEvents := j.rejectedEvents + 1 }.failLocked reason) :=
          ⟨rfl, rfl, rfl, rfl, rfl, ⟨rfl, rfl, rfl⟩, rfl, rfl, ⟨rfl, rfl, rfl, rfl⟩, ⟨rfl, rfl⟩⟩
        exact (rejected _).kept h
      · rename_i fits
        exact kept_accept h line (by simpa using (not_or.mp alive).2) (by omega) (by omega) (by omega)

end Smartwheel.Feedback.Journal

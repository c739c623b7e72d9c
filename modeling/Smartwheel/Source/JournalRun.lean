import Smartwheel.Disk.Tiling
import Smartwheel.Source.Journal

/-! What every run of a source journal keeps: the records are given to the file once each and in order, and a
summary that says so is right. -/
namespace Smartwheel.Source
open Effect

variable {c : Config} {j j' : Journal} {batch : Batch} {hand : List Record}

structure Bounded (batch : Batch) : Prop where
  some_ : batch ≠ []
  items : batch.length ≤ batchMaxItems
  bytes : (text batch).length ≤ batchMaxBytes ∨ batch.length = 1

def Live (j : Journal) (hand : List Record) : Prop :=
  j.puts = j.attempts.flatten ++ (hand ++ j.queue) ∧ j.torn = false ∧ j.persisted = j.attempts.flatten.length

def Clean (j : Journal) : Prop := Live j [] ∧ j.buffer = [] ∧ j.synced = true

structure Finished (j : Journal) : Prop where
  clean : Clean j
  writer : j.writer = .exited
  closing : j.closing = true
  queue : j.queue = []
  owner : j.owner = .idle ∨ j.owner = .joining

def Working (j : Journal) : Prop :=
  match j.writer with
  | .opening | .empty | .flushing => Live j []
  | .taking pending => Live j pending.toList
  | .batching batch => Live j batch ∧ Bounded batch
  | .writing batch pending => Live j (batch ++ pending.toList) ∧ Bounded batch
  | .counting batch pending =>
    j.puts = j.attempts.flatten ++ (pending.toList ++ j.queue) ∧ j.torn = false ∧
      j.persisted + batch.length = j.attempts.flatten.length
  | .syncing => Live j [] ∧ j.buffer = []
  | .closing none => Clean j
  | .closing (some _) | .failing _ => True
  | .exited => truthy j.error = true ∨ Clean j

def Failing (j : Journal) : Prop :=
  truthy j.error = true ∨ (∃ reason, j.writer = .closing (some reason)) ∨ ∃ reason, j.writer = .failing reason

structure Kept (j : Journal) : Prop where
  order : ∃ rest, j.puts = j.attempts.flatten ++ rest
  bounded : ∀ batch ∈ j.attempts, Bounded batch
  content : List.IsPrefix (j.file ++ j.buffer.flatten) (j.attempts.map text).flatten
  aligned : j.torn = false →
    ∃ passed, j.attempts.map text = passed ++ j.buffer ∧ j.file = passed.flatten
  working : Working j
  torn : j.torn = true → Failing j
  counted : j.accepted + (if j.owner = .counting then 1 else 0) = j.puts.length
  joining : j.owner = .joining → j.closing = true
  summaries : ∀ s ∈ j.summaries, s.synchronized = true → Finished j

theorem text_append (batch batch' : Batch) : text (batch ++ batch') = text batch ++ text batch' := by
  unfold text
  rw [List.map_append, List.flatten_append]

theorem truthy_reason (reason : Reason) : truthy (some reason.1) = true := by
  simp [truthy, reason.2]

/-! The acquisition thread. -/

theorem working_owner (more : List Record) (h : Working j) {queue puts : List Record} {error : Option String}
    {accepted rejected : Nat} {closing : Bool} {owner : Owner} {summaries : List Summary}
    (queue' : queue = j.queue ++ more) (puts' : puts = j.puts ++ more)
    (error' : truthy j.error = true → truthy error = true) :
    Working { j with queue, puts, error, accepted, rejected, closing, owner, summaries } := by
  have live {hand : List Record} (live : Live j hand) :
      Live { j with queue, puts, error, accepted, rejected, closing, owner, summaries } hand := by
    refine ⟨?_, live.2⟩
    show puts = j.attempts.flatten ++ (hand ++ queue)
    rw [puts', queue', live.1]
    simp only [List.append_assoc]
  unfold Working at h ⊢
  dsimp only
  cases writer : j.writer with
  | counting batch pending =>
    rw [writer] at h
    obtain ⟨order, torn, persisted⟩ := h
    refine ⟨?_, torn, persisted⟩
    rw [puts', queue', order]
    simp only [List.append_assoc]
  | closing failure =>
    rw [writer] at h
    cases failure with
    | none => exact ⟨live h.1, h.2⟩
    | some reason => trivial
  | exited =>
    rw [writer] at h
    rcases h with failed | clean
    · exact .inl (error' failed)
    · exact .inr ⟨live clean.1, clean.2⟩
  | opening | taking pending | empty => rw [writer] at h; exact live h
  | batching batch | writing batch pending => rw [writer] at h; exact ⟨live h.1, h.2⟩
  | flushing => rw [writer] at h; exact live h
  | syncing => rw [writer] at h; exact ⟨live h.1, h.2⟩
  | failing reason => trivial

theorem kept_append (h : Kept j) (record : Record) (idle : j.owner = .idle) : Kept (j.append record) := by
  unfold Journal.append
  split
  · exact h
  · rename_i open_
    rw [not_or] at open_
    have counted := h.counted
    rw [idle] at counted
    refine ⟨h.order, h.bounded, h.content, h.aligned, ?_, h.torn, counted, nofun, fun s mem synchronized => ?_⟩
    · exact working_owner [] h.working (List.append_nil _).symm (List.append_nil _).symm id
    · exact absurd (h.summaries s mem synchronized).closing open_.2

theorem kept_put (h : Kept j) {record : Record} (at_ : j.owner = .putting record) : Kept (j.put c.maxItems record) := by
  have counted := h.counted
  rw [at_] at counted
  have unfinished : ¬Finished j := by
    intro finished
    rcases finished.owner with idle | joining
    · rw [at_] at idle
      cases idle
    · rw [at_] at joining
      cases joining
  unfold Journal.put
  split
  · refine ⟨h.order, h.bounded, h.content, h.aligned, ?_, fun _ => .inl rfl, counted, nofun, fun s mem synchronized => ?_⟩
    · exact working_owner [] h.working (List.append_nil _).symm (List.append_nil _).symm fun _ => rfl
    · exact absurd (h.summaries s mem synchronized) unfinished
  · refine ⟨?_, h.bounded, h.content, h.aligned, ?_, h.torn, ?_, nofun, fun s mem synchronized => ?_⟩
    · obtain ⟨rest, order⟩ := h.order
      refine ⟨rest ++ [record], ?_⟩
      show j.puts ++ [record] = _
      rw [order, List.append_assoc]
    · exact working_owner [record] h.working rfl rfl id
    · show j.accepted + 1 = (j.puts ++ [record]).length
      rw [List.length_append, ← counted]
      rfl
    · exact absurd (h.summaries s mem synchronized) unfinished

theorem kept_count (h : Kept j) (at_ : j.owner = .counting) : Kept { j with accepted := j.accepted + 1, owner := .idle } := by
  have counted := h.counted
  rw [at_] at counted
  refine ⟨h.order, h.bounded, h.content, h.aligned, ?_, h.torn, counted, nofun, fun s mem synchronized => ?_⟩
  · exact working_owner [] h.working (List.append_nil _).symm (List.append_nil _).symm id
  · have finished := h.summaries s mem synchronized
    exact ⟨finished.clean, finished.writer, finished.closing, finished.queue, .inl rfl⟩

theorem kept_close (h : Kept j) (idle : j.owner = .idle) : Kept { j with closing := true, owner := .joining } := by
  have counted := h.counted
  rw [idle] at counted
  refine ⟨h.order, h.bounded, h.content, h.aligned, ?_, h.torn, counted, fun _ => rfl, fun s mem synchronized => ?_⟩
  · exact working_owner [] h.working (List.append_nil _).symm (List.append_nil _).symm id
  · have finished := h.summaries s mem synchronized
    exact ⟨finished.clean, finished.writer, rfl, finished.queue, .inr rfl⟩

theorem kept_closeEnd (h : Kept j) (at_ : j.owner = .joining) (alive : Bool) (sourceError : Option String)
    (joined : alive = false → j.writer = .exited) : Kept (j.closeEnd alive sourceError) := by
  have counted := h.counted
  rw [at_] at counted
  have errors : truthy j.error = true → truthy (if alive then some "SOURCE_JOURNAL_CLOSE_TIMEOUT" else j.error) = true := by
    intro failed
    split
    · rfl
    · exact failed
  have finished (finished : Finished j) : Finished (j.closeEnd alive sourceError) :=
    ⟨finished.clean, finished.writer, finished.closing, finished.queue, .inl rfl⟩
  refine ⟨h.order, h.bounded, h.content, h.aligned, ?_, fun torn => ?_, counted, nofun, fun s mem synchronized => ?_⟩
  · exact working_owner [] h.working (List.append_nil _).symm (List.append_nil _).symm errors
  · rcases h.torn torn with failed | failing
    · exact .inl (errors failed)
    · exact .inr failing
  · rcases List.mem_append.mp mem with before | new
    · exact finished (h.summaries s before synchronized)
    · rw [List.mem_singleton.mp new] at synchronized
      cases alive with
      | true => cases synchronized
      | false =>
        have exited := joined rfl
        have working := h.working
        unfold Working at working
        rw [exited] at working
        dsimp only at synchronized
        rw [if_neg Bool.false_ne_true, Bool.and_eq_true, Bool.not_eq_true', decide_eq_true_eq] at synchronized
        rcases working with failed | clean
        · rw [failed] at synchronized
          cases synchronized.1
        · obtain ⟨order, -, persisted⟩ := clean.1
          have lengths := congrArg List.length order
          have all : j.accepted = j.puts.length := counted
          rw [List.length_append, ← all, ← persisted, synchronized.2] at lengths
          have queue : j.queue = [] := by
            refine List.eq_nil_of_length_eq_zero ?_
            rw [List.nil_append] at lengths
            omega
          exact finished ⟨clean, exited, h.joining at_, queue, .inr at_⟩

/-! The writer. -/

theorem Kept.turn (h : Kept j) (running : j.writer ≠ .exited) {queue : List Record} {writer : Writer} {persisted : Nat}
    {error : Option String} {synced : Bool} (working : Working { j with queue, writer, persisted, error, synced })
    (torn : j.torn = true → Failing { j with queue, writer, persisted, error, synced }) :
    Kept { j with queue, writer, persisted, error, synced } :=
  ⟨h.order, h.bounded, h.content, h.aligned, working, torn, h.counted, h.joining,
    fun s mem synchronized => absurd (h.summaries s mem synchronized).writer running⟩

theorem no_tear {p : Prop} (whole : j.torn = false) (torn : j.torn = true) : p := by
  rw [whole] at torn
  cases torn

theorem Kept.tear (h : Kept j) (running : j.writer ≠ .exited) {attempts : List Batch} {content : List UInt8}
    {writer : Writer} (arrived kept : Nat) (order : ∃ rest, j.puts = attempts.flatten ++ rest)
    (bounded : ∀ batch ∈ attempts, Bounded batch) (whole : List.IsPrefix (j.file ++ content) (attempts.map text).flatten)
    (failing : (∃ reason, writer = .closing (some reason)) ∨ ∃ reason, writer = .failing reason) :
    Kept ({ j with attempts }.tear content arrived kept writer) := by
  refine ⟨order, bounded, ?_, nofun, ?_, fun _ => .inr failing, h.counted, h.joining, fun s mem synchronized => ?_⟩
  · show List.IsPrefix (j.file ++ content.take arrived ++ [(content.drop arrived).take kept].flatten) _
    rw [List.flatten_singleton]
    exact (Disk.cut_write j.file content arrived kept).trans whole
  · rcases failing with ⟨reason, rfl⟩ | ⟨reason, rfl⟩
    · trivial
    · trivial
  · exact absurd (h.summaries s mem synchronized).writer running

theorem Kept.drain (h : Kept j) (running : j.writer ≠ .exited) {io : Io} {next : Writer} {failed : Reason → Writer}
    (failing : ∀ reason, (∃ reason', failed reason = .closing (some reason')) ∨ ∃ reason', failed reason = .failing reason')
    (working : Working { j with file := j.file ++ j.buffer.flatten, buffer := [], writer := next })
    (torn : j.torn = true → Failing { j with file := j.file ++ j.buffer.flatten, buffer := [], writer := next }) :
    Kept (j.drain io next failed) := by
  cases io with
  | failed arrived kept reason =>
    exact h.tear running arrived kept h.order h.bounded h.content (failing reason)
  | done passed =>
    refine ⟨h.order, h.bounded, ?_, fun whole => ?_, working, torn, h.counted, h.joining, fun s mem synchronized => ?_⟩
    · show List.IsPrefix (j.file ++ j.buffer.flatten ++ [].flatten) _
      rw [List.flatten_nil, List.append_nil]
      exact h.content
    · obtain ⟨done, split, file⟩ := h.aligned whole
      refine ⟨done ++ j.buffer, ?_, ?_⟩
      · show j.attempts.map text = done ++ j.buffer ++ []
        rw [split, List.append_nil]
      · show j.file ++ j.buffer.flatten = _
        rw [file, List.flatten_append]
    · exact absurd (h.summaries s mem synchronized).writer running

theorem kept_gather (h : Kept j) (writer : j.writer = .batching batch) : Kept (j.gather batch) := by
  have working := h.working
  unfold Working at working
  rw [writer] at working
  obtain ⟨⟨order, torn, persisted⟩, bounded⟩ := working
  have running : j.writer ≠ .exited := by rw [writer]; nofun
  have whole {p : Prop} : j.torn = true → p := no_tear torn
  have written : Kept { j with writer := .writing batch none } := by
    refine h.turn running ⟨⟨?_, torn, persisted⟩, bounded⟩ whole
    rw [order, Option.toList_none, List.append_nil]
  unfold Journal.gather
  split
  · rename_i room
    split
    · exact written
    · rename_i record rest queue
      rw [queue] at order
      split
      · refine h.turn running ⟨⟨?_, torn, persisted⟩, bounded⟩ whole
        rw [order, Option.toList_some, List.append_assoc, List.singleton_append]
      · rename_i fits
        refine h.turn running ⟨⟨?_, torn, persisted⟩, ?_, ?_, .inl ?_⟩ whole
        · rw [order, List.append_assoc, List.singleton_append]
        · exact List.append_ne_nil_of_left_ne_nil bounded.some_ _
        · rw [List.length_append, List.length_singleton]
          exact room.1
        · rw [text_append, List.length_append]
          have single : (text [record]).length = record.line.length := by
            unfold text
            rw [List.map_singleton, List.flatten_singleton]
          rw [single]
          omega
  · exact written

theorem kept_write (h : Kept j) {pending : Option Record} (writer : j.writer = .writing batch pending) (io : Io) :
    Kept (j.write batch pending io) := by
  have working := h.working
  unfold Working at working
  rw [writer] at working
  obtain ⟨⟨order, torn, persisted⟩, bounded⟩ := working
  have running : j.writer ≠ .exited := by rw [writer]; nofun
  obtain ⟨passed, split, file⟩ := h.aligned torn
  have attempted : (j.attempts ++ [batch]).flatten = j.attempts.flatten ++ batch := by
    rw [List.flatten_append, List.flatten_singleton]
  have order' : j.puts = (j.attempts ++ [batch]).flatten ++ (pending.toList ++ j.queue) := by
    rw [order, attempted, List.append_assoc, List.append_assoc]
  have bounded' : ∀ b ∈ j.attempts ++ [batch], Bounded b := by
    intro b mem
    rcases List.mem_append.mp mem with before | new
    · exact h.bounded b before
    · rw [List.mem_singleton.mp new]
      exact bounded
  have content : (j.attempts ++ [batch]).map text = passed ++ (j.buffer ++ [text batch]) := by
    rw [List.map_append, split, List.map_singleton, List.append_assoc]
  have whole : j.file ++ (j.buffer ++ [text batch]).flatten = ((j.attempts ++ [batch]).map text).flatten := by
    rw [content, file]
    exact List.flatten_append.symm
  cases io with
  | failed arrived kept reason =>
    refine h.tear running arrived kept ⟨_, order'⟩ bounded' ?_ (.inl ⟨reason, rfl⟩)
    rw [whole]
  | done n =>
    have aligned : (j.attempts ++ [batch]).map text =
        passed ++ (j.buffer ++ [text batch]).take n ++ (j.buffer ++ [text batch]).drop n := by
      rw [content, List.append_assoc, List.take_append_drop]
    refine ⟨⟨_, order'⟩, bounded', ?_, fun _ => ⟨_, aligned, ?_⟩, ⟨order', torn, ?_⟩, no_tear torn, h.counted, h.joining,
      fun s mem synchronized => absurd (h.summaries s mem synchronized).writer running⟩
    · show List.IsPrefix (j.file ++ ((j.buffer ++ [text batch]).take n).flatten ++
        ((j.buffer ++ [text batch]).drop n).flatten) ((j.attempts ++ [batch]).map text).flatten
      rw [List.append_assoc, ← List.flatten_append, List.take_append_drop, whole]
    · show j.file ++ ((j.buffer ++ [text batch]).take n).flatten = _
      rw [file, List.flatten_append]
    · show j.persisted + batch.length = (j.attempts ++ [batch]).flatten.length
      rw [attempted, List.length_append, persisted]

theorem bounded_single (record : Record) : Bounded [record] :=
  ⟨List.cons_ne_nil _ _, by show 1 ≤ 128; decide, .inr rfl⟩

theorem kept_work (h : Kept j) (io : Io) : Kept (j.work io) := by
  have working := h.working
  unfold Working at working
  unfold Journal.work
  by_cases running : j.writer = .exited
  · rw [running]
    exact h
  cases writer : j.writer with
  | exited => exact absurd writer running
  | batching batch => exact kept_gather h writer
  | writing batch pending => exact kept_write h writer io
  | opening =>
    rw [writer] at working
    cases io with
    | done passed => exact h.turn running working (no_tear working.2.1)
    | failed arrived kept reason => exact h.turn running trivial (no_tear working.2.1)
  | empty =>
    rw [writer] at working
    by_cases closing : j.closing = true
    · rw [if_pos closing]
      exact h.turn running working (no_tear working.2.1)
    · rw [if_neg closing]
      exact h.turn running working (no_tear working.2.1)
  | taking pending =>
    rw [writer] at working
    cases pending with
    | some record => exact h.turn running ⟨working, bounded_single record⟩ (no_tear working.2.1)
    | none =>
      dsimp only
      split
      · exact h.turn running working (no_tear working.2.1)
      · rename_i record rest queue
        obtain ⟨order, torn, persisted⟩ := working
        rw [queue] at order
        exact h.turn running ⟨⟨order, torn, persisted⟩, bounded_single record⟩ (no_tear torn)
  | counting batch pending =>
    rw [writer] at working
    obtain ⟨order, torn, persisted⟩ := working
    dsimp only
    split
    · exact h.turn running ⟨order, torn, persisted⟩ (no_tear torn)
    · exact h.turn running trivial (no_tear torn)
  | flushing =>
    rw [writer] at working
    exact h.drain running (fun reason => .inl ⟨reason, rfl⟩) ⟨working, rfl⟩ (no_tear working.2.1)
  | syncing =>
    rw [writer] at working
    cases io with
    | done passed => exact h.turn running ⟨working.1, working.2, rfl⟩ (no_tear working.1.2.1)
    | failed arrived kept reason => exact h.turn running trivial (no_tear working.1.2.1)
  | closing failure =>
    rw [writer] at working
    cases failure with
    | none =>
      exact h.drain running (fun reason => .inr ⟨reason, rfl⟩) (.inr ⟨working.1, rfl, working.2.2⟩)
        (no_tear working.1.2.1)
    | some reason =>
      exact h.drain running (fun reason => .inr ⟨reason, rfl⟩) trivial fun _ => .inr (.inr ⟨reason, rfl⟩)
  | failing reason =>
    exact h.turn running (.inl (truthy_reason reason)) fun _ => .inl (truthy_reason reason)

theorem kept_next (h : Kept j) {event : Event} (moved : j.next c event = some j') : Kept j' := by
  unfold Journal.next at moved
  cases event with
  | append record =>
    dsimp only at moved
    split at moved
    · rename_i idle
      cases moved
      exact kept_append h record idle
    · cases moved
  | put =>
    dsimp only at moved
    split at moved
    · rename_i record at_
      cases moved
      exact kept_put h at_
    · cases moved
  | count =>
    dsimp only at moved
    split at moved
    · rename_i at_
      cases moved
      exact kept_count h at_
    · cases moved
  | close =>
    dsimp only at moved
    split at moved
    · rename_i idle
      cases moved
      exact kept_close h idle
    · cases moved
  | closeEnd alive sourceError =>
    dsimp only at moved
    split at moved
    · rename_i at_
      cases moved
      refine kept_closeEnd h at_.1 alive sourceError fun dead => ?_
      rcases at_.2 with alive' | exited
      · rw [dead] at alive'
        cases alive'
      · exact exited
    · cases moved
  | work io =>
    cases moved
    exact kept_work h io

theorem kept_initial : Kept initial :=
  ⟨⟨[], rfl⟩, nofun, List.nil_prefix, fun _ => ⟨[], rfl, rfl⟩, ⟨rfl, rfl, rfl⟩, nofun, rfl, nofun, nofun⟩

theorem kept_path (run : Path (Step c) initial j) : Kept j :=
  run.keeps (fun _ _ step h => step.elim fun _ moved => kept_next h moved) kept_initial

theorem text_flatten (batches : List Batch) : text batches.flatten = (batches.map text).flatten := by
  induction batches with
  | nil => rfl
  | cons batch batches ih => rw [List.flatten_cons, text_append, ih, List.map_cons, List.flatten_cons]

def Filed (j : Journal) : Prop :=
  ∃ records part, List.IsPrefix records j.puts ∧ j.file = text records ++ part ∧
    (part = [] ∨ j.torn = true ∧ Failing j ∧
      ∃ batch, List.IsPrefix (records ++ batch) j.puts ∧ batch ∈ j.attempts ∧ List.IsPrefix part (text batch))

theorem Kept.filed (h : Kept j) : Filed j := by
  obtain ⟨rest, order⟩ := h.order
  have among {batches : List Batch} (cut : List.IsPrefix batches j.attempts) :
      List.IsPrefix batches.flatten j.puts := by
    obtain ⟨later, split⟩ := cut
    refine ⟨later.flatten ++ rest, ?_⟩
    rw [order, ← split, List.flatten_append, List.append_assoc]
  cases torn : j.torn with
  | false =>
    obtain ⟨passed, split, file⟩ := h.aligned torn
    have cut : List.IsPrefix (j.attempts.take passed.length) j.attempts := List.take_prefix _ _
    refine ⟨_, [], among cut, ?_, .inl rfl⟩
    rw [text_flatten, List.map_take, split, List.take_left, List.append_nil, file]
  | true =>
    have content : List.IsPrefix j.file (j.attempts.map text).flatten := (List.prefix_append _ _).trans h.content
    obtain ⟨whole, part, file, more⟩ := Disk.cut_pieces content
    have named {pieces : List (List UInt8)} (cut : List.IsPrefix pieces (j.attempts.map text)) :
        pieces = (j.attempts.take pieces.length).map text := by
      rw [List.map_take]
      exact List.prefix_iff_eq_take.mp cut
    rcases more with ⟨none_, cut⟩ | ⟨next, cut, part'⟩
    · refine ⟨(j.attempts.take whole.length).flatten, [], among (List.take_prefix _ _), ?_, .inl rfl⟩
      rw [text_flatten, ← named cut, file, none_]
    · have batches := named cut
      rw [List.length_append, List.length_singleton] at batches
      have bound : whole.length < j.attempts.length := by
        have long := cut.length_le
        rw [List.length_append, List.length_singleton, List.length_map] at long
        exact long
      rw [List.take_add_one, List.getElem?_eq_getElem bound, Option.toList_some, List.map_append] at batches
      have lengths : whole.length = ((j.attempts.take whole.length).map text).length := by
        rw [List.length_map, List.length_take]
        omega
      obtain ⟨first, last⟩ := List.append_inj batches lengths
      rw [List.map_singleton, List.singleton_inj] at last
      refine ⟨(j.attempts.take whole.length).flatten, part, among (List.take_prefix _ _), ?_, .inr ⟨torn, h.torn torn,
        j.attempts[whole.length], ?_, List.getElem_mem bound, last ▸ part'⟩⟩
      · rw [text_flatten, ← first, file]
      · have taken : (j.attempts.take whole.length).flatten ++ j.attempts[whole.length] =
            (j.attempts.take (whole.length + 1)).flatten := by
          rw [List.take_add_one, List.getElem?_eq_getElem bound, Option.toList_some, List.flatten_append,
            List.flatten_singleton]
        rw [taken]
        exact among (List.take_prefix _ _)

def bench : Config := ⟨4, by decide⟩

def benchEvents : List Event :=
  [.append ⟨[97, 10], true⟩, .put, .count, .append ⟨[98, 10], true⟩, .put, .count, .close] ++
    List.replicate 11 (.work (.done 0)) ++ [.closeEnd false none]

theorem bench_run : (benchEvents.foldlM (Journal.next bench) initial).map
    (fun j => (j.summaries.map (·.synchronized), j.puts.map (·.line))) = some ([true], [[97, 10], [98, 10]]) := by
  decide +kernel

end Smartwheel.Source

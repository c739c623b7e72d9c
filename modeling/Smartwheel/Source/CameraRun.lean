import Smartwheel.Source.CameraArchive
import Smartwheel.Source.CameraRead

/-! What every run of a camera archive keeps. -/
namespace Smartwheel.Source.Camera
open Effect

variable {c : Config} {s s' : State} {finished : List Chunk} {current : Option Chunk} {entries : List Entry} {tail : Bytes}

def rowsOf (n : Nat) (entries : List Entry) : List Entry := entries.filter (·.chunk = n)

def blocks (c : Config) (n : Nat) (entries : List Entry) : Bytes := Disk.joined (fun e => c.block e.frame) (rowsOf n entries)

def Tiled (c : Config) (n : Nat) (entries : List Entry) : Prop :=
  Disk.Tiles Entry.offset (fun e => c.block e.frame) 0 (rowsOf n entries)

structure Placed (c : Config) (finished : List Chunk) (current : Option Chunk) (entries : List Entry) (tail : Bytes) : Prop where
  tiled : ∀ n, Tiled c n entries
  whole : ∀ n chunk, finished[n]? = some chunk → chunk.content = blocks c n entries ∧ chunk.flushed = chunk.content.length
  now : ∀ chunk, current = some chunk → chunk.content = blocks c finished.length entries ++ tail
  known : ∀ e ∈ entries, e.chunk < finished.length + current.toList.length

def Live (c : Config) (s : State) (hand : Option Frame) (tail : Bytes) : Prop :=
  s.puts = s.entries.map (·.frame) ++ (hand.toList ++ s.queue) ∧ s.persisted = s.entries.length ∧
    Placed c s.finished s.current s.entries tail

def Dead (c : Config) (s : State) (hand : Option Frame) : Prop :=
  List.IsPrefix (s.entries.map (·.frame)) s.puts ∧ s.persisted ≤ s.entries.length ∧
    s.puts.length = s.persisted + hand.toList.length + s.queue.length ∧
    ∃ tail, Placed c s.finished s.current s.entries tail

def Whole (c : Config) (s : State) : Prop := Live c s none [] ∧ s.current = none ∧ s.shown = s.entries.length

def Working (c : Config) (s : State) : Prop :=
  match s.writer with
  | .opening | .waiting | .empty => Live c s none []
  | .taken f => Live c s (some f) []
  | .rolling f | .writing f => Live c s (some f) [] ∧ s.current.isSome = true
  | .creating f => Live c s (some f) [] ∧ s.current = none
  | .indexing f offset =>
    Live c s (some f) (c.block f) ∧ offset = (blocks c s.finished.length s.entries).length ∧ s.current.isSome = true
  | .finishing => Live c s none [] ∧ s.current.isSome = true
  | .flushing => Live c s none [] ∧ s.current = none
  | .syncing _ | .syncingIndex => Whole c s
  | .leaving hand _ | .failing hand _ => Dead c s hand
  | .releasing hand => Dead c s hand ∧ s.error.isSome = true
  | .exited hand =>
    Dead c s hand ∧ s.error.isSome = true ∧ s.finalFsyncComplete = false ∨
      hand = none ∧ Whole c s ∧ s.finalFsyncComplete = true

def Ending : Writer → Prop
  | .releasing _ | .exited _ => True
  | _ => False

structure Right (s : State) (v : Summary) : Prop where
  status : v.status = .complete ↔ v.error = none ∧ v.dropped = 0 ∧ truthy v.sourceError = false ∧ v.captured = v.persisted
  complete : v.status = .complete → s.finalFsyncComplete = true ∧ v.persisted = s.entries.length

structure Kept (c : Config) (s : State) : Prop where
  working : Working c s
  counted : s.received = s.dropped + s.puts.length + s.owner.hand.toList.length
  shown : s.shown ≤ s.entries.length
  final : s.finalFsyncComplete = true → s.writer = .exited none
  quiet : s.error ≠ some "" ∨ s.finalFsyncComplete = false ∧ Ending s.writer
  closed : ∀ v, s.closeValue = some v → Right s v
  summary : ∀ v, s.summary = some v → Right s v
  diagnosis : ∀ v, s.partialSummary = some v → Right s v

/-! The rows of a chunk. -/

theorem rowsOf_append (n : Nat) (entries entries' : List Entry) :
    rowsOf n (entries ++ entries') = rowsOf n entries ++ rowsOf n entries' := List.filter_append ..

theorem rowsOf_here (e : Entry) : rowsOf e.chunk [e] = [e] :=
  List.filter_cons_of_pos (decide_eq_true rfl)

variable {e : Entry} {n : Nat}

theorem rowsOf_elsewhere (other : e.chunk ≠ n) : rowsOf n [e] = [] :=
  List.filter_cons_of_neg (by rw [decide_eq_true_eq]; exact other)

theorem rowsOf_none (absent : ∀ e ∈ entries, e.chunk ≠ n) : rowsOf n entries = [] :=
  List.filter_eq_nil_iff.mpr fun e mem same => absent e mem (of_decide_eq_true same)

theorem Placed.row {chunk : Chunk} (h : Placed c finished (some chunk) entries tail) (e : Entry) (more : Bytes)
    (chunk_ : e.chunk = finished.length) (offset : e.offset = (blocks c finished.length entries).length)
    (written : tail = c.block e.frame ++ more) : Placed c finished (some chunk) (entries ++ [e]) more := by
  have others {n : Nat} (other : finished.length ≠ n) : rowsOf n (entries ++ [e]) = rowsOf n entries := by
    rw [rowsOf_append, rowsOf_elsewhere (by rw [chunk_]; exact other), List.append_nil]
  have here : rowsOf finished.length (entries ++ [e]) = rowsOf finished.length entries ++ [e] := by
    rw [rowsOf_append, ← chunk_, rowsOf_here]
  refine ⟨fun n => ?_, fun n chunk' mem => ?_, fun chunk' same => ?_, fun e' mem => ?_⟩
  · unfold Tiled
    by_cases same : finished.length = n
    · rw [← same, here]
      exact (h.tiled finished.length).snoc (offset.trans (Nat.zero_add _).symm)
    · rw [others same]
      exact h.tiled n
  · have before : n < finished.length := (List.getElem?_eq_some_iff.mp mem).1
    unfold blocks
    rw [others (Nat.ne_of_gt before)]
    exact h.whole n chunk' mem
  · rw [h.now chunk' same, written]
    unfold blocks
    rw [here, Disk.joined_append, Disk.joined_single, List.append_assoc]
  · rcases List.mem_append.mp mem with before | new
    · exact h.known e' before
    · rw [List.mem_singleton.mp new, chunk_]
      exact Nat.lt_succ_self _

theorem Placed.finish {chunk : Chunk} (h : Placed c finished (some chunk) entries []) :
    Placed c (finished ++ [chunk.drained]) none entries [] := by
  refine ⟨h.tiled, fun n chunk' mem => ?_, nofun, fun e mem => ?_⟩
  · rcases Nat.lt_or_ge n finished.length with before | last
    · rw [List.getElem?_append_left before] at mem
      exact h.whole n chunk' mem
    · rw [List.getElem?_append_right last, List.getElem?_singleton] at mem
      split at mem
      · rename_i same
        cases mem
        have at_ : n = finished.length := by omega
        rw [at_]
        exact ⟨(h.now chunk rfl).trans (List.append_nil _), rfl⟩
      · cases mem
  · rw [List.length_append]
    exact h.known e mem

theorem Placed.create (h : Placed c finished none entries []) : Placed c finished (some ⟨[], 0⟩) entries [] := by
  refine ⟨h.tiled, h.whole, fun chunk same => ?_, fun e mem => ?_⟩
  · cases same
    unfold blocks
    rw [rowsOf_none (n := finished.length) fun e mem => Nat.ne_of_lt (h.known e mem)]
    rfl
  · exact Nat.lt_add_right _ (h.known e mem)

theorem Placed.more {chunk chunk' : Chunk} (h : Placed c finished (some chunk) entries tail) (bytes : Bytes)
    (grown : chunk'.content = chunk.content ++ bytes) : Placed c finished (some chunk') entries (tail ++ bytes) := by
  refine ⟨h.tiled, h.whole, fun chunk'' same => ?_, h.known⟩
  cases same
  rw [grown, h.now chunk rfl, List.append_assoc]

theorem Live.dead {hand : Option Frame} (h : Live c s hand tail) : Dead c s hand := by
  obtain ⟨order, persisted, placed⟩ := h
  refine ⟨⟨_, order.symm⟩, Nat.le_of_eq persisted, ?_, tail, placed⟩
  rw [order, persisted, List.length_append, List.length_append, List.length_map, Nat.add_assoc]

/-! The acquisition thread. -/

variable {error : Option String} {queue : List Frame}

theorem working_owner (more : List Frame) (h : Working c s) {puts : List Frame}
    {received dropped : Nat} {closing : Bool} {owner : Owner} {closeValue summary partialSummary : Option Summary}
    (queue' : queue = s.queue ++ more) (puts' : puts = s.puts ++ more) (error' : s.error.isSome = true → error.isSome = true) :
    Working c { s with queue, puts, error, received, dropped, closing, owner, closeValue, summary, partialSummary } := by
  have live {hand : Option Frame} {tail : Bytes} (live : Live c s hand tail) :
      Live c { s with queue, puts, error, received, dropped, closing, owner, closeValue, summary, partialSummary } hand tail := by
    refine ⟨?_, live.2⟩
    show puts = s.entries.map (·.frame) ++ (hand.toList ++ queue)
    rw [puts', queue', live.1]
    simp only [List.append_assoc]
  have dead {hand : Option Frame} (dead : Dead c s hand) :
      Dead c { s with queue, puts, error, received, dropped, closing, owner, closeValue, summary, partialSummary } hand := by
    obtain ⟨order, persisted, lengths, placed⟩ := dead
    refine ⟨?_, persisted, ?_, placed⟩
    · show List.IsPrefix _ puts
      rw [puts']
      exact order.trans (List.prefix_append _ _)
    · show puts.length = s.persisted + hand.toList.length + queue.length
      rw [puts', queue', List.length_append, List.length_append, lengths, Nat.add_assoc]
  unfold Working at h ⊢
  dsimp only
  cases writer : s.writer with
  | opening | waiting | empty | taken f => rw [writer] at h; exact live h
  | rolling f | creating f | writing f | indexing f offset | finishing | flushing | syncing n | syncingIndex => rw [writer] at h; exact ⟨live h.1, h.2⟩
  | leaving hand reason | failing hand reason => rw [writer] at h; exact dead h
  | releasing hand => rw [writer] at h; exact ⟨dead h.1, error' h.2⟩
  | exited hand =>
    rw [writer] at h
    rcases h with ⟨failed, error_, incomplete⟩ | ⟨none_, ⟨whole, clean⟩, complete⟩
    · exact .inl ⟨dead failed, error' error_, incomplete⟩
    · exact .inr ⟨none_, ⟨live whole, clean⟩, complete⟩

theorem Kept.owner (h : Kept c s) (more : List Frame) {puts : List Frame}
    {received dropped : Nat} {closing : Bool} {owner : Owner} {closeValue summary partialSummary : Option Summary}
    (queue' : queue = s.queue ++ more) (puts' : puts = s.puts ++ more)
    (error' : error = s.error ∨ ∃ reason, reason ≠ "" ∧ error = some (s.error.getD reason))
    (counted : received = dropped + puts.length + owner.hand.toList.length)
    (closed : ∀ v, closeValue = some v → Right s v) (summary' : ∀ v, summary = some v → Right s v)
    (diagnosis : ∀ v, partialSummary = some v → Right s v) :
    Kept c { s with queue, puts, error, received, dropped, closing, owner, closeValue, summary, partialSummary } := by
  have right {v : Summary} (right : Right s v) :
      Right { s with queue, puts, error, received, dropped, closing, owner, closeValue, summary, partialSummary } v :=
    ⟨right.status, right.complete⟩
  refine ⟨working_owner more h.working queue' puts' ?_, counted, h.shown, h.final, h.quiet.imp_left fun quiet same => ?_,
    fun v some_ => right (closed v some_), fun v some_ => right (summary' v some_), fun v some_ => right (diagnosis v some_)⟩
  · rcases error' with same | ⟨reason, -, new⟩
    · rw [same]
      exact id
    · rw [new]
      exact fun _ => rfl
  · rcases error' with same' | ⟨reason, text, new⟩
    · exact quiet (same'.symm.trans same)
    · have got : s.error.getD reason = "" := Option.some.inj (new.symm.trans same)
      cases before : s.error with
      | none =>
        rw [before] at got
        exact text got
      | some text' =>
        rw [before] at got quiet
        exact quiet (congrArg some got)

theorem kept_append (h : Kept c s) (given : Given) (idle : s.owner = .idle) : Kept c (s.append given) := by
  have counted : s.received = s.dropped + s.puts.length + s.owner.hand.toList.length := h.counted
  have dropped : s.received + 1 = s.dropped + 1 + s.puts.length + s.owner.hand.toList.length := by omega
  rw [idle] at counted
  unfold State.append
  dsimp only
  split
  · exact h.owner [] (List.append_nil _).symm (List.append_nil _).symm (.inl rfl) dropped h.closed h.summary h.diagnosis
  · split
    · exact h.owner [] (List.append_nil _).symm (List.append_nil _).symm (.inr ⟨"BGR_SIZE_MISMATCH", by decide, rfl⟩)
        dropped h.closed h.summary h.diagnosis
    · rename_i f
      refine h.owner [] (List.append_nil _).symm (List.append_nil _).symm (.inl rfl) ?_ h.closed h.summary h.diagnosis
      rw [counted]
      rfl

variable {f : Frame}

theorem kept_put (h : Kept c s) (at_ : s.owner = .offering f) : Kept c (s.put c.maxItems f) := by
  have counted := h.counted
  rw [at_] at counted
  have counted : s.received = s.dropped + s.puts.length + 1 := counted
  unfold State.put
  split
  · exact h.owner [] (List.append_nil _).symm (List.append_nil _).symm
      (.inr ⟨"CAMERA_ARCHIVE_QUEUE_FULL", by decide, rfl⟩)
      (by show s.received = s.dropped + 1 + s.puts.length + 0; omega) h.closed h.summary h.diagnosis
  · refine h.owner [f] rfl rfl (.inl rfl) ?_ h.closed h.summary h.diagnosis
    rw [List.length_append]
    exact counted

theorem kept_close (h : Kept c s) (sourceError : Option String) (idle : s.owner = .idle) :
    Kept c (s.close sourceError) := by
  have counted := h.counted
  rw [idle] at counted
  unfold State.close
  split
  · exact h
  · exact h.owner [] (List.append_nil _).symm (List.append_nil _).symm (.inl rfl) counted h.closed h.summary h.diagnosis

theorem failed_right (v : Summary) (error : String) : Right s (v.failed (some error)) :=
  ⟨⟨nofun, fun h => absurd h.1 nofun⟩, nofun⟩

/-- What `close` puts together is right. -/
theorem value_right (h : Kept c s) (exited : s.writer.isExited = true) (sourceError : Option String) :
    Right s (s.value sourceError) := by
  have working := h.working
  cases writer : s.writer with
  | exited hand =>
    unfold Working at working
    rw [writer] at working
    rcases working with ⟨-, error, incomplete⟩ | ⟨-, ⟨⟨-, persisted, -⟩, -⟩, complete⟩
    · have status : (s.value sourceError).status = .incomplete := by
        unfold State.value
        rw [incomplete]
        rfl
      refine ⟨⟨fun other => ?_, fun all => ?_⟩, fun other => ?_⟩
      · rw [status] at other
        cases other
      · have none_ : s.error = none := all.1
        rw [none_] at error
        cases error
      · rw [status] at other
        cases other
    · have quiet := h.quiet.resolve_right fun silent => by
        rw [complete] at silent
        cases silent.1
      have clear : truthy s.error = false ↔ s.error = none := by
        cases error : s.error with
        | none => exact ⟨fun _ => rfl, fun _ => rfl⟩
        | some reason =>
          rw [error] at quiet
          have text : reason ≠ "" := fun same => quiet (congrArg some same)
          exact ⟨fun other => by simp [truthy, text] at other, nofun⟩
      have status : (s.value sourceError).status = .complete ↔
          truthy s.error = false ∧ s.dropped = 0 ∧ truthy sourceError = false ∧ s.received = s.persisted := by
        unfold State.value
        rw [complete]
        dsimp only
        split
        · rename_i all
          simp only [Bool.true_and, Bool.and_eq_true, Bool.not_eq_true', decide_eq_true_eq] at all
          exact ⟨fun _ => ⟨all.1.1.1, all.1.2, all.2, all.1.1.2⟩, fun _ => rfl⟩
        · rename_i some_
          simp only [Bool.true_and, Bool.and_eq_true, Bool.not_eq_true', decide_eq_true_eq] at some_
          exact ⟨nofun, fun all => absurd ⟨⟨⟨all.1, all.2.2.2⟩, all.2.1⟩, all.2.2.1⟩ some_⟩
      rw [clear] at status
      exact ⟨status, fun _ => ⟨complete, persisted⟩⟩
  | _ =>
    rw [writer] at exited
    cases exited

theorem sync_reason (reason : String) : "CAMERA_ARCHIVE_SUMMARY_SYNC_FAILED: " ++ reason ≠ "" := by
  intro same
  have length := congrArg String.length same
  rw [String.length_append] at length
  have head : "CAMERA_ARCHIVE_SUMMARY_SYNC_FAILED: ".length = 36 := by decide +kernel
  have none_ : "".length = 0 := rfl
  omega

theorem kept_join (h : Kept c s) {sourceError : Option String} (at_ : s.owner = .joining sourceError) (alive : Bool)
    (joined : alive = true ∨ s.writer.isExited = true) (outcome : Commit) : Kept c (s.join alive sourceError outcome) := by
  have counted := h.counted
  rw [at_] at counted
  unfold State.join
  split
  · exact h.owner [] (List.append_nil _).symm (List.append_nil _).symm
      (.inr ⟨"CAMERA_ARCHIVE_CLOSE_TIMEOUT", by decide, rfl⟩) counted h.closed h.summary h.diagnosis
  · rename_i dead
    have exited : s.writer.isExited = true := joined.resolve_left dead
    have right := value_right h exited sourceError
    have one {v : Summary} (right : Right s v) : ∀ v', some v = some v' → Right s v' := by
      intro v' same
      cases same
      exact right
    unfold State.commit
    dsimp only
    split
    · cases outcome with
      | done =>
        exact h.owner [] (List.append_nil _).symm (List.append_nil _).symm (.inl rfl) counted (one right) (one right)
          h.diagnosis
      | failed replaced removed written reason =>
        refine h.owner [] (List.append_nil _).symm (List.append_nil _).symm (.inr ⟨_, sync_reason reason, rfl⟩) counted
          h.closed ?_ ?_
        · intro v some_
          split at some_
          · cases some_
          · split at some_
            · exact one right v some_
            · exact h.summary v some_
        · intro v some_
          split at some_
          · exact one (failed_right _ _) v some_
          · exact h.diagnosis v some_
    · cases outcome with
      | done =>
        exact h.owner [] (List.append_nil _).symm (List.append_nil _).symm
          (.inr ⟨"CAMERA_ARCHIVE_DURABILITY_INCOMPLETE", by decide, rfl⟩) counted h.closed h.summary (one (failed_right _ _))
      | failed replaced removed written reason =>
        exact h.owner [] (List.append_nil _).symm (List.append_nil _).symm
          (.inr ⟨"CAMERA_ARCHIVE_DURABILITY_INCOMPLETE", by decide, rfl⟩) counted h.closed h.summary h.diagnosis

/-! The writer. -/

theorem Kept.turn (h : Kept c s) (running : ¬Ending s.writer) (writer : Writer)
    {persisted shown chunksSynchronized : Nat} {finished : List Chunk} {current : Option Chunk} {entries : List Entry}
    (working : Working c { s with queue, persisted, finished, current, entries, shown, chunksSynchronized, writer })
    (shown' : shown ≤ entries.length) :
    Kept c { s with queue, persisted, finished, current, entries, shown, chunksSynchronized, writer } := by
  have unfinished {p : Prop} (complete : s.finalFsyncComplete = true) : p := by
    rw [h.final complete] at running
    exact absurd trivial running
  have right {v : Summary} (right : Right s v) :
      Right { s with queue, persisted, finished, current, entries, shown, chunksSynchronized, writer } v :=
    ⟨right.status, fun complete => unfinished (right.complete complete).1⟩
  exact ⟨working, h.counted, shown', unfinished, .inl (h.quiet.resolve_right fun silent => running silent.2),
    fun v some_ => right (h.closed v some_), fun v some_ => right (h.summary v some_),
    fun v some_ => right (h.diagnosis v some_)⟩

theorem Kept.ending (h : Kept c s) (running : s.writer.isExited = false) (writer : Writer) (ending : Ending writer)
    {current : Option Chunk} (working : Working c { s with error, current, writer }) :
    Kept c { s with error, current, writer } := by
  have unfinished {p : Prop} (complete : s.finalFsyncComplete = true) : p := by
    rw [h.final complete] at running
    cases running
  have right {v : Summary} (right : Right s v) : Right { s with error, current, writer } v :=
    ⟨right.status, right.complete⟩
  have incomplete : s.finalFsyncComplete = false := Bool.eq_false_iff.mpr unfinished
  exact ⟨working, h.counted, h.shown, unfinished, .inr ⟨incomplete, ending⟩, fun v some_ => right (h.closed v some_),
    fun v some_ => right (h.summary v some_), fun v some_ => right (h.diagnosis v some_)⟩

theorem kept_finish (h : Kept c s) (running : ¬Ending s.writer) {hand : Option Frame} (live : Live c s hand [])
    {chunk : Chunk} (some_ : s.current = some chunk) (io : Io) {next : Writer}
    (working : ∀ s', Live c s' hand [] → s'.current = none → s'.writer = next → Working c s') :
    Kept c (s.finishChunk chunk io next hand) := by
  obtain ⟨order, persisted, placed⟩ := live
  rw [some_] at placed
  cases io with
  | done passed => exact h.turn running _ (working _ ⟨order, persisted, placed.finish⟩ rfl rfl) h.shown
  | failed accepted passed reason =>
    have torn : Placed c s.finished (some (chunk.pass passed)) s.entries ([] ++ []) :=
      placed.more [] (List.append_nil _).symm
    exact h.turn running _ (Live.dead ⟨order, persisted, torn⟩) h.shown

theorem kept_writeChunk (h : Kept c s) (running : ¬Ending s.writer) (live : Live c s (some f) [])
    {chunk : Chunk} (some_ : s.current = some chunk) (io : Io) : Kept c (s.writeChunk c f chunk io) := by
  obtain ⟨order, persisted, placed⟩ := live
  rw [some_] at placed
  cases io with
  | done passed =>
    have written : Placed c s.finished (some (chunk.write (c.block f) passed)) s.entries ([] ++ c.block f) :=
      placed.more (c.block f) rfl
    refine h.turn running _ ⟨⟨order, persisted, written⟩, ?_, rfl⟩ h.shown
    rw [placed.now chunk rfl, List.append_nil]
  | failed accepted passed reason =>
    have torn : Placed c s.finished (some (chunk.write ((c.block f).take accepted) passed)) s.entries
        ([] ++ (c.block f).take accepted) := placed.more _ rfl
    exact h.turn running _ (Live.dead ⟨order, persisted, torn⟩) h.shown

theorem kept_writeIndex (h : Kept c s) (running : ¬Ending s.writer) {offset : Nat}
    (live : Live c s (some f) (c.block f)) (at_ : offset = (blocks c s.finished.length s.entries).length)
    (some_ : s.current.isSome = true) (io : Io) : Kept c (s.writeIndex f offset io) := by
  have dead := live.dead
  obtain ⟨order, persisted, placed⟩ := live
  obtain ⟨chunk, current⟩ := Option.isSome_iff_exists.mp some_
  have row : Placed c s.finished s.current (s.entries ++ [⟨f, s.finished.length, offset⟩]) [] := by
    rw [current] at placed ⊢
    exact placed.row ⟨f, s.finished.length, offset⟩ [] rfl at_ (List.append_nil _).symm
  have order' : s.puts = (s.entries ++ [(⟨f, s.finished.length, offset⟩ : Entry)]).map (·.frame) ++ s.queue := by
    rw [order, List.map_append, List.append_assoc]
    rfl
  have more : s.entries.length + 1 = (s.entries ++ [(⟨f, s.finished.length, offset⟩ : Entry)]).length := by
    rw [List.length_append, List.length_singleton]
  cases io with
  | done passed =>
    refine h.turn running .waiting ⟨order', ?_, row⟩ (Nat.min_le_left _ _)
    rw [← more, persisted]
  | failed accepted passed reason =>
    refine h.turn running (.leaving (some f) reason) ?_ (Nat.min_le_left _ _)
    dsimp only
    split
    · exact dead
    · refine ⟨⟨_, order'.symm⟩, ?_, dead.2.2.1, [], row⟩
      rw [← more, persisted]
      exact Nat.le_succ _

theorem place_cases (c : Config) (s : State) (f : Frame) :
    s.place c f = .creating f ∧ s.current = none ∨
      (s.place c f = .rolling f ∨ s.place c f = .writing f) ∧ s.current.isSome = true := by
  unfold State.place
  cases s.current with
  | none => exact .inl ⟨rfl, rfl⟩
  | some chunk =>
    dsimp only
    split
    · exact .inr ⟨.inl rfl, rfl⟩
    · exact .inr ⟨.inr rfl, rfl⟩

theorem working_place (live : Live c s (some f) []) : Working c { s with writer := s.place c f } := by
  rcases place_cases c s f with ⟨place, none_⟩ | ⟨place | place, some_⟩
  · rw [place]
    exact ⟨live, none_⟩
  · rw [place]
    exact ⟨live, some_⟩
  · rw [place]
    exact ⟨live, some_⟩

theorem kept_work (h : Kept c s) (io : Io) : Kept c (s.work c io) := by
  have working := h.working
  have running {stage : Writer} (at_ : s.writer = stage) (going : ¬Ending stage) : ¬Ending s.writer := at_ ▸ going
  unfold Working at working
  unfold State.work
  generalize writer : s.writer = stage at working ⊢
  cases stage with
  | exited hand => exact h
  | opening =>
    cases io with
    | done passed => exact h.turn (running writer id) _ working h.shown
    | failed accepted passed reason => exact h.turn (running writer id) _ working.dead h.shown
  | waiting =>
    dsimp only
    split
    · exact h.turn (running writer id) _ working h.shown
    · rename_i f rest queue
      obtain ⟨order, more⟩ := working
      rw [queue] at order
      exact h.turn (running writer id) _ ⟨order, more⟩ h.shown
  | empty =>
    dsimp only
    split
    · by_cases some_ : s.current.isSome = true
      · rw [if_pos some_]
        exact h.turn (running writer id) .finishing ⟨working, some_⟩ h.shown
      · rw [if_neg some_]
        exact h.turn (running writer id) .flushing ⟨working, Option.not_isSome_iff_eq_none.mp some_⟩ h.shown
    · exact h.turn (running writer id) .waiting working h.shown
  | taken f =>
    cases io with
    | done passed => exact h.turn (running writer id) (s.place c f) (working_place working) h.shown
    | failed accepted passed reason => exact h.turn (running writer id) (.leaving (some f) reason) working.dead h.shown
  | rolling f =>
    obtain ⟨live, some_⟩ := working
    dsimp only
    obtain ⟨chunk, current⟩ := Option.isSome_iff_exists.mp some_
    rw [current]
    refine kept_finish h (running writer id) live current io fun s' live' none_ at_ => ?_
    unfold Working
    rw [at_]
    exact ⟨live', none_⟩
  | creating f =>
    obtain ⟨⟨order, persisted, placed⟩, none_⟩ := working
    rw [none_] at placed
    cases io with
    | done passed => exact h.turn (running writer id) (.writing f) ⟨⟨order, persisted, placed.create⟩, rfl⟩ h.shown
    | failed accepted passed reason =>
      rw [← none_] at placed
      exact h.turn (running writer id) (.leaving (some f) reason) (Live.dead ⟨order, persisted, placed⟩) h.shown
  | writing f =>
    obtain ⟨live, some_⟩ := working
    dsimp only
    obtain ⟨chunk, current⟩ := Option.isSome_iff_exists.mp some_
    rw [current]
    exact kept_writeChunk h (running writer id) live current io
  | indexing f offset =>
    obtain ⟨live, at_, some_⟩ := working
    exact kept_writeIndex h (running writer id) live at_ some_ io
  | finishing =>
    obtain ⟨live, some_⟩ := working
    dsimp only
    obtain ⟨chunk, current⟩ := Option.isSome_iff_exists.mp some_
    rw [current]
    refine kept_finish h (running writer id) live current io fun s' live' none_ at_ => ?_
    unfold Working
    rw [at_]
    exact ⟨live', none_⟩
  | flushing =>
    cases io with
    | done passed => exact h.turn (running writer id) (.syncing 0) ⟨working.1, working.2, rfl⟩ (Nat.le_refl _)
    | failed accepted passed reason =>
      exact h.turn (running writer id) (.leaving none reason) working.1.dead (Nat.min_le_left _ _)
  | syncing n =>
    dsimp only
    split
    · cases io with
      | done passed => exact h.turn (running writer id) _ working h.shown
      | failed accepted passed reason => exact h.turn (running writer id) _ working.1.dead h.shown
    · exact h.turn (running writer id) _ working h.shown
  | syncingIndex =>
    cases io with
    | done passed =>
      have running := running writer id
      have incomplete {p : Prop} (complete : s.finalFsyncComplete = true) : p := by
        rw [h.final complete] at running
        exact absurd trivial running
      have right {v : Summary} (right : Right s v) :
          Right { s with indexSynchronized := true, finalFsyncComplete := true, writer := .exited none } v :=
        ⟨right.status, fun complete => incomplete (right.complete complete).1⟩
      exact ⟨.inr ⟨rfl, working, rfl⟩, h.counted, h.shown, fun _ => rfl,
        .inl (h.quiet.resolve_right fun silent => running silent.2), fun v some_ => right (h.closed v some_),
        fun v some_ => right (h.summary v some_), fun v some_ => right (h.diagnosis v some_)⟩
    | failed accepted passed reason => exact h.turn (running writer id) _ working.1.dead h.shown
  | leaving hand reason =>
    cases io with
    | done passed => exact h.turn (running writer id) (.failing hand reason) working (Nat.le_refl _)
    | failed accepted passed reason' => exact h.turn (running writer id) (.failing hand reason') working (Nat.min_le_left _ _)
  | failing hand reason =>
    have running : s.writer.isExited = false := by rw [writer]; rfl
    exact h.ending running (.releasing hand) trivial ⟨working, rfl⟩
  | releasing hand =>
    have running : s.writer.isExited = false := by rw [writer]; rfl
    have incomplete : s.finalFsyncComplete = false := by
      rw [Bool.eq_false_iff]
      intro complete
      rw [h.final complete] at running
      cases running
    obtain ⟨dead, error⟩ := working
    dsimp only
    split
    · exact h.ending running (.exited hand) trivial (.inl ⟨dead, error, incomplete⟩)
    · rename_i chunk current
      obtain ⟨order, persisted, lengths, tail, placed⟩ := dead
      rw [current] at placed
      have more (passed : Nat) : Placed c s.finished (some (chunk.pass passed)) s.entries (tail ++ []) :=
        placed.more [] (List.append_nil _).symm
      cases io with
      | done passed =>
        have drained : Placed c s.finished (some chunk.drained) s.entries (tail ++ []) :=
          placed.more [] (List.append_nil _).symm
        exact h.ending running (.exited hand) trivial
          (.inl ⟨⟨order, persisted, lengths, _, drained⟩, error, incomplete⟩)
      | failed accepted passed reason =>
        exact h.ending running (.exited hand) trivial
          (.inl ⟨⟨order, persisted, lengths, _, more passed⟩, rfl, incomplete⟩)

theorem kept_next (h : Kept c s) {event : Event} (moved : s.next c event = some s') : Kept c s' := by
  unfold State.next at moved
  cases event with
  | append given =>
    dsimp only at moved
    split at moved
    · rename_i idle
      cases moved
      exact kept_append h given idle
    · cases moved
  | put =>
    dsimp only at moved
    split at moved
    · rename_i f at_
      cases moved
      exact kept_put h at_
    · cases moved
  | close sourceError =>
    dsimp only at moved
    split at moved
    · rename_i idle
      cases moved
      exact kept_close h sourceError idle
    · cases moved
  | join alive outcome =>
    dsimp only at moved
    split at moved
    · rename_i sourceError at_
      split at moved
      · rename_i joined
        cases moved
        exact kept_join h at_ alive joined outcome
      · cases moved
    · cases moved
  | work io =>
    cases moved
    exact kept_work h io

theorem kept_initial (c : Config) : Kept c initial where
  working := ⟨rfl, rfl, fun _ => trivial, fun _ _ mem => absurd mem nofun, nofun, nofun⟩
  counted := rfl
  shown := Nat.le_refl _
  final := nofun
  quiet := .inl nofun
  closed := nofun
  summary := nofun
  diagnosis := nofun

theorem kept_path (run : Path (Step c) initial s) : Kept c s :=
  run.keeps (fun _ _ ⟨_, moved⟩ h => kept_next h moved) (kept_initial c)

/-! What the index and the chunks on the disk say. -/

theorem Kept.dead (h : Kept c s) : Dead c s s.writer.hand := by
  have working := h.working
  unfold Working at working
  cases writer : s.writer with
  | opening | waiting | empty | taken f => rw [writer] at working; exact working.dead
  | rolling f | creating f | writing f | indexing f offset | finishing | flushing | syncing n | syncingIndex => rw [writer] at working; exact working.1.dead
  | leaving hand reason | failing hand reason => rw [writer] at working; exact working
  | releasing hand => rw [writer] at working; exact working.1
  | exited hand =>
    rw [writer] at working
    rcases working with ⟨dead, -⟩ | ⟨none_, ⟨whole, -⟩, -⟩
    · exact dead
    · rw [none_]
      exact whole.dead

theorem Kept.whole (h : Kept c s) (complete : s.finalFsyncComplete = true) : Whole c s := by
  have working := h.working
  unfold Working at working
  rw [h.final complete] at working
  rcases working with ⟨-, -, incomplete⟩ | ⟨-, whole, -⟩
  · rw [complete] at incomplete
    cases incomplete
  · exact whole

theorem Placed.content (h : Placed c finished current entries tail) {chunk : Chunk}
    (mem : (finished ++ current.toList)[n]? = some chunk) : ∃ more, chunk.content = blocks c n entries ++ more := by
  rcases Nat.lt_or_ge n finished.length with before | last
  · rw [List.getElem?_append_left before] at mem
    exact ⟨[], by rw [List.append_nil]; exact (h.whole n chunk mem).1⟩
  · rw [List.getElem?_append_right last] at mem
    cases current with
    | none => cases mem
    | some chunk' =>
      rw [Option.toList_some, List.getElem?_singleton] at mem
      split at mem
      · rename_i same
        cases mem
        have at_ : n = finished.length := by omega
        rw [at_]
        exact ⟨tail, h.now chunk rfl⟩
      · cases mem

theorem Kept.chunk (h : Kept c s) (complete : s.finalFsyncComplete = true) {chunk : Chunk}
    (mem : s.chunks[n]? = some chunk) : chunk.content = blocks c n s.entries ∧ chunk.disk = chunk.content := by
  obtain ⟨⟨-, -, placed⟩, none_, -⟩ := h.whole complete
  unfold State.chunks at mem
  rw [none_, Option.toList_none, List.append_nil] at mem
  obtain ⟨content, flushed⟩ := placed.whole n chunk mem
  exact ⟨content, List.take_of_length_le (Nat.le_of_eq flushed.symm)⟩

theorem directory_has (s : State) {chunk : Chunk} (mem : s.chunks[e.chunk]? = some chunk) :
    s.directory.Has e chunk.disk := by
  refine ⟨rfl, rfl, rfl, ?_⟩
  show (s.chunks.zipIdx.find? fun entry => decide (chunkPath e.chunk = chunkPath entry.2)).map (·.1.disk) = some chunk.disk
  cases found : s.chunks.zipIdx.find? fun entry => decide (chunkPath e.chunk = chunkPath entry.2) with
  | none =>
    have absent := List.find?_eq_none.mp found (chunk, e.chunk) (List.mem_zipIdx_iff_getElem?.mpr mem)
    exact absurd (decide_eq_true rfl) absent
  | some pair =>
    have same : chunkPath e.chunk = chunkPath pair.2 := by
      have holds := List.find?_some found
      exact of_decide_eq_true holds
    have there := List.mem_zipIdx_iff_getElem?.mp (List.mem_of_find?_eq_some found)
    rw [← chunkPath_inj same, mem] at there
    rw [Option.map_some, ← Option.some.inj there]

theorem Kept.reads (h : Kept c s) (lossless : c.codec.Lossless) (mem : e ∈ s.entries) :
    readCameraFrame c.codec s.directory (e.row c.codec c.compression) maxCameraDecodedBytes = .ok e.frame.data ∨
      readCameraFrame c.codec s.directory (e.row c.codec c.compression) maxCameraDecodedBytes =
        .error (.value "camera stored block truncated") ∧ s.finalFsyncComplete = false := by
  obtain ⟨-, -, -, tail, placed⟩ := h.dead
  have there : e.chunk < s.chunks.length := by
    unfold State.chunks
    rw [List.length_append]
    exact placed.known e mem
  have got : s.chunks[e.chunk]? = some s.chunks[e.chunk] := List.getElem?_eq_getElem there
  obtain ⟨more, content⟩ := placed.content got
  have mem' : e ∈ rowsOf e.chunk s.entries := List.mem_filter.mpr ⟨mem, decide_eq_true rfl⟩
  have positive := (stored_bounds lossless c.compression e.frame).1
  have part := (placed.tiled e.chunk).read_part mem' positive more s.chunks[e.chunk].flushed
  have has := directory_has s got
  have disk : s.chunks[e.chunk].disk = (blocks c e.chunk s.entries ++ more).take s.chunks[e.chunk].flushed := by
    rw [← content]
    rfl
  rw [disk] at has
  rcases part with whole | short
  · exact .inl (read_whole lossless has whole)
  · refine .inr ⟨read_short lossless has short, Bool.eq_false_iff.mpr fun complete => ?_⟩
    obtain ⟨all, there⟩ := h.chunk complete got
    obtain ⟨-, -, found⟩ := (placed.tiled e.chunk).read mem' []
    rw [List.append_nil] at found
    have read : (((blocks c e.chunk s.entries ++ more).take s.chunks[e.chunk].flushed).drop e.offset).take
        (c.block e.frame).length = c.block e.frame := by
      rw [← disk, there, all]
      exact found
    have length := congrArg List.length read
    exact Nat.ne_of_lt short length

theorem mem_index (mem : e ∈ s.index) : e ∈ s.entries := List.mem_of_mem_take mem

theorem Kept.tiles (h : Kept c s) {chunk : Chunk} (mem : s.chunks[n]? = some chunk) :
    Tiled c n s.index ∧ ∃ more, chunk.content = blocks c n s.index ++ more ∧
      (s.finalFsyncComplete = true → more = [] ∧ chunk.disk = chunk.content) := by
  obtain ⟨-, -, -, tail, placed⟩ := h.dead
  have split : rowsOf n s.entries = rowsOf n s.index ++ rowsOf n (s.entries.drop s.shown) := by
    rw [← rowsOf_append]
    exact congrArg _ (List.take_append_drop _ _).symm
  have tiled := placed.tiled n
  obtain ⟨more, content⟩ := placed.content mem
  unfold Tiled at tiled
  unfold blocks at content
  rw [split] at tiled content
  rw [Disk.joined_append, List.append_assoc] at content
  refine ⟨tiled.first, _, content, fun complete => ?_⟩
  obtain ⟨all, disk⟩ := h.chunk complete mem
  refine ⟨?_, disk⟩
  have shown : s.index = s.entries := by
    unfold State.index
    rw [(h.whole complete).2.2]
    exact List.take_length
  have same : blocks c n s.index = blocks c n s.entries := congrArg _ shown
  rw [all, ← same] at content
  exact List.self_eq_append_right.mp content

/-- Every row on the disk is read to the bytes that were appended for it, or refused as truncated, only where the
archive is not complete; the rows tile the chunks; every received frame is accounted for, counting those in hand; and
a summary says `COMPLETE` just where all of it went well. -/
theorem camera_archive (lossless : c.codec.Lossless) (run : Path (Step c) initial s) :
    (∀ e ∈ s.index,
      readCameraFrame c.codec s.directory (e.row c.codec c.compression) maxCameraDecodedBytes = .ok e.frame.data ∨
      readCameraFrame c.codec s.directory (e.row c.codec c.compression) maxCameraDecodedBytes =
          .error (.value "camera stored block truncated") ∧
        s.finalFsyncComplete = false ∧ (s.writer.isExited = true → s.error.isSome = true)) ∧
    List.IsPrefix (s.index.map (·.frame)) s.puts ∧
    (∀ n chunk, s.chunks[n]? = some chunk → Tiled c n s.index ∧ ∃ more, chunk.content = blocks c n s.index ++ more ∧
      (s.finalFsyncComplete = true → more = [] ∧ chunk.disk = chunk.content)) ∧
    s.received = s.persisted + s.dropped + s.queue.length +
      (s.writer.hand.toList.length + s.owner.hand.toList.length) ∧
    ∀ v, s.summary = some v ∨ s.partialSummary = some v ∨ s.closeValue = some v →
      (v.status = .complete ↔
        v.error = none ∧ v.dropped = 0 ∧ truthy v.sourceError = false ∧ v.captured = v.persisted) ∧
      (v.status = .complete → s.finalFsyncComplete = true ∧ s.index.length = v.captured) := by
  have h := kept_path run
  obtain ⟨order, -, lengths, -⟩ := h.dead
  refine ⟨fun e mem => ?_, ?_, fun n chunk mem => h.tiles mem, ?_, fun v made => ?_⟩
  · refine (h.reads lossless (mem_index mem)).imp_right fun ⟨short, incomplete⟩ => ⟨short, incomplete, fun exited => ?_⟩
    have working := h.working
    cases writer : s.writer with
    | exited hand =>
      unfold Working at working
      rw [writer] at working
      rcases working with ⟨-, error, -⟩ | ⟨-, -, complete⟩
      · exact error
      · rw [complete] at incomplete
        cases incomplete
    | _ =>
      rw [writer] at exited
      cases exited
  · unfold State.index
    rw [List.map_take]
    exact (List.take_prefix _ _).trans order
  · rw [h.counted, lengths]
    omega
  · have right : Right s v := by
      rcases made with summary | diagnosis | closed
      · exact h.summary v summary
      · exact h.diagnosis v diagnosis
      · exact h.closed v closed
    refine ⟨right.status, fun status => ?_⟩
    obtain ⟨complete, persisted⟩ := right.complete status
    refine ⟨complete, ?_⟩
    unfold State.index
    rw [(h.whole complete).2.2, List.take_length, ← persisted]
    exact (right.status.mp status).2.2.2.symm

def Bench.codec : Codec where
  compress data := 0 :: data
  decompress bytes n :=
    match bytes with
    | [] => none
    | _ :: data => if data.length < n then some ⟨data, true, [], []⟩ else some ⟨data.take n, false, data.drop n, []⟩
  sha256 data := String.ofList (data.map fun byte => Char.ofNat byte.toNat)

theorem Bench.lossless : Bench.codec.Lossless where
  inverts data n short := if_pos short
  some_ data := Nat.succ_pos _
  bounded data limit := by
    show ((data.length + 1 : Nat) : Int) ≤ _
    omega

def bench (compression : Compression) : Config := ⟨4, 8, compression, Bench.codec, by decide⟩

def Bench.given (byte : UInt8) : Given := ⟨[byte, byte, byte], some 1, some 1⟩

def Bench.frame (byte : UInt8) (steps : Nat) : List Event :=
  [.append (Bench.given byte), .put] ++ List.replicate steps (.work (.done 0))

def Bench.closed : List Event :=
  [.work (.done 0)] ++ Bench.frame 1 5 ++ Bench.frame 2 4 ++ Bench.frame 3 6 ++ [.close none] ++
    List.replicate 8 (.work (.done 0)) ++ [.join false .done]

theorem Bench.closed_run : (Bench.closed.foldlM (State.next (bench .zlib)) initial).map
    (fun s => (s.summary.map (·.status), s.chunks.length, s.index.map (·.frame.data))) =
      some (some .complete, 2, [[1, 1, 1], [2, 2, 2], [3, 3, 3]]) := by
  decide +kernel

theorem bench_archive : ∃ s, Path (Step (bench .zlib)) initial s ∧ s.index.length = 3 ∧
    (∃ v, s.summary = some v ∧ v.status = .complete ∧ v.captured = 3) ∧
    ∀ e ∈ s.index, readCameraFrame Bench.codec s.directory (e.row Bench.codec .zlib) maxCameraDecodedBytes =
      .ok e.frame.data := by
  have left := Bench.closed_run
  cases events : Bench.closed.foldlM (State.next (bench .zlib)) initial with
  | none =>
    rw [events] at left
    cases left
  | some s =>
    rw [events, Option.map_some, Option.some_inj, Prod.mk.injEq, Prod.mk.injEq] at left
    have run : Path (Step (bench .zlib)) initial s := Path.events events
    obtain ⟨reads, -, -, -, summaries⟩ := camera_archive (c := bench .zlib) Bench.lossless run
    obtain ⟨v, summary, status⟩ := Option.map_eq_some_iff.mp left.1
    obtain ⟨complete, all⟩ := (summaries v (.inl summary)).2 status
    have length := congrArg List.length left.2.2
    rw [List.length_map] at length
    refine ⟨s, run, length, ⟨v, summary, status, all.symm.trans length⟩,
      fun e mem => (reads e mem).resolve_right fun torn => ?_⟩
    rw [complete] at torn
    cases torn.2.1

/-- The row of the first frame is on the disk, its block was still in the stream when the second one failed, and the
second frame is neither persisted nor dropped nor queued. -/
def Bench.torn : List Event :=
  [.work (.done 0)] ++ Bench.frame 1 4 ++ [.work (.done 1)] ++ Bench.frame 2 2 ++
    [.work (.failed 0 0 "No space left on device"), .work (.done 0), .work (.done 0),
      .work (.failed 0 0 "No space left on device")]

theorem Bench.torn_run : (Bench.torn.foldlM (State.next (bench .none)) initial).map
    (fun s => (s.writer.isExited, s.received, s.persisted + s.dropped + s.queue.length,
      s.index.map fun e =>
        (readCameraFrame Bench.codec s.directory (e.row Bench.codec .none) maxCameraDecodedBytes).isOk)) =
      some (true, 2, 1, [false]) := by
  decide +kernel

theorem Bench.digest_injective : Function.Injective Bench.codec.sha256 := by
  have byte : ∀ a b : UInt8, Char.ofNat a.toNat = Char.ofNat b.toNat → a = b := by
    intro a b same
    have valid : ∀ n < 256, (Char.ofNat n).toNat = n := by decide +kernel
    have number := congrArg Char.toNat same
    rw [valid _ a.toNat_lt, valid _ b.toNat_lt] at number
    exact UInt8.toNat_inj.mp number
  intro a b same
  exact List.map_injective_iff.mpr byte (String.ofList_injective same)

theorem row_without_block : ∃ s, Path (Step (bench .none)) initial s ∧ Bench.codec.Lossless ∧
    Function.Injective Bench.codec.sha256 ∧ s.writer.isExited = true ∧
    (∃ e ∈ s.index, readCameraFrame Bench.codec s.directory (e.row Bench.codec .none) maxCameraDecodedBytes ≠
      .ok e.frame.data) ∧
    s.received ≠ s.persisted + s.dropped + s.queue.length := by
  have left := Bench.torn_run
  cases events : Bench.torn.foldlM (State.next (bench .none)) initial with
  | none =>
    rw [events] at left
    cases left
  | some s =>
    rw [events, Option.map_some, Option.some_inj, Prod.mk.injEq, Prod.mk.injEq, Prod.mk.injEq] at left
    obtain ⟨exited, received, counted, refused⟩ := left
    obtain ⟨e, mem, read⟩ : ∃ e ∈ s.index, (readCameraFrame Bench.codec s.directory (e.row Bench.codec .none)
        maxCameraDecodedBytes).isOk = false := by
      refine List.mem_map.mp ?_
      rw [refused]
      exact List.mem_cons_self ..
    refine ⟨s, Path.events events, Bench.lossless, Bench.digest_injective, exited, ⟨e, mem, ?_⟩, ?_⟩
    · intro whole
      rw [whole] at read
      cases read
    · rw [received, counted]
      decide

end Smartwheel.Source.Camera

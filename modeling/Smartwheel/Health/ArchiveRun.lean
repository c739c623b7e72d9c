import Smartwheel.Health.Archive
import Smartwheel.Disk.Tiling

/-! What the health archive keeps: the file has the accepted records in their order, cut only inside of one record; the
slots have the newest snapshots; every kind has its turn; and `close` returns with everything on disk. -/
namespace Smartwheel.Health.Archive
open Effect Disk

variable {δ : Type} {c : Config δ} {a a' : Archive δ}

def line (c : Config δ) (value : δ) : List UInt8 := ((c.encode value).toOption).getD []

def lines (c : Config δ) (records : List δ) : List UInt8 := records.flatMap (line c)

@[simp] theorem lines_nil : lines c [] = [] := rfl

@[simp] theorem lines_append (records more : List δ) : lines c (records ++ more) = lines c records ++ lines c more := by
  simp [lines]

@[simp] theorem lines_single (value : δ) : lines c [value] = line c value := by simp [lines]

def current : Option (Job δ) → List δ
  | some (.record value) => [value]
  | _ => []

def newest (a : Archive δ) (slot : Slot) : ℕ :=
  match a.job with
  | some (.snapshot s generation _) => if slot = s then generation else a.writtenGenerations slot
  | _ => a.writtenGenerations slot

def Given (a : Archive δ) (slot : Slot) (generation : ℕ) (value : δ) : Prop :=
  0 < generation ∧ (a.received slot)[generation - 1]? = some value

structure Base (c : Config δ) (a : Archive δ) : Prop where
  bound : a.tracking.length ≤ c.maxTracking
  accepted : a.accepted = a.written ++ current a.job ++ a.tracking
  counts : a.trackingAccepted = a.accepted.length ∧ a.trackingWritten = a.written.length
  torn : ∃ part, a.file = lines c a.written ++ part ∧ List.IsPrefix (part ++ a.buffer) (lines c (current a.job))
  flight : a.failure = none → a.inFlight = a.job.map Job.kind
  generations : ∀ s, a.generations s = (a.received s).length
  order : ∀ s, a.writtenGenerations s ≤ a.newest s ∧ a.newest s ≤ a.generations s
  slot : ∀ s g v, a.latest s = some (g, v) → g = a.generations s ∧ a.newest s < g ∧ Given a s g v
  empty : ∀ s, a.latest s = none → s = .status ∧ a.closing = true ∨ a.newest s = a.generations s
  job : ∀ s g v, a.job = some (.snapshot s g v) → Given a s g v
  maps : ∀ s, s ≠ .status → a.files s = none ∧ a.writtenGenerations s = 0 ∨
    ∃ g v, a.files s = some (.snapshot g v) ∧ Given a s g v ∧ (g = a.writtenGenerations s ∨ g = a.newest s)

structure Drained (a : Archive δ) : Prop where
  closing : a.closing = true
  tracking : a.tracking = []
  latest : ∀ s, a.latest s = none
  job : a.job = none

structure Certified (a : Archive δ) (value : δ) (storage : Storage) : Prop where
  given : a.finalStatus = some value
  final : storage.final = true
  counters : storage.trackingWritten = storage.trackingAccepted
  all : storage.trackingAccepted = a.accepted.length

def Published (a : Archive δ) : Prop :=
  Drained a ∧ a.synced = a.file.length ∧ ∃ value storage, Certified a value storage ∧
    a.files .status = some (.final value storage)

def At (c : Config δ) (a : Archive δ) : Worker δ → Prop
  | .opening | .waiting => a.job = none
  | .writing job => a.job = some job ∧ a.buffer = [] ∧ a.file = lines c a.written
  | .line value left =>
    a.job = some (.record value) ∧ a.buffer = [] ∧ a.file ++ left = lines c (a.written ++ [value])
  | .wrote (.record value) => a.job = some (.record value) ∧ a.buffer = [] ∧ a.file = lines c (a.written ++ [value])
  | .wrote (.snapshot slot generation value) =>
    a.job = some (.snapshot slot generation value) ∧ (slot ≠ .status → a.files slot = some (.snapshot generation value))
  | .leaving (some _) | .failing _ => True
  | .syncing => Drained a
  | .leaving none | .syncingMaps | .certifying => Drained a ∧ a.synced = a.file.length
  | .publishing value storage => Drained a ∧ a.synced = a.file.length ∧ Certified a value storage
  | .syncingRoot | .finishing => Published a
  | .exited => a.failure = none → Published a

structure Kept (c : Config δ) (a : Archive δ) : Prop where
  base : Base c a
  whole : a.worker ≠ .exited → a.failure = none
  working : At c a a.worker

theorem initial_kept : Kept c (initial : Archive δ) where
  base := by
    refine ⟨Nat.zero_le _, rfl, ⟨rfl, rfl⟩, ⟨[], rfl, List.prefix_rfl⟩, fun _ => rfl, fun _ => rfl, fun _ => ⟨le_rfl, le_rfl⟩,
      fun _ _ _ h => (nomatch h), fun _ _ => .inr rfl, fun _ _ _ h => (nomatch h), fun _ _ => .inl ⟨rfl, rfl⟩⟩
  whole _ := rfl
  working := rfl

theorem Base.clean (b : Base c a) (idle : current a.job = []) : a.file = lines c a.written ∧ a.buffer = [] := by
  obtain ⟨part, file, more⟩ := b.torn
  rw [idle, lines_nil, List.prefix_nil, List.append_eq_nil_iff] at more
  exact ⟨by rw [file, more.1, List.append_nil], more.2⟩

theorem At.frame {worker : Worker δ} (h : At c a worker) (job : a'.job = a.job) (written : a'.written = a.written)
    (file : a'.file = a.file) (buffer : a'.buffer = a.buffer) (files : a'.files = a.files)
    (failure : a'.failure = a.failure) (opened : a.closing = false) : At c a' worker := by
  have never {p : Prop} (drained : Drained a) : p := by
    have closing := drained.closing
    rw [opened] at closing
    cases closing
  cases worker with
  | opening | waiting => exact job.trans h
  | writing j =>
    simp only [At, job, buffer, file, written] at h ⊢
    exact h
  | line value left =>
    simp only [At, job, buffer, file, written] at h ⊢
    exact h
  | wrote j =>
    cases j <;> simp only [At, job, buffer, file, written, files] at h ⊢ <;> exact h
  | syncing => exact never h
  | leaving reason =>
    cases reason with
    | none => exact never h.1
    | some reason => trivial
  | syncingMaps | certifying | publishing value storage | syncingRoot | finishing => exact never h.1
  | failing reason => trivial
  | exited => exact fun whole => never (h (failure.symm.trans whole)).1

/-! The calls. -/

theorem record_cases (c : Config δ) (a : Archive δ) (value : δ) :
    (a.record c value).2 = a ∨ (a.failure = none ∧ a.closing = false ∧ a.tracking.length < c.maxTracking) ∧
      (a.record c value).2 = { a with
        tracking := a.tracking ++ [value]
        trackingAccepted := a.trackingAccepted + 1
        accepted := a.accepted ++ [value] } := by
  unfold record
  cases failure : a.failure with
  | some reason => simp [check, failure]
  | none =>
    by_cases closing : a.closing = true
    · simp [check, failure, closing]
    · by_cases full : c.maxTracking ≤ a.tracking.length
      · simp [check, failure, closing, full]
      · exact .inr ⟨⟨rfl, by simpa using closing, by omega⟩, by simp [check, failure, closing, full]⟩

theorem snapshot_cases (a : Archive δ) (slot : Slot) (value : δ) :
    (a.snapshot slot value).2 = a ∨ (a.failure = none ∧ a.closing = false) ∧
      (a.snapshot slot value).2 = { a with
        generations := put a.generations slot (a.generations slot + 1)
        latest := put a.latest slot (some (a.generations slot + 1, value))
        received := put a.received slot (a.received slot ++ [value]) } := by
  unfold snapshot
  cases failure : a.failure with
  | some reason => simp [check, failure]
  | none =>
    by_cases closing : a.closing = true
    · simp [check, failure, closing]
    · exact .inr ⟨⟨rfl, by simpa using closing⟩, by simp [check, failure, closing]⟩

theorem kept_record (k : Kept c a) (value : δ) : Kept c (a.record c value).2 := by
  rcases record_cases c a value with same | ⟨⟨whole, opened, room⟩, same⟩
  · rw [same]
    exact k
  · rw [same]
    obtain ⟨bound, accepted, counts, torn, flight, generations, order, slot, empty, job, maps⟩ := k.base
    refine ⟨⟨?_, ?_, ?_, torn, flight, generations, order, slot, empty, job, maps⟩, k.whole,
      k.working.frame rfl rfl rfl rfl rfl rfl opened⟩
    · simpa using Nat.succ_le_of_lt room
    · simp [accepted]
    · simp [counts.1, counts.2]

variable {value : δ}

theorem given_append {list : List δ} {generation : ℕ} (h : list[generation - 1]? = some value) (new : δ) :
    (list ++ [new])[generation - 1]? = some value := by
  obtain ⟨inside, same⟩ := List.getElem?_eq_some_iff.mp h
  rw [List.getElem?_append_left inside, h]

variable {slot : Slot}

theorem Given.received {s : Slot} {g : ℕ} {v new : δ} (h : Given a s g v)
    (same : a'.received = put a.received slot (a.received slot ++ [new])) : Given a' s g v := by
  refine ⟨h.1, ?_⟩
  by_cases here : s = slot
  · subst here
    simpa [same] using given_append h.2 new
  · simpa [same, here] using h.2

theorem kept_snapshot (k : Kept c a) (slot : Slot) (value : δ) : Kept c (a.snapshot slot value).2 := by
  rcases snapshot_cases a slot value with same | ⟨⟨whole, opened⟩, same⟩
  · rw [same]
    exact k
  · rw [same]
    have b := k.base
    refine ⟨⟨b.bound, b.accepted, b.counts, b.torn, b.flight, fun s => ?_, fun s => ?_, fun s g v h => ?_, fun s h => ?_,
      fun s g v h => (b.job s g v h).received rfl, fun s other => ?_⟩, k.whole,
      k.working.frame rfl rfl rfl rfl rfl rfl opened⟩
    · by_cases here : s = slot
      · simp [here, b.generations]
      · simp [here, b.generations]
    · refine ⟨(b.order s).1, (b.order s).2.trans ?_⟩
      by_cases here : s = slot
      · simp [here]
      · simp [here]
    · by_cases here : s = slot
      · subst here
        obtain ⟨rfl, rfl⟩ : a.generations s + 1 = g ∧ value = v := by simpa using h
        refine ⟨by simp, Nat.lt_succ_of_le (b.order s).2, Nat.succ_pos _, ?_⟩
        simp [b.generations]
      · obtain ⟨last, newer, given⟩ := b.slot s g v (by simpa [here] using h)
        exact ⟨by simpa [here] using last, newer, given.received rfl⟩
    · by_cases here : s = slot
      · simp [here] at h
      · rcases b.empty s (by simpa [here] using h) with above | same
        · exact .inl above
        · exact .inr (same.trans (put_other _ _ here).symm)
    · rcases b.maps s other with none | ⟨g, v, file, given, newest⟩
      · exact .inl none
      · exact .inr ⟨g, v, file, given.received rfl, newest⟩

theorem kept_closeBegin (k : Kept c a) (finalStatus : δ) : Kept c (a.closeBegin finalStatus) := by
  unfold closeBegin
  by_cases closing : a.closing = true
  · rw [if_pos closing]
    exact k
  · rw [if_neg closing]
    have b := k.base
    refine ⟨⟨b.bound, b.accepted, b.counts, b.torn, b.flight, b.generations, b.order, fun s g v h => ?_, fun s h => ?_,
      b.job, b.maps⟩, k.whole, k.working.frame rfl rfl rfl rfl rfl rfl (by simpa using closing)⟩
    · by_cases here : s = .status
      · simp [here] at h
      · exact b.slot s g v (by simpa [here] using h)
    · by_cases here : s = .status
      · exact .inl ⟨here, rfl⟩
      · rcases b.empty s (by simpa [here] using h) with h | h
        · exact absurd h.1 here
        · exact .inr h

/-! The worker. -/

/-- What changes nothing of what `Base` says. -/
theorem Base.move (b : Base c a) (worker : Worker δ) (synced : ℕ) (final : Bool) :
    Base c { a with worker, synced, final } :=
  ⟨b.bound, b.accepted, b.counts, b.torn, b.flight, b.generations, b.order, b.slot, b.empty, b.job, b.maps⟩

variable {job : Job δ}

theorem takeAt_cases {i : Fin 4} {left : Archive δ} (h : a.takeAt i = some (job, left)) :
    (∃ value rest, kindAt i = .tracking ∧ a.tracking = value :: rest ∧ job = .record value ∧
      left = { a with cursor := i + 1, taken := a.taken ++ [kindAt i], tracking := rest }) ∨
    ∃ slot g v, kindAt i = .snapshot slot ∧ a.latest slot = some (g, v) ∧ job = .snapshot slot g v ∧
      left = { a with cursor := i + 1, taken := a.taken ++ [kindAt i], latest := put a.latest slot none } := by
  unfold takeAt at h
  cases turn : kindAt i with
  | tracking =>
    cases queue : a.tracking with
    | nil => simp [turn, queue] at h
    | cons value rest =>
      simp only [turn, queue, Option.some.injEq, Prod.mk.injEq] at h
      exact .inl ⟨value, rest, rfl, rfl, h.1.symm, h.2.symm⟩
  | snapshot slot =>
    cases waits : a.latest slot with
    | none => simp [turn, waits] at h
    | some snapshot =>
      obtain ⟨g, v⟩ := snapshot
      simp only [turn, waits, Option.some.injEq, Prod.mk.injEq] at h
      exact .inr ⟨slot, g, v, rfl, waits, h.1.symm, h.2.symm⟩

theorem takeAt_none {i : Fin 4} : a.takeAt i = none ↔ a.pending (kindAt i) = false := by
  unfold takeAt pending
  cases kindAt i with
  | tracking => cases a.tracking <;> simp
  | snapshot slot => cases h : a.latest slot <;> simp [h]

theorem next_some {left : Archive δ} (h : a.next = some (job, left)) :
    ∃ k : Fin 4, a.takeAt (a.cursor + k) = some (job, left) ∧
      ∀ k' : Fin 4, k' < k → a.pending (kindAt (a.cursor + k')) = false := by
  have skip {i : Fin 4} (none_ : a.takeAt i = none) : a.pending (kindAt i) = false := takeAt_none.mp none_
  unfold next at h
  simp only [List.findSome?_cons] at h
  split at h
  · rename_i first
    exact ⟨0, by simpa [← first] using h, fun k' less => by omega⟩
  · rename_i first
    split at h
    · rename_i second
      refine ⟨1, by rw [second, h], fun k' less => ?_⟩
      obtain rfl : k' = 0 := by omega
      simpa using skip first
    · rename_i second
      split at h
      · rename_i third
        refine ⟨2, by rw [third, h], fun k' less => ?_⟩
        obtain rfl | rfl : k' = 0 ∨ k' = 1 := by omega
        · simpa using skip first
        · exact skip second
      · rename_i third
        split at h
        · rename_i fourth
          refine ⟨3, by rw [fourth, h], fun k' less => ?_⟩
          obtain rfl | rfl | rfl : k' = 0 ∨ k' = 1 ∨ k' = 2 := by omega
          · simpa using skip first
          · exact skip second
          · exact skip third
        · cases h

theorem next_none (h : a.next = none) : a.tracking = [] ∧ ∀ s, a.latest s = none := by
  have skipped : ∀ i ∈ [a.cursor, a.cursor + 1, a.cursor + 2, a.cursor + 3], a.takeAt i = none :=
    List.findSome?_eq_none_iff.mp h
  have all : ∀ i : Fin 4, a.pending (kindAt i) = false := by
    intro i
    refine takeAt_none.mp (skipped i ?_)
    generalize a.cursor = n
    revert i n
    decide
  refine ⟨by simpa [pending, kindAt] using all 0, fun s => ?_⟩
  cases s with
  | status => simpa [pending, kindAt] using all 3
  | cloud => simpa [pending, kindAt] using all 1
  | grid => simpa [pending, kindAt] using all 2

def tookRecord (a : Archive δ) (i : Fin 4) (value : δ) (rest : List δ) : Archive δ :=
  { a with
    cursor := i + 1
    taken := a.taken ++ [.tracking]
    tracking := rest
    inFlight := some .tracking
    job := some (.record value)
    worker := .writing (.record value) }

def tookSnapshot (a : Archive δ) (i : Fin 4) (slot : Slot) (g : ℕ) (v : δ) : Archive δ :=
  { a with
    cursor := i + 1
    taken := a.taken ++ [.snapshot slot]
    latest := put a.latest slot none
    inFlight := some (.snapshot slot)
    job := some (.snapshot slot g v)
    worker := .writing (.snapshot slot g v) }

/-- Nothing that waits comes before `k` in the turn. -/
def First (a : Archive δ) (k : Fin 4) : Prop := ∀ k' : Fin 4, k' < k → a.pending (kindAt (a.cursor + k')) = false

theorem take_cases (a : Archive δ) :
    (∃ k value rest, a.First k ∧ kindAt (a.cursor + k) = .tracking ∧ a.tracking = value :: rest ∧
      a.take = a.tookRecord (a.cursor + k) value rest) ∨
    (∃ k slot g v, a.First k ∧ kindAt (a.cursor + k) = .snapshot slot ∧ a.latest slot = some (g, v) ∧
      a.take = a.tookSnapshot (a.cursor + k) slot g v) ∨
    ((a.tracking = [] ∧ (∀ s, a.latest s = none) ∧ a.closing = true) ∧ a.take = { a with worker := .syncing }) ∨
    a.take = a := by
  unfold take
  cases h : a.next with
  | none =>
    obtain ⟨tracking, latest⟩ := next_none h
    cases closing : a.closing with
    | true => exact .inr (.inr (.inl ⟨⟨tracking, latest, rfl⟩, by simp⟩))
    | false => exact .inr (.inr (.inr (by simp)))
  | some turn =>
    obtain ⟨job, left⟩ := turn
    obtain ⟨k, found, first⟩ := next_some h
    rcases takeAt_cases found with ⟨value, rest, kind, queue, rfl, rfl⟩ | ⟨slot, g, v, kind, waits, rfl, rfl⟩
    · exact .inl ⟨k, value, rest, first, kind, queue, by simp [tookRecord, kind, Job.kind]⟩
    · exact .inr (.inl ⟨k, slot, g, v, first, kind, waits, by simp [tookSnapshot, kind, Job.kind]⟩)

theorem newest_idle (idle : a.job = none) (s : Slot) : a.newest s = a.writtenGenerations s := by simp [newest, idle]

theorem Base.tookRecord (b : Base c a) (idle : a.job = none) (i : Fin 4) {rest : List δ}
    (queue : a.tracking = value :: rest) : Base c (a.tookRecord i value rest) := by
  obtain ⟨file, buffer⟩ := b.clean (by rw [idle]; rfl)
  have same : ∀ s, (a.tookRecord i value rest).newest s = a.newest s := fun s => (newest_idle idle s).symm
  have bound := b.bound
  rw [queue, List.length_cons] at bound
  refine ⟨Nat.le_of_succ_le bound, ?_, b.counts, ⟨[], ?_, ?_⟩, fun _ => rfl, b.generations, fun s => ?_,
    fun s g v h => ?_, fun s h => ?_, fun _ _ _ h => (nomatch h), fun s other => ?_⟩
  · simpa [idle, queue, current, Archive.tookRecord] using b.accepted
  · simp [Archive.tookRecord, file]
  · simp [Archive.tookRecord, buffer]
  · rw [same]
    exact b.order s
  · rw [same]
    exact b.slot s g v h
  · rw [same]
    exact b.empty s h
  · rw [same]
    exact b.maps s other

theorem Base.tookSnapshot (b : Base c a) (idle : a.job = none) (i : Fin 4) {g : ℕ} {v : δ}
    (waits : a.latest slot = some (g, v)) : Base c (a.tookSnapshot i slot g v) := by
  obtain ⟨file, buffer⟩ := b.clean (by rw [idle]; rfl)
  obtain ⟨last, newer, given⟩ := b.slot slot g v waits
  have here : (a.tookSnapshot i slot g v).newest slot = g := by simp [newest, Archive.tookSnapshot]
  have there : ∀ s, s ≠ slot → (a.tookSnapshot i slot g v).newest s = a.newest s := fun s other => by
    simp [newest, Archive.tookSnapshot, idle, other]
  refine ⟨b.bound, ?_, b.counts, ⟨[], ?_, ?_⟩, fun _ => rfl, b.generations, fun s => ?_, fun s g' v' h => ?_, fun s h => ?_,
    fun s g' v' h => ?_, fun s other => ?_⟩
  · simpa [idle, current, Archive.tookSnapshot] using b.accepted
  · simp [Archive.tookSnapshot, file]
  · simp [Archive.tookSnapshot, buffer]
  · by_cases at_ : s = slot
    · subst at_
      rw [here]
      exact ⟨((b.order s).1.trans newer.le), last.le⟩
    · rw [there s at_]
      exact b.order s
  · by_cases at_ : s = slot
    · simp [Archive.tookSnapshot, at_] at h
    · rw [there s at_]
      exact b.slot s g' v' (by simpa [Archive.tookSnapshot, at_] using h)
  · by_cases at_ : s = slot
    · subst at_
      exact .inr (here.trans last)
    · rw [there s at_]
      exact b.empty s (by simpa [Archive.tookSnapshot, at_] using h)
  · cases h
    exact given
  · rcases b.maps s other with none | ⟨g', v', file, given, same⟩
    · exact .inl none
    · exact .inr ⟨g', v', file, given, .inl (same.elim id fun same => same.trans (newest_idle idle s))⟩

theorem kept_take (k : Kept c a) (idle : a.job = none) (whole : a.failure = none) : Kept c a.take := by
  have b := k.base
  obtain ⟨file, buffer⟩ := b.clean (by rw [idle]; rfl)
  rcases a.take_cases with ⟨_, value, rest, -, -, queue, same⟩ | ⟨_, slot, g, v, -, -, waits, same⟩ |
    ⟨⟨tracking, latest, closing⟩, same⟩ | same
  · rw [same]
    exact ⟨b.tookRecord idle _ queue, fun _ => whole, rfl, buffer, file⟩
  · rw [same]
    exact ⟨b.tookSnapshot idle _ waits, fun _ => whole, rfl, buffer, file⟩
  · rw [same]
    exact ⟨b.move _ _ _, fun _ => whole, closing, tracking, latest, idle⟩
  · rw [same]
    exact k

theorem Base.written (b : Base c a) {file buffer : List UInt8} {part : List UInt8} (worker : Worker δ)
    (split : file = lines c a.written ++ part) (more : List.IsPrefix (part ++ buffer) (lines c (current a.job))) :
    Base c { a with file, buffer, worker } :=
  ⟨b.bound, b.accepted, b.counts, ⟨part, split, more⟩, b.flight, b.generations, b.order, b.slot, b.empty, b.job, b.maps⟩

theorem kept_encodeRecord (k : Kept c a) (whole : a.failure = none) (h : At c a (.writing (.record value))) :
    Kept c (a.encodeRecord c value) := by
  obtain ⟨job, buffer, file⟩ := h
  unfold encodeRecord
  cases encoded : c.encode value with
  | ok text =>
    refine ⟨k.base.move _ _ _, fun _ => whole, job, buffer, ?_⟩
    simp [file, line, encoded, Except.toOption]
  | error reason => exact ⟨k.base.move _ _ _, fun _ => whole, trivial⟩

theorem kept_writeLine (k : Kept c a) (whole : a.failure = none) {left : List UInt8}
    (h : At c a (.line value left)) (io : Io) : Kept c (a.writeLine value left io) := by
  obtain ⟨job, buffer, rest⟩ := h
  obtain ⟨part, file, -⟩ := k.base.torn
  have parts : part ++ left = line c value := by
    rw [file, List.append_assoc] at rest
    simpa using rest
  have target : lines c (current a.job) = part ++ left := by simp [job, current, parts]
  cases io with
  | arrives n =>
    have split : a.file ++ left.take n = lines c a.written ++ (part ++ left.take n) := by rw [file, List.append_assoc]
    refine ⟨k.base.written _ split ?_, fun _ => whole, job, buffer, ?_⟩
    · rw [target, buffer, List.append_nil]
      exact (List.prefix_append_right_inj part).mpr (List.take_prefix ..)
    · show a.file ++ left.take n ++ left.drop n = _
      rw [List.append_assoc, List.take_append_drop]
      exact rest
  | done =>
    have split : a.file ++ left = lines c a.written ++ (part ++ left) := by rw [file, List.append_assoc]
    refine ⟨k.base.written _ split ?_, fun _ => whole, job, buffer, rest⟩
    rw [target, buffer, List.append_nil]
  | failed arrived kept replaced reason =>
    have split : a.file ++ left.take arrived = lines c a.written ++ (part ++ left.take arrived) := by
      rw [file, List.append_assoc]
    refine ⟨k.base.written _ split ?_, fun _ => whole, trivial⟩
    rw [target]
    exact cut_write part left arrived kept

theorem Base.replaced (b : Base c a) {g : ℕ} {v : δ} (job : a.job = some (.snapshot slot g v))
    (worker : Worker δ) : Base c { a.replace slot (.snapshot g v) with worker } := by
  refine ⟨b.bound, b.accepted, b.counts, b.torn, b.flight, b.generations, b.order, b.slot, b.empty, b.job, fun s other => ?_⟩
  by_cases here : s = slot
  · subst here
    refine .inr ⟨g, v, put_self .., b.job s g v job, .inr ?_⟩
    show g = a.newest s
    simp [newest, job]
  · rcases b.maps s other with ⟨none, zero⟩ | ⟨g', v', file, rest⟩
    · exact .inl ⟨(put_other _ _ here).trans none, zero⟩
    · exact .inr ⟨g', v', (put_other _ _ here).trans file, rest⟩

theorem kept_writeSnapshot (k : Kept c a) (whole : a.failure = none) {g : ℕ} {v : δ}
    (h : At c a (.writing (.snapshot slot g v))) (io : Io) :
    Kept c (a.writeSnapshot slot (.snapshot g v) (.wrote (.snapshot slot g v)) (fun reason => .leaving (some reason)) io) := by
  obtain ⟨job, -⟩ := h
  cases io with
  | arrives n => exact k
  | done => exact ⟨k.base.replaced job _, fun _ => whole, job, fun _ => put_self ..⟩
  | failed arrived kept replaced reason =>
    cases replaced with
    | true => exact ⟨k.base.replaced job _, fun _ => whole, trivial⟩
    | false => exact ⟨k.base.move _ _ _, fun _ => whole, trivial⟩

theorem Base.published (b : Base c a) (document : Document δ) (worker : Worker δ) :
    Base c { a.replace .status document with worker } := by
  refine ⟨b.bound, b.accepted, b.counts, b.torn, b.flight, b.generations, b.order, b.slot, b.empty, b.job, fun s other => ?_⟩
  rcases b.maps s other with ⟨none, zero⟩ | ⟨g, v, file, rest⟩
  · exact .inl ⟨(put_other _ _ other).trans none, zero⟩
  · exact .inr ⟨g, v, (put_other _ _ other).trans file, rest⟩

theorem kept_publish (k : Kept c a) (whole : a.failure = none) {storage : Storage}
    (h : At c a (.publishing value storage)) (io : Io) :
    Kept c (a.writeSnapshot .status (.final value storage) .syncingRoot .failing io) := by
  obtain ⟨drained, synced, certified⟩ := h
  cases io with
  | arrives n => exact k
  | done =>
    have file : (put a.files .status (some (.final value storage))) .status = some (.final value storage) := put_self ..
    refine ⟨k.base.published _ _, fun _ => whole, ⟨drained.closing, drained.tracking, drained.latest, drained.job⟩, synced,
      value, storage, ⟨certified.given, certified.final, certified.counters, certified.all⟩, file⟩
  | failed arrived kept replaced reason =>
    cases replaced with
    | true => exact ⟨k.base.published _ _, fun _ => whole, trivial⟩
    | false => exact ⟨k.base.move _ _ _, fun _ => whole, trivial⟩

theorem kept_count (k : Kept c a) (whole : a.failure = none) (h : At c a (.wrote job)) (elapsed : ℚ) :
    Kept c (a.count job elapsed) := by
  have b := k.base
  cases job with
  | record value =>
    obtain ⟨job, buffer, file⟩ := h
    have same : ∀ s, (a.count (.record value) elapsed).newest s = a.newest s := fun s => by simp [newest, count, job]
    refine ⟨⟨b.bound, ?_, ?_, ⟨[], ?_, ?_⟩, fun _ => rfl, b.generations, fun s => ?_, fun s g v h => ?_, fun s h => ?_,
      fun _ _ _ h => (nomatch h), fun s other => ?_⟩, fun _ => whole, rfl⟩
    · simpa [count, job, current] using b.accepted
    · simpa [count] using b.counts
    · simp [count, file]
    · simp [count, buffer]
    · rw [same]
      exact b.order s
    · rw [same]
      exact b.slot s g v h
    · rw [same]
      exact b.empty s h
    · rw [same]
      exact b.maps s other
  | snapshot slot g v =>
    obtain ⟨job, replaced⟩ := h
    obtain ⟨file, buffer⟩ := b.clean (by rw [job]; rfl)
    have here : a.newest slot = g := by simp [newest, job]
    have there : ∀ s, s ≠ slot → a.newest s = a.writtenGenerations s := fun s other => by simp [newest, job, other]
    have same : ∀ s, (a.count (.snapshot slot g v) elapsed).newest s = a.newest s := fun s => by
      by_cases at_ : s = slot
      · simp [newest, count, job, at_]
      · simp [newest, count, job, at_]
    refine ⟨⟨b.bound, ?_, b.counts, ⟨[], ?_, ?_⟩, fun _ => rfl, b.generations, fun s => ?_, fun s g v h => ?_, fun s h => ?_,
      fun _ _ _ h => (nomatch h), fun s other => ?_⟩, fun _ => whole, rfl⟩
    · simpa [count, job, current] using b.accepted
    · simp [count, file]
    · simp [count, buffer]
    · rw [same]
      refine ⟨?_, (b.order s).2⟩
      by_cases at_ : s = slot
      · simp [count, at_, here]
      · simp [count, at_, there s at_]
    · rw [same]
      exact b.slot s g v h
    · rw [same]
      exact b.empty s h
    · by_cases at_ : s = slot
      · subst at_
        exact .inr ⟨g, v, replaced other, b.job s g v job, .inl (by simp [count])⟩
      · rw [same]
        have kept : (a.count (.snapshot slot g v) elapsed).writtenGenerations s = a.writtenGenerations s := by
          simp [count, at_]
        rw [kept]
        exact b.maps s other

theorem kept_operate (k : Kept c a) (whole : a.failure = none) (goes : Worker δ) (fails : String → Worker δ)
    (next : At c { a with worker := goes } goes) (above : ∀ reason, At c { a with worker := fails reason } (fails reason))
    (io : Io) : Kept c (a.operate goes fails io) := by
  cases io with
  | arrives n => exact k
  | done => exact ⟨k.base.move _ _ _, fun _ => whole, next⟩
  | failed arrived kept replaced reason => exact ⟨k.base.move _ _ _, fun _ => whole, above reason⟩

theorem Drained.same (d : Drained a) (worker : Worker δ) (synced : ℕ) (final : Bool) :
    Drained { a with worker, synced, final } := ⟨d.closing, d.tracking, d.latest, d.job⟩

theorem Published.same (p : Published a) (worker : Worker δ) (final : Bool) : Published { a with worker, final } := by
  obtain ⟨drained, synced, value, storage, certified, file⟩ := p
  exact ⟨drained.same .., synced, value, storage,
    ⟨certified.given, certified.final, certified.counters, certified.all⟩, file⟩

theorem kept_sync (k : Kept c a) (whole : a.failure = none) (drained : Drained a) (io : Io) : Kept c (a.sync io) := by
  cases io with
  | arrives n => exact k
  | done => exact ⟨k.base.move _ _ _, fun _ => whole, drained.same .., rfl⟩
  | failed arrived kept replaced reason => exact ⟨k.base.move _ _ _, fun _ => whole, trivial⟩

theorem Base.flush (b : Base c a) (more : List UInt8) (first : List.IsPrefix more a.buffer) (worker : Worker δ) :
    Base c { a with file := a.file ++ more, buffer := [], worker } := by
  obtain ⟨part, file, parts⟩ := b.torn
  have split : a.file ++ more = lines c a.written ++ (part ++ more) := by rw [file, List.append_assoc]
  refine b.written worker split ?_
  rw [List.append_nil]
  exact ((List.prefix_append_right_inj part).mpr first).trans parts

theorem kept_closeFile (k : Kept c a) (whole : a.failure = none) {failure : Option String}
    (h : At c a (.leaving failure)) (io : Io) : Kept c (a.closeFile failure io) := by
  cases io with
  | arrives n => exact k
  | done =>
    refine ⟨k.base.flush _ List.prefix_rfl _, fun _ => whole, ?_⟩
    cases failure with
    | some reason => trivial
    | none =>
      obtain ⟨drained, synced⟩ := h
      have empty : a.buffer = [] := (k.base.clean (by rw [drained.job]; rfl)).2
      refine ⟨⟨drained.closing, drained.tracking, drained.latest, drained.job⟩, ?_⟩
      simpa [closeFile, empty] using synced
  | failed arrived kept replaced reason =>
    exact ⟨k.base.flush _ (List.take_prefix ..) _, fun _ => whole, trivial⟩

def finalStorage (a : Archive δ) : Storage :=
  { a.storage with final := true, pendingTracking := 0, pendingSnapshots := [], writeInFlight := none }

theorem certify_done (a : Archive δ) :
    (∃ value, a.finalStatus = some value ∧ a.certify .done = { a with worker := .publishing value a.finalStorage }) ∨
      a.certify .done = { a with worker := .failing "TypeError" } := by
  cases given : a.finalStatus with
  | none => exact .inr (by simp [certify, given])
  | some value => exact .inl ⟨value, rfl, by simp [certify, given, finalStorage]⟩

theorem kept_certify (k : Kept c a) (whole : a.failure = none) (h : At c a .certifying) (io : Io) :
    Kept c (a.certify io) := by
  obtain ⟨drained, synced⟩ := h
  cases io with
  | arrives n => exact k
  | failed arrived kept replaced reason => exact ⟨k.base.move _ _ _, fun _ => whole, trivial⟩
  | done =>
    rcases a.certify_done with ⟨value, given, same⟩ | same
    · rw [same]
      have all : a.accepted = a.written := by simpa [drained.job, drained.tracking, current] using k.base.accepted
      obtain ⟨accepted, written⟩ := k.base.counts
      refine ⟨k.base.move _ _ _, fun _ => whole, drained.same .., synced, given, rfl, ?_, accepted⟩
      show a.trackingWritten = a.trackingAccepted
      rw [accepted, written, all]
    · rw [same]
      exact ⟨k.base.move _ _ _, fun _ => whole, trivial⟩

theorem kept_work (k : Kept c a) (io : Io) (elapsed : ℚ) : Kept c (a.work c io elapsed) := by
  have working := k.working
  have alive := k.whole
  unfold work
  cases at_ : a.worker with
  | opening =>
    rw [at_] at working alive
    exact kept_operate k (alive nofun) .waiting .failing working (fun _ => trivial) io
  | waiting =>
    rw [at_] at working alive
    exact kept_take k working (alive nofun)
  | writing job =>
    rw [at_] at working alive
    cases job with
    | record value => exact kept_encodeRecord k (alive nofun) working
    | snapshot slot g v => exact kept_writeSnapshot k (alive nofun) working io
  | line value left =>
    rw [at_] at working alive
    exact kept_writeLine k (alive nofun) working io
  | wrote job =>
    rw [at_] at working alive
    exact kept_count k (alive nofun) working elapsed
  | syncing =>
    rw [at_] at working alive
    exact kept_sync k (alive nofun) working io
  | leaving failure =>
    rw [at_] at working alive
    exact kept_closeFile k (alive nofun) working io
  | syncingMaps =>
    rw [at_] at working alive
    exact kept_operate k (alive nofun) .certifying .failing ⟨working.1.same .., working.2⟩ (fun _ => trivial) io
  | certifying =>
    rw [at_] at working alive
    exact kept_certify k (alive nofun) working io
  | publishing value storage =>
    rw [at_] at working alive
    exact kept_publish k (alive nofun) working io
  | syncingRoot =>
    rw [at_] at working alive
    exact kept_operate k (alive nofun) .finishing .failing (working.same ..) (fun _ => trivial) io
  | finishing =>
    rw [at_] at working alive
    exact ⟨k.base.move _ _ _, fun on => absurd rfl on, fun _ => working.same ..⟩
  | failing reason =>
    have b := k.base
    refine ⟨⟨b.bound, b.accepted, b.counts, b.torn, nofun, b.generations, b.order, b.slot, b.empty, b.job, b.maps⟩,
      fun on => absurd rfl on, fun whole => ?_⟩
    cases whole
  | exited => exact k

theorem kept_step (step : Step c a a') (k : Kept c a) : Kept c a' := by
  cases step with
  | record value => exact kept_record k value
  | snapshot slot value => exact kept_snapshot k slot value
  | work io elapsed => exact kept_work k io elapsed
  | closeBegin finalStatus => exact kept_closeBegin k finalStatus

theorem kept_path (run : Path (Step c) initial a) : Kept c a := run.keeps (fun _ _ step k => kept_step step k) initial_kept

/-! Nothing is accepted any more, and generations only grow. -/

/-- `close` has begun, or the archive has failed. -/
def Over (a : Archive δ) : Prop := a.closing = true ∨ a.failure.isSome

structure Onward (a a' : Archive δ) : Prop where
  above : Over a → Over a' ∧ a'.accepted = a.accepted ∧ a'.received = a.received
  grown : ∀ s, a.writtenGenerations s ≤ a'.writtenGenerations s

theorem Onward.refl (a : Archive δ) : Onward a a := ⟨fun above => ⟨above, rfl, rfl⟩, fun _ => le_rfl⟩

theorem Onward.trans {a₁ a₂ a₃ : Archive δ} (h : Onward a₁ a₂) (h' : Onward a₂ a₃) : Onward a₁ a₃ := by
  refine ⟨fun above => ?_, fun s => (h.grown s).trans (h'.grown s)⟩
  obtain ⟨over₂, accepted₂, received₂⟩ := h.above above
  obtain ⟨over₃, accepted₃, received₃⟩ := h'.above over₂
  exact ⟨over₃, accepted₃.trans accepted₂, received₃.trans received₂⟩

theorem Onward.of_same (same : (a'.accepted, a'.received, a'.closing, a'.failure, a'.writtenGenerations) =
    (a.accepted, a.received, a.closing, a.failure, a.writtenGenerations)) : Onward a a' := by
  simp only [Prod.mk.injEq] at same
  obtain ⟨accepted, received, closing, failure, written⟩ := same
  refine ⟨fun above => ⟨?_, accepted, received⟩, fun s => by rw [written]⟩
  unfold Over at above ⊢
  rwa [closing, failure]

theorem operate_onward (goes : Worker δ) (fails : String → Worker δ) (io : Io) : Onward a (a.operate goes fails io) := by
  cases io <;> exact .of_same rfl

theorem writeSnapshot_onward (slot : Slot) (document : Document δ) (goes : Worker δ) (fails : String → Worker δ) (io : Io) :
    Onward a (a.writeSnapshot slot document goes fails io) := by
  cases io with
  | arrives n => exact .refl a
  | done => exact .of_same rfl
  | failed arrived kept replaced reason => cases replaced <;> exact .of_same rfl

theorem count_onward (k : Kept c a) (h : At c a (.wrote job)) (elapsed : ℚ) : Onward a (a.count job elapsed) := by
  cases job with
  | record value => exact .of_same rfl
  | snapshot slot g v =>
    refine ⟨fun above => ⟨above, rfl, rfl⟩, fun s => ?_⟩
    by_cases here : s = slot
    · subst here
      have taken : a.newest s = g := by simp [newest, h.1]
      simpa [count, taken] using (k.base.order s).1
    · simp [count, here]

theorem work_onward (k : Kept c a) (io : Io) (elapsed : ℚ) : Onward a (a.work c io elapsed) := by
  have working := k.working
  unfold work
  cases at_ : a.worker with
  | opening | syncingMaps | syncingRoot => exact operate_onward ..
  | waiting =>
    rcases a.take_cases with ⟨_, _, _, -, -, -, same⟩ | ⟨_, _, _, _, -, -, -, same⟩ | ⟨-, same⟩ | same <;>
      simp only [same] <;> exact .of_same rfl
  | writing job =>
    cases job with
    | record value =>
      show Onward a (a.encodeRecord c value)
      unfold encodeRecord
      split <;> exact .of_same rfl
    | snapshot slot g v => exact writeSnapshot_onward ..
  | line value left => cases io <;> exact .of_same rfl
  | wrote job =>
    rw [at_] at working
    exact count_onward k working elapsed
  | syncing | leaving failure => cases io <;> exact .of_same rfl
  | certifying =>
    cases io with
    | arrives n => exact .refl a
    | failed arrived kept replaced reason => exact .of_same rfl
    | done =>
      rcases a.certify_done with ⟨value, -, same⟩ | same <;> simp only [same] <;> exact .of_same rfl
  | publishing value storage => exact writeSnapshot_onward ..
  | finishing => exact .of_same rfl
  | failing reason => exact ⟨fun _ => ⟨.inr rfl, rfl, rfl⟩, fun _ => le_rfl⟩
  | exited => exact .refl a

theorem step_onward (step : Step c a a') (k : Kept c a) : Onward a a' := by
  cases step with
  | record value =>
    rcases record_cases c a value with same | ⟨⟨whole, opened, -⟩, same⟩
    · rw [same]
      exact .refl a
    · rw [same]
      exact ⟨fun above => by simp [Over, whole, opened] at above, fun _ => le_rfl⟩
  | snapshot slot value =>
    rcases snapshot_cases a slot value with same | ⟨⟨whole, opened⟩, same⟩
    · rw [same]
      exact .refl a
    · rw [same]
      exact ⟨fun above => by simp [Over, whole, opened] at above, fun _ => le_rfl⟩
  | work io elapsed => exact work_onward k io elapsed
  | closeBegin finalStatus =>
    unfold closeBegin
    split
    · exact .refl a
    · exact ⟨fun _ => ⟨.inl rfl, rfl, rfl⟩, fun _ => le_rfl⟩

theorem path_onward (run : Path (Step c) a a') (k : Kept c a) : Onward a a' := by
  have kept : Kept c a' ∧ Onward a a' := by
    refine run.keeps (P := fun x => Kept c x ∧ Onward a x) (fun x y step h => ?_) ⟨k, .refl a⟩
    exact ⟨kept_step step h.1, h.2.trans (step_onward step h.1)⟩
  exact kept.2

/-! Turns. -/

def place : Kind → Fin 4
  | .tracking => 0
  | .snapshot .cloud => 1
  | .snapshot .grid => 2
  | .snapshot .status => 3

theorem kindAt_place (kind : Kind) : kindAt (place kind) = kind := by
  rcases kind with _ | (_ | _ | _) <;> rfl

def ahead (a : Archive δ) (kind : Kind) : ℕ := (place kind - a.cursor).val

theorem ahead_turn {kind : Kind} {k : Fin 4} (waits : a.pending kind = true) (first : a.First k)
    (other : kindAt (a.cursor + k) ≠ kind) (h : a'.cursor = a.cursor + k + 1) : ahead a' kind + 1 ≤ ahead a kind := by
  have nearer : ∀ p cursor k : Fin 4, k < p - cursor → (p - (cursor + k + 1)).val + 1 ≤ (p - cursor).val := by decide
  have whole : ∀ p cursor : Fin 4, cursor + (p - cursor) = p := by decide
  have total : ∀ d k : Fin 4, ¬k < d → d < k ∨ d = k := by decide
  rw [ahead, ahead, h]
  refine nearer _ _ _ ?_
  by_contra beyond
  rcases total _ _ beyond with less | same
  · have skipped := first _ less
    rw [whole, kindAt_place, waits] at skipped
    cases skipped
  · rw [← same, whole, kindAt_place] at other
    exact other rfl

/-- The turns since `a`: as long as a kind that waited then has none, few others have one. -/
structure Turns (a a' : Archive δ) (kind : Kind) (between : List Kind) : Prop where
  taken : a'.taken = a.taken ++ between
  few : kind ∉ between →
    (a'.pending kind = true ∧ between.length + ahead a' kind ≤ ahead a kind) ∨ a'.pending kind = false ∧ a'.closing = true

structure Still (a a' : Archive δ) : Prop where
  taken : a'.taken = a.taken
  cursor : a'.cursor = a.cursor
  waits : ∀ kind, a.pending kind = true → a'.pending kind = true ∨ a'.pending kind = false ∧ a'.closing = true
  gone : ∀ kind, a.pending kind = false → a.closing = true → a'.pending kind = false ∧ a'.closing = true

structure Turned (a a' : Archive δ) (k : Fin 4) : Prop where
  first : a.First k
  taken : a'.taken = a.taken ++ [kindAt (a.cursor + k)]
  cursor : a'.cursor = a.cursor + k + 1
  closing : a'.closing = a.closing
  others : ∀ kind, kind ≠ kindAt (a.cursor + k) → a'.pending kind = a.pending kind

theorem Still.of_same (same : (a'.taken, a'.cursor, a'.tracking, a'.latest, a'.closing) =
    (a.taken, a.cursor, a.tracking, a.latest, a.closing)) : Still a a' := by
  simp only [Prod.mk.injEq] at same
  obtain ⟨taken, cursor, tracking, latest, closing⟩ := same
  have same : ∀ kind, a'.pending kind = a.pending kind := fun kind => by cases kind <;> simp [pending, tracking, latest]
  exact ⟨taken, cursor, fun kind waits => .inl ((same kind).trans waits), fun kind gone above =>
    ⟨(same kind).trans gone, closing.trans above⟩⟩

theorem operate_still (goes : Worker δ) (fails : String → Worker δ) (io : Io) : Still a (a.operate goes fails io) := by
  cases io <;> exact .of_same rfl

theorem writeSnapshot_still (slot : Slot) (document : Document δ) (goes : Worker δ) (fails : String → Worker δ) (io : Io) :
    Still a (a.writeSnapshot slot document goes fails io) := by
  cases io with
  | arrives n | done => exact .of_same rfl
  | failed arrived kept replaced reason => cases replaced <;> exact .of_same rfl

theorem take_turned (a : Archive δ) : Still a a.take ∨ ∃ k, Turned a a.take k := by
  rcases a.take_cases with ⟨k, value, rest, first, kind, queue, same⟩ | ⟨k, slot, g, v, first, kind, waits, same⟩ |
    ⟨-, same⟩ | same
  · refine .inr ⟨k, ?_⟩
    rw [same]
    refine ⟨first, by rw [kind]; rfl, rfl, rfl, fun other differs => ?_⟩
    rw [kind] at differs
    cases other with
    | tracking => exact absurd rfl differs
    | snapshot s => rfl
  · refine .inr ⟨k, ?_⟩
    rw [same]
    refine ⟨first, by rw [kind]; rfl, rfl, rfl, fun other differs => ?_⟩
    rw [kind] at differs
    cases other with
    | tracking => rfl
    | snapshot s =>
      have apart : s ≠ slot := fun h => differs (congrArg _ h)
      simp [pending, tookSnapshot, apart]
  · rw [same]
    exact .inl (.of_same rfl)
  · rw [same]
    exact .inl (.of_same rfl)

theorem work_turned (c : Config δ) (a : Archive δ) (io : Io) (elapsed : ℚ) :
    Still a (a.work c io elapsed) ∨ ∃ k, Turned a (a.work c io elapsed) k := by
  unfold work
  cases a.worker with
  | opening | syncingMaps | syncingRoot => exact .inl (operate_still ..)
  | waiting => exact a.take_turned
  | writing job =>
    cases job with
    | record value =>
      refine .inl ?_
      show Still a (a.encodeRecord c value)
      unfold encodeRecord
      split <;> exact .of_same rfl
    | snapshot slot g v => exact .inl (writeSnapshot_still ..)
  | line value left => cases io <;> exact .inl (.of_same rfl)
  | wrote job => cases job <;> exact .inl (.of_same rfl)
  | syncing | leaving failure => cases io <;> exact .inl (.of_same rfl)
  | certifying =>
    cases io with
    | arrives n | failed arrived kept replaced reason => exact .inl (.of_same rfl)
    | done =>
      rcases a.certify_done with ⟨value, -, same⟩ | same <;> simp only [same] <;>
        exact .inl (.of_same rfl)
  | publishing value storage => exact .inl (writeSnapshot_still ..)
  | finishing | failing reason | exited => exact .inl (.of_same rfl)

theorem step_turned (step : Step c a a') : Still a a' ∨ ∃ k, Turned a a' k := by
  cases step with
  | record value =>
    refine .inl ?_
    rcases record_cases c a value with same | ⟨⟨-, opened, -⟩, same⟩
    · rw [same]
      exact .of_same rfl
    · rw [same]
      refine ⟨rfl, rfl, fun kind waits => .inl ?_, fun kind _ above => by simp [opened] at above⟩
      cases kind with
      | tracking => simp [pending]
      | snapshot s => exact waits
  | snapshot slot value =>
    refine .inl ?_
    rcases snapshot_cases a slot value with same | ⟨⟨-, opened⟩, same⟩
    · rw [same]
      exact .of_same rfl
    · rw [same]
      refine ⟨rfl, rfl, fun kind waits => .inl ?_, fun kind _ above => by simp [opened] at above⟩
      cases kind with
      | tracking => exact waits
      | snapshot s =>
        by_cases here : s = slot
        · simp [pending, here]
        · simpa [pending, here] using waits
  | work io elapsed => exact work_turned c a io elapsed
  | closeBegin finalStatus =>
    refine .inl ?_
    unfold closeBegin
    split
    · exact .of_same rfl
    · rename_i opened
      refine ⟨rfl, rfl, fun kind waits => ?_, fun kind _ above => absurd above opened⟩
      cases kind with
      | tracking => exact .inl waits
      | snapshot s =>
        by_cases here : s = .status
        · exact .inr ⟨by simp [pending, here], rfl⟩
        · exact .inl (by simpa [pending, here] using waits)

theorem path_turns (run : Path (Step c) a a') {kind : Kind} (waits : a.pending kind = true) :
    ∃ between, Turns a a' kind between := by
  refine run.keeps (P := fun x => ∃ between, Turns a x kind between) (fun x y step h => ?_)
    ⟨[], by simp, fun _ => .inl ⟨waits, by simp⟩⟩
  obtain ⟨between, taken, few⟩ := h
  rcases step_turned step with still | ⟨k, turned⟩
  · refine ⟨between, still.taken.trans taken, fun none_ => ?_⟩
    have near : ahead y kind = ahead x kind := by rw [ahead, ahead, still.cursor]
    rcases few none_ with ⟨on, bound⟩ | ⟨gone, above⟩
    · exact (still.waits kind on).imp (fun on' => ⟨on', near ▸ bound⟩) id
    · exact .inr (still.gone kind gone above)
  · refine ⟨between ++ [kindAt (x.cursor + k)], by rw [turned.taken, taken, List.append_assoc], fun none_ => ?_⟩
    obtain ⟨before, other⟩ : kind ∉ between ∧ kind ≠ kindAt (x.cursor + k) := by simpa using none_
    have same := turned.others kind other
    rcases few before with ⟨on, bound⟩ | ⟨gone, above⟩
    · have nearer := ahead_turn on turned.first (Ne.symm other) turned.cursor
      refine .inl ⟨same.trans on, ?_⟩
      rw [List.length_append, List.length_singleton]
      omega
    · exact .inr ⟨same.trans gone, turned.closing.trans above⟩

/-! The whole. -/

/-- `close` that raises nothing has found everything published. -/
theorem closed_published (k : Kept c a) {alive : Bool} (joined : alive = false → a.worker = .exited)
    (returns : a.closeEnd alive = none) : Published a := by
  cases alive with
  | true => simp [closeEnd] at returns
  | false =>
    have whole : a.failure = none := by simpa [closeEnd, check] using returns
    have working := k.working
    rw [joined rfl] at working
    exact working whole

def shown (document : Option (Document δ)) : Option δ :=
  match document with
  | some (.snapshot _ value) => some value
  | _ => none

theorem Published.maps (p : Published a) (b : Base c a) {s : Slot} (other : s ≠ .status) :
    shown (a.files s) = (a.received s).getLast? := by
  obtain ⟨drained, -⟩ := p
  have idle := newest_idle drained.job s
  have all : a.writtenGenerations s = (a.received s).length := by
    rcases b.empty s (drained.latest s) with above | same
    · exact absurd above.1 other
    · rw [← b.generations, ← same, idle]
  rcases b.maps s other with ⟨none_, zero⟩ | ⟨g, v, file, given, newest⟩
  · have empty : a.received s = [] := List.length_eq_zero_iff.mp (all ▸ zero)
    simp [none_, shown, empty]
  · have last : g = (a.received s).length := by
      rcases newest with h | h
      · exact h.trans all
      · exact (h.trans idle).trans all
    rw [List.getLast?_eq_getElem?, ← last, given.2]
    simp [file, shown]

theorem Base.cut (b : Base c a) :
    ∃ part, a.file = lines c a.written ++ part ∧
      List.IsPrefix part (lines c ((current a.job ++ a.tracking).take 1)) ∧
      (part ≠ [] → a.inFlight = some .tracking ∨ a.failure.isSome) := by
  obtain ⟨part, file, parts⟩ := b.torn
  have first : List.IsPrefix part (lines c (current a.job)) := (List.prefix_append part _).trans parts
  by_cases hand : ∃ value, a.job = some (.record value)
  · obtain ⟨value, job⟩ := hand
    refine ⟨part, file, by simpa [job, current] using first, fun _ => ?_⟩
    cases failure : a.failure with
    | some reason => exact .inr rfl
    | none => exact .inl (by simp [b.flight failure, job, Job.kind])
  · have none_ : current a.job = [] := by
      cases job : a.job with
      | none => rfl
      | some j =>
        cases j with
        | record value => exact absurd ⟨value, job⟩ hand
        | snapshot slot g v => rfl
    have empty : part = [] := by simpa [none_] using first
    exact ⟨part, file, by simp [empty], fun some_ => absurd empty some_⟩

/-- Of any run: the file is a first part of what was accepted, cut inside of one record and only while it is written
or after a failure; the queue is bounded; the generation of a slot only grows, up to the received one; a waiting kind
lets at most three others pass; what has failed or closes accepts nothing; and `close` returns from an archive with
everything on disk, the final status written last. -/
theorem health_archive_persists (run : Path (Step c) initial a) :
    (∃ rest, a.accepted = a.written ++ rest ∧ ∃ part, a.file = lines c a.written ++ part ∧
      List.IsPrefix part (lines c (rest.take 1)) ∧ (part ≠ [] → a.inFlight = some .tracking ∨ a.failure.isSome)) ∧
    a.tracking.length ≤ c.maxTracking ∧
    (∀ s, a.writtenGenerations s ≤ a.generations s ∧
      ∀ a', Path (Step c) a a' → a.writtenGenerations s ≤ a'.writtenGenerations s) ∧
    (∀ kind a' between, Path (Step c) a a' → a.pending kind = true → a'.pending kind = true →
      a'.taken = a.taken ++ between → kind ∉ between → between.length ≤ 3) ∧
    (Over a → ∀ a', Path (Step c) a a' → a'.accepted = a.accepted ∧ a'.received = a.received) ∧
    (∀ alive, (alive = false → a.worker = .exited) → a.closeEnd alive = none →
      a.file = lines c a.accepted ∧ a.synced = a.file.length ∧
      (∀ s, s ≠ .status → shown (a.files s) = (a.received s).getLast?) ∧
      ∃ value storage, a.finalStatus = some value ∧ a.files .status = some (.final value storage) ∧
        storage.final = true ∧ storage.trackingWritten = storage.trackingAccepted ∧
        storage.trackingAccepted = a.accepted.length) := by
  have kept := kept_path run
  have b := kept.base
  refine ⟨⟨current a.job ++ a.tracking, by rw [← List.append_assoc, b.accepted], b.cut⟩, b.bound,
    fun s => ⟨(b.order s).1.trans (b.order s).2, fun a' later => (path_onward later kept).grown s⟩, ?_,
    fun above a' later => ((path_onward later kept).above above).2, fun alive joined returns => ?_⟩
  · intro kind a' between later waits still taken none_
    obtain ⟨between', turns⟩ := path_turns later waits
    obtain rfl : between = between' := List.append_cancel_left (taken.symm.trans turns.taken)
    rcases turns.few none_ with ⟨-, bound⟩ | ⟨gone, -⟩
    · have most : ahead a kind < 4 := (place kind - a.cursor).isLt
      omega
    · rw [still] at gone
      cases gone
  · have published := closed_published kept joined returns
    obtain ⟨drained, synced, value, storage, certified, file⟩ := published
    have all : a.accepted = a.written := by simpa [drained.job, drained.tracking, current] using b.accepted
    have clean := (b.clean (by rw [drained.job]; rfl)).1
    exact ⟨all ▸ clean, synced, fun s other => Published.maps ⟨drained, synced, value, storage, certified, file⟩ b other,
      value, storage, certified.given, file, certified.final, certified.counters, certified.all⟩

/-! Two records, snapshots of every kind, and a close. -/

namespace Bench

def config : Config ℕ where
  maxTracking := 2
  encode value := .ok [value.toUInt8, 10]
  bound := by decide

def given : Archive ℕ :=
  (((((((initial.record config 5).2.record config 7).2.snapshot .cloud 1).2.snapshot .cloud 2).2.snapshot .status 3).2.snapshot
    .grid 4).2).closeBegin 9

def drained : Archive ℕ := (fun a => a.work config .done 1)^[23] given

theorem works_run {a : Archive ℕ} (run : Path (Step config) initial a) (n : ℕ) :
    Path (Step config) initial ((fun a => a.work config .done 1)^[n] a) := by
  induction n with
  | zero => exact run
  | succ n ih =>
    rw [Function.iterate_succ_apply']
    exact ih.tail (.work .done 1)

theorem given_run : Path (Step config) initial given := by
  have first : Path (Step config) initial (initial.record config 5).2 := .single (.record 5)
  exact (((((first.tail (.record 7)).tail (.snapshot .cloud 1)).tail (.snapshot .cloud 2)).tail (.snapshot .status 3)).tail
    (.snapshot .grid 4)).tail (.closeBegin 9)

end Bench

theorem bench_archive_persists :
    Bench.drained.closeEnd false = none ∧ Bench.drained.file = [5, 10, 7, 10] ∧
      shown (Bench.drained.files .cloud) = (Bench.drained.received .cloud).getLast? ∧
      Bench.drained.received .cloud = [1, 2] := by
  have returns : Bench.drained.closeEnd false = none := by decide +kernel
  have joined : Bench.drained.worker = .exited := rfl
  have run := Bench.works_run Bench.given_run 23
  obtain ⟨-, -, -, -, -, closed⟩ := health_archive_persists run
  obtain ⟨-, -, maps, -⟩ := closed false (fun _ => joined) returns
  exact ⟨returns, by decide +kernel, maps .cloud (by decide), by decide +kernel⟩

end Smartwheel.Health.Archive

import Smartwheel.Prior.AsyncJournal
import Smartwheel.Disk.Tiling

/-! What the prior journal keeps: the files have the accepted records in their order, cut only inside of one record,
and a snapshot is replaced by later ones only. -/
namespace Smartwheel.Prior.Journal
open Effect Disk

variable {δ : Type} {c : Config δ} {j j' : Journal δ}

def line (c : Config δ) : Ordered δ → List UInt8
  | .initialization _ => []
  | .guess value => ((c.encode value).toOption).getD []

def lines (c : Config δ) (records : List (Ordered δ)) : List UInt8 := records.flatMap (line c)

def lastInitialization (records : List (Ordered δ)) : Option δ :=
  (records.filterMap fun
    | .initialization value => some value
    | .guess _ => none).getLast?

def stored (j : Journal δ) : Nat := (j.statusFile.map Prod.snd).getD 0

structure OnDisk (c : Config δ) (j : Journal δ) (records : List (Ordered δ)) : Prop where
  guesses : j.guesses = lines c records
  buffer : j.buffer = []
  initialization : j.initializationFile = lastInitialization records

structure Flowing (j : Journal δ) (current : Option (Ordered δ)) (taken : Nat) : Prop where
  accepted : j.accepted = j.written ++ current.toList ++ j.pending
  whole : j.failure = none
  stored : j.stored ≤ taken
  known : taken ≤ j.statuses.length
  newest : j.latestStatus = none → taken = j.statuses.length
  newer : j.latestStatus ≠ none → taken < j.statuses.length

structure Drained (c : Config δ) (j : Journal δ) : Prop where
  closing : j.closing = true
  pending : j.pending = []
  latest : j.latestStatus = none
  accepted : j.accepted = j.written
  files : OnDisk c j j.written
  stored : j.stored = j.statuses.length

def Torn (c : Config δ) (j : Journal δ) : Prop :=
  ∃ current : Option (Ordered δ), j.accepted = j.written ++ current.toList ++ j.pending ∧
    (∃ part, j.guesses = lines c j.written ++ part ∧ List.IsPrefix (part ++ j.buffer) (lines c current.toList)) ∧
    (j.initializationFile = lastInitialization j.written ∨
      j.initializationFile = lastInitialization (j.written ++ current.toList))

def Taken (j : Journal δ) (item : Item δ) (current : Option (Ordered δ)) (taken : Nat) : Prop :=
  match item with
  | .ordered record => current = some record ∧ taken = j.stored
  | .status value number => current = none ∧ taken = number ∧ 0 < number ∧ j.statuses[number - 1]? = some value

def At (c : Config δ) (j : Journal δ) (worker : Worker δ) : Prop :=
  match worker with
  | .opening | .waiting => Flowing j none j.stored ∧ OnDisk c j j.written ∧ j.inFlight = false
  | .writing item =>
    (∃ current taken, Taken j item current taken ∧ Flowing j current taken) ∧ OnDisk c j j.written ∧ j.inFlight = true
  | .line value left =>
    Flowing j (some (.guess value)) j.stored ∧ j.buffer = [] ∧ j.inFlight = true ∧
      j.initializationFile = lastInitialization j.written ∧
      ∃ part, j.guesses = lines c j.written ++ part ∧ part ++ left = line c (.guess value)
  | .wrote (.ordered record) =>
    Flowing j (some record) j.stored ∧ OnDisk c j (j.written ++ [record]) ∧ j.inFlight = true
  | .wrote (.status _ number) => Flowing j none number ∧ j.stored = number ∧ OnDisk c j j.written ∧ j.inFlight = true
  | .closing none => Drained c j ∧ j.failure = none
  | .closing (some _) => Torn c j ∧ j.inFlight = true
  | .failing _ => Torn c j ∧ (j.inFlight = true ∨ j.guesses = lines c j.written)
  | .exiting | .exited => Torn c j ∧ (j.failure = none → Drained c j)

structure Kept (c : Config δ) (j : Journal δ) : Prop where
  bound : j.pending.length ≤ c.maxPending
  slot : ∀ value number, j.latestStatus = some (value, number) →
    number = j.statuses.length ∧ 0 < number ∧ j.statuses[number - 1]? = some value
  file : ∀ value number, j.statusFile = some (value, number) →
    number ≤ j.statuses.length ∧ 0 < number ∧ j.statuses[number - 1]? = some value
  working : At c j j.worker

@[simp] theorem lines_append (records more : List (Ordered δ)) :
    lines c (records ++ more) = lines c records ++ lines c more := by simp [lines]

@[simp] theorem lines_single (record : Ordered δ) : lines c [record] = line c record := by simp [lines]

theorem lastInitialization_guess (records : List (Ordered δ)) (value : δ) :
    lastInitialization (records ++ [.guess value]) = lastInitialization records := by simp [lastInitialization]

theorem lastInitialization_self (records : List (Ordered δ)) (value : δ) :
    lastInitialization (records ++ [.initialization value]) = some value := by simp [lastInitialization]

theorem Drained.torn (h : Drained c j) : Torn c j := by
  refine ⟨none, ?_, ⟨[], ?_, ?_⟩, .inl h.files.initialization⟩
  · simp [h.accepted, h.pending]
  · simp [h.files.guesses]
  · simp [h.files.buffer]

variable {current : Option (Ordered δ)} {taken : Nat}

theorem Flowing.torn (h : Flowing j current taken) (files : OnDisk c j j.written) : Torn c j := by
  refine ⟨current, h.accepted, ⟨[], ?_, ?_⟩, .inl files.initialization⟩
  · simp [files.guesses]
  · simp [files.buffer]

theorem initial_kept : Kept c (initial : Journal δ) where
  bound := Nat.zero_le _
  slot _ _ h := nomatch h
  file _ _ h := nomatch h
  working := by
    refine ⟨⟨rfl, rfl, Nat.le_refl _, Nat.le_refl _, fun _ => rfl, fun h => absurd rfl h⟩, ⟨rfl, rfl, rfl⟩, rfl⟩

theorem Flowing.submit (h : Flowing j current taken) (record : Ordered δ) :
    Flowing { j with pending := j.pending ++ [record], accepted := j.accepted ++ [record] } current taken where
  accepted := by simp [h.accepted]
  whole := h.whole
  stored := h.stored
  known := h.known
  newest := h.newest
  newer := h.newer

theorem Torn.submit (h : Torn c j) (record : Ordered δ) :
    Torn c { j with pending := j.pending ++ [record], accepted := j.accepted ++ [record] } := by
  obtain ⟨current, accepted, files⟩ := h
  exact ⟨current, by simp [accepted], files⟩

theorem ensureCapacity_none (h : j.ensureCapacity c = none) :
    j.failure = none ∧ j.shutdownError = none ∧ j.closing = false ∧ j.pending.length < c.maxPending := by
  unfold ensureCapacity at h
  cases checked : j.check with
  | some e => simp [checked] at h
  | none =>
    obtain ⟨failure, shutdown⟩ : j.failure = none ∧ j.shutdownError = none := by simpa [check] using checked
    by_cases closing : j.closing = true
    · simp [checked, closing] at h
    · by_cases full : c.maxPending ≤ j.pending.length
      · simp [checked, closing, full] at h
      · exact ⟨failure, shutdown, by simpa using closing, by omega⟩

theorem submit_eq (record : Ordered δ) :
    (j.submit c record).2 = j ∨ j.ensureCapacity c = none ∧
      (j.submit c record).2 = { j with pending := j.pending ++ [record], accepted := j.accepted ++ [record] } := by
  unfold submit
  cases h : j.ensureCapacity c with
  | some e => exact .inl rfl
  | none => exact .inr ⟨rfl, rfl⟩

variable {worker : Worker δ}

theorem At.submit (h : At c j worker) (record : Ordered δ) (whole : j.failure = none) (opened : j.closing = false) :
    At c { j with pending := j.pending ++ [record], accepted := j.accepted ++ [record] } worker := by
  have never {p : Prop} (drained : Drained c j) : p := by
    have closing := drained.closing
    rw [opened] at closing
    cases closing
  cases worker with
  | opening | waiting => exact ⟨h.1.submit record, ⟨h.2.1.guesses, h.2.1.buffer, h.2.1.initialization⟩, h.2.2⟩
  | writing item =>
    obtain ⟨⟨current, taken, has, flowing⟩, files, rest⟩ := h
    refine ⟨⟨current, taken, ?_, flowing.submit record⟩, ⟨files.guesses, files.buffer, files.initialization⟩, rest⟩
    cases item <;> exact has
  | line value left => exact ⟨h.1.submit record, h.2⟩
  | wrote item =>
    cases item with
    | ordered r => exact ⟨h.1.submit record, ⟨h.2.1.guesses, h.2.1.buffer, h.2.1.initialization⟩, h.2.2⟩
    | status value number =>
      obtain ⟨flowing, stored, files, rest⟩ := h
      exact ⟨flowing.submit record, stored, ⟨files.guesses, files.buffer, files.initialization⟩, rest⟩
  | closing failure =>
    cases failure with
    | none => exact never h.1
    | some reason => exact ⟨h.1.submit record, h.2⟩
  | failing reason => exact ⟨h.1.submit record, h.2⟩
  | exiting | exited => exact never (h.2 whole)

theorem kept_submit (k : Kept c j) (record : Ordered δ) : Kept c (j.submit c record).2 := by
  rcases submit_eq (c := c) record with same | ⟨accepts, same⟩
  · rw [same]
    exact k
  · rw [same]
    obtain ⟨whole, -, opened, room⟩ := ensureCapacity_none accepts
    have bound : (j.pending ++ [record]).length ≤ c.maxPending := by simpa using Nat.succ_le_of_lt room
    exact ⟨bound, k.slot, k.file, k.working.submit record whole opened⟩

def noted (j : Journal δ) (value : δ) : Journal δ :=
  { j with latestStatus := some (value, j.statuses.length + 1), statuses := j.statuses ++ [value] }

theorem status_eq (value : δ) :
    (j.status value).2 = j ∨ (j.check = none ∧ j.closing = false) ∧ (j.status value).2 = j.noted value := by
  unfold status
  cases h : j.check with
  | some e => exact .inl rfl
  | none =>
    by_cases closing : j.closing = true
    · simp [closing]
    · exact .inr ⟨⟨rfl, by simpa using closing⟩, by simp [closing, noted]⟩

theorem numbered_append {statuses : List δ} {number : Nat} {value : δ} (h : statuses[number - 1]? = some value)
    (new : δ) : (statuses ++ [new])[number - 1]? = some value := by
  obtain ⟨inside, same⟩ := List.getElem?_eq_some_iff.mp h
  rw [List.getElem?_append_left inside, h]

theorem Flowing.noted (h : Flowing j current taken) (value : δ) : Flowing (j.noted value) current taken where
  accepted := h.accepted
  whole := h.whole
  stored := h.stored
  known := by simpa [Journal.noted] using Nat.le_succ_of_le h.known
  newest none_ := nomatch none_
  newer _ := by simpa [Journal.noted] using Nat.lt_succ_of_le h.known

variable {item : Item δ}

theorem Taken.noted (h : Taken j item current taken) (value : δ) : Taken (j.noted value) item current taken := by
  cases item with
  | ordered record => exact h
  | status v number =>
    obtain ⟨current_, same, positive, at_⟩ := h
    exact ⟨current_, same, positive, numbered_append at_ value⟩

theorem At.noted (h : At c j worker) (value : δ) (whole : j.failure = none)
    (opened : j.closing = false) : At c (j.noted value) worker := by
  have never {p : Prop} (drained : Drained c j) : p := by
    have closing := drained.closing
    rw [opened] at closing
    cases closing
  have files {records : List (Ordered δ)} (h : OnDisk c j records) : OnDisk c (j.noted value) records :=
    ⟨h.guesses, h.buffer, h.initialization⟩
  cases worker with
  | opening | waiting => exact ⟨h.1.noted value, files h.2.1, h.2.2⟩
  | writing item =>
    obtain ⟨⟨current, taken, has, flowing⟩, written, rest⟩ := h
    exact ⟨⟨current, taken, has.noted value, flowing.noted value⟩, files written, rest⟩
  | line v left => exact ⟨h.1.noted value, h.2⟩
  | wrote item =>
    cases item with
    | ordered r => exact ⟨h.1.noted value, files h.2.1, h.2.2⟩
    | status v number => exact ⟨h.1.noted value, h.2.1, files h.2.2.1, h.2.2.2⟩
  | closing failure =>
    cases failure with
    | none => exact never h.1
    | some reason => exact h
  | failing reason => exact h
  | exiting | exited => exact never (h.2 whole)

theorem kept_status (k : Kept c j) (value : δ) : Kept c (j.status value).2 := by
  rcases status_eq (j := j) value with same | ⟨⟨checked, opened⟩, same⟩
  · rw [same]
    exact k
  · rw [same]
    have whole : j.failure = none ∧ j.shutdownError = none := by simpa [check] using checked
    refine ⟨k.bound, ?_, ?_, k.working.noted value whole.1 opened⟩
    · intro v number slot
      cases slot
      simp [noted]
    · intro v number file
      obtain ⟨known, positive, at_⟩ := k.file v number file
      exact ⟨by simpa [noted] using Nat.le_succ_of_le known, positive, numbered_append at_ value⟩

theorem take_cases (j : Journal δ) :
    (∃ record rest, j.pending = record :: rest ∧
      j.take = { j with pending := rest, inFlight := true, worker := .writing (.ordered record) }) ∨
    (j.pending = [] ∧ ∃ value number, j.latestStatus = some (value, number) ∧
      j.take = { j with latestStatus := none, inFlight := true, worker := .writing (.status value number) }) ∨
    (j.pending = [] ∧ j.latestStatus = none ∧ j.closing = true ∧ j.take = { j with worker := .closing none }) ∨
    j.take = j := by
  unfold take
  split
  · rename_i snapshot record rest queue
    exact .inl ⟨record, rest, queue, rfl⟩
  · rename_i value number queue slot
    exact .inr (.inl ⟨queue, value, number, slot, rfl⟩)
  · rename_i queue slot
    by_cases closing : j.closing = true
    · rw [if_pos closing]
      exact .inr (.inr (.inl ⟨queue, slot, closing, rfl⟩))
    · rw [if_neg closing]
      exact .inr (.inr (.inr rfl))

theorem kept_take (k : Kept c j) (flowing : Flowing j none j.stored) (files : OnDisk c j j.written) : Kept c j.take := by
  rcases j.take_cases with ⟨record, rest, queue, same⟩ | ⟨queue, value, number, slot, same⟩ |
    ⟨queue, slot, closing, same⟩ | same
  · rw [same]
    have bound := k.bound
    rw [queue, List.length_cons] at bound
    have accepted : j.accepted = j.written ++ [record] ++ rest := by simp [flowing.accepted, queue]
    refine ⟨Nat.le_of_succ_le bound, k.slot, k.file, ⟨some record, j.stored, ⟨rfl, rfl⟩, ?_⟩, ?_, rfl⟩
    · exact ⟨accepted, flowing.whole, flowing.stored, flowing.known, flowing.newest, flowing.newer⟩
    · exact ⟨files.guesses, files.buffer, files.initialization⟩
  · rw [same]
    obtain ⟨last, positive, found⟩ := k.slot value number slot
    have older : j.stored < j.statuses.length := flowing.newer (by simp [slot])
    refine ⟨k.bound, fun _ _ h => (nomatch h), k.file, ⟨none, number, ⟨rfl, rfl, positive, found⟩, ?_⟩, ?_, rfl⟩
    · exact ⟨flowing.accepted, flowing.whole, by rw [last]; exact older.le, last.le, fun _ => last, fun h => absurd rfl h⟩
    · exact ⟨files.guesses, files.buffer, files.initialization⟩
  · rw [same]
    have accepted : j.accepted = j.written := by simp [flowing.accepted, queue]
    refine ⟨k.bound, k.slot, k.file, ⟨closing, queue, slot, accepted, ?_, flowing.newest slot⟩, flowing.whole⟩
    exact ⟨files.guesses, files.buffer, files.initialization⟩
  · rw [same]
    exact k

theorem replaced_files (has : Taken j item current taken)
    (json : ∀ value, item ≠ .ordered (.guess value)) (files : OnDisk c j j.written) :
    OnDisk c (j.replace item) (j.written ++ current.toList) := by
  cases item with
  | ordered record =>
    obtain ⟨rfl, -⟩ := has
    cases record with
    | guess value => exact absurd rfl (json value)
    | initialization value =>
      refine ⟨?_, files.buffer, (lastInitialization_self _ _).symm⟩
      simp [replace, files.guesses, line]
  | status value number =>
    obtain ⟨rfl, -⟩ := has
    simpa using (⟨files.guesses, files.buffer, files.initialization⟩ : OnDisk c (j.replace (.status value number)) j.written)

theorem kept_replace (k : Kept c j) (json : ∀ value, item ≠ .ordered (.guess value)) (h : At c j (.writing item)) :
    Kept c { j.replace item with worker := .wrote item } ∧
    ∀ (replaced : Bool) (reason : String), Kept c { if replaced then j.replace item else j with worker := .closing (some reason) } := by
  obtain ⟨⟨current, taken, has, flowing⟩, files, busy⟩ := h
  have same := replaced_files has json files
  have slot : (j.replace item).latestStatus = j.latestStatus := by
    rcases item with (_ | _) | _ <;> rfl
  have file : ∀ v n, (j.replace item).statusFile = some (v, n) → n ≤ j.statuses.length ∧ 0 < n ∧ j.statuses[n - 1]? = some v := by
    cases item with
    | ordered record => cases record <;> exact k.file
    | status value number =>
      obtain ⟨-, rfl, positive, found⟩ := has
      intro v n h
      cases h
      exact ⟨flowing.known, positive, found⟩
  have torn : Torn c (j.replace item) ∧ (j.replace item).inFlight = true := by
    cases item with
    | ordered record =>
      cases record with
      | guess value => exact absurd rfl (json value)
      | initialization value =>
        obtain ⟨rfl, -⟩ := has
        refine ⟨⟨_, flowing.accepted, ⟨[], ?_, ?_⟩, .inr same.initialization⟩, busy⟩
        · simp [replace, files.guesses]
        · simp [replace, files.buffer]
    | status value number =>
      obtain ⟨current_, accepted, parts, init⟩ := flowing.torn files
      exact ⟨⟨current_, accepted, parts, init⟩, busy⟩
  constructor
  · cases item with
    | ordered record =>
      obtain ⟨rfl, rfl⟩ := has
      cases record with
      | guess value => exact absurd rfl (json value)
      | initialization value =>
        refine ⟨k.bound, k.slot, k.file, ?_, ⟨same.guesses, same.buffer, same.initialization⟩, busy⟩
        exact ⟨flowing.accepted, flowing.whole, flowing.stored, flowing.known, flowing.newest, flowing.newer⟩
    | status value number =>
      obtain ⟨rfl, rfl, positive, found⟩ := has
      refine ⟨k.bound, k.slot, file, ?_, rfl, ⟨files.guesses, files.buffer, files.initialization⟩, busy⟩
      exact ⟨flowing.accepted, flowing.whole, Nat.le_refl _, flowing.known, flowing.newest, flowing.newer⟩
  · intro replaced reason
    cases replaced with
    | false =>
      obtain ⟨current_, accepted, parts, init⟩ := flowing.torn files
      exact ⟨k.bound, k.slot, k.file, ⟨current_, accepted, parts, init⟩, busy⟩
    | true =>
      obtain ⟨⟨current_, accepted, parts, init⟩, busy'⟩ := torn
      refine ⟨?_, ?_, ?_, ⟨current_, accepted, parts, init⟩, busy'⟩
      · rcases item with (_ | _) | _ <;> exact k.bound
      · rcases item with (_ | _) | _ <;> exact k.slot
      · rcases item with (_ | _) | _ <;> exact file

theorem kept_encodeGuess (k : Kept c j) {value : δ} (h : At c j (.writing (.ordered (.guess value)))) :
    Kept c (j.encodeGuess c value) := by
  obtain ⟨⟨current, taken, ⟨rfl, rfl⟩, flowing⟩, files, busy⟩ := h
  unfold encodeGuess
  cases encoded : c.encode value with
  | ok text =>
    refine ⟨k.bound, k.slot, k.file, ?_, files.buffer, busy, files.initialization, [], ?_, ?_⟩
    · exact ⟨flowing.accepted, flowing.whole, flowing.stored, flowing.known, flowing.newest, flowing.newer⟩
    · simp [files.guesses]
    · simp [line, encoded, Except.toOption]
  | error reason =>
    obtain ⟨current, accepted, parts, init⟩ := flowing.torn files
    exact ⟨k.bound, k.slot, k.file, ⟨current, accepted, parts, init⟩, busy⟩

theorem kept_writeJson (k : Kept c j) (json : ∀ value, item ≠ .ordered (.guess value))
    (h : At c j (.writing item)) (io : Io) : Kept c (j.writeJson item io) := by
  obtain ⟨done, failed⟩ := kept_replace k json h
  cases io with
  | arrives n => exact k
  | done => exact done
  | failed arrived kept replaced reason => exact failed replaced reason

theorem kept_writeLine (k : Kept c j) {value : δ} {left : List UInt8} (h : At c j (.line value left)) (io : Io) :
    Kept c (j.writeLine value left io) := by
  obtain ⟨flowing, buffer, busy, init, part, guesses, parts⟩ := h
  have same : Flowing { j with guesses := j.guesses ++ left, worker := .wrote (.ordered (.guess value)) }
      (some (.guess value)) j.stored :=
    ⟨flowing.accepted, flowing.whole, flowing.stored, flowing.known, flowing.newest, flowing.newer⟩
  cases io with
  | arrives n =>
    refine ⟨k.bound, k.slot, k.file, ?_, buffer, busy, init, part ++ left.take n, ?_, ?_⟩
    · exact ⟨flowing.accepted, flowing.whole, flowing.stored, flowing.known, flowing.newest, flowing.newer⟩
    · show j.guesses ++ left.take n = lines c j.written ++ (part ++ left.take n)
      rw [guesses, List.append_assoc]
    · simp [parts]
  | done =>
    refine ⟨k.bound, k.slot, k.file, same, ⟨?_, buffer, ?_⟩, busy⟩
    · show j.guesses ++ left = lines c (j.written ++ [_])
      simp [guesses, parts]
    · exact init.trans (lastInitialization_guess _ _).symm
  | failed arrived kept replaced reason =>
    refine ⟨k.bound, k.slot, k.file, ⟨some (.guess value), flowing.accepted, ?_, .inl init⟩, busy⟩
    have arrived_ : j.guesses ++ left.take arrived = lines c j.written ++ (part ++ left.take arrived) := by
      rw [guesses, List.append_assoc]
    refine ⟨part ++ left.take arrived, arrived_, ?_⟩
    have whole : lines c (some (Ordered.guess value)).toList = part ++ left := by simp [parts]
    rw [whole]
    show List.IsPrefix (part ++ left.take arrived ++ (left.drop arrived).take kept) (part ++ left)
    exact cut_write part left arrived kept

theorem kept_count (k : Kept c j) (h : At c j (.wrote item)) : Kept c (j.count item) := by
  cases item with
  | ordered record =>
    obtain ⟨flowing, files, -⟩ := h
    refine ⟨k.bound, k.slot, k.file, ?_, ⟨files.guesses, files.buffer, files.initialization⟩, rfl⟩
    refine ⟨?_, flowing.whole, flowing.stored, flowing.known, flowing.newest, flowing.newer⟩
    simpa [count] using flowing.accepted
  | status value number =>
    obtain ⟨flowing, stored, files, -⟩ := h
    refine ⟨k.bound, k.slot, k.file, ?_, ⟨files.guesses, files.buffer, files.initialization⟩, rfl⟩
    rw [← stored] at flowing
    exact ⟨flowing.accepted, flowing.whole, flowing.stored, flowing.known, flowing.newest, flowing.newer⟩

theorem Torn.flush (h : Torn c j) (more : List UInt8) (first : List.IsPrefix more j.buffer) (worker : Worker δ) :
    Torn c { j with guesses := j.guesses ++ more, buffer := [], worker } := by
  obtain ⟨current, accepted, ⟨part, guesses, parts⟩, init⟩ := h
  refine ⟨current, accepted, ⟨part ++ more, by simp [guesses], ?_⟩, init⟩
  rw [List.append_nil]
  exact ((List.prefix_append_right_inj part).mpr first).trans parts

theorem kept_closeGuesses (k : Kept c j) {failure : Option String} (h : At c j (.closing failure)) (io : Io) :
    Kept c (j.closeGuesses failure io) := by
  cases failure with
  | none =>
    obtain ⟨drained, whole⟩ := h
    have empty := drained.files.buffer
    cases io with
    | arrives n => exact k
    | done =>
      refine ⟨k.bound, k.slot, k.file, drained.torn.flush _ List.prefix_rfl _, fun _ => ?_⟩
      refine ⟨drained.closing, drained.pending, drained.latest, drained.accepted, ⟨?_, rfl, ?_⟩, drained.stored⟩
      · show j.guesses ++ j.buffer = _
        rw [drained.files.guesses, empty, List.append_nil]
        rfl
      · exact drained.files.initialization
    | failed arrived kept replaced reason =>
      refine ⟨k.bound, k.slot, k.file, drained.torn.flush _ (List.take_prefix ..) _, .inr ?_⟩
      show j.guesses ++ j.buffer.take arrived = _
      rw [drained.files.guesses, empty, List.take_nil, List.append_nil]
      rfl
  | some reason =>
    obtain ⟨torn, busy⟩ := h
    cases io with
    | arrives n => exact k
    | done => exact ⟨k.bound, k.slot, k.file, torn.flush _ List.prefix_rfl _, .inl busy⟩
    | failed arrived kept replaced reason =>
      exact ⟨k.bound, k.slot, k.file, torn.flush _ (List.take_prefix ..) _, .inl busy⟩

theorem kept_work (k : Kept c j) (io : Io) : Kept c (j.work c io) := by
  have working := k.working
  unfold work
  split
  · rename_i at_
    rw [at_] at working
    obtain ⟨flowing, files, idle⟩ := working
    cases io with
    | arrives n => exact k
    | done =>
      refine ⟨k.bound, k.slot, k.file, ?_, ⟨files.guesses, files.buffer, files.initialization⟩, idle⟩
      exact ⟨flowing.accepted, flowing.whole, flowing.stored, flowing.known, flowing.newest, flowing.newer⟩
    | failed arrived kept replaced reason =>
      obtain ⟨current, accepted, parts, init⟩ := flowing.torn files
      exact ⟨k.bound, k.slot, k.file, ⟨current, accepted, parts, init⟩, .inr files.guesses⟩
  · rename_i at_
    rw [at_] at working
    exact kept_take k working.1 working.2.1
  · rename_i value at_
    rw [at_] at working
    exact kept_encodeGuess k working
  · rename_i item json at_
    rw [at_] at working
    exact kept_writeJson k json working io
  · rename_i value left at_
    rw [at_] at working
    exact kept_writeLine k working io
  · rename_i item at_
    rw [at_] at working
    exact kept_count k working
  · rename_i failure at_
    rw [at_] at working
    exact kept_closeGuesses k working io
  · rename_i reason at_
    rw [at_] at working
    obtain ⟨current, accepted, parts, init⟩ := working.1
    exact ⟨k.bound, k.slot, k.file, ⟨current, accepted, parts, init⟩, fun whole => nomatch whole⟩
  · rename_i at_
    rw [at_] at working
    obtain ⟨⟨current, accepted, parts, init⟩, drained⟩ := working
    refine ⟨k.bound, k.slot, k.file, ⟨current, accepted, parts, init⟩, fun whole => ?_⟩
    obtain ⟨closing, pending, latest, all, files, stored⟩ := drained whole
    exact ⟨closing, pending, latest, all, ⟨files.guesses, files.buffer, files.initialization⟩, stored⟩
  · exact k

/-- What `close` sets changes nothing of what the worker has. -/
theorem At.frame (h : At c j worker) {closing : Bool} {shutdownError : Option String}
    (closes : j.closing = true → closing = true) : At c { j with closing, shutdownError } worker := by
  have flows {current : Option (Ordered δ)} {taken : Nat} (f : Flowing j current taken) :
      Flowing { j with closing, shutdownError } current taken :=
    ⟨f.accepted, f.whole, f.stored, f.known, f.newest, f.newer⟩
  have files {records : List (Ordered δ)} (f : OnDisk c j records) : OnDisk c { j with closing, shutdownError } records :=
    ⟨f.guesses, f.buffer, f.initialization⟩
  have drains (d : Drained c j) : Drained c { j with closing, shutdownError } :=
    ⟨closes d.closing, d.pending, d.latest, d.accepted, files d.files, d.stored⟩
  cases worker with
  | opening | waiting => exact ⟨flows h.1, files h.2.1, h.2.2⟩
  | writing item =>
    obtain ⟨⟨current, taken, has, flowing⟩, written, busy⟩ := h
    refine ⟨⟨current, taken, ?_, flows flowing⟩, files written, busy⟩
    cases item <;> exact has
  | line value left => exact ⟨flows h.1, h.2⟩
  | wrote item =>
    cases item with
    | ordered record => exact ⟨flows h.1, files h.2.1, h.2.2⟩
    | status value number => exact ⟨flows h.1, h.2.1, files h.2.2.1, h.2.2.2⟩
  | closing failure =>
    cases failure with
    | none => exact ⟨drains h.1, h.2⟩
    | some reason => exact h
  | failing reason => exact h
  | exiting | exited => exact ⟨h.1, fun whole => drains (h.2 whole)⟩

theorem kept_step (step : Step c j j') (k : Kept c j) : Kept c j' := by
  cases step with
  | submit record => exact kept_submit k record
  | status value => exact kept_status k value
  | work io => exact kept_work k io
  | closeBegin => exact ⟨k.bound, k.slot, k.file, k.working.frame fun _ => rfl⟩
  | closeEnd alive joined =>
    cases alive with
    | true => exact ⟨k.bound, k.slot, k.file, k.working.frame id⟩
    | false => exact k

theorem kept_path (run : Path (Step c) initial j) : Kept c j :=
  run.keeps (fun _ _ step k => kept_step step k) initial_kept

/-! Nothing is accepted any more, and the snapshot on disk is never an older one. -/

/-- `close` has begun, or the journal has failed. -/
def Over (j : Journal δ) : Prop := j.closing = true ∨ j.failure.isSome ∨ j.shutdownError.isSome

theorem check_over (above : j.failure.isSome ∨ j.shutdownError.isSome) : j.check ≠ none := by
  cases failure : j.failure with
  | some reason => simp [check, failure]
  | none =>
    rw [failure] at above
    simpa [check, failure, ← Option.isSome_iff_ne_none] using above

theorem submit_over (above : Over j) (record : Ordered δ) : (j.submit c record).2 = j := by
  rcases submit_eq (c := c) record with same | ⟨accepts, -⟩
  · exact same
  · obtain ⟨failure, shutdown, opened, -⟩ := ensureCapacity_none accepts
    simp [Over, failure, shutdown, opened] at above

theorem status_over (above : Over j) (value : δ) : (j.status value).2 = j := by
  rcases status_eq (j := j) value with same | ⟨⟨checked, opened⟩, -⟩
  · exact same
  · rcases above with closing | failed
    · rw [opened] at closing
      cases closing
    · exact absurd checked (check_over failed)

theorem Over.same (above : Over j) (closing : j'.closing = j.closing) (failure : j'.failure = j.failure)
    (shutdownError : j'.shutdownError = j.shutdownError) : Over j' := by
  unfold Over at above ⊢
  rwa [closing, failure, shutdownError]

structure Onward (j j' : Journal δ) : Prop where
  accepted : List.IsPrefix j.accepted j'.accepted
  statuses : List.IsPrefix j.statuses j'.statuses
  above : Over j → Over j' ∧ j'.accepted = j.accepted ∧ j'.statuses = j.statuses
  stored : j.stored ≤ j'.stored

theorem Onward.refl (j : Journal δ) : Onward j j :=
  ⟨List.prefix_rfl, List.prefix_rfl, fun above => ⟨above, rfl, rfl⟩, Nat.le_refl _⟩

theorem Onward.trans {j₁ j₂ j₃ : Journal δ} (h : Onward j₁ j₂) (h' : Onward j₂ j₃) : Onward j₁ j₃ := by
  refine ⟨h.accepted.trans h'.accepted, h.statuses.trans h'.statuses, fun above => ?_, h.stored.trans h'.stored⟩
  obtain ⟨over₂, accepted₂, statuses₂⟩ := h.above above
  obtain ⟨over₃, accepted₃, statuses₃⟩ := h'.above over₂
  exact ⟨over₃, accepted₃.trans accepted₂, statuses₃.trans statuses₂⟩

theorem Onward.of_same (same : (j'.accepted, j'.statuses, j'.closing, j'.failure, j'.shutdownError, j'.statusFile) =
    (j.accepted, j.statuses, j.closing, j.failure, j.shutdownError, j.statusFile)) : Onward j j' := by
  simp only [Prod.mk.injEq] at same
  obtain ⟨accepted, statuses, closing, failure, shutdownError, statusFile⟩ := same
  refine ⟨by rw [accepted], by rw [statuses], fun above => ⟨above.same closing failure shutdownError, accepted, statuses⟩, ?_⟩
  simp [Journal.stored, statusFile]

theorem replace_onward (h : At c j (.writing item)) (worker : Worker δ) : Onward j { j.replace item with worker } := by
  obtain ⟨⟨current, taken, has, flowing⟩, -⟩ := h
  cases item with
  | ordered record => cases record <;> exact .of_same rfl
  | status value number =>
    obtain ⟨-, rfl, -⟩ := has
    exact ⟨List.prefix_rfl, List.prefix_rfl, fun above => ⟨above.same rfl rfl rfl, rfl, rfl⟩, flowing.stored⟩

theorem work_onward (k : Kept c j) (io : Io) : Onward j (j.work c io) := by
  have working := k.working
  unfold work
  split
  · cases io <;> exact .of_same rfl
  · rcases j.take_cases with ⟨_, _, -, same⟩ | ⟨-, _, _, -, same⟩ | ⟨-, -, -, same⟩ | same <;>
      rw [same] <;> exact .of_same rfl
  · unfold encodeGuess
    split <;> exact .of_same rfl
  · rename_i item json at_
    rw [at_] at working
    cases io with
    | arrives n => exact .refl j
    | done => exact replace_onward working _
    | failed arrived kept replaced reason =>
      cases replaced with
      | true => exact replace_onward working _
      | false => exact .of_same rfl
  · cases io <;> exact .of_same rfl
  · exact .of_same rfl
  · cases io <;> exact .of_same rfl
  · exact ⟨List.prefix_rfl, List.prefix_rfl, fun _ => ⟨.inr (.inl rfl), rfl, rfl⟩, Nat.le_refl _⟩
  · exact .of_same rfl
  · exact .refl j

theorem step_onward (step : Step c j j') (k : Kept c j) : Onward j j' := by
  cases step with
  | submit record =>
    rcases submit_eq (c := c) record with same | ⟨accepts, same⟩
    · rw [same]
      exact .refl j
    · refine ⟨?_, ?_, fun above => ?_, ?_⟩
      · rw [same]
        exact List.prefix_append ..
      · rw [same]
      · rw [submit_over above]
        exact ⟨above, rfl, rfl⟩
      · rw [same]
        exact Nat.le_refl _
  | status value =>
    rcases status_eq (j := j) value with same | ⟨-, same⟩
    · rw [same]
      exact .refl j
    · refine ⟨?_, ?_, fun above => ?_, ?_⟩
      · rw [same]
        exact List.prefix_rfl
      · rw [same]
        exact List.prefix_append ..
      · rw [status_over above]
        exact ⟨above, rfl, rfl⟩
      · rw [same]
        exact Nat.le_refl _
  | work io => exact work_onward k io
  | closeBegin => exact ⟨List.prefix_rfl, List.prefix_rfl, fun _ => ⟨.inl rfl, rfl, rfl⟩, Nat.le_refl _⟩
  | closeEnd alive joined =>
    cases alive with
    | true => exact ⟨List.prefix_rfl, List.prefix_rfl, fun _ => ⟨.inr (.inr rfl), rfl, rfl⟩, Nat.le_refl _⟩
    | false => exact .refl j

theorem path_onward (run : Path (Step c) j j') (k : Kept c j) : Onward j j' := by
  have kept : Kept c j' ∧ Onward j j' := by
    refine run.keeps (P := fun x => Kept c x ∧ Onward j x) (fun a b step h => ?_) ⟨k, .refl j⟩
    exact ⟨kept_step step h.1, h.2.trans (step_onward step h.1)⟩
  exact kept.2

theorem At.torn (h : At c j worker) :
    ∃ current : Option (Ordered δ), j.accepted = j.written ++ current.toList ++ j.pending ∧
      (∃ part, j.guesses = lines c j.written ++ part ∧ List.IsPrefix part (lines c current.toList) ∧
        (part ≠ [] → j.inFlight = true ∨ j.failure.isSome)) ∧
      (j.initializationFile = lastInitialization j.written ∨
        j.initializationFile = lastInitialization (j.written ++ current.toList)) := by
  have of_torn (torn : Torn c j) (busy : j.inFlight = true ∨ j.guesses = lines c j.written ∨ j.failure.isSome) :
      ∃ current : Option (Ordered δ), j.accepted = j.written ++ current.toList ++ j.pending ∧
        (∃ part, j.guesses = lines c j.written ++ part ∧ List.IsPrefix part (lines c current.toList) ∧
          (part ≠ [] → j.inFlight = true ∨ j.failure.isSome)) ∧
        (j.initializationFile = lastInitialization j.written ∨
          j.initializationFile = lastInitialization (j.written ++ current.toList)) := by
    obtain ⟨current, accepted, ⟨part, guesses, parts⟩, init⟩ := torn
    refine ⟨current, accepted, ⟨part, guesses, (List.prefix_append part _).trans parts, fun some_ => ?_⟩, init⟩
    rcases busy with busy | whole | failed
    · exact .inl busy
    · rw [guesses] at whole
      exact absurd (by simpa using whole) some_
    · exact .inr failed
  cases worker with
  | opening | waiting => exact of_torn (h.1.torn h.2.1) (.inr (.inl h.2.1.guesses))
  | writing item =>
    obtain ⟨⟨current, taken, has, flowing⟩, files, busy⟩ := h
    exact of_torn (flowing.torn files) (.inl busy)
  | line value left =>
    obtain ⟨flowing, buffer, busy, init, part, guesses, parts⟩ := h
    refine of_torn ⟨some (.guess value), flowing.accepted, ⟨part, guesses, ?_⟩, .inl init⟩ (.inl busy)
    rw [buffer, List.append_nil]
    exact ⟨left, by simpa using parts⟩
  | wrote item =>
    cases item with
    | ordered record =>
      obtain ⟨flowing, files, busy⟩ := h
      refine of_torn ⟨some record, flowing.accepted, ⟨line c record, ?_, ?_⟩, .inr files.initialization⟩ (.inl busy)
      · simp [files.guesses]
      · simp [files.buffer]
    | status value number =>
      obtain ⟨flowing, stored, files, busy⟩ := h
      exact of_torn (flowing.torn files) (.inl busy)
  | closing failure =>
    cases failure with
    | none => exact of_torn h.1.torn (.inr (.inl h.1.files.guesses))
    | some reason => exact of_torn h.1 (.inl h.2)
  | failing reason =>
    rcases h.2 with busy | whole
    · exact of_torn h.1 (.inl busy)
    · exact of_torn h.1 (.inr (.inl whole))
  | exiting | exited =>
    cases failure : j.failure with
    | none =>
      obtain ⟨current, accepted, ⟨part, guesses, parts, busy⟩, init⟩ :=
        of_torn h.1 (.inr (.inl (h.2 failure).files.guesses))
      rw [failure] at busy
      exact ⟨current, accepted, ⟨part, guesses, parts, busy⟩, init⟩
    | some reason =>
      obtain ⟨current, accepted, ⟨part, guesses, parts, -⟩, init⟩ := of_torn h.1 (.inr (.inr (by rw [failure]; rfl)))
      exact ⟨current, accepted, ⟨part, guesses, parts, fun _ => .inr rfl⟩, init⟩

/-- `close` that raises nothing has found everything on disk. -/
theorem closed_drained (k : Kept c j) {alive : Bool} (joined : alive = false → j.worker = .exited)
    (returns : (j.closeEnd alive).1 = none) : Drained c j := by
  cases alive with
  | true => simp [closeEnd] at returns
  | false =>
    have checked : j.check = none := by simpa [closeEnd] using returns
    have whole : j.failure = none ∧ j.shutdownError = none := by simpa [check] using checked
    have working := k.working
    rw [joined rfl] at working
    exact working.2 whole.1

/-- Of any run: the files are a first part of what was accepted, cut inside of one record and only while it is written
or after a failure; the queue is bounded; the slot has the newest snapshot, later than the one on disk, which only
later ones replace; `close` returns with everything on disk; and what has failed or closes accepts nothing. -/
theorem prior_journal_persists (run : Path (Step c) initial j) :
    (∃ current : Option (Ordered δ), j.accepted = j.written ++ current.toList ++ j.pending ∧
      (∃ part, j.guesses = lines c j.written ++ part ∧ List.IsPrefix part (lines c current.toList) ∧
        (part ≠ [] → j.inFlight = true ∨ j.failure.isSome)) ∧
      (j.initializationFile = lastInitialization j.written ∨
        j.initializationFile = lastInitialization (j.written ++ current.toList))) ∧
    j.pending.length ≤ c.maxPending ∧
    ((∀ value number, j.latestStatus = some (value, number) → number = j.statuses.length ∧ j.statuses.getLast? = some value) ∧
      (∀ value number, j.statusFile = some (value, number) → 0 < number ∧ j.statuses[number - 1]? = some value) ∧
      ∀ j', Path (Step c) j j' → List.IsPrefix j.statuses j'.statuses ∧ j.stored ≤ j'.stored) ∧
    (∀ alive, (alive = false → j.worker = .exited) → (j.closeEnd alive).1 = none →
      j.written = j.accepted ∧ j.guesses = lines c j.accepted ∧ j.initializationFile = lastInitialization j.accepted ∧
        j.statusFile.map Prod.fst = j.statuses.getLast?) ∧
    (Over j → ∀ j', Path (Step c) j j' → j'.accepted = j.accepted ∧ j'.statuses = j.statuses) := by
  have kept := kept_path run
  refine ⟨kept.working.torn, kept.bound, ⟨?_, ?_, ?_⟩, ?_, ?_⟩
  · intro value number slot
    obtain ⟨last, -, found⟩ := kept.slot value number slot
    rw [List.getLast?_eq_getElem?, ← last]
    exact ⟨rfl, found⟩
  · intro value number file
    exact (kept.file value number file).2
  · intro j' later
    have onward := path_onward later kept
    exact ⟨onward.statuses, onward.stored⟩
  · intro alive joined returns
    have drained := closed_drained kept joined returns
    have files := drained.files
    rw [← drained.accepted] at files
    refine ⟨drained.accepted.symm, files.guesses, files.initialization, ?_⟩
    have stored := drained.stored
    cases file : j.statusFile with
    | none =>
      have none_ : j.statuses.length = 0 := by simpa [Journal.stored, file] using stored.symm
      simp [List.length_eq_zero_iff.mp none_]
    | some snapshot =>
      obtain ⟨value, number⟩ := snapshot
      have last : number = j.statuses.length := by simpa [Journal.stored, file] using stored
      obtain ⟨-, -, found⟩ := kept.file value number file
      rw [List.getLast?_eq_getElem?, ← last]
      exact found.symm
  · intro above j' later
    exact ((path_onward later kept).above above).2

/-! An initialization, a guess and two snapshots, and a worker that fails. -/

namespace Bench

theorem one_le_two : 1 ≤ 2 := by decide

def config : Config Nat where
  maxPending := 2
  encode value := .ok [value.toUInt8, 10]
  bound := one_le_two

def works (io : Io) (j : Journal Nat) : Journal Nat := j.work config io

def given : Journal Nat :=
  ((((((initial.work config .done).submit config (.initialization 5)).2.submit config (.guess 7)).2.status 1).2.status 2).2).closeBegin

def drained : Journal Nat := (works .done)^[13] given

theorem works_run {j : Journal Nat} (run : Path (Step config) initial j) (n : Nat) :
    Path (Step config) initial ((works .done)^[n] j) := by
  induction n with
  | zero => exact run
  | succ n ih =>
    rw [Function.iterate_succ_apply']
    exact ih.tail (.work .done)

theorem given_run : Path (Step config) initial given := by
  have opened : Path (Step config) initial (initial.work config .done) := .single (.work .done)
  exact ((((opened.tail (.submit (.initialization 5))).tail (.submit (.guess 7))).tail (.status 1)).tail
    (.status 2)).tail .closeBegin

end Bench

theorem bench_persists :
    (Bench.drained.closeEnd false).1 = none ∧ Bench.drained.statusFile = some (2, 2) ∧
      Bench.drained.written = [.initialization 5, .guess 7] ∧ Bench.drained.written = Bench.drained.accepted := by
  have returns : (Bench.drained.closeEnd false).1 = none := by decide +kernel
  have joined : Bench.drained.worker = .exited := by decide +kernel
  have run := Bench.works_run Bench.given_run 13
  have written := ((prior_journal_persists run).2.2.2.1 false (fun _ => joined) returns).1
  exact ⟨returns, by decide +kernel, by decide +kernel, written⟩

end Smartwheel.Prior.Journal

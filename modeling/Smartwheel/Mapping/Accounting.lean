import Smartwheel.Mapping.Input

/-! The accounts of the mapping input: outputs pass the two queues in their order, each is counted and reserved from
its acceptance to its result, and the queues have room for all of them. -/
namespace Smartwheel.Mapping
open Effect.Program

def Job.number : Job → Option Nat
  | .bootstrap => none
  | .output o => some o.number

def Result.number : Result → Option Nat
  | .bootstrap => none
  | .output o _ => some o.number

def Worker.boots : Worker → Nat
  | .working .bootstrap | .putting .bootstrap => 1
  | _ => 0

/-- The numbers from the first after `low` to `high`. -/
def between (low high : Nat) : List Nat := List.range' (low + 1) (high - low)

theorem between_cons {low high : Nat} (h : low < high) : between low high = (low + 1) :: between (low + 1) high := by
  unfold between
  have length : high - low = high - (low + 1) + 1 := by omega
  rw [length, List.range'_succ]

theorem between_snoc {low high : Nat} (h : low ≤ high) : between low (high + 1) = between low high ++ [high + 1] := by
  unfold between
  have length : high + 1 - low = high - low + 1 := by omega
  have last : low + 1 + 1 * (high - low) = high + 1 := by omega
  rw [length, List.range'_concat, last]

@[simp] theorem between_length (low high : Nat) : (between low high).length = high - low := by simp [between]

/-- What the worker holds, where it has taken `t` outputs and `f` results have been put. -/
def Holds (t f outputs : Nat) : Worker → Prop
  | .waiting | .working .bootstrap | .putting .bootstrap => f = t ∧ outputs = t
  | .working (.output o) => o.number = t ∧ f + 1 = t ∧ outputs = f
  | .putting (.output o index) => o.number = t ∧ index = t ∧ f + 1 = t ∧ outputs = t
  | .exited => True

/-- Of `s` outputs, the first `t` have been taken, `f` results put, and `a` acknowledged. -/
structure Pipe (jobs : List Job) (worker : Worker) (results : List Result) (outputs s t f a : Nat) : Prop where
  queued : jobs.filterMap Job.number = between t s
  put : results.filterMap Result.number = between a f
  index : ∀ o index, Result.output o index ∈ results → index = o.number
  holds : Holds t f outputs worker
  order : a ≤ f ∧ f ≤ outputs ∧ outputs ≤ t ∧ t ≤ s

def Input.submitted (j : Input) : Nat :=
  match j.main with
  | .submitted _ => j.enqueuedOutputs + 1
  | _ => j.enqueuedOutputs

def boots (jobs : List Job) (worker : Worker) (results : List Result) : Nat :=
  jobs.countP (·.number.isNone) + worker.boots + results.countP (·.number.isNone)

structure Fits (c : Config) (o : Output) (enqueued pending bytes : Nat) : Prop where
  number : o.number = enqueued + 1
  limit : pending < c.pendingOutputLimit
  bytes : bytes + o.reservation ≤ maxPendingBytes

abbrev FitsInto (c : Config) (j : Input) (o : Output) : Prop :=
  Fits c o j.enqueuedOutputs j.pending.length j.pendingBytes

def Placed (c : Config) (j : Input) : Prop :=
  match j.main with
  | .submitting o | .submitted o => FitsInto c j o
  | .offering o =>
    c.realtime = true ∧ o.number = j.enqueuedOutputs ∧ 0 < o.number ∧ ∀ p ∈ j.published, p.1 < o.number
  | .publishing o =>
    c.realtime = false ∧ o.number = j.acknowledged.length ∧ 0 < o.number ∧ ∀ p ∈ j.published, p.1 < o.number
  | _ => True

structure Shown (c : Config) (published : List (Nat × Bool)) (enqueued acknowledged : Nat) : Prop where
  order : published.Pairwise fun p q => p.1 < q.1
  via : ∀ p ∈ published, p.2 = !c.realtime
  bound : ∀ p ∈ published, p.1 ≤ if c.realtime then enqueued else acknowledged
  positive : ∀ p ∈ published, 0 < p.1

structure Kept (c : Config) (j : Input) : Prop where
  pipe : ∃ t f, Pipe j.jobs j.worker j.results j.outputs j.submitted t f j.acknowledged.length
  acknowledged : j.acknowledged = between 0 j.acknowledged.length
  once : boots j.jobs j.worker j.results ≤ if j.ready then 1 else 0
  held : j.enqueuedOutputs = j.acknowledged.length + j.pending.length
  bytes : j.pendingBytes = (j.pending.map (·.2)).sum
  bound : j.pendingBytes ≤ maxPendingBytes
  limit : j.pending.length ≤ c.pendingOutputLimit
  placed : Placed c j
  archived : j.acknowledged.length ≤ j.archivedOutputs ∧ j.archivedOutputs ≤ j.outputs ∧ j.written = j.outputs
  shown : Shown c j.published j.enqueuedOutputs j.acknowledged.length
  full : j.full = false

variable {c : Config} {j j' : Input}

theorem initial_kept (c : Config) : Kept c (Input.initial c) where
  pipe := by
    refine ⟨0, 0, ?_, rfl, fun _ _ mem => (by cases mem), ⟨rfl, rfl⟩, Nat.le_refl _, Nat.le_refl _, Nat.le_refl _,
      Nat.le_refl _⟩
    unfold Input.initial
    cases c.continuous <;> rfl
  acknowledged := rfl
  once := by
    unfold Input.initial
    cases c.continuous <;> decide
  held := rfl
  bytes := rfl
  bound := Nat.zero_le _
  limit := Nat.zero_le _
  placed := trivial
  archived := ⟨Nat.le_refl _, Nat.le_refl _, rfl⟩
  shown := ⟨.nil, fun _ mem => (by cases mem), fun _ mem => (by cases mem), fun _ mem => (by cases mem)⟩
  full := rfl

structure Same (j j' : Input) : Prop where
  queues : j'.jobs = j.jobs ∧ j'.worker = j.worker ∧ j'.results = j.results
  archive : j'.outputs = j.outputs ∧ j'.written = j.written ∧ j'.archivedOutputs = j.archivedOutputs
  held : j'.enqueuedOutputs = j.enqueuedOutputs ∧ j'.pending = j.pending ∧ j'.pendingBytes = j.pendingBytes
  shown : j'.acknowledged = j.acknowledged ∧ j'.published = j.published
  flags : j'.ready = j.ready ∧ j'.full = j.full

theorem Kept.same (h : Kept c j) (same : Same j j') (submitted : j'.submitted = j.submitted) (placed : Placed c j') :
    Kept c j' := by
  obtain ⟨⟨jobs, worker, results⟩, ⟨outputs, written, archived⟩, ⟨enqueued, pending, bytes⟩, ⟨acknowledged, published⟩,
    ready, full⟩ := same
  refine ⟨?_, ?_, ?_, ?_, ?_, ?_, ?_, placed, ?_, ?_, ?_⟩
  · rw [jobs, worker, results, outputs, submitted, acknowledged]
    exact h.pipe
  · rw [acknowledged]
    exact h.acknowledged
  · rw [jobs, worker, results, ready]
    exact h.once
  · rw [enqueued, acknowledged, pending]
    exact h.held
  · rw [bytes, pending]
    exact h.bytes
  · rw [bytes]
    exact h.bound
  · rw [pending]
    exact h.limit
  · rw [acknowledged, archived, outputs, written]
    exact h.archived
  · rw [published, enqueued, acknowledged]
    exact h.shown
  · rw [full]
    exact h.full

theorem same_thread (j : Input) (main : Main) (failureReason : Option String) (closing closed workerClosing : Bool)
    (discarded : Int) (filtered : Nat) :
    Same j { j with
      main, failureReason, closing, closed, workerClosing, outputsDiscardedOnClose := discarded,
      filteredEmptyOutputs := filtered } :=
  ⟨⟨rfl, rfl, rfl⟩, ⟨rfl, rfl, rfl⟩, ⟨rfl, rfl, rfl⟩, ⟨rfl, rfl⟩, rfl, rfl⟩

/-! The callback of a source frame. -/

def Admitting (j j' : Input) : Prop :=
  ∃ buffers unpaired discarded,
    j' = { j with buffers := buffers, unpairedDiscarded := unpaired, bootstrapDiscarded := discarded }

def admitting : Guarantee Input where
  step := Admitting
  whole := Admitting
  cuts := False
  whole_refl _ := ⟨_, _, _, rfl⟩
  whole_trans := by
    rintro a b d ⟨_, _, _, rfl⟩ ⟨_, _, _, rfl⟩
    exact ⟨_, _, _, rfl⟩

theorem change_goes {f : Input → Input} {F : Unit → Input → Prop} {E : String → Input → Prop}
    (frame : Admitting j (f j)) (h : F () (f j)) : Goes admitting (.modify f : Input.Callback Unit) F E j :=
  Goes.modify (.single frame) frame h

theorem require_goes {p : Prop} [Decidable p] {reason : String} :
    (Input.require p reason).Goes admitting (fun _ j' => p ∧ j' = j) (fun _ _ => True) j :=
  Goes.raiseIf (fun _ => trivial) fun holds => ⟨not_not.mp holds, rfl⟩

theorem ensureActive_goes : Input.ensureActive.Goes admitting (fun _ _ => True) (fun _ _ => True) j := by
  refine Goes.get_bind ?_
  split
  · exact Goes.raise trivial
  · exact Goes.pure trivial

theorem liftCheck_goes {α : Type} (x : Except String α) :
    (Input.liftCheck x).Goes admitting (fun _ j' => j' = j) (fun _ _ => True) j := by
  cases x with
  | ok a => exact Goes.pure rfl
  | error reason => exact Goes.raise trivial

theorem members_goes (member : Member) :
    (Input.members c member).Goes admitting (fun _ _ => True) (fun _ _ => True) j := by
  refine Goes.ite (fun _ => Goes.pure trivial) fun _ => Goes.get_bind ?_
  dsimp only
  split
  · exact (change_goes (F := fun _ _ => True) ⟨_, _, _, rfl⟩ trivial).bind fun _ _ _ => Goes.pure trivial
  · exact (change_goes (F := fun _ _ => True) ⟨_, _, _, rfl⟩ trivial).bind fun _ _ _ => Goes.pure trivial

theorem freeze_goes (s : Source) : (Input.freeze c s).Goes admitting (fun _ j' => j' = j) (fun _ _ => True) j := by
  refine Goes.ite (fun _ => (liftCheck_goes _).bind fun frozen j' same => ?_) fun _ => Goes.pure rfl
  subst same
  exact require_goes.bind fun _ _ sized => Goes.pure sized.2

theorem admission_goes (s : Source) :
    (Input.admission c s).Goes admitting (fun admitted j' => ∀ o, admitted = some o → FitsInto c j' o)
      (fun _ _ => True) j := by
  have nothing {j : Input} : (Pure.pure none : Input.Callback (Option Output)).Goes admitting
      (fun admitted j' => ∀ o, admitted = some o → FitsInto c j' o) (fun _ _ => True) j :=
    Goes.pure fun _ some_ => (by cases some_)
  refine Goes.ite (fun _ => nothing) fun _ => ?_
  refine ensureActive_goes.bind fun _ _ _ => ?_
  refine require_goes.bind fun _ _ _ => ?_
  refine require_goes.bind fun _ _ _ => ?_
  refine (liftCheck_goes _).bind fun inspected j₁ _ => ?_
  cases inspected with
  | none => exact nothing
  | some member =>
    refine Goes.get_bind (Goes.ite (fun _ => ?_) fun _ => ?_)
    · exact (change_goes (F := fun _ _ => True) ⟨_, _, _, rfl⟩ trivial).bind fun _ _ _ => nothing
    · refine (members_goes member).bind fun rows j₂ _ => ?_
      cases rows with
      | none => exact nothing
      | some rows =>
        refine Goes.get_bind (require_goes.bind fun _ _ paired => ?_)
        rw [paired.2]
        refine Goes.ite (fun _ => ?_) fun _ => ?_
        · exact (change_goes (F := fun _ _ => True) ⟨_, _, _, rfl⟩ trivial).bind fun _ _ _ => nothing
        · refine require_goes.bind fun _ _ later => ?_
          rw [later.2]
          refine require_goes.bind fun _ _ room => ?_
          rw [room.2]
          refine require_goes.bind fun _ _ synced => ?_
          rw [synced.2]
          refine require_goes.bind fun _ _ frames => ?_
          rw [frames.2]
          refine (freeze_goes s).bind fun frozen j₃ same => ?_
          subst same
          refine require_goes.bind fun _ _ bytes => ?_
          rw [bytes.2]
          refine Goes.ite (fun _ => nothing) fun _ => Goes.pure fun o admitted => ?_
          obtain rfl := Option.some.inj admitted
          exact ⟨rfl, room.1, bytes.1⟩

theorem placed_of_idle (h : j.main = .idle) : Placed c j := by
  unfold Placed
  rw [h]
  exact trivial

theorem submitted_of_idle (h : j.main = .idle) : j.submitted = j.enqueuedOutputs := by
  unfold Input.submitted
  rw [h]

theorem kept_receiveSource (h : Kept c j) (s : Source) (idle : j.main = .idle) : Kept c (j.receiveSource c s) := by
  have goes := admission_goes (c := c) (j := j) s
  have same (buffers : Side → List Member) (unpaired discarded : Nat) (main : Main) (reason : Option String) :
      Same j { j with
        buffers, unpairedDiscarded := unpaired, bootstrapDiscarded := discarded, main, failureReason := reason } :=
    ⟨⟨rfl, rfl, rfl⟩, ⟨rfl, rfl, rfl⟩, ⟨rfl, rfl, rfl⟩, ⟨rfl, rfl⟩, rfl, rfl⟩
  have before := submitted_of_idle idle
  unfold Input.receiveSource
  split
  · rename_i o j' outcome
    have ends := goes.value (congrArg Prod.fst outcome)
    rw [outcome] at ends
    obtain ⟨⟨buffers, unpaired, discarded, rfl⟩, fits⟩ := ends
    obtain ⟨number, limit, bytes⟩ := fits o rfl
    exact h.same (same _ _ _ _ _) before.symm ⟨number, limit, bytes⟩
  · rename_i j' outcome
    have ends := goes.value (congrArg Prod.fst outcome)
    rw [outcome] at ends
    obtain ⟨⟨buffers, unpaired, discarded, rfl⟩, -⟩ := ends
    exact h.same (same _ _ _ _ _) rfl (placed_of_idle idle)
  · rename_i reason j' outcome
    have ends := goes.raised (congrArg Prod.fst outcome)
    rw [outcome] at ends
    obtain ⟨⟨buffers, unpaired, discarded, rfl⟩, -⟩ := ends
    exact h.same (same _ _ _ _ _) rfl (placed_of_idle idle)
  · rename_i j' outcome
    exact absurd (congrArg Prod.fst outcome) (goes.uncut id)

/-! The room in the queues. -/

theorem length_split {α : Type} (number : α → Option Nat) (l : List α) :
    l.length = (l.filterMap number).length + l.countP fun a => (number a).isNone := by
  induction l with
  | nil => rfl
  | cons a l ih =>
    cases h : number a with
    | none => simp [h, ih, Nat.add_assoc]
    | some n => simp [h, ih]; omega

theorem submitted_of {main : Main} (at_ : j.main = main) (calm : ∀ o, main ≠ .submitted o) : j.submitted = j.enqueuedOutputs := by
  unfold Input.submitted
  split
  next o submitted => exact absurd (at_.symm.trans submitted) (calm o)
  next => rfl

theorem Kept.submitted_le (h : Kept c j) : j.submitted ≤ j.acknowledged.length + c.pendingOutputLimit := by
  have held := h.held
  have limit := h.limit
  have placed := h.placed
  unfold Placed at placed
  unfold Input.submitted
  split
  · rename_i o main
    rw [main] at placed
    have room := placed.limit
    omega
  · omega

theorem Kept.jobs_length (h : Kept c j) (waits : j.submitted < j.acknowledged.length + c.pendingOutputLimit ∨
    j.ready = false) : j.jobs.length < c.pendingOutputLimit + 1 := by
  obtain ⟨t, f, pipe⟩ := h.pipe
  have le := h.submitted_le
  have order := pipe.order
  have once := h.once
  unfold boots at once
  rw [length_split Job.number, pipe.queued, between_length]
  rcases waits with room | new
  · split at once <;> omega
  · rw [new, if_neg (by decide)] at once
    omega

theorem Kept.results_length (h : Kept c j) {t f : Nat}
    (pipe : Pipe j.jobs j.worker j.results j.outputs j.submitted t f j.acknowledged.length)
    (holds : j.worker.boots = 1 ∨ f + 1 = t) : j.results.length < c.pendingOutputLimit + 2 := by
  have le := h.submitted_le
  have order := pipe.order
  have once : boots j.jobs j.worker j.results ≤ 1 := h.once.trans (by split <;> omega)
  unfold boots at once
  rw [length_split Result.number, pipe.put, between_length]
  rcases holds with boot | taken <;> omega

/-! What the callback thread does. -/

theorem Kept.idle (h : Kept c j) (submitted : j.submitted = j.enqueuedOutputs) (reason : Option String) :
    Kept c { j with main := .idle, failureReason := reason } :=
  h.same (same_thread j _ _ _ _ _ _ _) submitted.symm trivial

variable {o : Output}

theorem kept_submitOutput (h : Kept c j) (main : j.main = .submitting o) : Kept c (j.submitOutput c o) := by
  have placed := h.placed
  unfold Placed at placed
  rw [main] at placed
  have submitted := submitted_of main nofun
  have held := h.held
  have room := placed.limit
  unfold Input.submitOutput Input.submit
  split
  · rename_i j' outcome
    split at outcome
    · cases outcome
    · split at outcome
      · cases outcome
      · obtain rfl := (Prod.mk.inj outcome).2
        obtain ⟨t, f, pipe⟩ := h.pipe
        have order := pipe.order
        refine ⟨⟨t, f, ?_, pipe.put, pipe.index, pipe.holds, order.1, order.2.1, order.2.2.1, ?_⟩, h.acknowledged, ?_, held,
          h.bytes, h.bound, h.limit, placed, h.archived, h.shown, h.full⟩
        · show (j.jobs ++ [Job.output o]).filterMap Job.number = between t (j.enqueuedOutputs + 1)
          rw [List.filterMap_append, pipe.queued, submitted, between_snoc (by omega)]
          exact congrArg (fun n => between t j.enqueuedOutputs ++ [n]) placed.number
        · show t ≤ j.enqueuedOutputs + 1
          omega
        · show boots (j.jobs ++ [Job.output o]) _ _ ≤ _
          unfold boots
          rw [List.countP_append]
          exact h.once
  · rename_i reason j' outcome
    split at outcome
    · obtain rfl := (Prod.mk.inj outcome).2
      exact h.idle submitted _
    · split at outcome
      · rename_i full
        have free := h.jobs_length (.inl (by omega))
        exact absurd full (by omega)
      · cases outcome

theorem Kept.observe (h : Kept c j) (report : Report) : Kept c (j.observeFilter report) := by
  unfold Input.observeFilter
  split
  · exact h.same (same_thread j _ _ _ _ _ _ _) rfl h.placed
  · exact h

theorem kept_account (h : Kept c j) (main : j.main = .submitted o) : Kept c (j.account c o) := by
  have placed := h.placed
  unfold Placed at placed
  rw [main] at placed
  have submitted : j.submitted = j.enqueuedOutputs + 1 := by
    unfold Input.submitted
    rw [main]
  have held := h.held
  have shown : Shown c j.published (j.enqueuedOutputs + 1) j.acknowledged.length := by
    refine ⟨h.shown.order, h.shown.via, fun p mem => (h.shown.bound p mem).trans ?_, h.shown.positive⟩
    split <;> omega
  have accepted (main : Main) (discarded : Int) (filtered : Nat)
      (free : Placed c { j.accept o with main, outputsDiscardedOnClose := discarded, filteredEmptyOutputs := filtered })
      (same : { j.accept o with main, outputsDiscardedOnClose := discarded, filteredEmptyOutputs := filtered }.submitted =
        j.enqueuedOutputs + 1) :
      Kept c { j.accept o with main, outputsDiscardedOnClose := discarded, filteredEmptyOutputs := filtered } := by
    refine ⟨?_, h.acknowledged, h.once, ?_, ?_, placed.bytes, ?_, free, h.archived, shown, h.full⟩
    · rw [same, ← submitted]
      exact h.pipe
    · show j.enqueuedOutputs + 1 = j.acknowledged.length + (j.pending ++ [(o.host, o.reservation)]).length
      rw [List.length_append, List.length_singleton]
      omega
    · show j.pendingBytes + o.reservation = ((j.pending ++ [(o.host, o.reservation)]).map (·.2)).sum
      rw [List.map_append, List.sum_append, h.bytes]
      rfl
    · show (j.pending ++ [(o.host, o.reservation)]).length ≤ _
      rw [List.length_append, List.length_singleton]
      exact placed.limit
  unfold Input.account
  split
  · rename_i realtime
    have offered (discarded : Int) (filtered : Nat) : Placed c { j.accept o with
        main := .offering o, outputsDiscardedOnClose := discarded, filteredEmptyOutputs := filtered } := by
      refine ⟨realtime, placed.number, by have := placed.number; omega, fun p mem => ?_⟩
      have bound := h.shown.bound p mem
      rw [if_pos realtime] at bound
      have number := placed.number
      omega
    unfold Input.recount Input.observeFilter
    split
    · exact accepted _ _ _ (offered _ _) rfl
    · exact accepted _ _ _ (offered _ _) rfl
  · exact accepted _ _ _ trivial rfl

theorem Shown.publish {published : List (Nat × Bool)} {enqueued acknowledged n : Nat}
    (h : Shown c published enqueued acknowledged) (after : ∀ p ∈ published, p.1 < n) (positive : 0 < n)
    (bound : n ≤ if c.realtime then enqueued else acknowledged) :
    Shown c (published ++ [(n, !c.realtime)]) enqueued acknowledged := by
  have each {P : Nat × Bool → Prop} (old : ∀ p ∈ published, P p) (new : P (n, !c.realtime)) :
      ∀ p ∈ published ++ [(n, !c.realtime)], P p := by
    intro p mem
    rcases List.mem_append.mp mem with mem | mem
    · exact old p mem
    · rw [List.mem_singleton.mp mem]
      exact new
  refine ⟨?_, each h.via rfl, each h.bound bound, each h.positive positive⟩
  refine List.pairwise_append.mpr ⟨h.order, List.pairwise_singleton _ _, fun p mem q last => ?_⟩
  rw [List.mem_singleton.mp last]
  exact after p mem

theorem Kept.publish (h : Kept c j) {n : Nat} {main : Main} {frames : Nat} {discarded : Int} {via : Bool}
    (shown : Shown c (j.published ++ [(n, via)]) j.enqueuedOutputs j.acknowledged.length)
    (same : ({ j with main } : Input).submitted = j.submitted)
    (free : ∀ j' : Input, j'.main = main → Placed c j') :
    Kept c { j with
      publishedFrames := frames, published := j.published ++ [(n, via)], outputsDiscardedOnClose := discarded, main } := by
  refine ⟨?_, h.acknowledged, h.once, h.held, h.bytes, h.bound, h.limit, free _ rfl, h.archived, shown, h.full⟩
  have submitted : ({ j with
      publishedFrames := frames, published := j.published ++ [(n, via)], outputsDiscardedOnClose := discarded,
      main } : Input).submitted = j.submitted := same
  rw [submitted]
  exact h.pipe

theorem kept_offer (h : Kept c j) (main : j.main = .offering o) (check : Check) : Kept c (j.offer o check) := by
  have placed := h.placed
  unfold Placed at placed
  rw [main] at placed
  obtain ⟨realtime, number, positive, after⟩ := placed
  have submitted := submitted_of main nofun
  unfold Input.offer
  split
  · exact h.idle submitted _
  · split
    · exact h.idle submitted _
    · exact h.idle submitted _
    · exact h.idle submitted _
    · refine h.publish ?_ submitted.symm fun _ => placed_of_idle
      have shown := h.shown.publish after positive (by rw [if_pos realtime]; omega)
      rw [realtime] at shown
      exact shown

theorem kept_publish (h : Kept c j) (main : j.main = .publishing o) (check : Check) : Kept c (j.publish o check) := by
  have placed := h.placed
  unfold Placed at placed
  rw [main] at placed
  obtain ⟨strict, number, positive, after⟩ := placed
  have submitted := submitted_of main nofun
  cases check with
  | stop => exact h.same (same_thread j _ _ _ _ _ _ _) submitted.symm trivial
  | raised reason => exact h.idle submitted _
  | pass =>
    refine h.publish ?_ submitted.symm fun j' polls => ?_
    · have shown := h.shown.publish after positive (by rw [if_neg (by rw [strict]; decide)]; omega)
      rw [strict] at shown
      exact shown
    · unfold Placed
      rw [polls]
      exact trivial

variable {publish : Bool}

theorem kept_acknowledge (h : Kept c j) (main : j.main = .polling publish) {index : Nat}
    {rest : List Result} (results : j.results = .output o index :: rest) :
    Kept c (j.acknowledge o index rest) ∧ o.number = j.acknowledged.length + 1 := by
  have submitted := submitted_of main nofun
  obtain ⟨t, f, pipe⟩ := h.pipe
  have held := h.held
  have order := pipe.order
  have all := pipe.put
  rw [results] at all
  have put : o.number :: rest.filterMap Result.number = between j.acknowledged.length f := all
  have more : j.acknowledged.length < f := by
    have length := congrArg List.length put
    rw [List.length_cons, between_length] at length
    omega
  rw [between_cons more] at put
  obtain ⟨number, others⟩ := List.cons.inj put
  have archived := pipe.index o index (by rw [results]; exact List.mem_cons_self ..)
  have written := h.archived.2.2
  refine ⟨?_, number⟩
  cases pending : j.pending with
  | nil =>
    rw [pending, List.length_nil] at held
    omega
  | cons first pending' =>
    obtain ⟨host, reserved⟩ := first
    have length : (j.acknowledged ++ [o.number]).length = j.acknowledged.length + 1 := by simp
    have bytes := h.bytes
    rw [pending, List.map_cons, List.sum_cons] at bytes
    rw [pending, List.length_cons] at held
    have bound := h.bound
    have limit := h.limit
    rw [pending, List.length_cons] at limit
    have released : j.acknowledge o index rest = { j with
        results := rest, archivedOutputs := index, acknowledged := j.acknowledged ++ [o.number], pending := pending',
        pendingBytes := j.pendingBytes - reserved } := by
      unfold Input.acknowledge Input.release
      rw [pending]
    have same : (j.acknowledge o index rest).submitted = j.submitted := by
      rw [released]
      rfl
    rw [released] at same ⊢
    refine ⟨⟨t, f, ?_⟩, ?_, ?_, ?_, ?_, ?_, ?_, ?_, ?_, ?_, h.full⟩
    · rw [same]
      refine ⟨pipe.queued, ?_, fun o' index' mem => pipe.index o' index' ?_, pipe.holds, ?_⟩
      · show rest.filterMap Result.number = between (j.acknowledged ++ [o.number]).length f
        rw [length, others]
      · rw [results]
        exact List.mem_cons_of_mem _ mem
      · show (j.acknowledged ++ [o.number]).length ≤ f ∧ _
        rw [length]
        exact ⟨more, order.2⟩
    · show j.acknowledged ++ [o.number] = between 0 (j.acknowledged ++ [o.number]).length
      rw [length, between_snoc (Nat.zero_le _), ← h.acknowledged, number]
    · have once := h.once
      unfold boots at once ⊢
      rw [results] at once
      exact once
    · show j.enqueuedOutputs = (j.acknowledged ++ [o.number]).length + pending'.length
      omega
    · show j.pendingBytes - reserved = (pending'.map (·.2)).sum
      omega
    · show j.pendingBytes - reserved ≤ maxPendingBytes
      omega
    · show pending'.length ≤ c.pendingOutputLimit
      omega
    · unfold Placed
      dsimp only
      rw [main]
      exact trivial
    · show (j.acknowledged ++ [o.number]).length ≤ index ∧ index ≤ j.outputs ∧ j.written = j.outputs
      rw [length, archived, number]
      exact ⟨Nat.le_refl _, by omega, written⟩
    · show Shown c j.published j.enqueuedOutputs (j.acknowledged ++ [o.number]).length
      rw [length]
      refine ⟨h.shown.order, h.shown.via, fun p mem => (h.shown.bound p mem).trans ?_, h.shown.positive⟩
      split <;> omega

theorem kept_pollRound (h : Kept c j) (main : j.main = .polling publish) (stop : Bool) :
    Kept c (j.pollRound c publish stop) := by
  have submitted := submitted_of main nofun
  unfold Input.pollRound
  split
  · exact h.same (same_thread j _ _ _ _ _ _ _) submitted.symm trivial
  · rename_i rest results
    obtain ⟨t, f, pipe⟩ := h.pipe
    refine ⟨⟨t, f, pipe.queued, ?_, fun o index mem => pipe.index o index ?_, pipe.holds, pipe.order⟩, h.acknowledged, ?_,
      h.held, h.bytes, h.bound, h.limit, h.placed, h.archived, h.shown, h.full⟩
    · have put := pipe.put
      rw [results] at put
      exact put
    · rw [results]
      exact List.mem_cons_of_mem _ mem
    · have once := h.once
      unfold boots at once ⊢
      rw [results, List.countP_cons_of_pos rfl] at once
      exact Nat.le_of_succ_le once
  · rename_i o index rest results
    obtain ⟨kept, number⟩ := kept_acknowledge h main results
    have polls : (j.acknowledge o index rest).main = .polling publish ∧
        (j.acknowledge o index rest).acknowledged = j.acknowledged ++ [o.number] ∧
        (j.acknowledge o index rest).published = j.published := by
      unfold Input.acknowledge Input.release
      split <;> exact ⟨main, rfl, rfl⟩
    generalize j.acknowledge o index rest = k at kept polls
    dsimp only
    split
    · exact kept
    · rename_i strict
      have observed := kept.observe o.report
      have same : (k.observeFilter o.report).main = .polling publish ∧
          (k.observeFilter o.report).acknowledged = j.acknowledged ++ [o.number] ∧
          (k.observeFilter o.report).published = j.published := by
        unfold Input.observeFilter
        split <;> exact polls
      generalize k.observeFilter o.report = l at observed same
      have submitted' : l.submitted = l.enqueuedOutputs := by
        unfold Input.submitted
        rw [same.1]
      split
      · exact observed
      · split
        · exact observed.same (same_thread l _ _ _ _ _ _ _) rfl observed.placed
        · split
          · refine observed.same (same_thread l _ _ _ _ _ _ _) ?_ ?_
            · rw [submitted']
              cases publish <;> rfl
            · cases publish <;> trivial
          · refine observed.same (same_thread l _ _ _ _ _ _ _) submitted'.symm ⟨by simpa using strict, ?_, ?_, ?_⟩
            · show o.number = l.acknowledged.length
              rw [same.2.1, List.length_append, List.length_singleton, number]
            · rw [number]
              exact Nat.succ_pos _
            · intro p mem
              have mem' : p ∈ j.published := same.2.2 ▸ mem
              have bound := h.shown.bound p mem'
              rw [if_neg strict] at bound
              omega

theorem kept_finish (h : Kept c j) (main : j.main = .finishing publish) : Kept c (j.finish publish) := by
  have submitted := submitted_of main nofun
  obtain ⟨lower, upper, written⟩ := h.archived
  have read : Kept c { j with archivedOutputs := j.written } := by
    refine ⟨h.pipe, h.acknowledged, h.once, h.held, h.bytes, h.bound, h.limit, h.placed, ⟨?_, ?_, written⟩, h.shown, h.full⟩
    · show j.acknowledged.length ≤ j.written
      omega
    · show j.written ≤ j.outputs
      omega
  unfold Input.finish
  dsimp only
  split
  · refine read.same (same_thread _ _ _ _ _ _ _ _) ?_ ?_
    · cases publish <;> exact submitted.symm
    · cases publish <;> trivial
  · refine read.same (same_thread _ _ _ _ _ _ _ _) ?_ ?_
    · cases publish <;> exact submitted.symm
    · cases publish <;> trivial

theorem kept_proceed (h : Kept c j) (check : Check) (stop : Bool) (failure : Option String) :
    Kept c (j.proceed c check stop failure) := by
  unfold Input.proceed
  split
  · exact h
  · exact kept_submitOutput h ‹_›
  · exact kept_account h ‹_›
  · exact kept_offer h ‹_› check
  · exact kept_pollRound h ‹_› stop
  · exact kept_publish h ‹_› check
  · exact kept_finish h ‹_›
  · rename_i main
    have submitted := submitted_of main nofun
    unfold Input.join
    split <;> exact h.same (same_thread j _ _ _ _ _ _ _) submitted.symm trivial
  · rename_i main
    have submitted := submitted_of main nofun
    unfold Input.settle
    split <;> exact h.same (same_thread j _ _ _ _ _ _ _) submitted.symm trivial

end Smartwheel.Mapping

import Mathlib.Algebra.GroupWithZero.Nat
import Mathlib.Algebra.Order.BigOperators.Group.List
import Smartwheel.Effect.History

/-! `BoundedWorkQueue`: producers reserve room, copy outside the lock and append; consumers take and complete.
A critical section is one step, and so is a change of the counters outside of one. -/
namespace Smartwheel.Driver

structure Entry (α : Type) where
  value : α
  bytes : Nat
deriving DecidableEq

structure BoundedWorkQueue (α : Type) where
  capacityFrames : Nat
  capacityBytes : Nat
  queue : List (Entry α)
  closed : Bool
  received : Nat
  accepted : Nat
  rejected : Nat
  rejectedBytes : Nat
  discarded : Nat
  pendingFrames : Nat
  pendingBytes : Nat
  activeFrames : Nat
  highwaterFrames : Nat
  highwaterBytes : Nat
deriving DecidableEq

section
variable {α : Type} (q : BoundedWorkQueue α)

namespace BoundedWorkQueue

def make (α : Type) (frames bytes : Nat) : BoundedWorkQueue α where
  capacityFrames := frames
  capacityBytes := bytes
  queue := []
  closed := false
  received := 0
  accepted := 0
  rejected := 0
  rejectedBytes := 0
  discarded := 0
  pendingFrames := 0
  pendingBytes := 0
  activeFrames := 0
  highwaterFrames := 0
  highwaterBytes := 0

/-- `++received_`, with which `try_copy` and `reject` begin. -/
def receive : BoundedWorkQueue α := { q with received := q.received + 1 }

/-- The rest of `reject`, and what `try_copy` does where it has no room. -/
def refuse (bytes : Nat) : BoundedWorkQueue α :=
  { q with rejected := q.rejected + 1, rejectedBytes := q.rejectedBytes + bytes }

/-- The first critical section of `try_copy`: whether there is room, which is then reserved. -/
def reserve (bytes : Nat) : Bool × BoundedWorkQueue α :=
  if q.closed ∨ bytes = 0 ∨ q.capacityBytes < bytes ∨ q.capacityFrames ≤ q.pendingFrames ∨
      q.capacityBytes - q.pendingBytes < bytes then (false, q.refuse bytes)
  else
    (true, { q with
      pendingFrames := q.pendingFrames + 1
      pendingBytes := q.pendingBytes + bytes
      highwaterFrames := max q.highwaterFrames (q.pendingFrames + 1)
      highwaterBytes := max q.highwaterBytes (q.pendingBytes + bytes) })

def accept (e : Entry α) : BoundedWorkQueue α := { q with queue := q.queue ++ [e], accepted := q.accepted + 1 }

def rollback (bytes : Nat) : BoundedWorkQueue α :=
  { q with
    pendingFrames := q.pendingFrames - 1
    pendingBytes := q.pendingBytes - bytes
    rejected := q.rejected + 1
    rejectedBytes := q.rejectedBytes + bytes }

/-- The loop of a `take` of the latest entry. -/
def discardOld (q : BoundedWorkQueue α) : List (Entry α) → BoundedWorkQueue α
  | old :: e :: rest =>
    { q with
      pendingFrames := q.pendingFrames - 1
      pendingBytes := q.pendingBytes - old.bytes
      discarded := q.discarded + 1 }.discardOld (e :: rest)
  | entries => { q with queue := entries }

/-- `take`; nothing where it waits, and no entry where it returns false. -/
def take (latest : Bool) : Option (Option (Entry α) × BoundedWorkQueue α) :=
  let q' := if latest then q.discardOld q.queue else q
  match q'.queue with
  | [] => if q.closed ∧ q.pendingFrames = q.activeFrames then some (none, q) else none
  | e :: rest => some (some e, { q' with queue := rest, activeFrames := q'.activeFrames + 1 })

def complete (bytes : Nat) : Except String (BoundedWorkQueue α) :=
  if q.activeFrames = 0 ∨ q.pendingFrames = 0 ∨ q.pendingBytes < bytes then
    .error "queue completion without matching active item"
  else
    .ok { q with
      activeFrames := q.activeFrames - 1
      pendingFrames := q.pendingFrames - 1
      pendingBytes := q.pendingBytes - bytes }

/-- The counter of `discard_active`, which then completes. -/
def discardActive : BoundedWorkQueue α := { q with discarded := q.discarded + 1 }

def close : BoundedWorkQueue α := { q with closed := true }

def reopen : Except String (BoundedWorkQueue α) :=
  if q.pendingFrames ≠ 0 then .error "cannot reopen undrained queue" else .ok { q with closed := false }

end BoundedWorkQueue

inductive Call where
  | tryCopy (bytes : Nat)
  | reject (bytes : Nat)
deriving DecidableEq

inductive Event (α : Type) where
  | accepted (e : Entry α)
  | taken (e : Entry α)
  | discarded (e : Entry α)
deriving DecidableEq

structure World (α : Type) where
  queue : BoundedWorkQueue α
  arriving : List Call
  reserved : List Nat
  active : List (Entry α)
  log : List (Event α)

/-- The entries a `take` passes over. -/
def passed (latest : Bool) (entries : List (Entry α)) : List (Entry α) := if latest then entries.dropLast else []

namespace World
variable (w : World α)

def arrive (call : Call) : World α := { w with queue := w.queue.receive, arriving := call :: w.arriving }

/-- A call to `try_copy` gets its room or is rejected. -/
def reserve (bytes : Nat) : World α :=
  match w.queue.reserve bytes with
  | (true, q) => { w with queue := q, reserved := bytes :: w.reserved }
  | (false, q) => { w with queue := q }

def accept (e : Entry α) : World α := { w with queue := w.queue.accept e, log := .accepted e :: w.log }

/-- What a `take` that does not wait returns and leaves. -/
def take (latest : Bool) : Option (Option (Entry α) × World α) :=
  match w.queue.take latest with
  | none => none
  | some (none, q) => some (none, { w with queue := q })
  | some (some e, q) =>
    some (some e, { w with
      queue := q
      active := e :: w.active
      log := .taken e :: ((passed latest w.queue.queue).map Event.discarded).reverse ++ w.log })

def complete (bytes : Nat) : World α :=
  match w.queue.complete bytes with
  | .ok q => { w with queue := q }
  | .error _ => w

def reopen : World α :=
  match w.queue.reopen with
  | .ok q => { w with queue := q }
  | .error _ => w

end World

inductive Step : World α → World α → Prop
  | arrive {w : World α} (call : Call) : Step w (w.arrive call)
  | reserve {w : World α} (bytes : Nat) (before after : List Call)
      (calls : w.arriving = before ++ .tryCopy bytes :: after) :
      Step w ({ w with arriving := before ++ after }.reserve bytes)
  | reject {w : World α} (bytes : Nat) (before after : List Call)
      (calls : w.arriving = before ++ .reject bytes :: after) :
      Step w { w with arriving := before ++ after, queue := w.queue.refuse bytes }
  | accept {w : World α} (e : Entry α) (before after : List Nat) (copies : w.reserved = before ++ e.bytes :: after) :
      Step w ({ w with reserved := before ++ after }.accept e)
  | rollback {w : World α} (bytes : Nat) (before after : List Nat)
      (copies : w.reserved = before ++ bytes :: after) :
      Step w { w with reserved := before ++ after, queue := w.queue.rollback bytes }
  | take {w w' : World α} (latest : Bool) (entry : Option (Entry α)) (returns : w.take latest = some (entry, w')) :
      Step w w'
  | complete {w : World α} (e : Entry α) (before after : List (Entry α))
      (owned : w.active = before ++ e :: after) :
      Step w ({ w with active := before ++ after }.complete e.bytes)
  | discardActive {w : World α} (e : Entry α) (before after : List (Entry α))
      (owned : w.active = before ++ e :: after) :
      Step w ({ w with active := before ++ after, queue := w.queue.discardActive }.complete e.bytes)
  | close {w : World α} : Step w { w with queue := w.queue.close }
  | reopen {w : World α} : Step w w.reopen

def World.initial (α : Type) (frames bytes : Nat) : World α where
  queue := .make α frames bytes
  arriving := []
  reserved := []
  active := []
  log := []

end

/-! ### What the counters of the work queue say in every state between two critical sections, and that entries leave
it in the order in which they were accepted. -/

open Effect

section
variable {α : Type}

def accepted (log : List (Event α)) : List (Entry α) :=
  (log.filterMap fun e => match e with
    | .accepted entry => some entry
    | _ => none).reverse

def removed (log : List (Event α)) : List (Entry α) :=
  (log.filterMap fun e => match e with
    | .taken entry | .discarded entry => some entry
    | _ => none).reverse

def size (entries : List (Entry α)) : Nat := (entries.map (·.bytes)).sum

@[simp] theorem size_nil : size ([] : List (Entry α)) = 0 := rfl
@[simp] theorem size_cons (e : Entry α) (l : List (Entry α)) : size (e :: l) = e.bytes + size l := rfl
@[simp] theorem size_append (l l' : List (Entry α)) : size (l ++ l') = size l + size l' := by simp [size]

structure Conserved (w : World α) : Prop where
  frames : w.queue.pendingFrames = w.queue.queue.length + w.active.length + w.reserved.length
  active : w.queue.activeFrames = w.active.length
  bytes : w.queue.pendingBytes = size w.queue.queue + size w.active + w.reserved.sum
  framesFit : w.queue.pendingFrames ≤ w.queue.capacityFrames
  bytesFit : w.queue.pendingBytes ≤ w.queue.capacityBytes
  received : w.queue.received =
    w.queue.accepted + w.queue.rejected + w.reserved.length + w.arriving.length
  order : accepted w.log = removed w.log ++ w.queue.queue

theorem initial_conserved (frames bytes : Nat) : Conserved (World.initial α frames bytes) :=
  ⟨rfl, rfl, rfl, Nat.zero_le _, Nat.zero_le _, rfl, rfl⟩

theorem discardOld_eq (entries : List (Entry α)) (some : entries ≠ []) (q : BoundedWorkQueue α) :
    q.discardOld entries =
      { q with
        queue := [entries.getLast some]
        pendingFrames := q.pendingFrames - entries.dropLast.length
        pendingBytes := q.pendingBytes - size entries.dropLast
        discarded := q.discarded + entries.dropLast.length } := by
  induction entries generalizing q with
  | nil => exact absurd rfl some
  | cons old rest ih =>
    cases rest with
    | nil => rfl
    | cons e rest =>
      rw [BoundedWorkQueue.discardOld, ih (List.cons_ne_nil e rest)]
      simp only [List.dropLast_cons_cons, List.length_cons, size_cons, List.getLast_cons_cons]
      congr 1
      all_goals omega

/-- A queue from which `take` returned an entry, having passed over others. -/
def BoundedWorkQueue.taken (q : BoundedWorkQueue α) (above rest : List (Entry α)) : BoundedWorkQueue α :=
  { q with
    queue := rest
    pendingFrames := q.pendingFrames - above.length
    pendingBytes := q.pendingBytes - size above
    discarded := q.discarded + above.length
    activeFrames := q.activeFrames + 1 }

variable {e : Entry α}

theorem take_entry {q q' : BoundedWorkQueue α} {latest : Bool} (h : q.take latest = some (some e, q')) :
    ∃ rest, q.queue = passed latest q.queue ++ e :: rest ∧ q' = q.taken (passed latest q.queue) rest := by
  unfold BoundedWorkQueue.take at h
  cases latest with
  | false =>
    cases entries : q.queue with
    | nil =>
      simp only [Bool.false_eq_true, if_false, entries] at h
      split at h <;> cases h
    | cons first rest =>
      simp only [Bool.false_eq_true, if_false, entries] at h
      cases h
      exact ⟨rest, rfl, rfl⟩
  | true =>
    by_cases some : q.queue = []
    · simp only [if_true, some, BoundedWorkQueue.discardOld] at h
      split at h <;> cases h
    · simp only [if_true, discardOld_eq q.queue some] at h
      cases h
      exact ⟨[], (List.dropLast_append_getLast some).symm, rfl⟩

theorem take_none {q q' : BoundedWorkQueue α} {latest : Bool} (h : q.take latest = some (none, q')) :
    q' = q ∧ q.queue = [] ∧ q.closed = true ∧ q.pendingFrames = q.activeFrames := by
  have empty : q.queue = [] := by
    by_contra some
    unfold BoundedWorkQueue.take at h
    cases latest with
    | false =>
      obtain ⟨first, rest, entries⟩ := List.exists_cons_of_ne_nil some
      simp only [Bool.false_eq_true, if_false, entries] at h
      cases h
    | true =>
      simp only [if_true, discardOld_eq q.queue some] at h
      cases h
  have none_ : (if latest then q.discardOld q.queue else q).queue = [] := by
    rw [empty]
    cases latest with
    | false => exact empty
    | true => rfl
  unfold BoundedWorkQueue.take at h
  simp only [none_] at h
  split at h
  · rename_i ended
    cases h
    exact ⟨rfl, empty, ended.1, ended.2⟩
  · cases h

theorem removed_passed (above : List (Entry α)) (log : List (Event α)) :
    removed ((above.map Event.discarded).reverse ++ log) = removed log ++ above ∧
      accepted ((above.map Event.discarded).reverse ++ log) = accepted log := by
  refine ⟨?_, ?_⟩
  · simp [removed, List.filterMap_append]
  · simp [accepted, List.filterMap_append]

variable {w : World α}

theorem conserved_take {w' : World α} {latest : Bool} {entry : Option (Entry α)} (hc : Conserved w)
    (h : w.take latest = some (entry, w')) : Conserved w' := by
  unfold World.take at h
  split at h
  · cases h
  · rename_i q returns
    cases h
    obtain ⟨rfl, -⟩ := take_none returns
    exact hc
  · rename_i e q returns
    cases h
    obtain ⟨rest, entries, rfl⟩ := take_entry returns
    have frames := hc.frames
    have bytes := hc.bytes
    have passing := removed_passed (passed latest w.queue.queue) w.log
    have count := congrArg List.length entries
    have sizes := congrArg size entries
    rw [List.length_append, List.length_cons] at count
    rw [size_append, size_cons] at sizes
    have framesFit := hc.framesFit
    have bytesFit := hc.bytesFit
    refine ⟨?_, congrArg (· + 1) hc.active, ?_, ?_, ?_, hc.received, ?_⟩
    · show w.queue.pendingFrames - _ = rest.length + (w.active.length + 1) + w.reserved.length
      omega
    · show w.queue.pendingBytes - _ = size rest + (e.bytes + size w.active) + w.reserved.sum
      omega
    · exact (Nat.sub_le _ _).trans framesFit
    · exact (Nat.sub_le _ _).trans bytesFit
    · have left : removed (.taken e :: (((passed latest w.queue.queue).map Event.discarded).reverse ++ w.log)) =
          removed w.log ++ passed latest w.queue.queue ++ [e] := by
        rw [← passing.1]
        exact List.reverse_cons
      have whole := hc.order.trans (congrArg (removed w.log ++ ·) entries)
      show accepted (((passed latest w.queue.queue).map Event.discarded).reverse ++ w.log) =
        removed (.taken e :: (((passed latest w.queue.queue).map Event.discarded).reverse ++ w.log)) ++ rest
      rw [passing.2, left, List.append_assoc, List.append_assoc]
      exact whole

theorem complete_ok {before after : List (Entry α)} (hc : Conserved w) (owned : w.active = before ++ e :: after) :
    w.queue.complete e.bytes = .ok { w.queue with
      activeFrames := w.queue.activeFrames - 1
      pendingFrames := w.queue.pendingFrames - 1
      pendingBytes := w.queue.pendingBytes - e.bytes } := by
  have frames := hc.frames
  have active := hc.active
  have bytes := hc.bytes
  rw [owned, List.length_append, List.length_cons] at frames active
  rw [owned, size_append, size_cons] at bytes
  unfold BoundedWorkQueue.complete
  rw [if_neg (by omega)]

theorem conserved_complete {before after : List (Entry α)} (hc : Conserved w)
    (owned : w.active = before ++ e :: after) : Conserved ({ w with active := before ++ after }.complete e.bytes) := by
  have ok := complete_ok hc owned
  have frames := hc.frames
  have active := hc.active
  have bytes := hc.bytes
  have framesFit := hc.framesFit
  have bytesFit := hc.bytesFit
  rw [owned, List.length_append, List.length_cons] at frames active
  rw [owned, size_append, size_cons] at bytes
  have length : (before ++ after).length = before.length + after.length := List.length_append
  have sizes := size_append before after
  unfold World.complete
  rw [ok]
  refine ⟨?_, ?_, ?_, (Nat.sub_le _ _).trans framesFit, (Nat.sub_le _ _).trans bytesFit, hc.received, hc.order⟩
  · show w.queue.pendingFrames - 1 = w.queue.queue.length + (before ++ after).length + w.reserved.length
    omega
  · show w.queue.activeFrames - 1 = (before ++ after).length
    omega
  · show w.queue.pendingBytes - e.bytes = size w.queue.queue + size (before ++ after) + w.reserved.sum
    omega

theorem conserved_discardActive (hc : Conserved w) : Conserved { w with queue := w.queue.discardActive } :=
  ⟨hc.frames, hc.active, hc.bytes, hc.framesFit, hc.bytesFit, hc.received, hc.order⟩

variable {bytes : Nat}

theorem conserved_reserve {before after : List Call} (hc : Conserved w)
    (calls : w.arriving = before ++ .tryCopy bytes :: after) :
    Conserved ({ w with arriving := before ++ after }.reserve bytes) := by
  have frames := hc.frames
  have sum := hc.bytes
  have received := hc.received
  have framesFit := hc.framesFit
  have bytesFit := hc.bytesFit
  rw [calls, List.length_append, List.length_cons] at received
  have length : (before ++ after).length = before.length + after.length := List.length_append
  unfold World.reserve BoundedWorkQueue.reserve
  by_cases full : w.queue.closed ∨ bytes = 0 ∨ w.queue.capacityBytes < bytes ∨
      w.queue.capacityFrames ≤ w.queue.pendingFrames ∨ w.queue.capacityBytes - w.queue.pendingBytes < bytes
  · simp only [if_pos full]
    refine ⟨hc.frames, hc.active, hc.bytes, framesFit, bytesFit, ?_, hc.order⟩
    show w.queue.received = w.queue.accepted + (w.queue.rejected + 1) + w.reserved.length + (before ++ after).length
    omega
  · simp only [if_neg full]
    refine ⟨?_, hc.active, ?_, ?_, ?_, ?_, hc.order⟩
    · show w.queue.pendingFrames + 1 = w.queue.queue.length + w.active.length + (w.reserved.length + 1)
      omega
    · show w.queue.pendingBytes + bytes = size w.queue.queue + size w.active + (bytes :: w.reserved).sum
      rw [List.sum_cons]
      omega
    · show w.queue.pendingFrames + 1 ≤ w.queue.capacityFrames
      omega
    · show w.queue.pendingBytes + bytes ≤ w.queue.capacityBytes
      omega
    · show w.queue.received = w.queue.accepted + w.queue.rejected + (w.reserved.length + 1) + (before ++ after).length
      omega

variable {after before : List Nat}

theorem conserved_accept (hc : Conserved w) (copies : w.reserved = before ++ e.bytes :: after) :
    Conserved ({ w with reserved := before ++ after }.accept e) := by
  have frames := hc.frames
  have bytes := hc.bytes
  have received := hc.received
  rw [copies, List.length_append, List.length_cons] at frames received
  rw [copies, List.sum_append, List.sum_cons] at bytes
  have length : (before ++ after).length = before.length + after.length := List.length_append
  have sum : (before ++ after).sum = before.sum + after.sum := List.sum_append
  have newer : accepted (.accepted e :: w.log) = accepted w.log ++ [e] := List.reverse_cons
  refine ⟨?_, hc.active, ?_, hc.framesFit, hc.bytesFit, ?_, ?_⟩
  · show w.queue.pendingFrames = (w.queue.queue ++ [e]).length + w.active.length + (before ++ after).length
    rw [List.length_append, List.length_singleton]
    omega
  · show w.queue.pendingBytes = size (w.queue.queue ++ [e]) + size w.active + (before ++ after).sum
    rw [size_append, size_cons, size_nil]
    omega
  · show w.queue.received = w.queue.accepted + 1 + w.queue.rejected + (before ++ after).length + w.arriving.length
    omega
  · exact newer.trans (by rw [hc.order, List.append_assoc]; rfl)

theorem rollback_restores (hc : Conserved w) (copies : w.reserved = before ++ bytes :: after) :
    (w.queue.rollback bytes).pendingFrames + 1 = w.queue.pendingFrames ∧
      (w.queue.rollback bytes).pendingBytes + bytes = w.queue.pendingBytes := by
  have frames := hc.frames
  have sum := hc.bytes
  rw [copies, List.length_append, List.length_cons] at frames
  rw [copies, List.sum_append, List.sum_cons] at sum
  simp only [BoundedWorkQueue.rollback]
  omega

theorem conserved_rollback (hc : Conserved w) (copies : w.reserved = before ++ bytes :: after) :
    Conserved { w with reserved := before ++ after, queue := w.queue.rollback bytes } := by
  have restored := rollback_restores hc copies
  have frames := hc.frames
  have sums := hc.bytes
  have received := hc.received
  have framesFit := hc.framesFit
  have bytesFit := hc.bytesFit
  rw [copies, List.length_append, List.length_cons] at frames received
  rw [copies, List.sum_append, List.sum_cons] at sums
  have length : (before ++ after).length = before.length + after.length := List.length_append
  have sum : (before ++ after).sum = before.sum + after.sum := List.sum_append
  refine ⟨?_, hc.active, ?_, (Nat.sub_le _ _).trans framesFit, (Nat.sub_le _ _).trans bytesFit, ?_, hc.order⟩
  · show (w.queue.rollback bytes).pendingFrames = w.queue.queue.length + w.active.length + (before ++ after).length
    omega
  · show (w.queue.rollback bytes).pendingBytes = size w.queue.queue + size w.active + (before ++ after).sum
    omega
  · show w.queue.received = w.queue.accepted + (w.queue.rejected + 1) + (before ++ after).length + w.arriving.length
    omega

theorem conserved_reject {before after : List Call} (hc : Conserved w)
    (calls : w.arriving = before ++ .reject bytes :: after) :
    Conserved { w with arriving := before ++ after, queue := w.queue.refuse bytes } := by
  have received := hc.received
  rw [calls, List.length_append, List.length_cons] at received
  have length : (before ++ after).length = before.length + after.length := List.length_append
  refine ⟨hc.frames, hc.active, hc.bytes, hc.framesFit, hc.bytesFit, ?_, hc.order⟩
  show w.queue.received = w.queue.accepted + (w.queue.rejected + 1) + w.reserved.length + (before ++ after).length
  omega

theorem conserved_reopen (hc : Conserved w) : Conserved w.reopen := by
  unfold World.reopen BoundedWorkQueue.reopen
  split
  · rename_i q reopened
    split at reopened
    · cases reopened
    · cases reopened
      exact ⟨hc.frames, hc.active, hc.bytes, hc.framesFit, hc.bytesFit, hc.received, hc.order⟩
  · exact hc

theorem conserved_step {w' : World α} (step : Step w w') (hc : Conserved w) : Conserved w' := by
  cases step with
  | arrive call =>
    have received := hc.received
    refine ⟨hc.frames, hc.active, hc.bytes, hc.framesFit, hc.bytesFit, ?_, hc.order⟩
    show w.queue.received + 1 = w.queue.accepted + w.queue.rejected + w.reserved.length + (w.arriving.length + 1)
    omega
  | reserve bytes before after calls => exact conserved_reserve hc calls
  | reject bytes before after calls => exact conserved_reject hc calls
  | accept e before after copies => exact conserved_accept hc copies
  | rollback bytes before after copies => exact conserved_rollback hc copies
  | take latest entry returns => exact conserved_take hc returns
  | complete e before after owned => exact conserved_complete hc owned
  | discardActive e before after owned => exact conserved_complete (conserved_discardActive hc) owned
  | close => exact ⟨hc.frames, hc.active, hc.bytes, hc.framesFit, hc.bytesFit, hc.received, hc.order⟩
  | reopen => exact conserved_reopen hc

/-- In every state: what is pending is queued, active or reserved, in number and in size, and fits; what was received
is accepted, rejected, reserved or not decided yet; entries leave in the order of acceptance. A copy that throws gives
its reservation back and counts as rejected, and a `take` returns false only when the queue is closed and every entry
was taken or passed over. -/
theorem work_conserved {w : World α} {frames bytes : Nat} (run : Path Step (World.initial α frames bytes) w) :
    w.queue.pendingFrames = w.queue.queue.length + w.active.length + w.reserved.length ∧
      w.queue.pendingBytes = size w.queue.queue + size w.active + w.reserved.sum ∧
      w.queue.pendingFrames ≤ w.queue.capacityFrames ∧ w.queue.pendingBytes ≤ w.queue.capacityBytes ∧
      w.queue.received = w.queue.accepted + w.queue.rejected + w.reserved.length + w.arriving.length ∧
      accepted w.log = removed w.log ++ w.queue.queue ∧
      (∀ size before after, w.reserved = before ++ size :: after →
        (w.queue.rollback size).pendingFrames + 1 = w.queue.pendingFrames ∧
          (w.queue.rollback size).pendingBytes + size = w.queue.pendingBytes ∧
          (w.queue.rollback size).rejected = w.queue.rejected + 1) ∧
      (∀ latest w', w.take latest = some (none, w') →
        w.queue.closed = true ∧ w.reserved = [] ∧ accepted w.log = removed w.log) := by
  have hc : Conserved w := run.keeps (fun _ _ => conserved_step) (initial_conserved frames bytes)
  refine ⟨hc.frames, hc.bytes, hc.framesFit, hc.bytesFit, hc.received, hc.order, fun size before after copies => ?_,
    fun latest w' returns => ?_⟩
  · have restored := rollback_restores hc copies
    exact ⟨restored.1, restored.2, rfl⟩
  · unfold World.take at returns
    split at returns
    · cases returns
    · rename_i q none_
      obtain ⟨-, empty, closed, drained⟩ := take_none none_
      have frames := hc.frames
      have active := hc.active
      rw [empty, List.length_nil] at frames
      have order := hc.order
      rw [empty, List.append_nil] at order
      exact ⟨closed, List.eq_nil_of_length_eq_zero (by omega), order⟩
    · cases returns

end

namespace Bench

def start : World String := World.initial String 2 2

def counted : World String := start.arrive (.tryCopy 1)

def reserved : World String := { counted with arriving := [] }.reserve 1

def thrown : World String := { reserved with reserved := [], queue := reserved.queue.rollback 1 }

def queued : World String := { reserved with reserved := [] }.accept ⟨"first", 1⟩

def twice : World String :=
  let w := { queued.arrive (.tryCopy 1) with arriving := [] }.reserve 1
  { w with reserved := [] }.accept ⟨"second", 1⟩

/-- The entry of a `take` is active. -/
def takes (latest : Bool) (w : World String) : World String := ((w.take latest).map (·.2)).getD w

def closes (w : World String) : World String := { w with queue := w.queue.close }

theorem counts : Path Step start counted := .single (.arrive _)

theorem reserves : Path Step start reserved := counts.tail (.reserve 1 [] [] rfl)

theorem throws : Path Step start thrown := reserves.tail (.rollback 1 [] [] rfl)

theorem queues : Path Step start queued := reserves.tail (.accept ⟨"first", 1⟩ [] [] rfl)

theorem queues_twice : Path Step start twice :=
  ((queues.tail (.arrive (.tryCopy 1))).tail (.reserve 1 [] [] rfl)).tail (.accept ⟨"second", 1⟩ [] [] rfl)

theorem takes_first : Path Step start (closes (takes false queued)) :=
  (queues.tail (.take false (some ⟨"first", 1⟩) rfl)).tail .close

theorem takes_latest : Path Step start (closes ({ takes true twice with active := [] }.complete 1)) :=
  ((queues_twice.tail (.take true (some ⟨"second", 1⟩) rfl)).tail (.complete ⟨"second", 1⟩ [] [] rfl)).tail .close

end Bench

/-- A call that has counted itself is received and nothing else; a `take` returns false while an entry is active, and
where an accepted entry was passed over; a copy that throws leaves the high-water mark it has made. -/
theorem counters_apart :
    (∃ w : World String, Path Step (World.initial String 2 2) w ∧
      w.queue.received ≠ w.queue.accepted + w.queue.rejected + w.reserved.length) ∧
    (∃ w : World String, Path Step (World.initial String 2 2) w ∧
      (w.take false).map (·.1) = some none ∧ w.active ≠ []) ∧
    (∃ w : World String, Path Step (World.initial String 2 2) w ∧ (w.take false).map (·.1) = some none ∧
      ∃ e ∈ accepted w.log, Event.taken e ∉ w.log) ∧
    ∃ w : World String, Path Step (World.initial String 2 2) w ∧ w.reserved = [] ∧
      w.queue.highwaterFrames ≠ (World.initial String 2 2).queue.highwaterFrames ∧ accepted w.log = [] := by
  refine ⟨⟨_, Bench.counts, by decide⟩, ⟨_, Bench.takes_first, by decide +kernel, by decide +kernel⟩,
    ⟨_, Bench.takes_latest, by decide +kernel, ⟨"first", 1⟩, by decide +kernel, by decide +kernel⟩,
    ⟨_, Bench.throws, by decide, by decide, by decide⟩⟩

theorem bench_work_conserved :
    (Bench.closes (Bench.takes false Bench.queued)).queue.pendingFrames = 1 ∧
      (Bench.closes (Bench.takes false Bench.queued)).queue.pendingFrames ≤ 2 :=
  ⟨by decide +kernel, (work_conserved Bench.takes_first).2.2.1⟩

section
variable {α : Type} {w : World α}

/-- Where no call comes any more. -/
def Closing (entries : List (Entry α)) (w : World α) : Prop :=
  Conserved w ∧ w.queue.closed = true ∧ accepted w.log = entries

def work (w : World α) : ℕ := 2 * w.queue.queue.length + w.active.length + w.reserved.length

theorem closing_next {entries : List (Entry α)} (h : Closing entries w) (left : 0 < work w) :
    ∃ w', Step w w' ∧ Closing entries w' ∧ work w' < work w := by
  obtain ⟨hc, closed, log⟩ := h
  unfold work at left ⊢
  cases copies : w.reserved with
  | cons bytes rest =>
    have step : Step w _ := .rollback bytes [] rest copies
    exact ⟨_, step, ⟨conserved_step step hc, closed, log⟩, Nat.lt_succ_self _⟩
  | nil =>
    cases owned : w.active with
    | cons e rest =>
      have whole : w.active = [] ++ e :: rest := owned
      have step : Step w _ := .complete e [] rest whole
      refine ⟨_, step, ⟨conserved_step step hc, ?_⟩, ?_⟩ <;> simp only [World.complete, complete_ok hc whole]
      · exact ⟨closed, log⟩
      · rw [copies]
        exact Nat.lt_succ_self _
    | nil =>
      cases queue : w.queue.queue with
      | nil => simp [queue, owned, copies] at left
      | cons e rest =>
        have step : Step w _ := .take false (some e) (by rw [World.take, BoundedWorkQueue.take, if_neg Bool.false_ne_true, queue])
        refine ⟨_, step, ⟨conserved_step step hc, closed, log⟩, ?_⟩
        dsimp only
        rw [owned, copies]
        simp only [List.length_cons, List.length_nil]
        omega

/-- Once the queue is closed, its end can be reached without another entry: no entry that was taken is refused when it is
completed, and every `take` returns false once all have left. -/
theorem close_drains {frames bytes : Nat} (run : Path Step (World.initial α frames bytes) w) (closed : w.queue.closed = true) :
    (∀ e ∈ w.active, (w.queue.complete e.bytes).isOk = true) ∧
      ∃ w', Path Step w w' ∧ removed w'.log = accepted w.log ∧ ∀ latest, w'.take latest = some (none, w') := by
  have hc : Conserved w := run.keeps (fun _ _ => conserved_step) (initial_conserved frames bytes)
  refine ⟨fun e owned => ?_, ?_⟩
  · obtain ⟨before, after, active⟩ := List.append_of_mem owned
    rw [complete_ok hc active]
    rfl
  · obtain ⟨w', path, ⟨hc', closed', log⟩, zero⟩ := Path.descends work (fun _ => closing_next) ⟨hc, closed, rfl⟩
    obtain ⟨⟨queue, -⟩, reserved⟩ : (w'.queue.queue = [] ∧ w'.active = []) ∧ w'.reserved = [] := by simpa [work] using zero
    have order := hc'.order
    rw [queue, List.append_nil, log] at order
    refine ⟨w', path, order.symm, fun latest => ?_⟩
    have same : w'.queue.pendingFrames = w'.queue.activeFrames := by simp [hc'.frames, hc'.active, queue, reserved]
    unfold World.take BoundedWorkQueue.take
    cases latest <;> simp [queue, BoundedWorkQueue.discardOld, closed', same]

end

theorem bench_close_drains : ∃ w', Path Step (Bench.closes Bench.twice) w' ∧
    removed w'.log = accepted (Bench.closes Bench.twice).log ∧ ∀ latest, w'.take latest = some (none, w') :=
  (close_drains (Bench.queues_twice.tail .close) rfl).2

end Smartwheel.Driver

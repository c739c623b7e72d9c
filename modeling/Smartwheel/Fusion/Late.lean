import Smartwheel.Fusion.Bench
import Smartwheel.Fusion.CheckSpec

/-! Stamps against sequences: a frame that is newer than all of its stream is compared with the newest, and one that
comes late is compared with nothing. -/
namespace Smartwheel.Fusion
open Effect Effect.Program

/-- A frame as `_check` records it. -/
structure Entry where
  stream : Side × String
  seq : Int
  stamp : Int
deriving DecidableEq

def State.Admits (c : Config) (s : State) (head : Head) (seq : Int) : Prop :=
  (s.epochs head.side).any (· ≠ head.epoch) = false ∧ 0 ≤ seq ∧
    ((s.sequenceStampHighwater (head.side, head.epoch)).any fun high => high.1 < seq ∧ head.stamp ≤ high.2) = false ∧
    rawKey c head.side head.epoch seq ∉ s.seen ∧ ¬s.tooOld c.policy (head.side, head.epoch) seq

instance (c : Config) (s : State) (head : Head) (seq : Int) : Decidable (s.Admits c head seq) := by
  unfold State.Admits
  infer_instance

def State.entryOf (c : Config) (s : State) (head : Head) (frame : Frame) : Option Entry :=
  match frame.frameSequence with
  | .ok seq => if s.Admits c head seq then some ⟨(head.side, head.epoch), seq, head.stamp⟩ else none
  | .error _ => none

/-- What `_check` records of a frame that is pushed. -/
def entry (c : Config) : Event → Option Entry
  | .pushed frame now s =>
    match header c frame now with
    | .ok head => s.entryOf c head frame
    | .error _ => none
  | _ => none

def entries (c : Config) (log : List Event) : List Entry := log.filterMap (entry c)

/-- What `_check` returns for a frame that is pushed. -/
def accepted (c : Config) : Event → Option (Side × Checked)
  | .pushed frame now s =>
    match (check c frame now ⟨s, []⟩).1 with
    | .value result => some result
    | _ => none
  | _ => none

structure InOrder (x y : Entry) : Prop where
  lower : x.seq < y.seq → x.stamp < y.stamp
  same : x.seq = y.seq → x.stamp = y.stamp

def LateInOrder (c : Config) : Event → List Event → Prop
  | .pushed frame now s, earlier => ∀ x ∈ entry c (.pushed frame now s),
      (∃ high ∈ s.sequenceStampHighwater x.stream, x.seq ≤ high.1) →
      ∀ y ∈ entries c earlier, y.stream = x.stream → InOrder x y ∧ InOrder y x
  | _, _ => True

def Orderly (es : List Entry) : Prop := ∀ x ∈ es, ∀ y ∈ es, x.stream = y.stream → InOrder x y

section check
variable {c : Config} {w : World} {frame : Frame} {now : Int} {head : Head}

def Tops (es : List Entry) (highwater : Side × String → Option (Int × Int)) : Prop :=
  ∀ stream, match highwater stream with
    | none => ∀ x ∈ es, x.stream ≠ stream
    | some high => ⟨stream, high.1, high.2⟩ ∈ es ∧ ∀ x ∈ es, x.stream = stream → x.seq ≤ high.1

def marked (x : Entry) (highwater : Side × String → Option (Int × Int)) : Side × String → Option (Int × Int) :=
  if (highwater x.stream).all fun high => high.1 < x.seq then Function.update highwater x.stream (some (x.seq, x.stamp))
  else highwater

theorem Tops.cons {es : List Entry} {highwater : Side × String → Option (Int × Int)} (h : Tops es highwater) (x : Entry) :
    Tops (x :: es) (marked x highwater) := by
  intro stream
  unfold marked
  by_cases newest : (highwater x.stream).all fun high => high.1 < x.seq
  · rw [if_pos newest]
    by_cases own : stream = x.stream
    · subst own
      rw [Function.update_self]
      refine ⟨List.mem_cons_self, fun y there same => ?_⟩
      rcases List.mem_cons.mp there with rfl | old
      · exact le_rfl
      · have top := h x.stream
        cases known : highwater x.stream with
        | none =>
          rw [known] at top
          exact absurd same (top y old)
        | some high =>
          rw [known] at top newest
          have above : high.1 < x.seq := by simpa using newest
          exact (top.2 y old same).trans (le_of_lt above)
    · rw [Function.update_of_ne own]
      have top := h stream
      cases known : highwater stream with
      | none =>
        rw [known] at top
        intro y there
        rcases List.mem_cons.mp there with rfl | old
        · exact fun same => own same.symm
        · exact top y old
      | some high =>
        rw [known] at top
        refine ⟨List.mem_cons_of_mem _ top.1, fun y there same => ?_⟩
        rcases List.mem_cons.mp there with rfl | old
        · exact absurd same.symm own
        · exact top.2 y old same
  · rw [if_neg newest]
    have top := h stream
    cases known : highwater stream with
    | none =>
      rw [known] at top
      intro y there
      rcases List.mem_cons.mp there with rfl | old
      · intro same
        rw [same, known] at newest
        exact newest rfl
      · exact top y old
    | some high =>
      rw [known] at top
      refine ⟨List.mem_cons_of_mem _ top.1, fun y there same => ?_⟩
      rcases List.mem_cons.mp there with rfl | old
      · rw [same, known] at newest
        simpa using newest
      · exact top.2 y old same

def Marks (w : World) (x : Option Entry) (w' : World) : Prop :=
  w'.log = w.log ∧ w'.state.sequenceStampHighwater = (x.map marked).getD id w.state.sequenceStampHighwater

theorem enroll_marks (frame : Frame) (head : Head) (w : World) :
    (enroll c frame head).wp (fun _ w' => Marks w (w.state.entryOf c head frame) w') w := by
  unfold enroll State.entryOf
  simp only [wp_bind, wp_get, andThen_value, change, wp_modify, wp_raiseIf, andThen_raised]
  by_cases changed : (w.state.epochs head.side).any (· ≠ head.epoch) = true
  · rw [if_pos changed]
    have refused : ∀ seq, ¬w.state.Admits c head seq := fun seq h => absurd (changed.symm.trans h.1) (by simp)
    cases frame.frameSequence <;> simp [refused, Marks, World.onState]
  rw [if_neg changed]
  cases sequence : frame.frameSequence with
  | error e => cases e <;> exact ⟨rfl, rfl⟩
  | ok seq =>
    simp only [lift, integerNs, read, wp_pure, andThen_value, wp_raiseIf, wp_bind, andThen_raised]
    by_cases negative : seq < 0
    · rw [if_pos negative]
      have refused : ¬w.state.Admits c head seq := fun h => not_le.mpr negative h.2.1
      simp [refused, Marks, World.onState]
    rw [if_neg negative]
    by_cases jump : ((w.state.sequenceStampHighwater (head.side, head.epoch)).any fun high =>
        high.1 < seq ∧ head.stamp ≤ high.2) = true
    · rw [if_pos jump]
      have refused : ¬w.state.Admits c head seq := fun h => absurd (jump.symm.trans h.2.2.1) (by simp)
      simp [refused, Marks, World.onState]
    rw [if_neg jump]
    by_cases known : rawKey c head.side head.epoch seq ∈ w.state.seen ∨
        w.state.tooOld c.policy (head.side, head.epoch) seq
    · rw [if_pos known]
      have refused : ¬w.state.Admits c head seq := fun h => known.elim h.2.2.2.1 h.2.2.2.2
      simp [refused, Marks, World.onState]
    rw [if_neg known]
    rw [not_or] at known
    have admitted : w.state.Admits c head seq :=
      ⟨by simpa using changed, by omega, by simpa using jump, known.1, known.2⟩
    simp only [wp_modify, wp_pure, andThen_value]
    rw [if_pos admitted]
    exact ⟨rfl, rfl⟩

theorem lift_marks {α : Type} {x : Except Failure α} {Q : World → Prop} (h : Q w) : (lift x).wp (fun _ w' => Q w') w := by
  cases x <;> exact h

/-- `_check` records the entry of the frame and nothing else. -/
theorem check_marks (frame : Frame) (now : Int) (w : World) :
    (check c frame now).wp (fun _ w' => Marks w (entry c (.pushed frame now w.state)) w') w := by
  unfold check
  cases found : header c frame now with
  | error e =>
    have nothing : entry c (.pushed frame now w.state) = none := by simp only [entry, found]
    rw [nothing]
    exact ⟨rfl, rfl⟩
  | ok head =>
    have recorded : entry c (.pushed frame now w.state) = w.state.entryOf c head frame := by simp only [entry, found]
    rw [recorded]
    show ((enroll c frame head >>= fun r => lift (measured c frame head r.1 r.2) >>= fun checked =>
      (Pure.pure (head.side, checked) : Act (Side × Checked)))).wp _ w
    refine wp.seq (enroll_marks frame head w) (fun r w₁ h₁ => ?_) (fun _ _ h => h) fun _ h => h
    exact wp.seq (lift_marks h₁) (fun checked _ h => h) (fun _ _ h => h) fun _ h => h

end check
section runs
variable {c : Config} {w : World}

def Topped (c : Config) : Event → List Event → Prop
  | .pushed _ _ s, earlier => Tops (entries c earlier) s.sequenceStampHighwater
  | _, _ => True

structure Marked (c : Config) (w : World) : Prop where
  tops : Tops (entries c w.log) w.state.sequenceStampHighwater
  topped : Always (Topped c) w.log

structure Idle (w w' : World) : Prop where
  log : ∃ events, w'.log = events ++ w.log ∧ ∀ e ∈ events, ∀ frame now s, e ≠ .pushed frame now s
  highwater : w'.state.sequenceStampHighwater = w.state.sequenceStampHighwater

theorem entries_cons (e : Event) (log : List Event) : entries c (e :: log) = (entry c e).toList ++ entries c log := by
  unfold entries
  rw [List.filterMap_cons]
  cases entry c e <;> rfl

theorem entry_other {e : Event} (h : ∀ frame now s, e ≠ .pushed frame now s) : entry c e = none := by
  cases e with
  | pushed frame now s => exact absurd rfl (h frame now s)
  | _ => rfl

theorem Marked.idle {w' : World} (h : Marked c w) (idle : Idle w w') : Marked c w' := by
  obtain ⟨⟨events, log, other⟩, highwater⟩ := idle
  have same : entries c (events ++ w.log) = entries c w.log := by
    have none_ : entries c events = [] := List.filterMap_eq_nil_iff.mpr fun e there => entry_other (other e there)
    unfold entries at none_ ⊢
    rw [List.filterMap_append, none_, List.nil_append]
  refine ⟨?_, ?_⟩
  · rw [log, same, highwater]
    exact h.tops
  · rw [log]
    refine h.topped.append fun e there earlier => ?_
    cases e with
    | pushed frame now s => exact absurd rfl (other _ there frame now s)
    | _ => trivial

abbrev KeepsMarks (c : Config) {α : Type} (x : Act α) : Prop := x.Preserves (Marked c)

theorem modify_marks {f : World → World} (events : World → List Event) (log : ∀ w, (f w).log = events w ++ w.log)
    (other : ∀ w, ∀ e ∈ events w, ∀ frame now s, e ≠ .pushed frame now s)
    (highwater : ∀ w, (f w).state.sequenceStampHighwater = w.state.sequenceStampHighwater) :
    KeepsMarks c (.modify f) :=
  Preserves.modify fun w h => h.idle ⟨⟨events w, log w, other w⟩, highwater w⟩

theorem change_marks {f : State → State} (highwater : ∀ s, (f s).sequenceStampHighwater = s.sequenceStampHighwater) :
    KeepsMarks c (change f) :=
  modify_marks (fun _ => []) (fun _ => rfl) (by simp) fun w => highwater w.state

theorem latch_marks (reason : String) : KeepsMarks c (latch reason) :=
  (change_marks fun _ => by rfl).bind fun _ => modify_marks (fun w => [.cleared w.state.counts]) (fun _ => rfl) (by simp)
    fun _ => rfl

theorem checkFreshness_marks (now : Int) : KeepsMarks c (checkFreshness c now) := by
  have side (started : Int) (side : Side) : KeepsMarks c (sideFresh c now started side) := by
    refine Preserves.get.bind fun w => ?_
    dsimp only
    split
    · exact (latch_marks _).bind fun _ => Preserves.pure _
    · exact Preserves.pure _
  have pairs (started : Int) : KeepsMarks c (pairsFresh c now started) := by
    refine Preserves.get.bind fun w => ?_
    split
    · exact (latch_marks _).bind fun _ => Preserves.pure _
    · exact Preserves.pure _
  refine Preserves.get.bind fun w => ?_
  split
  · exact Preserves.pure _
  · split
    · exact Preserves.pure _
    · refine (side _ .left).bind fun left => ?_
      split
      · refine (side _ .right).bind fun right => ?_
        split
        · exact pairs _
        · exact Preserves.pure _
      · exact Preserves.pure _

theorem overflow_marks (side : Side) (rounds : Nat) : KeepsMarks c (overflow c side rounds) := by
  induction rounds with
  | zero => exact Preserves.pure ()
  | succ rounds ih =>
    refine Preserves.get.bind fun w => ?_
    split
    · exact Preserves.pure ()
    · rename_i f rest _
      refine Preserves.when (Preserves.bind ?_ fun _ => ih)
      exact modify_marks (fun _ => [.overflowed side f]) (fun _ => rfl) (by simp) fun _ => rfl

theorem pair_marks (history : History) (now : Int) (rounds : Nat) : KeepsMarks c (pair c history now rounds) := by
  induction rounds with
  | zero => exact Preserves.pure none
  | succ rounds ih =>
    have lifted {α : Type} (x : Except Failure α) : KeepsMarks c (lift x) := by
      cases x with
      | ok a => exact Preserves.pure a
      | error e => exact Preserves.raise e
    have fuses (l r : Checked) : KeepsMarks c (latching (fuse c history l r now)) := by
      refine Preserves.handle (Preserves.get.bind fun w => (lifted _).bind fun bundle => ?_) fun e => ?_
      · refine Preserves.bind ?_ fun _ => Preserves.pure _
        exact modify_marks (fun w' => [.emitted bundle l r now w'.state]) (fun _ => rfl) (by simp) fun _ => rfl
      · cases e with
        | fusion code => exact (latch_marks code).bind fun _ => Preserves.raise _
        | other code => exact Preserves.raise _
    refine Preserves.get.bind fun w => ?_
    split
    · rename_i l _ r _ _ _
      refine (Preserves.when ((latch_marks _).bind fun _ => Preserves.raise _)).bind fun _ => ?_
      dsimp only
      split
      · refine Preserves.bind ?_ fun _ => ih
        split
        · exact modify_marks (fun w => [.dropped .left l (w.state.queues .right)]) (fun _ => rfl) (by simp) fun _ => rfl
        · exact modify_marks (fun w => [.dropped .right r (w.state.queues .left)]) (fun _ => rfl) (by simp) fun _ => rfl
      · exact (change_marks fun _ => by rfl).bind fun _ => (fuses l r).bind fun _ => Preserves.pure _
    · exact Preserves.pure none

/-- A push logs its frame, and `_check` records it. -/
theorem push_marks (frame : Frame) (now : Int) (history : History) : KeepsMarks c (push c frame now history) := by
  have rest (side : Side) (f : Checked) : KeepsMarks c (do
      change (arrived side f now)
      let fresh ← checkFreshness c now
      let w ← .get
      .raiseIf (!fresh) (.fusion (w.state.latchedReason.getD ""))
      enqueue c side f
      let w ← .get
      let result ← pair c history now ((w.state.queues .left).length + (w.state.queues .right).length)
      .when result.isSome (change fun s => { s with lastBundleMonotonicNs := some now })
      return result) := by
    have enqueues : KeepsMarks c (enqueue c side f) := by
      refine Preserves.bind ?_ fun _ => Preserves.get.bind fun _ => overflow_marks side _
      exact modify_marks (fun _ => [.enqueued side f]) (fun _ => rfl) (by simp) fun _ => rfl
    refine (change_marks fun _ => by rfl).bind fun _ => (checkFreshness_marks now).bind fun _ => Preserves.get.bind fun _ => ?_
    refine Preserves.raiseIf.bind fun _ => enqueues.bind fun _ => Preserves.get.bind fun _ => (pair_marks _ _ _).bind fun _ => ?_
    exact (Preserves.when (change_marks fun _ => by rfl)).bind fun _ => Preserves.pure _
  have refuses (e : Failure) : KeepsMarks c (rejected e : Act (Side × Checked)) := by
    refine Preserves.bind ?_ fun _ => Preserves.raise e
    unfold answered
    split
    · split
      · exact change_marks fun _ => by rfl
      · exact latch_marks _
    · exact Preserves.pure _
  refine Preserves.get.bind fun _ => Preserves.raiseIf.bind fun _ => fun w h => ?_
  refine wp.seq (Q := fun r w' => (∃ u, r = .value u) ∧ w' = w.note (.pushed frame now w.state)) ⟨⟨(), rfl⟩, rfl⟩
    (fun _ w₁ h₁ => ?_) (fun _ _ no => ?_) fun _ no => ?_
  · obtain ⟨-, rfl⟩ := h₁
    have checks : ((check c frame now).handle rejected).wp (fun _ w' => Marked c w') (w.note (.pushed frame now w.state)) := by
      rw [wp_handle]
      refine (check_marks frame now _).mono fun r w' marks => ?_
      have marked : Marked c w' := by
        obtain ⟨log, highwater⟩ := marks
        have tops : Tops (entries c w.log) w.state.sequenceStampHighwater := h.tops
        refine ⟨?_, by rw [log]; exact ⟨tops, h.topped⟩⟩
        have all : w'.log = .pushed frame now w.state :: w.log := log
        rw [all, highwater, entries_cons]
        show Tops _ ((Option.map marked (entry c (.pushed frame now w.state))).getD id w.state.sequenceStampHighwater)
        cases entry c (.pushed frame now w.state) with
        | none => exact tops
        | some x => exact tops.cons x
      cases r with
      | value _ => exact marked
      | raised e => exact refuses e _ marked
      | cut => exact marked
    exact wp.seq checks (fun r w₂ h₂ => rest r.1 r.2 w₂ h₂) (fun _ _ h => h) fun _ h => h
  · obtain ⟨⟨_, no⟩, -⟩ := no
    cases no
  · obtain ⟨⟨_, no⟩, -⟩ := no
    cases no

theorem run_marks (c : Config) (ops : List Operation) : KeepsMarks c (run c ops) := by
  have resumes (request : Resume) : KeepsMarks c (resume c request) := by
    refine Preserves.raiseIf.bind fun _ => Preserves.raiseIf.bind fun _ => (change_marks fun _ => by rfl).bind fun _ => ?_
    exact modify_marks (fun w => [.cleared w.state.counts]) (fun _ => rfl) (by simp) fun _ => rfl
  have performs (o : Operation) : KeepsMarks c (perform c o) := by
    cases o with
    | push frame now history => exact (push_marks frame now history).bind fun _ => Preserves.pure _
    | checkFreshness now => exact (checkFreshness_marks now).bind fun _ => Preserves.pure _
    | latch reason => exact latch_marks reason
    | resume request => exact resumes request
  induction ops with
  | nil => exact Preserves.pure ()
  | cons o rest ih => exact ((performs o).handle fun _ => Preserves.pure ()).bind fun _ => ih

/-! What follows for a log. -/

theorem entry_pushed {frame : Frame} {now : Int} {s : State} {x : Entry} (h : entry c (.pushed frame now s) = some x) :
    ∀ high ∈ s.sequenceStampHighwater x.stream, high.1 < x.seq → high.2 < x.stamp := by
  simp only [entry] at h
  split at h
  · rename_i head _
    unfold State.entryOf at h
    split at h
    · rename_i seq _
      split at h
      · rename_i admitted
        cases h
        intro high there newer
        have later := admitted.2.2.1
        rw [Option.mem_def.mp there] at later
        simp only [Option.any_some, decide_eq_false_iff_not, not_and, not_le] at later
        exact later newer
      · cases h
    · cases h
  · cases h

theorem orderly_cons {x : Entry} {es : List Entry} : Orderly (x :: es) ↔
    Orderly es ∧ ∀ y ∈ es, y.stream = x.stream → InOrder x y ∧ InOrder y x := by
  constructor
  · intro h
    refine ⟨fun y hy z hz => h y (List.mem_cons_of_mem _ hy) z (List.mem_cons_of_mem _ hz), fun y hy same => ⟨?_, ?_⟩⟩
    · exact h x List.mem_cons_self y (List.mem_cons_of_mem _ hy) same.symm
    · exact h y (List.mem_cons_of_mem _ hy) x List.mem_cons_self same
  · rintro ⟨old, new⟩ y hy z hz same
    rcases List.mem_cons.mp hy with rfl | older
    · rcases List.mem_cons.mp hz with rfl | older
      · exact ⟨fun less => absurd less (lt_irrefl _), fun _ => rfl⟩
      · exact (new z older same.symm).1
    · rcases List.mem_cons.mp hz with rfl | older'
      · exact (new y older same).2
      · exact old y older z older' same

theorem newer_inOrder {es : List Entry} {highwater : Side × String → Option (Int × Int)} {x : Entry} (orderly : Orderly es)
    (tops : Tops es highwater) (newer : ∀ high ∈ highwater x.stream, high.1 < x.seq ∧ high.2 < x.stamp) :
    ∀ y ∈ es, y.stream = x.stream → InOrder x y ∧ InOrder y x := by
  intro y there same
  have top := tops x.stream
  cases known : highwater x.stream with
  | none =>
    rw [known] at top
    exact absurd same (top y there)
  | some high =>
    rw [known] at top
    obtain ⟨above, later⟩ := newer high known
    have below := top.2 y there same
    have order := orderly y there _ top.1 same
    have stamp : y.stamp ≤ high.2 := by
      rcases lt_or_eq_of_le below with less | equal
      · exact le_of_lt (order.lower less)
      · exact le_of_eq (order.same equal)
    exact ⟨⟨fun less => by omega, fun equal => by omega⟩, ⟨fun _ => by omega, fun equal => by omega⟩⟩

theorem orderly_iff {log : List Event} (topped : Always (Topped c) log) :
    Orderly (entries c log) ↔ Always (LateInOrder c) log := by
  induction log with
  | nil => exact ⟨fun _ => trivial, fun _ => by simp [Orderly, entries]⟩
  | cons e log ih =>
    obtain ⟨here, before⟩ := topped
    rw [entries_cons]
    show _ ↔ LateInOrder c e log ∧ Always (LateInOrder c) log
    rw [← ih before]
    cases e with
    | pushed frame now s =>
      cases found : entry c (.pushed frame now s) with
      | none =>
        have timely : LateInOrder c (.pushed frame now s) log := by simp [LateInOrder, found]
        exact ⟨fun h => ⟨timely, h⟩, fun h => h.2⟩
      | some x =>
        rw [Option.toList_some, List.singleton_append, orderly_cons, and_comm]
        refine and_congr_left fun orderly => ⟨fun h y hy late => ?_, fun h => ?_⟩
        · obtain rfl := Option.some.inj (found.symm.trans hy)
          exact h
        · by_cases late : ∃ high ∈ s.sequenceStampHighwater x.stream, x.seq ≤ high.1
          · exact h x found late
          · refine newer_inOrder orderly here fun high known => ?_
            have newer : high.1 < x.seq := by
              by_contra below
              exact late ⟨high, known, not_lt.mp below⟩
            exact ⟨newer, entry_pushed found high known newer⟩
    | _ => exact ⟨fun h => ⟨trivial, h⟩, fun h => h.2⟩

/-- What `_check` returns it has recorded. -/
theorem entry_of_accepted {e : Event} {side : Side} {x : Checked} (h : accepted c e = some (side, x)) :
    entry c e = some ⟨(side, x.streamEpoch), x.frameSequence, x.commonTimeNs⟩ := by
  cases e with
  | pushed frame now s =>
    simp only [accepted] at h
    split at h
    · rename_i result ends
      cases h
      have accepts : Accepts c s frame now side x := ((check_does frame now).value ends).2.1
      obtain ⟨head, seq, read, rfl, epoch, sequence, nonneg, time, unseen, young, measured⟩ := accepts
      have measures := measured_ok measured
      have admitted : s.Admits c head seq := by
        refine ⟨?_, nonneg, ?_, unseen, young⟩
        · cases known : s.epochs head.side with
          | none => rfl
          | some old => simp [epoch old known]
        · cases known : s.sequenceStampHighwater (head.side, head.epoch) with
          | none => rfl
          | some high =>
            have later := time high known
            simp only [Option.any_some, decide_eq_false_iff_not, not_and, not_le]
            exact later
      simp only [entry, read, State.entryOf, sequence, if_pos admitted]
      rw [measures.streamEpoch, measures.frameSequence, measures.commonTimeNs]
    · cases h
  | _ => cases h

/-- Where every frame that comes late is in order with what was recorded of its stream, frames that are accepted with a
lower sequence have a lower stamp; and what is recorded is in order only there. -/
theorem accepted_in_order (c : Config) (ops : List Operation) :
    (Orderly (entries c (run c ops initial).2.log) ↔ Always (LateInOrder c) (run c ops initial).2.log) ∧
    (Always (LateInOrder c) (run c ops initial).2.log → ∀ f ∈ (run c ops initial).2.log.filterMap (accepted c),
      ∀ g ∈ (run c ops initial).2.log.filterMap (accepted c), f.1 = g.1 → f.2.streamEpoch = g.2.streamEpoch →
        f.2.frameSequence < g.2.frameSequence → f.2.commonTimeNs < g.2.commonTimeNs) := by
  have marked : Marked c (run c ops initial).2 := run_marks c ops initial ⟨fun _ _ => by simp [entries, initial], trivial⟩
  have exact_ := orderly_iff marked.topped
  refine ⟨exact_, fun timely f hf g hg side epoch lower => ?_⟩
  obtain ⟨d, hd, accepts⟩ := List.mem_filterMap.mp hf
  obtain ⟨e, he, accepts'⟩ := List.mem_filterMap.mp hg
  have first := List.mem_filterMap.mpr ⟨d, hd, entry_of_accepted accepts⟩
  have second := List.mem_filterMap.mpr ⟨e, he, entry_of_accepted accepts'⟩
  exact (exact_.mpr timely _ first _ second (by simp [side, epoch])).lower lower

end runs
/-- The second frame comes late, with a stamp above the third. -/
theorem late_out_of_order : let c := Bench.config 8 (by decide)
    ¬∀ f ∈ (run c [Bench.arrive .left 1 1000, Bench.arrive .left 3 3000, Bench.arrive .left 2 5000] initial).2.log.filterMap
        (accepted c),
      ∀ g ∈ (run c [Bench.arrive .left 1 1000, Bench.arrive .left 3 3000, Bench.arrive .left 2 5000] initial).2.log.filterMap
        (accepted c), f.1 = g.1 → f.2.streamEpoch = g.2.streamEpoch →
        f.2.frameSequence < g.2.frameSequence → f.2.commonTimeNs < g.2.commonTimeNs := by
  decide +kernel

end Smartwheel.Fusion

import Mathlib.Order.Lattice
import Smartwheel.Mapping.Conserved

/-! The pairs `_members` chooses in a run. Where a scan is paired with the oldest one that is left for it, pairs go forward
on both sides; where it skips an older one, a later scan may be paired backwards. -/
namespace Smartwheel.Mapping
open Effect Effect.Program

/-- What is left of the other side when the scans too old for `m` are dropped. -/
def remaining (c : Config) (m : Member) (j : Input) : List Member :=
  (j.buffers m.side.other).dropWhile fun row => row.stamp < m.stamp - c.maxPairDelta

/-- The scan `m` is paired with. -/
def partner (c : Config) (m : Member) (j : Input) : Option Member :=
  Input.nearest m.stamp ((remaining c m j).filter (Input.near c.maxPairDelta m.stamp))

/-- The scans that wait after `m`. -/
def filed (c : Config) (m : Member) (j : Input) : Side → List Member :=
  match partner c m j with
  | none =>
    let own := j.buffers m.side ++ [m]
    Function.update (Function.update j.buffers m.side.other (remaining c m j)) m.side (own.drop (own.length - 32))
  | some p => Function.update j.buffers m.side.other ((remaining c m j).erase p)

/-- The scan that reaches `_members`, if one does. -/
def arrival (c : Config) (s : Source) (j : Input) : Option Member :=
  if s.stopped ∨ j.inactive.isSome ∨ s.message ∉ c.sides ∨ s.mismatch ∨ !j.transforms then none
  else match s.inspected with
    | .ok found => found
    | .error _ => none

def inOrder (m p : Member) : Member × Member := if m.side = .left then (m, p) else (p, m)

def pairOf (c : Config) (s : Source) (j : Input) : Option (Member × Member) :=
  (arrival c s j).bind fun m => (partner c m j).map (inOrder m)

section callback
variable {c : Config} {j : Input} {m : Member} {s : Source}

structure Still (buffers : Side → List Member) (j j' : Input) : Prop where
  buffers : j'.buffers = buffers
  last : j'.lastEnqueuedStamp = j.lastEnqueuedStamp
  main : j'.main = j.main

theorem members_wp (both : c.sides.length ≠ 1) (m : Member) (j : Input) : (Input.members c m).wp (fun r j' =>
    r = .value ((partner c m j).map fun p => if m.side = .left then [m, p] else [p, m]) ∧ Still (filed c m j) j j') j := by
  unfold Input.members
  rw [if_neg both, wp_bind, wp_get, andThen_value]
  unfold filed
  cases found : partner c m j with
  | none =>
    have none_ := found
    unfold partner remaining at none_
    dsimp only
    rw [none_]
    exact ⟨rfl, rfl, rfl, rfl⟩
  | some p =>
    have some_ := found
    unfold partner remaining at some_
    dsimp only
    rw [some_]
    exact ⟨rfl, rfl, rfl, rfl⟩

theorem require_still {B : Side → List Member} {j₀ : Input} {p : Prop} [Decidable p] {reason : String} :
    (Input.require p reason).Preserves (Still B j₀) := Preserves.raiseIf

theorem liftCheck_still {B : Side → List Member} {j₀ : Input} {α : Type} (x : Except String α) :
    (Input.liftCheck x).Preserves (Still B j₀) := by
  cases x with
  | ok a => exact Preserves.pure a
  | error reason => exact Preserves.raise reason

def Filed (c : Config) (s : Source) (j : Input) (r : Outcome String (Option Output)) (j' : Input) : Prop :=
  match arrival c s j with
  | none => Still j.buffers j j' ∧ ∀ o, r ≠ .value (some o)
  | some m => Still (filed c m j) j j' ∧
    ∀ o, r = .value (some o) → ∃ p, partner c m j = some p ∧ o.reference = max m.stamp p.stamp

theorem require_wp {p : Prop} [Decidable p] {reason : String} {Q : Outcome String Unit → Input → Prop} :
    (Input.require p reason).wp Q j ↔ if p then Q (.value ()) j else Q (.raised reason) j := by
  unfold Input.require raiseIf when
  by_cases hp : p
  · rw [if_pos hp, if_neg (not_not.mpr hp)]
    rfl
  · rw [if_neg hp, if_pos hp]
    rfl

def Refers (B : Side → List Member) (j₀ : Input) (reference : Int) (x : Input.Callback (Option Output)) : Prop :=
  ∀ j, Still B j₀ j → x.wp (fun r j' => Still B j₀ j' ∧ ∀ o, r = .value (some o) → o.reference = reference) j

section refers
variable {B : Side → List Member} {j₀ : Input} {reference : Int}

theorem Refers.nothing : Refers B j₀ reference (return none) := fun _ same => ⟨same, nofun⟩

theorem Refers.seq {α : Type} {x : Input.Callback α} {f : α → Input.Callback (Option Output)} (h : x.Preserves (Still B j₀))
    (next : ∀ a, Refers B j₀ reference (f a)) : Refers B j₀ reference (x >>= f) := fun j same =>
  wp.seq (h j same) (fun a j' same' => next a j' same') (fun _ _ same' => ⟨same', nofun⟩) fun _ same' => ⟨same', nofun⟩

theorem Refers.ite {p : Prop} [Decidable p] {x y : Input.Callback (Option Output)} (hx : Refers B j₀ reference x)
    (hy : Refers B j₀ reference y) : Refers B j₀ reference (if p then x else y) := by
  split
  · exact hx
  · exact hy

theorem freeze_still (s : Source) : (Input.freeze c s).Preserves (Still B j₀) := by
  unfold Input.freeze
  split
  · exact (liftCheck_still _).bind fun _ => require_still.bind fun _ => Preserves.pure _
  · exact Preserves.pure _

end refers

theorem admission_wp (both : c.sides.length ≠ 1) (s : Source) (j : Input) :
    (Input.admission c s).wp (Filed c s j) j := by
  have still : Still j.buffers j j := ⟨rfl, rfl, rfl⟩
  have nothing (none_ : arrival c s j = none) {r : Outcome String (Option Output)} {j' : Input} (same : Still j.buffers j j')
      (ends : ∀ o, r ≠ .value (some o)) : Filed c s j r j' := by
    unfold Filed
    rw [none_]
    exact ⟨same, ends⟩
  unfold Input.admission
  rw [wp_ite]
  split
  · rename_i stopped
    exact nothing (by simp [arrival, stopped]) still nofun
  rename_i going
  rw [wp_bind]
  unfold Input.ensureActive
  rw [wp_bind, wp_get, andThen_value]
  cases active : j.inactive with
  | some reason => exact nothing (by simp [arrival, active]) still nofun
  | none =>
    rw [wp_pure, andThen_value, wp_bind, require_wp]
    split
    case isFalse unrequested => exact nothing (by simp [arrival, unrequested]) still nofun
    rename_i requested
    rw [andThen_value, wp_bind, require_wp]
    split
    case isFalse mismatched => exact nothing (by simp [arrival, not_not.mp mismatched]) still nofun
    rename_i matched
    rw [andThen_value, wp_bind]
    cases inspected : s.inspected with
    | error reason => exact nothing (by simp [arrival, inspected]) still nofun
    | ok found =>
      cases found with
      | none => exact nothing (by simp [arrival, inspected]) still nofun
      | some m =>
        rw [show Input.liftCheck (.ok (some m)) = (return some m : Input.Callback (Option Member)) from rfl, wp_pure,
          andThen_value]
        dsimp only
        rw [wp_bind, wp_get, andThen_value, wp_ite]
        split
        · rename_i booting
          exact nothing (by simp [arrival, booting]) ⟨rfl, rfl, rfl⟩ nofun
        rename_i booted
        have arrives : arrival c s j = some m := by
          simp [arrival, going, active, requested, matched, inspected, booted]
        refine wp.seq (members_wp both m j) (fun rows j₁ h₁ => ?_) (fun e j₁ h₁ => ?_) fun j₁ h₁ => ?_
        · obtain ⟨rows_, same⟩ := h₁
          unfold Filed
          rw [arrives]
          cases found : partner c m j with
          | none =>
            rw [found] at rows_
            obtain rfl := Outcome.value.inj rows_
            exact ⟨same, nofun⟩
          | some p =>
            rw [found] at rows_
            obtain rfl := Outcome.value.inj rows_
            have reference : (([m, p].map (·.stamp)).foldl max m.stamp = max m.stamp p.stamp) ∧
                ([p, m].map (·.stamp)).foldl max m.stamp = max m.stamp p.stamp := by simp
            refine wp.mono (Q := fun r j' => Still (filed c m j) j j' ∧
              ∀ o, r = .value (some o) → o.reference = max m.stamp p.stamp) ?_ fun r j' h => ⟨h.1, fun o ho => ⟨p, found, h.2 o ho⟩⟩
            refine Refers.seq Preserves.get (fun j' => ?_) j₁ same
            refine Refers.seq require_still fun _ => Refers.ite (Refers.seq (Preserves.modify fun _ h => ⟨h.buffers, h.last, h.main⟩)
              fun _ => Refers.nothing) ?_
            refine Refers.seq require_still fun _ => Refers.seq require_still fun _ => Refers.seq require_still fun _ =>
              Refers.seq require_still fun _ => Refers.seq (freeze_still s) fun frozen => Refers.seq require_still fun _ => ?_
            refine Refers.ite Refers.nothing fun j₂ same₂ => ⟨same₂, fun o ho => ?_⟩
            obtain rfl := Option.some.inj (Outcome.value.inj ho)
            show (_ : List Int).foldl max m.stamp = _
            split
            · exact reference.1
            · exact reference.2
        · cases h₁.1
        · cases h₁.1

def Input.due (j : Input) : Option Int :=
  match j.main with
  | .submitting o | .submitted o => some o.reference
  | _ => none

structure Leaves (buffers : Side → List Member) (reference : Option Int) (j j' : Input) : Prop where
  buffers : j'.buffers = buffers
  last : j'.lastEnqueuedStamp = j.lastEnqueuedStamp
  due : ∀ x ∈ j'.due, x ∈ j.due ∨ x ∈ reference

theorem receiveSource_leaves (both : c.sides.length ≠ 1) (s : Source) (j : Input) :
    match arrival c s j with
    | none => Leaves j.buffers none j (j.receiveSource c s)
    | some m => Leaves (filed c m j) ((partner c m j).map fun p => max m.stamp p.stamp) j (j.receiveSource c s) := by
  have ends := admission_wp both s j
  have kept {B : Side → List Member} {reference : Option Int} {j' : Input} (still : Still B j j') (main : j'.main = j.main) :
      Leaves B reference j j' := ⟨still.buffers, still.last, fun x h => .inl (by unfold Input.due at h ⊢; rw [← main]; exact h)⟩
  unfold Program.wp Filed at ends
  unfold Input.receiveSource
  cases arrives : arrival c s j with
  | none =>
    rw [arrives] at ends
    obtain ⟨still, noOutput⟩ := ends
    rcases outcome : Input.admission c s j with ⟨(_ | o) | reason | _, j'⟩ <;> rw [outcome] at still noOutput
    · exact kept still still.main
    · exact absurd rfl (noOutput o)
    · exact kept ⟨still.buffers, still.last, still.main⟩ still.main
    · exact kept still still.main
  | some m =>
    rw [arrives] at ends
    obtain ⟨still, refers⟩ := ends
    rcases outcome : Input.admission c s j with ⟨(_ | o) | reason | _, j'⟩ <;> rw [outcome] at still refers
    · exact kept still still.main
    · obtain ⟨p, found, reference⟩ := refers o rfl
      refine ⟨still.buffers, still.last, fun x h => .inr ?_⟩
      obtain rfl := Option.some.inj h
      rw [found, reference]
      rfl
    · exact kept ⟨still.buffers, still.last, still.main⟩ still.main
    · exact kept still still.main

end callback

/-! The other steps. -/

inductive Calm (c : Config) : Input → Input → Prop
  | receiveImu {j : Input} (completed : Except String Bool) (idle : j.main = .idle) : Calm c j (j.receiveImu c completed)
  | poll {j : Input} (idle : j.main = .idle) : Calm c j { j with main := .polling true }
  | close {j : Input} (idle : j.main = .idle) : Calm c j j.close
  | fail {j : Input} (reason : String) (idle : j.main = .idle) : Calm c j (j.fail reason)
  | proceed {j : Input} (check : Check) (stop : Bool) (failure : Option String) : Calm c j (j.proceed c check stop failure)
  | work {j : Input} (archived : Except String Report) : Calm c j (j.work c archived)
  | checkpoint {j : Input} (synced : Nat) (grows : j.synced ≤ synced) (bound : synced ≤ j.written) : Calm c j { j with synced }
  | error {j : Input} (checkpointError statusError : Option String) : Calm c j { j with checkpointError, statusError }

def Input.referred (j : Input) : List Int := j.lastEnqueuedStamp.toList ++ j.due.toList

structure Rests (j j' : Input) : Prop where
  buffers : j'.buffers = j.buffers
  referred : ∀ x ∈ j'.referred, x ∈ j.referred

section calm
variable {c : Config} {j j' : Input}

theorem Rests.of (buffers : j'.buffers = j.buffers) (last : j'.lastEnqueuedStamp = j.lastEnqueuedStamp)
    (due : j'.due = none ∨ j'.due = j.due) : Rests j j' := by
  refine ⟨buffers, fun x h => ?_⟩
  unfold Input.referred at h ⊢
  rw [last] at h
  rcases due with none_ | same
  · rw [none_] at h
    exact List.mem_append_left _ (by simpa using h)
  · rw [same] at h
    exact h

theorem submit_still (job : Job) : Still j.buffers j (j.submit c job).2 := by
  unfold Input.submit
  split
  · exact ⟨rfl, rfl, rfl⟩
  · split <;> exact ⟨rfl, rfl, rfl⟩

theorem observeFilter_still (report : Report) : Still j.buffers j (j.observeFilter report) := by
  unfold Input.observeFilter
  split <;> exact ⟨rfl, rfl, rfl⟩

theorem release_still : Still j.buffers j j.release := by
  unfold Input.release
  split <;> exact ⟨rfl, rfl, rfl⟩

theorem Still.rests (h : Still j.buffers j j') : Rests j j' :=
  .of h.buffers h.last (.inr (by unfold Input.due; rw [h.main]))

theorem submitOutput_rests {o : Output} (main : j.main = .submitting o) : Rests j (j.submitOutput c o) := by
  have still := submit_still (c := c) (j := j) (.output o)
  unfold Input.submitOutput
  rcases outcome : j.submit c (.output o) with ⟨_ | reason, j'⟩ <;> rw [outcome] at still
  · refine .of still.buffers still.last (.inr ?_)
    simp [Input.due, main]
  · exact .of still.buffers still.last (.inl rfl)

theorem account_rests {o : Output} (main : j.main = .submitted o) : Rests j (j.account c o) := by
  have now : j.due = some o.reference := by simp [Input.due, main]
  have accepted {j' : Input} (buffers : j'.buffers = j.buffers) (last : j'.lastEnqueuedStamp = some o.reference)
      (due : j'.due = none) : Rests j j' := by
    refine ⟨buffers, fun x h => ?_⟩
    unfold Input.referred at h ⊢
    rw [last, due] at h
    rw [now]
    exact List.mem_append_right _ (by simpa using h)
  unfold Input.account
  split
  · have still := observeFilter_still (j := j.accept o) o.report
    exact accepted still.buffers still.last rfl
  · exact accepted rfl rfl rfl

theorem offer_rests (o : Output) (check : Check) : Rests j (j.offer o check) := by
  unfold Input.offer
  split
  · exact .of rfl rfl (.inl rfl)
  · split <;> exact .of rfl rfl (.inl rfl)

theorem due_polled {publish : Bool} (main : j.main = Input.polled publish) : j.due = none := by
  unfold Input.due
  rw [main]
  cases publish <;> rfl

theorem acknowledge_still (o : Output) (index : Nat) (rest : List Result) :
    Still j.buffers j (j.acknowledge o index rest) := by
  unfold Input.acknowledge
  have still := release_still (j := { j with results := rest, archivedOutputs := index, acknowledged := j.acknowledged ++ [o.number] })
  exact ⟨still.buffers, still.last, still.main⟩

theorem pollRound_rests (publish stop : Bool) : Rests j (j.pollRound c publish stop) := by
  unfold Input.pollRound
  split
  · exact .of rfl rfl (.inl rfl)
  · exact .of rfl rfl (.inr rfl)
  · rename_i o index rest _
    have applied := acknowledge_still (j := j) o index rest
    dsimp only
    split
    · exact applied.rests
    · have observed := observeFilter_still (j := j.acknowledge o index rest) o.report
      have still : Still j.buffers j ((j.acknowledge o index rest).observeFilter o.report) :=
        ⟨observed.buffers.trans applied.buffers, observed.last.trans applied.last, observed.main.trans applied.main⟩
      split
      · exact still.rests
      · split
        · exact Still.rests ⟨still.buffers, still.last, still.main⟩
        · split
          · exact .of still.buffers still.last (.inl (due_polled rfl))
          · exact .of still.buffers still.last (.inl rfl)

theorem publish_rests (o : Output) (check : Check) : Rests j (j.publish o check) := by
  unfold Input.publish
  split <;> exact .of rfl rfl (.inl rfl)

theorem finish_rests (publish : Bool) : Rests j (j.finish publish) := by
  unfold Input.finish
  dsimp only
  split <;> exact .of rfl rfl (.inl (due_polled rfl))

theorem join_rests : Rests j j.join := by
  unfold Input.join
  split <;> exact .of rfl rfl (.inl rfl)

theorem settle_rests (failure : Option String) : Rests j (j.settle failure) := by
  unfold Input.settle
  split <;> exact .of rfl rfl (.inl rfl)

theorem proceed_rests (check : Check) (stop : Bool) (failure : Option String) : Rests j (j.proceed c check stop failure) := by
  unfold Input.proceed
  split
  · exact .of rfl rfl (.inr rfl)
  · exact submitOutput_rests ‹_›
  · exact account_rests ‹_›
  · exact offer_rests _ _
  · exact pollRound_rests _ _
  · exact publish_rests _ _
  · exact finish_rests _
  · exact join_rests
  · exact settle_rests _

theorem work_rests (archived : Except String Report) : Rests j (j.work c archived) := by
  unfold Input.work
  split
  · split
    · exact .of rfl rfl (.inr rfl)
    · split <;> exact .of rfl rfl (.inr rfl)
  · split <;> exact .of rfl rfl (.inr rfl)
  · split <;> exact .of rfl rfl (.inr rfl)
  · exact .of rfl rfl (.inr rfl)

theorem receiveImu_rests (completed : Except String Bool) : Rests j (j.receiveImu c completed) := by
  unfold Input.receiveImu
  split
  · exact .of rfl rfl (.inr rfl)
  · exact .of rfl rfl (.inr rfl)
  · split
    · exact .of rfl rfl (.inr rfl)
    · have still := submit_still (c := c) (j := { j with ready := true }) .bootstrap
      split <;> rename_i outcome <;> rw [outcome] at still
      · exact Still.rests ⟨still.buffers, still.last, still.main⟩
      · exact Still.rests ⟨still.buffers, still.last, still.main⟩

theorem calm_rests (step : Calm c j j') : Rests j j' := by
  cases step with
  | receiveImu completed idle => exact receiveImu_rests completed
  | poll idle => exact .of rfl rfl (.inl rfl)
  | close idle =>
    unfold Input.close
    split
    · exact .of rfl rfl (.inr rfl)
    · exact .of rfl rfl (.inl rfl)
  | fail reason idle => exact .of rfl rfl (.inr rfl)
  | proceed check stop failure => exact proceed_rests check stop failure
  | work archived => exact work_rests archived
  | checkpoint synced grows bound | error checkpointError statusError => exact .of rfl rfl (.inr rfl)

end calm

/-! The scans and the pairs of a run. -/

/-- The scans that have reached `_members`, the pairs it has chosen and the references that are submitted, the latest
first. -/
structure Trace where
  state : Input
  arrivals : List Member
  pairs : List (Member × Member)
  references : List Int

def Trace.initial (c : Config) : Trace := ⟨.initial c, [], [], []⟩

def Trace.receive (c : Config) (s : Source) (t : Trace) : Trace :=
  let state := t.state.receiveSource c s
  ⟨state, (arrival c s t.state).toList ++ t.arrivals, (pairOf c s t.state).toList ++ t.pairs, state.due.toList ++ t.references⟩

inductive Turn (c : Config) (P : Trace → Member → Prop) : Trace → Trace → Prop
  | receive {t : Trace} (s : Source) (idle : t.state.main = .idle) (meets : ∀ m ∈ arrival c s t.state, P t m) :
    Turn c P t (t.receive c s)
  | calm {t : Trace} {j : Input} (step : Calm c t.state j) : Turn c P t { t with state := j }

def Later (t : Trace) (m : Member) : Prop := ∀ a ∈ t.arrivals, a.side = m.side → a.stamp < m.stamp

/-- Of two scans that wait within the bound around `m`, the older one is as near. -/
def Oldest (c : Config) (j : Input) (m : Member) : Prop :=
  ∀ a ∈ j.buffers m.side.other, ∀ b ∈ j.buffers m.side.other, a.stamp < b.stamp → Input.near c.maxPairDelta m.stamp a →
    Input.near c.maxPairDelta m.stamp b → (a.stamp - m.stamp).natAbs ≤ (b.stamp - m.stamp).natAbs

def Newer (p q : Member × Member) : Prop := q.1.stamp < p.1.stamp ∧ q.2.stamp < p.2.stamp

instance : DecidableRel Newer := fun p q => inferInstanceAs (Decidable (q.1.stamp < p.1.stamp ∧ q.2.stamp < p.2.stamp))

def scanOf : Side → Member × Member → Member
  | .left => Prod.fst
  | .right => Prod.snd

structure Forward (c : Config) (t : Trace) : Prop where
  waits : ∀ side, ∀ a ∈ t.state.buffers side, a.side = side ∧ a ∈ t.arrivals
  sorted : ∀ side, (t.state.buffers side).Pairwise fun a b => a.stamp < b.stamp
  apart : ∀ side, ∀ a ∈ t.state.buffers side, ∀ b ∈ t.state.buffers side.other, c.maxPairDelta < (a.stamp - b.stamp).natAbs
  paired : ∀ p ∈ t.pairs, ∀ side, (scanOf side p).side = side ∧ scanOf side p ∈ t.arrivals
  ordered : t.pairs.Pairwise Newer
  /-- A waiting scan is past every pair, or the other side has gone past it. -/
  ahead : ∀ side, ∀ a ∈ t.state.buffers side, (∃ b ∈ t.arrivals, b.side = side.other ∧ a.stamp + c.maxPairDelta < b.stamp) ∨
    ∀ p ∈ t.pairs, (scanOf side p).stamp < a.stamp
  emitted : t.references.Pairwise (· > ·)
  below : ∀ x ∈ t.references, ∃ p ∈ t.pairs, x ≤ max p.1.stamp p.2.stamp
  referred : ∀ x ∈ t.state.referred, x ∈ t.references

section forward
variable {c : Config} {j : Input} {m p : Member} {t : Trace}

theorem eq_or_other (s side : Side) : side = s ∨ side = s.other := by
  cases s <;> cases side <;> decide

theorem other_ne (s : Side) : s.other ≠ s := by
  cases s <;> decide

@[simp] theorem other_other (s : Side) : s.other.other = s := by
  cases s <;> rfl

theorem newer_iff {q : Member × Member} {p : Member × Member} :
    Newer p q ↔ ∀ side, (scanOf side q).stamp < (scanOf side p).stamp := by
  constructor
  · rintro ⟨left, right⟩ (_ | _)
    · exact left
    · exact right
  · intro all
    exact ⟨all .left, all .right⟩

theorem scanOf_inOrder : scanOf m.side (inOrder m p) = m ∧ scanOf m.side.other (inOrder m p) = p := by
  unfold inOrder
  cases side : m.side <;> exact ⟨rfl, rfl⟩

theorem max_inOrder : max (inOrder m p).1.stamp (inOrder m p).2.stamp = max m.stamp p.stamp := by
  unfold inOrder
  split
  · rfl
  · exact max_comm _ _

variable {a : Member}

theorem bound_le {rows : List Member} (sorted : rows.Pairwise fun a b => a.stamp < b.stamp) {bound : Int}
    (mem : a ∈ rows.dropWhile fun row => row.stamp < bound) : bound ≤ a.stamp := by
  induction rows with
  | nil => cases mem
  | cons first rest ih =>
    rw [List.pairwise_cons] at sorted
    by_cases old : first.stamp < bound
    · rw [List.dropWhile_cons_of_pos (by simpa using old)] at mem
      exact ih sorted.2 mem
    · rw [List.dropWhile_cons_of_neg (by simpa using old)] at mem
      rcases List.mem_cons.mp mem with rfl | later
      · exact Int.not_lt.mp old
      · have order := sorted.1 a later
        omega

theorem remaining_subset (mem : a ∈ remaining c m j) : a ∈ j.buffers m.side.other :=
  List.dropWhile_subset _ mem

theorem partner_spec (found : partner c m j = some p) :
    p ∈ remaining c m j ∧ Input.near c.maxPairDelta m.stamp p := by
  have chosen : p ∈ ((remaining c m j).filter (Input.near c.maxPairDelta m.stamp)).argmin fun row => (row.stamp - m.stamp).natAbs := found
  exact List.mem_filter.mp (List.argmin_mem chosen)

theorem partner_none (none_ : partner c m j = none) (mem : a ∈ remaining c m j) :
    ¬Input.near c.maxPairDelta m.stamp a := by
  have empty := List.argmin_eq_none.mp none_
  intro near
  have chosen := List.mem_filter.mpr ⟨mem, near⟩
  rw [empty] at chosen
  cases chosen

theorem partner_oldest (sorted : (j.buffers m.side.other).Pairwise fun a b => a.stamp < b.stamp) (oldest : Oldest c j m)
    (found : partner c m j = some p) : ∃ rest, remaining c m j = p :: rest := by
  obtain ⟨mem, near⟩ := partner_spec found
  have left : (remaining c m j).Pairwise fun a b => a.stamp < b.stamp := sorted.sublist (List.dropWhile_sublist _)
  have bound {a : Member} (ha : a ∈ remaining c m j) := bound_le sorted ha
  have waiting {a : Member} (ha : a ∈ remaining c m j) := remaining_subset ha
  unfold partner at found
  cases remains : remaining c m j with
  | nil =>
    rw [remains] at mem
    cases mem
  | cons first rest =>
    rw [remains] at mem left bound waiting found
    rw [List.pairwise_cons] at left
    have headBound := bound List.mem_cons_self
    have nearFirst : Input.near c.maxPairDelta m.stamp first := by
      unfold Input.near at near ⊢
      rw [decide_eq_true_eq] at near ⊢
      rcases List.mem_cons.mp mem with rfl | later
      · exact near
      · have order := left.1 p later
        omega
    rw [List.filter_cons_of_pos nearFirst] at found
    have chosen : first ∈ Input.nearest m.stamp (first :: rest.filter (Input.near c.maxPairDelta m.stamp)) := by
      refine List.mem_argmin_iff.mpr ⟨List.mem_cons_self, fun a ha => ?_, fun a _ _ => ?_⟩
      · rcases List.mem_cons.mp ha with rfl | later
        · exact le_rfl
        · obtain ⟨ha, nearby⟩ := List.mem_filter.mp later
          exact oldest first (waiting List.mem_cons_self) a (waiting (List.mem_cons_of_mem _ ha)) (left.1 a ha) nearFirst nearby
      · rw [List.idxOf_cons_self]
        exact Nat.zero_le _
    obtain rfl := Option.some.inj (found.symm.trans chosen)
    exact ⟨rest, rfl⟩

theorem filed_own (waiting : partner c m j = none) (mem : a ∈ filed c m j m.side) : a ∈ j.buffers m.side ∨ a = m := by
  unfold filed at mem
  rw [waiting] at mem
  dsimp only at mem
  rw [Function.update_self] at mem
  simpa using List.mem_of_mem_drop mem

theorem filed_other (waiting : partner c m j = none) : filed c m j m.side.other = remaining c m j := by
  unfold filed
  rw [waiting]
  dsimp only
  rw [Function.update_of_ne (other_ne _), Function.update_self]

theorem paired_own (found : partner c m j = some p) : filed c m j m.side = j.buffers m.side := by
  unfold filed
  rw [found]
  exact Function.update_of_ne (other_ne _).symm _ _

theorem paired_other (found : partner c m j = some p) {rest : List Member} (remains : remaining c m j = p :: rest) :
    filed c m j m.side.other = rest := by
  unfold filed
  rw [found, remains]
  dsimp only
  rw [Function.update_self, List.erase_cons_head]

theorem filed_sorted (sorted : ∀ side, (j.buffers side).Pairwise fun a b => a.stamp < b.stamp)
    (later : ∀ a ∈ j.buffers m.side, a.stamp < m.stamp) (side : Side) :
    (filed c m j side).Pairwise fun a b => a.stamp < b.stamp := by
  have left := (sorted m.side.other).sublist (List.dropWhile_sublist fun row => row.stamp < m.stamp - c.maxPairDelta)
  unfold filed
  cases partner c m j with
  | none =>
    rcases eq_or_other m.side side with rfl | rfl
    · have own : (j.buffers m.side ++ [m]).Pairwise fun a b => a.stamp < b.stamp :=
        List.pairwise_append.mpr ⟨sorted m.side, List.pairwise_singleton _ _, by simpa using later⟩
      dsimp only
      rw [Function.update_self]
      exact own.sublist (List.drop_sublist _ _)
    · dsimp only
      rw [Function.update_of_ne (other_ne _), Function.update_self]
      exact left
  | some p =>
    rcases eq_or_other m.side side with rfl | rfl
    · dsimp only
      rw [Function.update_of_ne (other_ne _).symm]
      exact sorted m.side
    · dsimp only
      rw [Function.update_self]
      exact left.sublist List.erase_sublist

theorem filed_subset {side : Side} (mem : a ∈ filed c m j side) : a ∈ j.buffers side ∨ side = m.side ∧ a = m := by
  cases found : partner c m j with
  | none =>
    rcases eq_or_other m.side side with rfl | rfl
    · exact (filed_own found mem).imp_right fun same => ⟨rfl, same⟩
    · rw [filed_other found] at mem
      exact .inl (remaining_subset mem)
  | some p =>
    rcases eq_or_other m.side side with rfl | rfl
    · rw [paired_own found] at mem
      exact .inl mem
    · unfold filed at mem
      rw [found] at mem
      dsimp only at mem
      rw [Function.update_self] at mem
      exact .inl (remaining_subset (List.mem_of_mem_erase mem))

variable {j' : Input}

theorem Leaves.emits {buffers : Side → List Member} {reference : Option Int} (left : Leaves buffers reference j j')
    (idle : j.main = .idle) : ∀ x ∈ j'.due, x ∈ reference := fun x h => by
  rcases left.due x h with old | new
  · unfold Input.due at old
    rw [idle] at old
    cases old
  · exact new

theorem Forward.referred_after {buffers : Side → List Member} {reference : Option Int} (h : Forward c t)
    (left : Leaves buffers reference t.state j') : ∀ x ∈ j'.referred, x ∈ j'.due.toList ++ t.references := fun x mem => by
  unfold Input.referred at mem
  rw [left.last] at mem
  rcases List.mem_append.mp mem with last | due
  · exact List.mem_append_right _ (h.referred x (List.mem_append_left _ last))
  · exact List.mem_append_left _ due

theorem Forward.wait (h : Forward c t) (idle : t.state.main = .idle) (later : Later t m)
    (none_ : partner c m t.state = none) (left : Leaves (filed c m t.state) none t.state j') :
    Forward c ⟨j', m :: t.arrivals, t.pairs, j'.due.toList ++ t.references⟩ := by
  have quiet : j'.due = none := Option.eq_none_iff_forall_not_mem.mpr fun x mem => by cases left.emits idle x mem
  have own : ∀ a ∈ t.state.buffers m.side, a.stamp < m.stamp := fun a mem =>
    later a (h.waits m.side a mem).2 (h.waits m.side a mem).1
  have past : ∀ p ∈ t.pairs, (scanOf m.side p).stamp < m.stamp := fun p mem =>
    later _ (h.paired p mem m.side).2 (h.paired p mem m.side).1
  have far : ∀ a ∈ remaining c m t.state, c.maxPairDelta < (m.stamp - a.stamp).natAbs := fun a mem => by
    have away := partner_none none_ mem
    simp only [Input.near, decide_eq_true_eq] at away
    omega
  have referred := h.referred_after left
  rw [quiet] at referred ⊢
  refine ⟨fun side a mem => ?_, fun side => ?_, fun side a ha b hb => ?_, fun p mem side => ?_, h.ordered, fun side a mem => ?_,
    h.emitted, h.below, referred⟩
  · change a ∈ j'.buffers side at mem
    rw [left.buffers] at mem
    rcases filed_subset mem with old | ⟨rfl, rfl⟩
    · exact ⟨(h.waits side a old).1, List.mem_cons_of_mem _ (h.waits side a old).2⟩
    · exact ⟨rfl, List.mem_cons_self⟩
  · change (j'.buffers side).Pairwise _
    rw [left.buffers]
    exact filed_sorted h.sorted own side
  · change a ∈ j'.buffers side at ha
    change b ∈ j'.buffers side.other at hb
    rw [left.buffers] at ha hb
    rcases eq_or_other m.side side with rfl | rfl
    · rw [filed_other none_] at hb
      rcases filed_own none_ ha with old | rfl
      · exact h.apart _ a old b (remaining_subset hb)
      · exact far b hb
    · rw [other_other] at hb
      rw [filed_other none_] at ha
      rcases filed_own none_ hb with old | rfl
      · exact h.apart _ a (remaining_subset ha) b (by rwa [other_other])
      · have away := far a ha
        omega
  · exact ⟨(h.paired p mem side).1, List.mem_cons_of_mem _ (h.paired p mem side).2⟩
  · change a ∈ j'.buffers side at mem
    rw [left.buffers] at mem
    rcases filed_subset mem with old | ⟨rfl, rfl⟩
    · exact (h.ahead side a old).imp_left fun ⟨b, arrived, passes⟩ => ⟨b, List.mem_cons_of_mem _ arrived, passes⟩
    · exact .inr past

theorem Forward.pair (h : Forward c t) (idle : t.state.main = .idle) (later : Later t m)
    (oldest : Oldest c t.state m) (found : partner c m t.state = some p)
    (left : Leaves (filed c m t.state) (some (max m.stamp p.stamp)) t.state j') :
    Forward c ⟨j', m :: t.arrivals, inOrder m p :: t.pairs, j'.due.toList ++ t.references⟩ ∧
      ∀ q ∈ t.pairs, Newer (inOrder m p) q := by
  obtain ⟨rest, remains⟩ := partner_oldest (h.sorted _) oldest found
  obtain ⟨kept, near⟩ := partner_spec found
  simp only [Input.near, decide_eq_true_eq] at near
  have waits := remaining_subset kept
  obtain ⟨pSide, pArrived⟩ := h.waits _ p waits
  have own : ∀ a ∈ t.state.buffers m.side, a.stamp < m.stamp := fun a mem =>
    later a (h.waits m.side a mem).2 (h.waits m.side a mem).1
  -- no scan of this side has gone past the partner, so it is past every pair
  have past : ∀ q ∈ t.pairs, (scanOf m.side.other q).stamp < p.stamp := by
    rcases h.ahead _ p waits with ⟨b, arrived, bSide, passes⟩ | past
    · rw [other_other] at bSide
      have order := later b arrived bSide
      omega
    · exact past
  have newer : ∀ q ∈ t.pairs, Newer (inOrder m p) q := fun q mem => newer_iff.mpr fun side => by
    rcases eq_or_other m.side side with rfl | rfl
    · rw [scanOf_inOrder.1]
      exact later _ (h.paired q mem m.side).2 (h.paired q mem m.side).1
    · rw [scanOf_inOrder.2]
      exact past q mem
  have sub {side : Side} {a : Member} (mem : a ∈ filed c m t.state side) : a ∈ t.state.buffers side := by
    rcases eq_or_other m.side side with rfl | rfl
    · rwa [paired_own found] at mem
    · rw [paired_other found remains] at mem
      have stays : a ∈ remaining c m t.state := by
        rw [remains]
        exact List.mem_cons_of_mem _ mem
      exact remaining_subset stays
  refine ⟨⟨fun side a mem => ?_, fun side => ?_, fun side a ha b hb => ?_, fun q mem side => ?_,
    List.pairwise_cons.mpr ⟨newer, h.ordered⟩, fun side a mem => ?_, ?_, ?_, h.referred_after left⟩, newer⟩
  · change a ∈ j'.buffers side at mem
    rw [left.buffers] at mem
    exact ⟨(h.waits side a (sub mem)).1, List.mem_cons_of_mem _ (h.waits side a (sub mem)).2⟩
  · change (j'.buffers side).Pairwise _
    rw [left.buffers]
    exact filed_sorted h.sorted own side
  · change a ∈ j'.buffers side at ha
    change b ∈ j'.buffers side.other at hb
    rw [left.buffers] at ha hb
    exact h.apart side a (sub ha) b (sub hb)
  · rcases List.mem_cons.mp mem with rfl | old
    · rcases eq_or_other m.side side with rfl | rfl
      · rw [scanOf_inOrder.1]
        exact ⟨rfl, List.mem_cons_self⟩
      · rw [scanOf_inOrder.2]
        exact ⟨pSide, List.mem_cons_of_mem _ pArrived⟩
    · exact ⟨(h.paired q old side).1, List.mem_cons_of_mem _ (h.paired q old side).2⟩
  · change a ∈ j'.buffers side at mem
    rw [left.buffers] at mem
    rcases eq_or_other m.side side with rfl | rfl
    · -- a scan of this side that still waits is too old for the partner
      rw [paired_own found] at mem
      have order := own a mem
      have away := h.apart _ a mem p waits
      exact .inl ⟨p, List.mem_cons_of_mem _ pArrived, pSide, by omega⟩
    · rcases h.ahead _ a (sub mem) with ⟨b, arrived, passes⟩ | ahead
      · exact .inl ⟨b, List.mem_cons_of_mem _ arrived, passes⟩
      · refine .inr fun q hq => ?_
        rcases List.mem_cons.mp hq with rfl | old
        · have sorted := (h.sorted m.side.other).sublist (List.dropWhile_sublist fun row => row.stamp < m.stamp - c.maxPairDelta)
          change (remaining c m t.state).Pairwise _ at sorted
          rw [remains, List.pairwise_cons] at sorted
          rw [paired_other found remains] at mem
          rw [scanOf_inOrder.2]
          exact sorted.1 a mem
        · exact ahead q old
  · refine List.pairwise_append.mpr ⟨by cases j'.due <;> simp, h.emitted, fun x hx y hy => ?_⟩
    obtain rfl := Option.some.inj (left.emits idle x (by simpa using hx))
    obtain ⟨q, mem, bound⟩ := h.below y hy
    have forward := newer q mem
    unfold Newer at forward
    have most := max_inOrder (m := m) (p := p)
    omega
  · intro x hx
    rcases List.mem_append.mp hx with new | old
    · obtain rfl := Option.some.inj (left.emits idle x (by simpa using new))
      exact ⟨_, List.mem_cons_self, le_of_eq max_inOrder.symm⟩
    · obtain ⟨q, mem, bound⟩ := h.below x old
      exact ⟨q, List.mem_cons_of_mem _ mem, bound⟩

theorem Forward.keep (h : Forward c t) (buffers : j'.buffers = t.state.buffers)
    (referred : ∀ x ∈ j'.referred, x ∈ t.references) : Forward c { t with state := j' } := by
  refine ⟨fun side => ?_, fun side => ?_, fun side => ?_, h.paired, h.ordered, fun side => ?_, h.emitted, h.below, referred⟩
  · rw [buffers]
    exact h.waits side
  · rw [buffers]
    exact h.sorted side
  · rw [buffers]
    exact h.apart side
  · rw [buffers]
    exact h.ahead side

theorem forward_initial : Forward c (.initial c) where
  waits _ _ mem := by cases mem
  sorted _ := .nil
  apart _ _ mem := by cases mem
  paired _ mem := by cases mem
  ordered := .nil
  ahead _ _ mem := by cases mem
  emitted := .nil
  below _ mem := by cases mem
  referred _ mem := by cases mem

def Straight (c : Config) (t : Trace) (m : Member) : Prop := Later t m ∧ Oldest c t.state m

theorem forward_turn (both : c.sides.length ≠ 1) {t' : Trace} (turn : Turn c (Straight c) t t') (h : Forward c t) :
    Forward c t' := by
  cases turn with
  | receive s idle meets =>
    have left := receiveSource_leaves both s t.state
    unfold Trace.receive pairOf
    cases arrives : arrival c s t.state with
    | none =>
      rw [arrives] at left
      have quiet : (t.state.receiveSource c s).due = none := Option.eq_none_iff_forall_not_mem.mpr fun x mem => by
        cases left.emits idle x mem
      have referred := h.referred_after left
      dsimp only [Option.bind_none, Option.toList_none, List.nil_append]
      rw [quiet] at referred ⊢
      exact h.keep left.buffers referred
    | some m =>
      rw [arrives] at left
      obtain ⟨later, oldest⟩ := meets m arrives
      dsimp only at left
      cases found : partner c m t.state with
      | none =>
        rw [found] at left
        have waits := h.wait idle later found left
        rw [Option.bind_some, found]
        exact waits
      | some p =>
        rw [found] at left
        have pairs := (h.pair idle later oldest found left).1
        rw [Option.bind_some, found]
        exact pairs
  | calm step =>
    have rests := calm_rests step
    exact h.keep rests.buffers fun x mem => h.referred x (rests.referred x mem)

theorem forward_run (both : c.sides.length ≠ 1) (run : Path (Turn c (Straight c)) (.initial c) t) : Forward c t :=
  run.keeps (fun _ _ turn h => forward_turn both turn h) forward_initial

end forward

/-- Where every scan is later than those of its side before it, and is as near to an older waiting scan as to a newer one,
the pairs and the references go forward, and the check of the references passes. -/
theorem pairs_forward {c : Config} (both : c.sides.length ≠ 1) {t : Trace} (run : Path (Turn c (Straight c)) (.initial c) t) :
    t.pairs.Pairwise Newer ∧ t.references.Pairwise (· > ·) ∧
      ∀ s m p, t.state.main = .idle → arrival c s t.state = some m → Straight c t m → partner c m t.state = some p →
        t.state.lastEnqueuedStamp.all (· < max m.stamp p.stamp) := by
  have forward := forward_run both run
  refine ⟨forward.ordered, forward.emitted, fun s m p idle arrives ⟨later, oldest⟩ found => ?_⟩
  have left := receiveSource_leaves both s t.state
  rw [arrives] at left
  dsimp only at left
  rw [found] at left
  have newer := (forward.pair idle later oldest found left).2
  cases last : t.state.lastEnqueuedStamp with
  | none => rfl
  | some x =>
    have referred : x ∈ t.references := forward.referred x (by simp [Input.referred, last])
    obtain ⟨q, mem, bound⟩ := forward.below x referred
    have order := newer q mem
    unfold Newer at order
    have most := max_inOrder (m := m) (p := p)
    simp only [Option.all_some, decide_eq_true_eq]
    omega

/-! Two scans of the left side wait for the right one. -/

namespace Bench

def pairing : Config := { config with sides := [.left, .right], maxPairDelta := 15 }

def scan (side : Side) (stamp : Int) : Source :=
  { frame with message := side, inspected := .ok (some ⟨side, stamp, stamp, 4⟩) }

def takes (side : Side) (stamp : Int) (t : Trace) : Trace := t.receive pairing (scan side stamp)

def goesOn (t : Trace) : Trace := { t with state := t.state.proceed pairing .pass false none }

def worksOn (t : Trace) : Trace := { t with state := t.state.work pairing (.ok ⟨false, true⟩) }

def pollsOn (t : Trace) : Trace := { t with state := { t.state with main := .polling true } }

def opened : Trace := goesOn (goesOn (goesOn (pollsOn (worksOn (worksOn (worksOn (.initial pairing)))))))

def skipped : Trace := goesOn (goesOn (takes .right 18 (takes .left 20 (takes .left 10 opened))))

def crossed : Trace := takes .right 19 skipped

def straight : Trace := takes .left 30 (goesOn (goesOn (takes .right 18 (takes .left 20 opened))))

variable {P : Trace → Member → Prop} {t : Trace}

theorem goesOn_turn : Turn pairing P t (goesOn t) := .calm (.proceed .pass false none)

theorem worksOn_turn : Turn pairing P t (worksOn t) := .calm (.work _)

theorem opens : Path (Turn pairing P) (.initial pairing) opened := by
  have worked : Path (Turn pairing P) (.initial pairing) (worksOn (worksOn (worksOn (.initial pairing)))) :=
    .tail (.tail (.tail .refl worksOn_turn) worksOn_turn) worksOn_turn
  have polled : Path (Turn pairing P) (.initial pairing) (pollsOn (worksOn (worksOn (worksOn (.initial pairing))))) :=
    worked.tail (.calm (.poll (by decide +kernel)))
  exact ((polled.tail goesOn_turn).tail goesOn_turn).tail goesOn_turn

theorem takes_turn (P : Trace → Member → Prop) {t : Trace} (side : Side) (stamp : Int) (idle : t.state.main = .idle)
    (arrives : arrival pairing (scan side stamp) t.state = some ⟨side, stamp, stamp, 4⟩) (meets : P t ⟨side, stamp, stamp, 4⟩) :
    Turn pairing P t (takes side stamp t) :=
  .receive _ idle fun m mem => by
    obtain rfl := Option.some.inj (arrives.symm.trans mem)
    exact meets

instance (m : Member) : Decidable (Later t m) := inferInstanceAs (Decidable (∀ a ∈ t.arrivals, a.side = m.side → a.stamp < m.stamp))

instance (c : Config) (j : Input) (m : Member) : Decidable (Oldest c j m) :=
  inferInstanceAs (Decidable (∀ a ∈ j.buffers m.side.other, ∀ b ∈ j.buffers m.side.other, a.stamp < b.stamp →
    Input.near c.maxPairDelta m.stamp a → Input.near c.maxPairDelta m.stamp b →
    (a.stamp - m.stamp).natAbs ≤ (b.stamp - m.stamp).natAbs))

theorem straightens : Path (Turn pairing (Straight pairing)) (.initial pairing) straight := by
  have left := opens.tail (takes_turn (Straight pairing) .left 20 (by decide +kernel) (by decide +kernel)
    ⟨by decide +kernel, by decide +kernel⟩)
  have right := left.tail (takes_turn (Straight pairing) .right 18 (by decide +kernel) (by decide +kernel)
    ⟨by decide +kernel, by decide +kernel⟩)
  exact ((right.tail goesOn_turn).tail goesOn_turn).tail (takes_turn (Straight pairing) .left 30 (by decide +kernel)
    (by decide +kernel) ⟨by decide +kernel, by decide +kernel⟩)

theorem crosses : Path (Turn pairing Later) (.initial pairing) crossed := by
  have older := opens.tail (takes_turn Later .left 10 (by decide +kernel) (by decide +kernel) (by decide +kernel))
  have newer := older.tail (takes_turn Later .left 20 (by decide +kernel) (by decide +kernel) (by decide +kernel))
  have right := newer.tail (takes_turn Later .right 18 (by decide +kernel) (by decide +kernel) (by decide +kernel))
  exact ((right.tail goesOn_turn).tail goesOn_turn).tail
    (takes_turn Later .right 19 (by decide +kernel) (by decide +kernel) (by decide +kernel))

end Bench

theorem bench_pairs_forward : Bench.straight.pairs.length = 1 ∧ Bench.straight.pairs.Pairwise Newer ∧
    Bench.straight.state.lastEnqueuedStamp.all (· < (30 : Int)) := by
  obtain ⟨newer, -, passes⟩ := pairs_forward (by decide) Bench.straightens
  exact ⟨by decide +kernel, newer, passes (Bench.scan .right 28) ⟨.right, 28, 28, 4⟩ ⟨.left, 30, 30, 4⟩ (by decide +kernel)
    (by decide +kernel) ⟨by decide +kernel, by decide +kernel⟩ (by decide +kernel)⟩

/-- The scan that waits longer is paired after one that came later, and the input fails. -/
theorem pairs_cross : ∃ t, Path (Turn Bench.pairing Later) (.initial Bench.pairing) t ∧ ¬t.pairs.Pairwise Newer ∧
    t.state.failureReason = some "NONMONOTONIC_OUTPUT_TIMESTAMP" :=
  ⟨Bench.crossed, Bench.crosses, by decide +kernel, by decide +kernel⟩

end Smartwheel.Mapping

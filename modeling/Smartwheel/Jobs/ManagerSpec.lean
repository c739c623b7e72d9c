import Smartwheel.Jobs.Manager
import Mathlib.Data.List.GetD

/-! What each job keeps while its thread runs: a row is active until the final block of `_run`, and its child is gone
by then, unless an exception that nothing handles has left the body. -/
namespace Smartwheel.Jobs

/-- The row has its last status: `_run` is past its final block, or was never begun. -/
def Thread.closed : Thread → Bool
  | .unstarted | .releasing | .ended => true
  | _ => false

/-- `_run` is on its way to its final block, with a terminal status for it if it has one. -/
def Thread.inside : Thread → Bool
  | .unstarted | .releasing | .ended => false
  | .final (some s) => !s.active
  | _ => true

/-- `_run` has ended, or was never begun. -/
def Thread.over : Thread → Bool
  | .unstarted | .ended => true
  | _ => false

def Thread.owns : Thread → Bool
  | .polling .. | .handling | .waiting | .final none => true
  | _ => false

namespace Job
variable {j : Job} {a : Answers}

/-- A job whose `_run` has not come through its final block. -/
structure Inside (j : Job) : Prop where
  active : j.status.active = true
  saved : ∀ s, j.saved = some s → s.active = true
  child : j.child = .running → j.thread.owns = true

structure Outside (j : Job) : Prop where
  device : j.kind.device = true → j.status.active = false
  child : j.status.active = false → j.child ≠ .running
  saved : ∀ s, j.saved = some s → s.active = false → j.status.active = false
  locked : j.locked = true → j.thread = .releasing

inductive Sound (j : Job) : Prop where
  | of_inside (open_ : j.thread.inside = true) (h : j.Inside)
  | of_outside (closed : j.thread.closed = true) (h : j.Outside)

/-- The final block does what it is for: whatever the writes raise is handled where the offline lock is held, and a
job without a final status has no child that runs if it was cancelled, and is an offline one if it was not. -/
def Harmless (j : Job) (a : Answers) : Prop :=
  match j.thread with
  | .final status =>
    (j.locked = true → (a.result ≠ some .other ∧ a.result ≠ some .base) ∧ (a.save = none ∨ a.save = some .os)) ∧
      (status = none → (j.cancelled = true → j.child ≠ .running) ∧ (j.cancelled = false → j.kind = .offline))
  | _ => True

instance (j : Job) (a : Answers) : Decidable (j.Harmless a) := by
  unfold Harmless
  split <;> infer_instance

theorem Inside.raise (h : j.Inside) (e : Raised) : (j.raise e).Sound := by
  unfold Job.raise
  split
  · exact .of_inside rfl ⟨h.active, h.saved, fun _ => rfl⟩
  · exact .of_inside rfl ⟨h.active, h.saved, fun _ => rfl⟩

/-- `_run` goes on where no child runs, or where it may. -/
theorem Inside.goto (h : j.Inside) {thread : Thread} (open_ : thread.inside = true)
    (owns : j.child = .running → thread.owns = true) : ({ j with thread } : Job).Sound :=
  .of_inside open_ ⟨h.active, h.saved, owns⟩

theorem Inside.save (h : j.Inside) {next : Thread} (open_ : next.inside = true)
    (owns : j.child = .running → next.owns = true) : (j.save a next).Sound := by
  unfold Job.save
  split
  · refine .of_inside open_ ⟨h.active, fun s saved => ?_, owns⟩
    cases saved
    exact h.active
  · exact h.raise _

theorem Inside.watchGuards (h : j.Inside) {p : Place} {guardError : Bool} (at_ : j.thread = .polling p guardError) :
    (j.watchGuards p guardError a).Sound := by
  unfold Job.watchGuards
  split
  · exact .of_inside rfl ⟨rfl, h.saved, fun _ => rfl⟩
  · exact .of_inside (by rw [at_]; rfl) h

theorem Inside.report (h : j.Inside) (last : Bool) : (j.report last).Inside := by
  refine ⟨?_, h.saved, h.child⟩
  cases last with
  | true => rfl
  | false => exact h.active

theorem Inside.poll (h : j.Inside) {p : Place} {guardError : Bool} (at_ : j.thread = .polling p guardError) :
    (j.poll p guardError a).Sound := by
  unfold Job.poll
  split
  · split
    · rename_i last _ _
      have seen := h.report last
      split
      · have written : Inside { j.report last with saved := some (j.report last).status } := by
          refine ⟨seen.active, fun s saved => ?_, seen.child⟩
          cases saved
          exact seen.active
        exact written.watchGuards at_
      · exact seen.raise _
    · exact h.watchGuards at_
  · rename_i running
    exact h.goto rfl fun runs => absurd runs running

theorem Inside.reap (h : j.Inside) {p : Place} {guardError : Bool} {code : Int} {accepted : List Int} :
    (j.reap p guardError code accepted).Sound := by
  have gone {thread : Thread} (open_ : thread.inside = true) : Sound { j with child := .absent, thread } :=
    .of_inside open_ ⟨h.active, h.saved, fun runs => (nomatch runs)⟩
  unfold Job.reap
  dsimp only
  split
  · exact gone rfl
  · split
    · exact gone rfl
    · exact gone rfl

theorem Inside.finish (h : j.Inside) {status : Option Status} (terminal : ∀ s, status = some s → s.active = false)
    (at_ : j.thread = .final status) (harmless : j.Harmless a) : (j.finish status a).Sound := by
  unfold Harmless at harmless
  rw [at_] at harmless
  obtain ⟨quiet, left⟩ := harmless
  have owns := h.child
  rw [at_] at owns
  have last : Outside { j with thread := .releasing, status := j.lastStatus status } := by
    cases status with
    | some s =>
      exact ⟨fun _ => terminal s rfl, fun _ runs => (nomatch owns runs), fun _ _ _ => terminal s rfl,
        fun _ => rfl⟩
    | none =>
      obtain ⟨cancelled, uncancelled⟩ := left rfl
      by_cases cancel : j.cancelled = true
      · simp only [lastStatus, cancel, if_true]
        exact ⟨fun _ => rfl, fun _ => cancelled cancel, fun _ _ _ => rfl, fun _ => rfl⟩
      · have offline := uncancelled (by simpa using cancel)
        simp only [lastStatus, cancel]
        refine ⟨fun device => ?_, fun gone => ?_, fun s saved gone => ?_, fun _ => rfl⟩
        · simp [offline, Kind.device] at device
        · simp [h.active] at gone
        · simp [h.saved s saved] at gone
  unfold Job.finish
  dsimp only
  split
  · rename_i raised
    refine .of_outside rfl ⟨last.device, last.child, last.saved, fun l => ?_⟩
    obtain other | base := raised.2
    · exact absurd other (quiet l).1.1
    · exact absurd base (quiet l).1.2
  · split
    · exact .of_outside rfl ⟨last.device, last.child, fun s saved gone => by cases saved; exact gone, last.locked⟩
    · exact .of_outside rfl ⟨last.device, last.child, last.saved, last.locked⟩
    · rename_i e os saved
      refine .of_outside rfl ⟨last.device, last.child, last.saved, fun l => ?_⟩
      obtain none_ | os_ := (quiet l).2
      · simp [saved] at none_
      · simp [saved] at os_
        exact absurd os_ os

theorem conclusion_terminal (j : Job) : j.conclusion.active = false := by
  unfold conclusion
  split
  · rfl
  · split
    · rfl
    · split <;> rfl

theorem advance_sound (h : j.Sound) (free : Bool) (harmless : j.Harmless a) : (j.advance free a).Sound := by
  cases h with
  | of_outside closed h =>
    unfold advance
    split
    all_goals rename_i at_
    all_goals first
      | exact .of_outside closed h
      | exact .of_outside rfl ⟨h.device, h.child, h.saved, fun l => (nomatch l)⟩
      | simp [at_, Thread.closed] at closed
  | of_inside open_ h =>
    have idle {t : Thread} (at_ : j.thread = t) (frees : t.owns = false) {p : Prop} (runs : j.child = .running) : p := by
      have owned := h.child runs
      simp [at_, frees] at owned
    unfold advance
    split
    all_goals rename_i at_
    · simp [at_, Thread.inside] at open_
    · simp [at_, Thread.inside] at open_
    · split
      · exact .of_inside rfl ⟨h.active, h.saved, idle at_ rfl⟩
      · split
        · exact h.goto rfl (idle at_ rfl)
        · exact .of_inside open_ h
    · split
      · exact h.goto rfl (idle at_ rfl)
      · exact .of_inside rfl ⟨rfl, h.saved, idle at_ rfl⟩
    · exact h.save rfl (idle at_ rfl)
    · split
      · split
        · exact h.goto rfl (idle at_ rfl)
        · exact h.goto rfl (idle at_ rfl)
      · split
        · exact h.goto rfl (idle at_ rfl)
        · exact .of_inside rfl ⟨h.active, h.saved, idle at_ rfl⟩
    · exact h.save rfl (idle at_ rfl)
    · split
      · exact h.goto rfl (idle at_ rfl)
      · split
        · exact h.goto rfl (idle at_ rfl)
        · exact h.goto rfl (idle at_ rfl)
    · split
      · exact h.goto rfl (idle at_ rfl)
      · split
        · exact h.goto rfl (idle at_ rfl)
        · rename_i p _ _
          have launched : Inside { j with child := .running, thread := .polling p false } :=
            ⟨h.active, h.saved, fun _ => rfl⟩
          exact launched.save rfl fun _ => rfl
    · exact h.poll at_
    · split
      · exact h.reap
      · exact .of_inside open_ h
    · split
      · exact h.goto rfl (idle at_ rfl)
      · exact .of_inside rfl ⟨h.active, h.saved, idle at_ rfl⟩
    · exact h.save rfl (idle at_ rfl)
    · refine h.goto ?_ (idle at_ rfl)
      simp [Thread.inside, conclusion_terminal]
    · split
      · exact .of_inside rfl ⟨rfl, h.saved, fun _ => rfl⟩
      · rename_i gone
        exact h.goto rfl fun runs => absurd runs gone
    · split
      · exact .of_inside open_ h
      · rename_i gone
        exact h.goto rfl fun runs => absurd runs gone
    · exact .of_inside rfl ⟨h.active, h.saved, fun runs => (nomatch runs)⟩
    · refine h.finish (fun s final => ?_) at_ harmless
      subst final
      simpa [at_, Thread.inside] using open_
    · simp [at_, Thread.inside] at open_

end Job
end Smartwheel.Jobs

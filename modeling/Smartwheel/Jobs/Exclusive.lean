import Smartwheel.Jobs.ManagerSpec
import Mathlib.Data.List.Basic

/-! What the manager keeps over the steps of all its jobs: one of them uses the devices, and the holder of the offline
lock is a job whose `_run` goes on. -/
namespace Smartwheel.Jobs

namespace Job
variable {j : Job} {a : Answers}

structure Alike (j j' : Job) : Prop where
  kind : j'.kind = j.kind
  locked : j'.locked = j.locked

theorem save_alike (j : Job) (a : Answers) (next : Thread) : Alike j (j.save a next) := by
  unfold save
  split <;> exact ⟨rfl, rfl⟩

theorem watchGuards_alike (j : Job) (p : Place) (guardError : Bool) (a : Answers) :
    Alike j (j.watchGuards p guardError a) := by
  unfold watchGuards
  split <;> exact ⟨rfl, rfl⟩

theorem poll_alike (j : Job) (p : Place) (guardError : Bool) (a : Answers) : Alike j (j.poll p guardError a) := by
  unfold poll
  split
  · split
    · split
      · exact ⟨(watchGuards_alike _ p guardError a).kind, (watchGuards_alike _ p guardError a).locked⟩
      · exact ⟨rfl, rfl⟩
    · exact watchGuards_alike j p guardError a
  · exact ⟨rfl, rfl⟩

theorem reap_alike (j : Job) (p : Place) (guardError : Bool) (code : Int) (accepted : List Int) :
    Alike j (j.reap p guardError code accepted) := by
  unfold reap
  dsimp only
  split
  · exact ⟨rfl, rfl⟩
  · split <;> exact ⟨rfl, rfl⟩

theorem finish_alike (j : Job) (status : Option Status) (a : Answers) : Alike j (j.finish status a) := by
  unfold finish
  dsimp only
  split
  · exact ⟨rfl, rfl⟩
  · split <;> exact ⟨rfl, rfl⟩

theorem advance_alike (j : Job) (free : Bool) (a : Answers) :
    (j.advance free a).kind = j.kind ∧
      ((j.advance free a).locked = j.locked ∨ free = true ∧ (j.advance free a).locked = true ∨
        (j.advance free a).locked = false) := by
  have alike {j' : Job} (h : Alike j j') : j'.kind = j.kind ∧
      (j'.locked = j.locked ∨ free = true ∧ j'.locked = true ∨ j'.locked = false) := ⟨h.kind, .inl h.locked⟩
  unfold advance
  split
  case h_3 =>
    split_ifs with taken
    · exact ⟨rfl, .inr (.inl ⟨taken, rfl⟩)⟩
    · exact alike ⟨rfl, rfl⟩
    · exact alike ⟨rfl, rfl⟩
  case h_9 p _ =>
    have launched := save_alike { j with child := .running } a (.polling p false)
    split_ifs
    · exact alike ⟨rfl, rfl⟩
    · exact alike ⟨rfl, rfl⟩
    · exact alike ⟨launched.kind, launched.locked⟩
  case h_11 =>
    split
    · exact alike (reap_alike ..)
    · exact alike ⟨rfl, rfl⟩
  case h_19 => exact ⟨rfl, .inr (.inr rfl)⟩
  all_goals first
    | exact alike ⟨rfl, rfl⟩
    | exact alike (save_alike ..)
    | exact alike (poll_alike ..)
    | exact alike (finish_alike ..)
    | split_ifs <;> exact alike ⟨rfl, rfl⟩
    | split <;> exact alike ⟨rfl, rfl⟩

/-- No part of `_run` makes a job that does not use the devices use them. -/
theorem busy_advance (h : j.Sound) {free : Bool} (busy : (j.advance free a).busy = true) : j.busy = true := by
  have kind := (j.advance_alike free a).1
  rw [Job.busy, kind] at busy
  simp only [Bool.and_eq_true] at busy
  obtain ⟨device, active⟩ := busy
  cases h with
  | of_inside _ h => simp [Job.busy, device, h.active]
  | of_outside closed h =>
    have same : (j.advance free a).status = j.status := by
      unfold advance
      split
      all_goals rename_i at_
      all_goals first
        | rfl
        | simp [at_, Thread.closed] at closed
    simp [same, h.device device] at active

theorem cancel_sound (h : j.Sound) (save : Option Raised) (active : j.status.active = true) : (j.cancel save).Sound := by
  have still : (if j.status = .running then Status.stopping else j.status).active = true := by
    split
    · rfl
    · exact active
  have alike : (j.cancel save).thread = j.thread ∧ (j.cancel save).child = j.child ∧
      (j.cancel save).kind = j.kind ∧ (j.cancel save).locked = j.locked ∧ (j.cancel save).status.active = true ∧
      (∀ s, (j.cancel save).saved = some s → s.active = false → j.saved = some s) := by
    unfold Job.cancel
    cases save with
    | none => exact ⟨rfl, rfl, rfl, rfl, still, fun s saved gone => by cases saved; simp [still] at gone⟩
    | some _ => exact ⟨rfl, rfl, rfl, rfl, still, fun _ saved _ => saved⟩
  obtain ⟨thread, child, kind, locked, active', saved⟩ := alike
  cases h with
  | of_inside open_ h =>
    refine .of_inside (by rw [thread]; exact open_) ⟨active', fun s written => ?_, fun runs => ?_⟩
    · cases gone : s.active with
      | true => rfl
      | false => exact absurd (h.saved s (saved s written gone)) (by simp [gone])
    · rw [thread]
      exact h.child (child ▸ runs)
  | of_outside closed h =>
    refine .of_outside (by rw [thread]; exact closed) ⟨fun device => ?_, fun gone => ?_, fun s written gone => ?_, fun l => ?_⟩
    · rw [kind] at device
      simp [h.device device] at active
    · simp [active'] at gone
    · simp [h.saved s (saved s written gone) gone] at active
    · rw [thread]
      exact h.locked (locked ▸ l)

theorem busy_cancel (save : Option Raised) (active : j.status.active = true) (busy : (j.cancel save).busy = true) :
    j.busy = true := by
  have kind : (j.cancel save).kind = j.kind := by
    cases save <;> rfl
  rw [Job.busy, kind] at busy
  simp only [Bool.and_eq_true] at busy
  simp [Job.busy, busy.1, active]

theorem locked_cancel (save : Option Raised) : (j.cancel save).locked = j.locked := by
  cases save <;> rfl

theorem locked_exit (code : Int) : (j.exit code).locked = j.locked := by
  unfold exit
  split <;> rfl

theorem busy_exit {code : Int} (busy : (j.exit code).busy = true) : j.busy = true := by
  unfold exit at busy
  split at busy <;> exact busy

theorem exit_sound (h : j.Sound) (code : Int) : (j.exit code).Sound := by
  unfold exit
  split
  · cases h with
    | of_inside open_ h => exact .of_inside open_ ⟨h.active, h.saved, fun runs => by cases runs⟩
    | of_outside closed h =>
      exact .of_outside closed ⟨h.device, fun _ runs => (nomatch runs), h.saved, h.locked⟩
  · exact h

theorem Sound.child_gone (h : j.Sound) (shown : j.status.active = false ∨ ∃ s, j.saved = some s ∧ s.active = false) :
    j.child ≠ .running := by
  cases h with
  | of_inside _ h =>
    obtain gone | ⟨s, saved, gone⟩ := shown
    · simp [h.active] at gone
    · simp [h.saved s saved] at gone
  | of_outside _ h =>
    obtain gone | ⟨s, saved, gone⟩ := shown
    · exact h.child gone
    · exact h.child (h.saved s saved gone)

theorem inside_runs (open_ : j.thread.inside = true) : j.thread.over = false := by
  cases at_ : j.thread <;> simp_all [Thread.inside, Thread.over]

theorem Sound.locked_runs (h : j.Sound) (locked : j.locked = true) : j.thread.over = false := by
  cases h with
  | of_inside open_ _ => exact inside_runs open_
  | of_outside _ h => simp [h.locked locked, Thread.over]

theorem Sound.busy_runs (h : j.Sound) (busy : j.busy = true) : j.thread.over = false := by
  cases h with
  | of_inside open_ _ => exact inside_runs open_
  | of_outside _ h =>
    simp only [Job.busy, Bool.and_eq_true] at busy
    simp [h.device busy.1] at busy

end Job

namespace Manager
variable {m : Manager}

structure Kept (m : Manager) : Prop where
  jobs : ∀ (i : Nat) j, m.jobs[i]? = some j → j.Sound
  holder : ∀ i, m.offlineLock = some i ↔ ∃ j, m.jobs[i]? = some j ∧ j.locked = true
  single : ∀ (i k : Nat) j l, m.jobs[i]? = some j → m.jobs[k]? = some l → j.busy = true → l.busy = true → i = k

theorem kept_initial : initial.Kept :=
  ⟨fun i j h => by simp [initial] at h, fun i => by simp [initial], fun i k j l h => by simp [initial] at h⟩

def Harmless (m : Manager) : Event → Prop
  | .run index a => ∀ j ∈ m.jobs[index]?, j.Harmless a
  | .submit kind _ a => kind.device = true → a.save ≠ some .base
  | _ => True

instance (m : Manager) (e : Event) : Decidable (m.Harmless e) := by
  unfold Harmless
  split <;> infer_instance

def HarmlessRun : Manager → List Event → Prop
  | _, [] => True
  | m, e :: events => m.Harmless e ∧ HarmlessRun (m.next e) events

instance HarmlessRun.decidable : ∀ (m : Manager) (events : List Event), Decidable (m.HarmlessRun events)
  | _, [] => isTrue trivial
  | m, e :: events =>
    have : Decidable ((m.next e).HarmlessRun events) := HarmlessRun.decidable (m.next e) events
    inferInstanceAs (Decidable (m.Harmless e ∧ (m.next e).HarmlessRun events))

theorem Kept.set (h : m.Kept) {i : Nat} {j j' : Job} (at_ : m.jobs[i]? = some j) (sound : j'.Sound)
    (locked : j'.locked = j.locked ∨ m.offlineLock = none ∧ j'.locked = true ∨ j'.locked = false)
    (busy : j'.busy = true → j.busy = true) : Kept ⟨m.jobs.set i j', m.lockAfter i j j'⟩ := by
  have inside : i < m.jobs.length := (List.getElem?_eq_some_iff.mp at_).1
  have look (k : Nat) : (m.jobs.set i j')[k]? = if i = k then some j' else m.jobs[k]? := by
    simp [List.getElem?_set, inside]
  refine ⟨fun k l found => ?_, fun k => ?_, fun k k' l l' found found' uses uses' => ?_⟩
  · rw [look] at found
    split at found
    · cases found
      exact sound
    · exact h.jobs k l found
  · show m.lockAfter i j j' = some k ↔ ∃ l, (m.jobs.set i j')[k]? = some l ∧ l.locked = true
    simp only [look]
    have own := h.holder i
    have other := h.holder k
    simp only [at_, Option.some.injEq, exists_eq_left'] at own
    unfold lockAfter
    by_cases same : i = k
    · subst same
      cases before : j.locked <;> cases after : j'.locked <;> simp_all
    · cases before : j.locked <;> cases after : j'.locked <;> simp_all
  · have used {n : Nat} {x : Job} (found : (m.jobs.set i j')[n]? = some x) (uses : x.busy = true) :
        ∃ y, m.jobs[n]? = some y ∧ y.busy = true := by
      rw [look] at found
      split at found
      · rename_i same
        cases found
        exact ⟨j, same ▸ at_, busy uses⟩
      · exact ⟨x, found, uses⟩
    obtain ⟨y, found, uses⟩ := used found uses
    obtain ⟨y', found', uses'⟩ := used found' uses'
    exact h.single k k' y y' found found' uses uses'

theorem launched_sound (kind : Kind) (tasks : List Task) (a : Submission) (quiet : kind.device = true → a.save ≠ some .base) :
    (launched kind tasks a).Sound ∧ (launched kind tasks a).kind = kind ∧ (launched kind tasks a).locked = false := by
  have failed_ {j : Job} (new : j.thread = .unstarted ∧ j.child = .absent ∧ j.locked = false) :
      (failed j a.failedSave).Sound := by
    refine .of_outside (by simp [failed, new, Thread.closed]) ⟨fun _ => rfl, fun _ => ?_, fun _ _ _ => rfl, fun l => ?_⟩
    · simp [failed, new]
    · simp [failed, new] at l
  unfold launched
  dsimp only
  split
  · rename_i base
    refine ⟨.of_outside rfl ⟨fun device => absurd base (quiet device), fun gone => ?_, fun s saved => ?_, fun l => ?_⟩, rfl, rfl⟩
    · simp [queued, Status.active] at gone
    · simp [queued] at saved
    · simp [queued] at l
  · exact ⟨failed_ ⟨rfl, rfl, rfl⟩, rfl, rfl⟩
  · split
    · exact ⟨failed_ ⟨rfl, rfl, rfl⟩, rfl, rfl⟩
    · refine ⟨.of_inside ?_ ⟨rfl, fun s saved => ?_, fun runs => by cases runs⟩, rfl, rfl⟩
      · dsimp only
        split <;> rfl
      · cases saved
        rfl

theorem Kept.submit (h : m.Kept) (kind : Kind) (tasks : List Task) (a : Submission)
    (quiet : kind.device = true → a.save ≠ some .base) : (m.submit kind tasks a).Kept := by
  unfold Manager.submit
  split
  · exact h
  · rename_i taken
    obtain ⟨sound, kind_, locked⟩ := launched_sound kind tasks a quiet
    have alone : (launched kind tasks a).busy = true → ∀ j ∈ m.jobs, j.busy = false := by
      intro busy
      have device : kind.device = true := by
        simp only [Job.busy, kind_, Bool.and_eq_true] at busy
        exact busy.1
      have unused : m.jobs.any Job.busy = false := by
        by_contra used
        simp only [Bool.not_eq_false] at used
        unfold refusal at taken
        simp only [device, used, and_self, if_true] at taken
        split at taken
        · simp at taken
        · split at taken <;> simp at taken
      simpa using unused
    have look {n : Nat} {x : Job} (found : (m.jobs ++ [launched kind tasks a])[n]? = some x) :
        m.jobs[n]? = some x ∨ n = m.jobs.length ∧ x = launched kind tasks a := by
      rw [List.getElem?_append] at found
      split at found
      · exact .inl found
      · rename_i past
        obtain ⟨bound, same⟩ := List.getElem?_eq_some_iff.mp found
        simp only [List.length_singleton, Nat.lt_one_iff] at bound
        exact .inr ⟨by omega, by simpa [bound] using same.symm⟩
    refine ⟨fun n x found => ?_, fun n => ?_, fun n k x y found found' busy busy' => ?_⟩
    · obtain old | ⟨-, rfl⟩ := look found
      · exact h.jobs n x old
      · exact sound
    · rw [h.holder n]
      constructor
      · rintro ⟨j, old, held⟩
        have inside : n < m.jobs.length := (List.getElem?_eq_some_iff.mp old).1
        exact ⟨j, by simpa [List.getElem?_append, inside] using old, held⟩
      · rintro ⟨j, found, held⟩
        obtain old | ⟨-, rfl⟩ := look found
        · exact ⟨j, old, held⟩
        · simp [locked] at held
    · obtain old | ⟨rfl, rfl⟩ := look found <;> obtain old' | ⟨rfl, rfl⟩ := look found'
      · exact h.single n k x y old old' busy busy'
      · simp [alone busy' x (List.mem_of_getElem? old)] at busy
      · simp [alone busy y (List.mem_of_getElem? old')] at busy'
      · rfl

theorem kept_next (h : m.Kept) {e : Event} (harmless : m.Harmless e) : (m.next e).Kept := by
  have unlocked {i : Nat} {j j' : Job} (same : j'.locked = j.locked) : m.lockAfter i j j' = m.offlineLock := by
    cases before : j.locked <;> simp [lockAfter, same, before]
  cases e with
  | submit kind tasks a => exact h.submit kind tasks a harmless
  | cancel index save =>
    simp only [next]
    split
    · rename_i j at_
      split_ifs with active
      · have kept := h.set at_ (Job.cancel_sound (h.jobs _ _ at_) save active) (.inl (Job.locked_cancel save))
          (Job.busy_cancel save active)
        rwa [unlocked (Job.locked_cancel save)] at kept
      · exact h
    · exact h
  | run index a =>
    simp only [next]
    split
    · rename_i j at_
      have sound := h.jobs _ _ at_
      have lock := (j.advance_alike m.offlineLock.isNone a).2
      refine h.set at_ (Job.advance_sound sound _ (harmless j at_)) ?_ (Job.busy_advance sound)
      simpa using lock
    · exact h
  | exit index code =>
    simp only [next]
    split
    · rename_i j at_
      have kept := h.set at_ (Job.exit_sound (h.jobs _ _ at_) code) (.inl (Job.locked_exit code)) Job.busy_exit
      rwa [unlocked (Job.locked_exit code)] at kept
    · exact h

theorem kept_run {events : List Event} (h : m.Kept) (harmless : m.HarmlessRun events) : (events.foldl next m).Kept := by
  induction events generalizing m with
  | nil => exact h
  | cons e events ih => exact ih (kept_next h harmless.1) harmless.2

/-- After any run of harmless events: one capture or live job at most is active; a row that shows a terminal status
has no child that runs; the offline lock is held by a job whose `_run` has not ended; and so is the job for which
`submit` refuses one. -/
theorem jobs_exclusive (events : List Event) (harmless : initial.HarmlessRun events) :
    let m := events.foldl next initial
    (∀ (i k : Nat) j l, m.jobs[i]? = some j → m.jobs[k]? = some l → j.busy = true → l.busy = true → i = k) ∧
    (∀ j ∈ m.jobs, (j.status.active = false ∨ ∃ s, j.saved = some s ∧ s.active = false) → j.child ≠ .running) ∧
    (∀ i, m.offlineLock = some i → ∃ j, m.jobs[i]? = some j ∧ j.thread.over = false) ∧
    (∀ kind tasks a, m.refusal kind tasks a = some .device → ∃ j ∈ m.jobs, j.busy = true ∧ j.thread.over = false) := by
  intro m
  have kept : m.Kept := kept_run kept_initial harmless
  refine ⟨kept.single, fun j inside shown => ?_, fun i held => ?_, fun kind tasks a refused => ?_⟩
  · obtain ⟨i, at_⟩ := List.getElem?_of_mem inside
    exact (kept.jobs i j at_).child_gone shown
  · obtain ⟨j, at_, locked⟩ := (kept.holder i).mp held
    exact ⟨j, at_, (kept.jobs i j at_).locked_runs locked⟩
  · have used : m.jobs.any Job.busy = true := by
      unfold refusal at refused
      split at refused
      · simp at refused
      · split at refused
        · simp at refused
        · split at refused
          · rename_i used
            exact used.2
          · simp at refused
    obtain ⟨j, inside, busy⟩ := List.any_eq_true.mp used
    obtain ⟨i, at_⟩ := List.getElem?_of_mem inside
    exact ⟨j, inside, busy, (kept.jobs i j at_).busy_runs busy⟩

/-! Two offline jobs, the first of which runs one command. -/

namespace Bench

def fine : Answers := ⟨none, none, false, false, none, true⟩

def started : Submission := ⟨none, none, false, none⟩

def work : List Event :=
  [.submit .offline [⟨1, [0]⟩] started, .submit .offline [⟨1, [0]⟩] started] ++ List.replicate 7 (.run 0 fine) ++
    [.exit 0 0] ++ List.replicate 7 (.run 0 fine)

/-- The last `_save` raises a `ValueError`. -/
def refused : List Event := work ++ [.run 0 { fine with save := some .value }]

def completed : List Event := work ++ [.run 0 fine, .run 0 fine, .run 1 fine]

end Bench

/-- The lock stays with a job that has ended, and the next one waits for it for ever. -/
theorem lock_kept : ∃ events : List Event, let m := events.foldl next initial
    (∃ i j, m.offlineLock = some i ∧ m.jobs[i]? = some j ∧ j.thread = .ended) ∧
      (∃ j, m.jobs[1]? = some j ∧ j.thread = .acquiring) ∧ ∀ a, m.next (.run 1 a) = m := by
  refine ⟨Bench.refused, ⟨0, _, by decide, rfl, by decide⟩, ⟨_, rfl, by decide⟩, fun a => ?_⟩
  rfl

theorem completed_exclusive : (Bench.completed.foldl next initial).offlineLock = some 1 ∧
    ∃ j, (Bench.completed.foldl next initial).jobs[1]? = some j ∧ j.thread.over = false := by
  have held : (Bench.completed.foldl next initial).offlineLock = some 1 := by decide
  exact ⟨held, (jobs_exclusive Bench.completed (by decide)).2.2.1 1 held⟩

end Manager
end Smartwheel.Jobs

import Smartwheel.Checkpoint.Committing

/-! Every run of the journal: what a manifest counts was synced before it was put in place and survives a crash,
commits only add, and a failure ends them. -/
namespace Smartwheel.Checkpoint
open Disk Effect

variable {c : Config} {w w' : World} {m : Manifest}

def Stage.failed : Stage → Bool
  | .data _ _ _ failure => failure.isSome
  | .failing _ => true
  | _ => false

/-- Something has gone wrong, or `close` has given up. -/
def World.failed (w : World) : Bool := w.error.isSome || w.cancelled || w.stage.failed

def World.fails (w : World) : Event → Bool
  | .coordinate (.failed _ _) =>
    match w.stage with
    | .naming _ _ _ | .writing _ | .syncing _ _ | .replacing _ _ | .entering _ _ => true
    | _ => false
  | .sync _ (.failed _ _) => true
  | .startFailed _ => true
  | _ => false

/-- After a crash that leaves `keep`, the manifest on the disk is the committed one or the one of the next
generation, and everything it counts is there. -/
structure Left (c : Config) (w : World) (keep : Nat → Bool) : Prop where
  manifest : visible keep w.log = w.committed ∨
    ∃ m, visible keep w.log = some m ∧ m.generation = w.generation + 1 ∧
      ∀ previous, w.committed = some previous → previous.snapshot.Le m.snapshot
  recovered : ∀ m, visible keep w.log = some m → Recovered c m keep w.log

structure Follows (w w' : World) : Prop where
  monotone : ∀ m, w.committed = some m →
    ∃ m', w'.committed = some m' ∧ m.snapshot.Le m'.snapshot ∧ m.generation ≤ m'.generation
  latched : ∀ e, w.error = some e → w'.error = some e
  failed : w.failed = true → w'.failed = true ∧ w'.committed = w.committed
  inPlace : w.failed = true → (∀ m, w.stage ≠ .replacing m true) →
    (∀ m, w'.stage ≠ .replacing m true) ∧ replaced w'.log = replaced w.log

theorem kept_next (h : Kept c w) {event : Event} (moved : w.next c event = some w') : Kept c w' := by
  cases event with
  | take job =>
    unfold World.next at moved
    dsimp only at moved
    split at moved
    · cases moved
      cases job with
      | bootstrap completed prior =>
        refine h.aside (.nil c _) h.backed (nextArtifact_working fun x mem => ?_) (.refl _) h.latest
        rcases List.mem_cons.mp mem with same | mem
        · rw [same]
          exact Nat.succ_pos _
        · rw [List.mem_singleton.mp mem]
          exact Nat.succ_pos _
      | output frames pair => exact h.aside (.nil c _) h.backed (nextFrame_working pair frames) (.refl _) h.latest
    · cases moved
  | leave =>
    unfold World.next at moved
    dsimp only at moved
    split at moved
    · cases moved
      exact h.aside (.nil c _) h.backed trivial (.refl _) h.latest
    · cases moved
  | archive io => exact kept_archive h moved
  | coordinate io => exact kept_coordinate h moved
  | dispatch => exact kept_dispatch h moved
  | sync i io => exact kept_sync h moved
  | startFailed reason => exact kept_startFailed h moved
  | close => exact kept_close h moved

theorem kept_initial (c : Config) : Kept c (initial c) := by
  have plain (m : Manifest) (d : Directory) : .replace m d ∉ constructed c := by
    unfold constructed
    simp
  have nothing : replaced (constructed c) = [] := replaced_eq_nil plain
  refine ⟨⟨fun f counted => ?_, fun f counted immutable => ?_, fun e named => ?_⟩, trivial, .refl _, nofun, ?_, nothing,
    nofun, nofun, nofun⟩
  · cases f with
    | sourceIndex side => cases side <;> exact Nat.zero_le _
    | pairsIndex => exact Nat.zero_le _
    | _ => exact Nat.le_refl _
  · rw [counted_empty counted] at immutable
    cases immutable
  · show _ ∈ constructed c
    unfold constructed
    simp only [List.mem_append, List.mem_cons, List.mem_flatMap, List.mem_reverse]
    cases e with
    | file f =>
      cases f with
      | sourceIndex side => exact .inl (.inr ⟨side, named, .inr (.inl rfl)⟩)
      | pairsIndex => exact .inl (.inl rfl)
      | cdr side number =>
        have mutable := counted_empty (c := c) (f := .cdr side number) named
        cases mutable
      | artifact a | leftover a | manifest generation => cases named
    | frames side => exact .inl (.inr ⟨side, named, .inr (.inr (.inl rfl))⟩)
    | source side => exact .inl (.inr ⟨side, named, .inr (.inr (.inr (.inl rfl)))⟩)
    | output => exact .inr (.inl rfl)
  · have always : Always (fun op earlier => ∀ m d, op = .replace m d → Certified c m earlier) (constructed c ++ []) :=
      Always.append trivial fun op mem earlier m d eq => absurd (eq ▸ mem) (plain m d)
    rw [List.append_nil] at always
    exact always

theorem kept_path (run : Path (Step c) (initial c) w) : Kept c w :=
  run.keeps (fun _ _ step h => step.elim fun _ moved => kept_next h moved) (kept_initial c)

/-! What a crash leaves. -/

theorem Kept.left (h : Kept c w) {keep : Nat → Bool} (crash : Crash keep w.log) : Left c w keep := by
  obtain ⟨pending, standing, prepared⟩ := h.staged.fails ""
  have cases_ : visible keep w.log = w.committed ∨ ∃ m ∈ pending, visible keep w.log = some m := by
    cases committed : w.committed with
    | none =>
      rw [committed] at standing
      cases found : visible keep w.log with
      | none => exact .inl rfl
      | some m =>
        have mem := visible_mem found
        rw [standing] at mem
        exact .inr ⟨m, mem, rfl⟩
    | some previous =>
      rw [committed] at standing
      exact Settled.visible standing crash
  refine ⟨?_, fun m found => ?_⟩
  · rcases cases_ with same | ⟨m, mem, found⟩
    · exact .inl same
    · exact .inr ⟨m, found, (prepared m mem).1.generation, (prepared m mem).1.after⟩
  · rcases cases_ with same | ⟨m', mem, found'⟩
    · rw [found] at same
      exact (h.held m same.symm).2.1.recovered crash
    · rw [found] at found'
      cases found'
      exact (prepared m mem).2.recovered crash

/-! What follows a failure. -/

structure Aside (w w' : World) : Prop where
  committed : w'.committed = w.committed
  error : w'.error = w.error
  cancelled : w'.cancelled = w.cancelled
  stage : w'.stage = w.stage
  replaced : replaced w'.log = replaced w.log

variable {io : Io}

theorem aside_append {f : File} {bytes : Nat} {next : World → World}
    (then_ : Aside w (next (w.record (.write f bytes)))) : Aside w (w.append f bytes io next) := by
  cases io with
  | done => exact then_
  | failed arrived reason => exact ⟨rfl, rfl, rfl, rfl, rfl⟩

theorem aside_attempt {next : World} (then_ : Aside w next) : Aside w (w.attempt io next) := by
  cases io with
  | done => exact then_
  | failed arrived reason => exact ⟨rfl, rfl, rfl, rfl, rfl⟩

theorem aside_archive (moved : w.archive c io = some w') : Aside w w' := by
  unfold World.archive at moved
  cases worker : w.worker <;> rw [worker] at moved <;> cases moved
  case drafting =>
    dsimp only [World.draft]
    exact aside_append ⟨rfl, rfl, rfl, rfl, rfl⟩
  case linking =>
    unfold World.link
    split
    · exact ⟨rfl, rfl, rfl, rfl, rfl⟩
    · exact aside_attempt ⟨rfl, rfl, rfl, rfl, rfl⟩
  case noting => exact ⟨rfl, rfl, rfl, rfl, rfl⟩
  case opening =>
    unfold World.openFrame
    split
    · exact ⟨rfl, rfl, rfl, rfl, rfl⟩
    · exact aside_attempt ⟨rfl, rfl, rfl, rfl, rfl⟩
  case writing =>
    dsimp only [World.writeFrame]
    exact aside_append ⟨rfl, rfl, rfl, rfl, rfl⟩
  case indexing =>
    dsimp only [World.indexFrame]
    exact aside_append ⟨rfl, rfl, rfl, rfl, rfl⟩
  case counting => exact ⟨rfl, rfl, rfl, rfl, rfl⟩
  case pairing =>
    dsimp only [World.appendPair]
    exact aside_append ⟨rfl, rfl, rfl, rfl, rfl⟩
  case recording => exact ⟨rfl, rfl, rfl, rfl, rfl⟩
  case putting => exact aside_attempt ⟨rfl, rfl, rfl, rfl, rfl⟩

theorem Aside.follows (h : Aside w w') : Follows w w' := by
  have failed : w'.failed = w.failed := by
    unfold World.failed
    rw [h.error, h.cancelled, h.stage]
  refine ⟨fun m some_ => ⟨m, by rw [h.committed, some_], .refl _, Nat.le_refl _⟩, fun e some_ => by rw [h.error, some_],
    fun down => ⟨by rw [failed, down], h.committed⟩, fun _ idle => ⟨by rw [h.stage]; exact idle, h.replaced⟩⟩

theorem follows_quiet (committed : w'.committed = w.committed) (latched : ∀ e, w.error = some e → w'.error = some e)
    (failed : w.failed = true → w'.failed = true) (idle : w.failed = true → ∀ m, w'.stage ≠ .replacing m true)
    (replaced : Disk.replaced w'.log = Disk.replaced w.log) : Follows w w' :=
  ⟨fun m some_ => ⟨m, by rw [committed, some_], .refl _, Nat.le_refl _⟩, latched, fun down => ⟨failed down, committed⟩,
    fun down _ => ⟨idle down, replaced⟩⟩

def Going (w : World) : Prop := w.stage ≠ .exited ∧ w.stage.failed = false

theorem going_of {stage : Stage} (at_ : w.stage = stage) (running : stage ≠ .exited) (fine : stage.failed = false) :
    Going w := by
  unfold Going
  rw [at_]
  exact ⟨running, fine⟩

/-- Then only `close` can have given up. -/
theorem Going.cancelled (going : Going w) (h : Kept c w) (failed : w.failed = true) : w.cancelled = true := by
  unfold World.failed at failed
  rw [going.2, Bool.or_false, Bool.or_eq_true] at failed
  rcases failed with error | cancelled
  · rcases h.raised error with cancelled | exited
    · exact cancelled
    · exact absurd exited going.1
  · exact cancelled

theorem failed_of_cancelled (cancelled : w.cancelled = true) : w.failed = true := by
  unfold World.failed
  rw [cancelled, Bool.or_true, Bool.true_or]

theorem failed_go (w : World) (reason : String) : (w.go (.failing reason)).failed = true := by
  unfold World.failed
  exact Bool.or_true _

theorem follows_go (ops : Log) (h : Kept c w) (going : Going w) {stage : Stage}
    (idle : ∀ m, stage ≠ .replacing m true) (replaced : Disk.replaced ops = []) :
    Follows w { w with stage, log := ops ++ w.log } := by
  refine follows_quiet rfl (fun _ some_ => some_) (fun failed => ?_) (fun _ => idle) ?_
  · have cancelled := going.cancelled h failed
    exact failed_of_cancelled cancelled
  · show Disk.replaced (ops ++ w.log) = _
    rw [replaced_append, replaced, List.nil_append]

theorem follows_enter (h : Kept c w) (going : Going w) {next : Stage} : Follows w (w.enter io next) := by
  unfold World.enter
  split
  · exact follows_go [] h going nofun rfl
  · rename_i wanted
    cases io with
    | failed arrived reason => exact follows_go [] h going nofun rfl
    | done =>
      have sound (failed : w.failed = true) : False := wanted (going.cancelled h failed)
      exact follows_quiet rfl (fun _ some_ => some_) (fun failed => (sound failed).elim)
        (fun failed => (sound failed).elim) rfl

theorem follows_complete (h : Kept c w) (going : Going w)
    {op : Op File Entry Directory Manifest} {next : Stage} (idle : ∀ m, next ≠ .replacing m true)
    (plain : replaced [op] = []) : Follows w (w.complete io op next) := by
  cases io with
  | done => exact follows_go [op] h going idle plain
  | failed arrived reason => exact follows_go [] h going nofun rfl

theorem follows_committing (h : Kept c w) {m : Manifest} (stage : w.stage = .committing m)
    (moved : w.coordinate c io = some w') : Follows w w' := by
  have staged := h.staged
  rw [stage] at staged
  obtain ⟨-, prepared, -, -⟩ := staged
  have going : Going w := going_of stage nofun rfl
  unfold World.coordinate at moved
  rw [stage] at moved
  dsimp only at moved
  split at moved
  · cases moved
    exact follows_go [] h going nofun rfl
  · rename_i wanted
    cases moved
    have sound (failed : w.failed = true) : False := wanted (going.cancelled h failed)
    refine ⟨fun previous some_ => ⟨m, rfl, prepared.after previous some_, ?_⟩, fun _ some_ => some_,
      fun failed => (sound failed).elim, fun failed => (sound failed).elim⟩
    rw [(h.held previous some_).2.2, prepared.generation]
    exact Nat.le_succ _

theorem follows_coordinate (h : Kept c w) (moved : w.coordinate c io = some w') : Follows w w' := by
  cases stage : w.stage with
  | committing m => exact follows_committing h stage moved
  | failing reason =>
    unfold World.coordinate at moved
    rw [stage] at moved
    cases moved
    refine follows_quiet rfl (fun e some_ => ?_) (fun _ => rfl) (fun _ => nofun) rfl
    show some (w.error.getD _) = some e
    rw [some_]
    rfl
  | exited =>
    unfold World.coordinate at moved
    rw [stage] at moved
    cases moved
  | data m jobs active failure =>
    unfold World.coordinate at moved
    rw [stage] at moved
    dsimp only at moved
    split at moved
    · cases failure with
      | some reason =>
        cases moved
        exact follows_quiet rfl (fun _ some_ => some_) (fun _ => failed_go w reason) (fun _ => nofun) rfl
      | none =>
        have going : Going w := going_of stage nofun rfl
        dsimp only at moved
        split at moved
        · cases moved
          exact follows_go [] h going nofun rfl
        · cases moved
          exact follows_go [] h going nofun rfl
    · cases moved
  | waiting =>
    have going : Going w := going_of stage nofun rfl
    unfold World.coordinate World.wake at moved
    rw [stage] at moved
    dsimp only at moved
    split at moved
    · cases moved
      exact follows_go [] h going nofun rfl
    · cases moved
  | checking m =>
    have going : Going w := going_of stage nofun rfl
    unfold World.coordinate at moved
    rw [stage] at moved
    cases moved
    unfold World.check
    dsimp only
    split
    · exact follows_go [] h going nofun rfl
    · split
      · refine follows_quiet rfl (fun _ some_ => some_) (fun failed => ?_) (fun _ => nofun) rfl
        have cancelled := going.cancelled h failed
        exact failed_of_cancelled cancelled
      · exact follows_go [] h going nofun rfl
  | naming m directories begun =>
    have going : Going w := going_of stage nofun rfl
    unfold World.coordinate at moved
    rw [stage] at moved
    cases directories with
    | nil =>
      cases moved
      exact follows_enter h going
    | cons d rest =>
      cases begun with
      | none =>
        cases moved
        exact follows_enter h going
      | some n =>
        cases moved
        exact follows_complete h going nofun rfl
  | writing m =>
    have going : Going w := going_of stage nofun rfl
    unfold World.coordinate at moved
    rw [stage] at moved
    cases io with
    | done =>
      cases moved
      exact follows_go [.write (.manifest m.generation) (jsonBytes (c.text m))] h going nofun rfl
    | failed arrived reason =>
      cases moved
      exact follows_go [.write (.manifest m.generation) (min arrived (jsonBytes (c.text m)))] h going
        nofun rfl
  | syncing m begun =>
    have going : Going w := going_of stage nofun rfl
    unfold World.coordinate at moved
    rw [stage] at moved
    cases begun with
    | none =>
      cases io with
      | done =>
        cases moved
        exact follows_go [] h going nofun rfl
      | failed arrived reason =>
        cases moved
        exact follows_go [] h going nofun rfl
    | some n =>
      cases moved
      exact follows_complete h going nofun rfl
  | replacing m checked =>
    have going : Going w := going_of stage nofun rfl
    unfold World.coordinate at moved
    rw [stage] at moved
    cases checked with
    | false =>
      cases moved
      exact follows_enter h going
    | true =>
      cases moved
      cases io with
      | failed arrived reason => exact follows_go [] h going nofun rfl
      | done =>
        refine ⟨fun m some_ => ⟨m, some_, .refl _, Nat.le_refl _⟩, fun _ some_ => some_, fun failed => ⟨?_, rfl⟩,
          fun _ idle => absurd stage (idle m)⟩
        have cancelled := going.cancelled h failed
        exact failed_of_cancelled cancelled
  | entering m begun =>
    have going : Going w := going_of stage nofun rfl
    unfold World.coordinate at moved
    rw [stage] at moved
    cases begun with
    | none =>
      cases moved
      exact follows_enter h going
    | some n =>
      cases moved
      exact follows_complete h going nofun rfl

theorem follows_data (ops : Log) (h : Kept c w) {m m' : Manifest} {jobs jobs' : List File} {active active' : List (File × Option Nat)}
    {failure failure' : Option String} (stage : w.stage = .data m jobs active failure)
    (kept : failure.isSome = true → failure'.isSome = true) (plain : replaced ops = []) :
    Follows w { w with stage := .data m' jobs' active' failure', log := ops ++ w.log } := by
  refine follows_quiet rfl (fun _ some_ => some_) (fun failed => ?_) (fun _ => nofun) ?_
  · cases failure with
    | some reason =>
      unfold World.failed
      show (_ || failure'.isSome) = true
      rw [kept rfl, Bool.or_true]
    | none =>
      have going : Going w := going_of stage nofun rfl
      have cancelled := going.cancelled h failed
      exact failed_of_cancelled cancelled
  · show replaced (ops ++ w.log) = _
    rw [replaced_append, plain, List.nil_append]

theorem follows_sync (h : Kept c w) {i : Nat} (moved : w.sync i io = some w') : Follows w w' := by
  unfold World.sync at moved
  split at moved
  · rename_i m jobs active failure stage
    dsimp only at moved
    split at moved
    · cases moved
    · split at moved
      · cases moved
        exact follows_data [] h stage (fun _ => rfl) rfl
      · cases io with
        | failed arrived reason =>
          cases moved
          exact follows_data [] h stage (fun _ => rfl) rfl
        | done =>
          cases moved
          exact follows_data [] h stage (fun some_ => some_) rfl
    · cases io with
      | failed arrived reason =>
        cases moved
        exact follows_data [] h stage (fun _ => rfl) rfl
      | done =>
        cases moved
        exact follows_data [.syncFile _ _] h stage (fun some_ => some_) rfl
  · cases moved

theorem follows_still (committed : w'.committed = w.committed) (latched : ∀ e, w.error = some e → w'.error = some e)
    (failed : w.failed = true → w'.failed = true) (stage : w'.stage = w.stage) (log : w'.log = w.log) : Follows w w' :=
  ⟨fun m some_ => ⟨m, by rw [committed, some_], .refl _, Nat.le_refl _⟩, latched, fun down => ⟨failed down, committed⟩,
    fun _ idle => ⟨by rw [stage]; exact idle, by rw [log]⟩⟩

theorem follows_close (moved : w.close = some w') : Follows w w' := by
  unfold World.close at moved
  cases closer : w.closer with
  | away =>
    rw [closer] at moved
    cases moved
    exact follows_still rfl (fun _ some_ => some_) (fun failed => failed) rfl rfl
  | joining =>
    rw [closer] at moved
    dsimp only at moved
    split at moved <;> cases moved <;> exact follows_still rfl (fun _ some_ => some_) (fun failed => failed) rfl rfl
  | expired =>
    rw [closer] at moved
    cases moved
    exact follows_still rfl (fun _ some_ => some_) (fun _ => failed_of_cancelled rfl) rfl rfl
  | cancelled =>
    rw [closer] at moved
    cases moved
    refine follows_still rfl (fun e some_ => ?_) (fun _ => rfl) rfl rfl
    show some (w.error.getD _) = some e
    rw [some_]
    rfl

theorem follows_next (h : Kept c w) {event : Event} (moved : w.next c event = some w') : Follows w w' := by
  unfold World.next at moved
  cases event with
  | take job =>
    dsimp only at moved
    split at moved
    · cases moved
      cases job <;> exact Aside.follows ⟨rfl, rfl, rfl, rfl, rfl⟩
    · cases moved
  | leave =>
    dsimp only at moved
    split at moved
    · cases moved
      exact Aside.follows ⟨rfl, rfl, rfl, rfl, rfl⟩
    · cases moved
  | archive io => exact (aside_archive moved).follows
  | coordinate io => exact follows_coordinate h moved
  | dispatch =>
    unfold World.dispatch at moved
    dsimp only at moved
    split at moved
    · rename_i m f jobs active stage
      split at moved
      · cases moved
        exact follows_data [] h stage (fun some_ => some_) rfl
      · cases moved
    · cases moved
  | sync i io => exact follows_sync h moved
  | startFailed reason =>
    unfold World.startFailed at moved
    dsimp only at moved
    split at moved
    · rename_i m jobs active failure stage
      cases moved
      exact follows_data [] h stage (fun _ => rfl) rfl
    · cases moved
  | close => exact follows_close moved

theorem Follows.trans {w'' : World} (h : Follows w w') (k : Follows w' w'') : Follows w w'' := by
  refine ⟨fun m some_ => ?_, fun e some_ => k.latched e (h.latched e some_), fun failed => ?_, fun failed idle => ?_⟩
  · obtain ⟨m', some', le, later⟩ := h.monotone m some_
    obtain ⟨m'', some'', le', later'⟩ := k.monotone m' some'
    exact ⟨m'', some'', le.trans le', later.trans later'⟩
  · obtain ⟨failed', same⟩ := h.failed failed
    obtain ⟨failed'', same'⟩ := k.failed failed'
    exact ⟨failed'', same'.trans same⟩
  · obtain ⟨idle', same⟩ := h.inPlace failed idle
    obtain ⟨idle'', same'⟩ := k.inPlace (h.failed failed).1 idle'
    exact ⟨idle'', same'.trans same⟩

theorem follows_path (h : Kept c w) (run : Path (Step c) w w') : Follows w w' := by
  have both : Kept c w' ∧ Follows w w' := by
    refine run.keeps (P := fun w' => Kept c w' ∧ Follows w w') (fun a b step so => ?_) ⟨h, ?_⟩
    · obtain ⟨event, moved⟩ := step
      exact ⟨kept_next so.1 moved, so.2.trans (follows_next so.1 moved)⟩
    · exact follows_still rfl (fun _ some_ => some_) (fun failed => failed) rfl rfl
  exact both.2

theorem failed_data (w : World) (m : Manifest) (jobs : List File) (active : List (File × Option Nat)) (reason : String) :
    (w.go (.data m jobs active (some reason))).failed = true := by
  unfold World.failed
  exact Bool.or_true _

theorem failed_of_fails {event : Event} (fails : w.fails event = true) (moved : w.next c event = some w') :
    w'.failed = true := by
  unfold World.next at moved
  cases event with
  | coordinate io =>
    cases io with
    | done => cases fails
    | failed arrived reason =>
      have entered (next : Stage) : (w.enter (.failed arrived reason) next).failed = true := by
        unfold World.enter
        split
        · exact failed_go w _
        · exact failed_go w _
      unfold World.fails at fails
      unfold World.coordinate at moved
      cases stage : w.stage with
      | naming m directories begun =>
        rw [stage] at moved
        cases directories with
        | nil =>
          cases moved
          exact entered _
        | cons d rest =>
          cases begun with
          | none =>
            cases moved
            exact entered _
          | some n =>
            cases moved
            exact failed_go w reason
      | writing m =>
        rw [stage] at moved
        cases moved
        exact failed_go (w.record _) reason
      | syncing m begun =>
        rw [stage] at moved
        cases begun with
        | none =>
          cases moved
          exact failed_go w reason
        | some n =>
          cases moved
          exact failed_go w reason
      | replacing m checked =>
        rw [stage] at moved
        cases checked with
        | false =>
          cases moved
          exact entered _
        | true =>
          cases moved
          exact failed_go w reason
      | entering m begun =>
        rw [stage] at moved
        cases begun with
        | none =>
          cases moved
          exact entered _
        | some n =>
          cases moved
          exact failed_go w reason
      | _ =>
        rw [stage] at fails
        cases fails
  | sync i io =>
    cases io with
    | done => cases fails
    | failed arrived reason =>
      unfold World.sync at moved
      dsimp only at moved
      split at moved
      · split at moved
        · cases moved
        · split at moved
          · cases moved
            exact failed_data ..
          · cases moved
            exact failed_data ..
        · cases moved
          exact failed_data ..
      · cases moved
  | startFailed reason =>
    unfold World.startFailed at moved
    dsimp only at moved
    split at moved
    · cases moved
      exact failed_data ..
    · cases moved
  | _ => cases fails

/-- What was put in place was certified before; whatever a crash leaves, the manifest found is the committed one or
the next, with everything it counts; the coordinator only leaves with its final manifest or an error; and what fails
stays failed. -/
theorem checkpoint_consistent (run : Path (Step c) (initial c) w) :
    Always (fun op earlier => ∀ m d, op = .replace m d → Certified c m earlier) w.log ∧
      Left c w everything ∧ (∀ keep, Crash keep w.log → Left c w keep) ∧
      (w.stage = .exited → w.error.isSome = true ∨ ∃ m, w.committed = some m ∧ m.final = true) ∧
      (∀ event w', w.next c event = some w' → w.fails event = true → w'.failed = true) ∧
      ∀ w', Path (Step c) w w' → Follows w w' := by
  have kept := kept_path run
  refine ⟨kept.replaced, kept.left (crash_everything w.log), fun keep crash => kept.left crash, kept.exited, ?_, ?_⟩
  · exact fun event w' moved fails => failed_of_fails fails moved
  · exact fun w' later => follows_path kept later

/-! A run: an output is archived and committed, then another one, whose commit fails. -/

def World.steps (c : Config) (w : World) (events : List Event) : Option World := events.foldlM (fun w e => w.next c e) w

def bench : Config := ⟨[.left], .periodic, true, fun _ => 400⟩

def archiving : List Event :=
  .take (.output [⟨.left, 1000, 300⟩] ⟨500, true⟩) :: List.replicate 7 (.archive .done)

/-- `jobs` are synced one by one, then the coordinator takes so many steps. -/
def commitEvents (jobs steps : Nat) : List Event :=
  List.replicate 2 (.coordinate .done) ++
    (List.replicate jobs [.dispatch, .sync 0 .done, .sync 0 .done]).flatten ++ List.replicate steps (.coordinate .done)

def failedCommit : List Event :=
  archiving ++ commitEvents 3 18 ++ archiving ++ commitEvents 3 9 ++
    [.coordinate (.failed 0 "[Errno 5] Input/output error"), .coordinate .done]

theorem failedCommit_left : ((initial bench).steps bench failedCommit).map (fun w =>
      (w.error, w.committed.map (·.generation), (visible everything w.log).map (·.generation))) =
    some (some "STORAGE_CHECKPOINT_FAILED: [Errno 5] Input/output error", some 1, some 2) := by decide +kernel

theorem failedCommit_run : ∃ w, Path (Step bench) (initial bench) w ∧
    w.error = some "STORAGE_CHECKPOINT_FAILED: [Errno 5] Input/output error" ∧
    w.committed.map (·.generation) = some 1 ∧ (visible everything w.log).map (·.generation) = some 2 := by
  have left := failedCommit_left
  cases steps : (initial bench).steps bench failedCommit with
  | none =>
    rw [steps] at left
    cases left
  | some w =>
    rw [steps, Option.map_some, Option.some_inj, Prod.mk.injEq, Prod.mk.injEq] at left
    exact ⟨w, Path.events steps, left⟩

theorem failed_after_replace : ¬∀ w, Path (Step bench) (initial bench) w → w.error.isSome = true →
    visible everything w.log = w.committed := by
  intro inPlace
  obtain ⟨w, run, error, committed, found⟩ := failedCommit_run
  have same := inPlace w run (by rw [error]; rfl)
  rw [same, committed] at found
  cases found

theorem bench_consistent : ∃ w, Path (Step bench) (initial bench) w ∧ w.error.isSome = true ∧ Left bench w everything ∧
    ∀ w', Path (Step bench) w w' → w'.committed = w.committed := by
  obtain ⟨w, run, error, -, -⟩ := failedCommit_run
  have consistent := checkpoint_consistent run
  have failed : w.failed = true := by
    unfold World.failed
    rw [error]
    rfl
  refine ⟨w, run, by rw [error]; rfl, consistent.2.1, fun w' later => ?_⟩
  exact ((consistent.2.2.2.2.2 w' later).failed failed).2

end Smartwheel.Checkpoint

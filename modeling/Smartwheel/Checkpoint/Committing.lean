import Smartwheel.Checkpoint.Archiving
import Mathlib.Data.List.Perm.Basic

/-! The steps of the coordinator, of its threads and of `close` keep it too. -/
namespace Smartwheel.Checkpoint
open Disk Effect

variable {c : Config} {w w' : World} {p q : Snapshot} {m : Manifest} {log ops : Log}

/-! What is synced is what was not synced before. -/

variable {f : File}

theorem dataJobs_counted {first : Bool} (mem : f ∈ World.dataJobs c first p q) : Counted c p f := by
  unfold World.dataJobs at mem
  simp only [List.mem_append, List.mem_map, List.mem_filter, List.mem_flatMap, List.mem_range'_1] at mem
  rcases mem with ((⟨side, ⟨known, -⟩, rfl⟩ | pairs) | ⟨a, new, rfl⟩) | ⟨side, known, number, ⟨low, high⟩, rfl⟩
  · exact known
  · split at pairs
    · cases List.mem_singleton.mp pairs
      trivial
    · cases pairs
  · exact (List.mem_filter.mp new).1
  · refine ⟨known, ?_, ?_⟩ <;> omega

theorem dataJobs_or (counted : Counted c p f) (first : Bool) (log : Log) : f ∈ World.dataJobs c first p q ∨
    (first = true → f.immutable = true) ∧ Counted c q f ∧ due p log f = due q log f := by
  unfold World.dataJobs
  simp only [List.mem_append, List.mem_map, List.mem_filter, List.mem_flatMap, List.mem_range'_1]
  cases f with
  | cdr side number =>
    obtain ⟨known, low, high⟩ := counted
    by_cases old : number ≤ (q.source side).frames
    · exact .inr ⟨fun _ => rfl, ⟨known, low, old⟩, rfl⟩
    · exact .inl (.inr ⟨side, known, number, by omega, rfl⟩)
  | sourceIndex side =>
    by_cases changed : (first || (p.source side).indexBytes != (q.source side).indexBytes) = true
    · exact .inl (.inl (.inl (.inl ⟨side, ⟨counted, changed⟩, rfl⟩)))
    · rw [Bool.or_eq_true, not_or, bne_iff_ne, not_not] at changed
      exact .inr ⟨fun yes => absurd yes changed.1, counted, changed.2⟩
  | pairsIndex =>
    by_cases changed : (first || p.pairsIndexBytes != q.pairsIndexBytes) = true
    · refine .inl (.inl (.inl (.inr ?_)))
      rw [if_pos changed]
      exact List.mem_singleton_self _
    · rw [Bool.or_eq_true, not_or, bne_iff_ne, not_not] at changed
      exact .inr ⟨fun yes => absurd yes changed.1, trivial, changed.2⟩
  | artifact a =>
    by_cases old : a ∈ q.artifacts
    · exact .inr ⟨fun _ => rfl, old, rfl⟩
    · exact .inl (.inl (.inr ⟨a, List.mem_filter.mpr ⟨counted, decide_eq_true old⟩, rfl⟩))
  | leftover a | manifest generation => cases counted

theorem namespaces_or {e : Entry} (named : Named c p e) (first : Bool) : e.parent ∈ World.namespaces c first p q ∨
    first = false ∧ Named c q e := by
  unfold World.namespaces
  simp only [List.mem_append, List.mem_flatMap, List.mem_filter]
  cases first with
  | true =>
    cases e with
    | file f =>
      cases f with
      | cdr side number => exact .inl (.inl ⟨side, named.1, .inl (List.mem_singleton_self _)⟩)
      | sourceIndex side => exact .inl (.inl ⟨side, named, .inr (List.mem_singleton_self _)⟩)
      | pairsIndex => exact .inl (.inr ⟨List.mem_cons_self .., rfl⟩)
      | artifact a => cases a <;> exact .inl (.inr ⟨by decide, rfl⟩)
      | leftover a | manifest generation => cases named
    | frames side => exact .inl (.inl ⟨side, named, .inr (List.mem_singleton_self _)⟩)
    | source side => exact .inl (.inr ⟨List.mem_cons_self .., rfl⟩)
    | output => exact .inl (.inr ⟨by decide, rfl⟩)
  | false =>
    cases e with
    | file f =>
      cases f with
      | cdr side number =>
        obtain ⟨known, low, high⟩ := named
        by_cases old : number ≤ (q.source side).frames
        · exact .inr ⟨rfl, known, low, old⟩
        · refine .inl (.inl ⟨side, known, .inl ?_⟩)
          have grown : ((p.source side).frames != (q.source side).frames) = true := by
            rw [bne_iff_ne]
            omega
          rw [grown]
          exact List.mem_singleton_self _
      | artifact a =>
        by_cases old : a ∈ q.artifacts
        · exact .inr ⟨rfl, old⟩
        · refine .inl (.inr ⟨by cases a <;> decide, ?_⟩)
          rw [Bool.false_or, List.any_eq_true]
          exact ⟨a, List.mem_filter.mpr ⟨named, decide_eq_true old⟩, decide_eq_true rfl⟩
      | sourceIndex side => exact .inr ⟨rfl, named⟩
      | pairsIndex => exact .inr ⟨rfl, trivial⟩
      | leftover a | manifest generation => cases named
    | frames side | source side => exact .inr ⟨rfl, named⟩
    | output => exact .inr ⟨rfl, trivial⟩

theorem counted_empty (counted : Counted c .empty f) : f.immutable = false := by
  cases f with
  | cdr side number =>
    obtain ⟨-, low, high⟩ := counted
    have none_ : (Snapshot.empty.source side).frames = 0 := by cases side <;> rfl
    omega
  | artifact a => cases counted
  | sourceIndex side => rfl
  | pairsIndex => rfl
  | leftover a | manifest generation => cases counted

/-! What the coordinator does to the disk. -/

theorem spares_manifest (writes : ∀ f n, .write f n ∈ ops → f = .manifest m.generation) (c : Config) (p : Snapshot) :
    Spares c p ops := by
  intro f n mem immutable counted
  rw [writes f n mem] at counted
  exact counted

theorem ne_exited {stage : Stage} (at_ : w.stage = stage) (going : stage ≠ .exited) : w.stage ≠ .exited := at_ ▸ going

theorem Kept.at_stage (h : Kept c w) {stage : Stage} (at_ : w.stage = stage) :
    Staged c w.committed w.generation w.latest w.log stage := at_ ▸ h.staged

theorem Kept.onward (h : Kept c w) (ops : Log) {stage : Stage} {skipped : Nat} (ready : Prepared w.committed w.generation w.latest m)
    (writes : ∀ f n, .write f n ∈ ops → f = .manifest m.generation)
    (certified : Always (fun op earlier => ∀ m d, op = .replace m d → Certified c m earlier) (ops ++ w.log))
    (running : w.stage ≠ .exited) (going : stage ≠ .exited)
    (staged : Staged c w.committed w.generation w.latest (ops ++ w.log) stage) :
    Kept c { w with stage, skippedUnchanged := skipped, log := ops ++ w.log } := by
  have spares (p : Snapshot) : Spares c p ops := spares_manifest writes c p
  refine ⟨h.backed.append (spares _), h.working.append ops, h.latest, fun previous some_ => ?_, certified, staged,
    fun error => ?_, h.closer, fun exited => absurd exited going⟩
  · obtain ⟨le, held, generation⟩ := h.held previous some_
    refine ⟨le, held.append (spares _) fun n mem => ?_, generation⟩
    have same : previous.generation = m.generation := by
      injection writes _ _ mem
    rw [generation, ready.generation] at same
    omega
  · rcases h.raised error with cancelled | exited
    · exact .inl cancelled
    · exact absurd exited running

theorem Kept.turn (h : Kept c w) {stage : Stage} {skipped : Nat} (running : w.stage ≠ .exited) (going : stage ≠ .exited)
    (staged : Staged c w.committed w.generation w.latest w.log stage) :
    Kept c { w with stage, skippedUnchanged := skipped } := by
  refine ⟨h.backed, h.working, h.latest, h.held, h.replaced, staged, fun error => ?_, h.closer,
    fun exited => absurd exited going⟩
  rcases h.raised error with cancelled | exited
  · exact .inl cancelled
  · exact absurd exited running

theorem Staged.fails {committed : Option Manifest} {generation : Nat} {stage : Stage}
    (h : Staged c committed generation p log stage) (reason : String) :
    Staged c committed generation p log (.failing reason) := by
  have none_ (standing : Standing log [] committed) : Staged c committed generation p log (.failing reason) :=
    ⟨[], standing, fun m mem => by cases mem⟩
  have one {m : Manifest} (standing : Standing log [m] committed) (prepared : Prepared committed generation p m)
      (certified : Certified c m log) : Staged c committed generation p log (.failing reason) := by
    refine ⟨[m], standing, fun m' mem => ?_⟩
    cases List.mem_singleton.mp mem
    exact ⟨prepared, certified⟩
  cases stage with
  | waiting => exact none_ h
  | entering m begun | committing m => exact one h.1 h.2.1 h.2.2.1
  | failing reason | exited => exact h
  | _ => exact none_ h.1

theorem Kept.fails (h : Kept c w) (running : w.stage ≠ .exited) (reason : String) : Kept c (w.go (.failing reason)) :=
  h.turn running nofun (h.staged.fails reason)

variable {io : Io}

theorem Kept.enter (h : Kept c w) {next : Stage} (running : w.stage ≠ .exited) (going : next ≠ .exited)
    (staged : Staged c w.committed w.generation w.latest w.log next) : Kept c (w.enter io next) := by
  unfold World.enter
  split
  · exact h.fails running _
  · cases io with
    | done => exact h.turn running going staged
    | failed arrived reason => exact h.fails running reason

theorem Kept.complete (h : Kept c w) {op : Op File Entry Directory Manifest} {next : Stage}
    (ready : Prepared w.committed w.generation w.latest m) (plain : ∀ f n, op ≠ .write f n)
    (certified : ∀ m d, op = .replace m d → Certified c m w.log) (running : w.stage ≠ .exited) (going : next ≠ .exited)
    (staged : Staged c w.committed w.generation w.latest (op :: w.log) next) : Kept c (w.complete io op next) := by
  cases io with
  | done =>
    refine h.onward [op] ready (fun f n mem => ?_) ⟨certified, h.replaced⟩ running going staged
    exact absurd (List.mem_singleton.mp mem).symm (plain f n)
  | failed arrived reason => exact h.fails running reason

theorem spares_plain {op : Op File Entry Directory Manifest} (plain : ∀ f n, op ≠ .write f n) (c : Config)
    (p : Snapshot) : Spares c p [op] :=
  fun f n mem => absurd (List.mem_singleton.mp mem).symm (plain f n)

/-! The steps of the coordinator. -/

theorem kept_wake (h : Kept c w) (stage : w.stage = .waiting) (moved : w.wake c = some w') : Kept c w' := by
  have staged := h.staged
  rw [stage] at staged
  have running := ne_exited stage nofun
  unfold World.wake at moved
  split at moved
  · cases moved
    refine h.turn running nofun ⟨staged, .refl _, fun previous some_ => ?_, rfl⟩
    exact (h.held previous some_).1
  · cases moved

/-- What `_commit` compares with is what was certified. -/
theorem previous_synced (h : Kept c w) (immutable : w.committed.isNone = true → f.immutable = true)
    (counted : Counted c w.previous f) : Synced f (due w.previous w.log f) w.log := by
  unfold World.previous at counted ⊢
  cases committed : w.committed with
  | none =>
    rw [committed] at counted immutable
    have mutable := counted_empty counted
    rw [immutable rfl] at mutable
    cases mutable
  | some m =>
    rw [committed] at counted
    exact (h.held m committed).2.1.files f counted

variable {m : Manifest}

theorem kept_check (h : Kept c w) (stage : w.stage = .checking m) : Kept c (w.check c m) := by
  obtain ⟨standing, prepared⟩ := h.at_stage stage
  have running := ne_exited stage nofun
  unfold World.check
  dsimp only
  split
  · exact h.fails running _
  · split
    · exact h.turn running nofun standing
    · refine h.turn running nofun ⟨standing, prepared, fun f mem => dataJobs_counted mem, nofun, fun _ f counted => ?_⟩
      rcases dataJobs_or counted w.committed.isNone w.log with job | ⟨immutable, before, same⟩
      · exact .inl job
      · rw [same]
        exact .inr (.inr (previous_synced h immutable before))

theorem kept_joined (h : Kept c w) {jobs : List File} {active : List (File × Option Nat)}
    {failure : Option String} (stage : w.stage = .data m jobs active failure)
    (moved : w.coordinate c io = some w') : Kept c w' := by
  obtain ⟨standing, prepared, -, -, files⟩ := h.at_stage stage
  have running := ne_exited stage nofun
  unfold World.coordinate at moved
  rw [stage] at moved
  dsimp only at moved
  split at moved
  · rename_i joined
    obtain ⟨returned, finished⟩ := joined
    cases failure with
    | some reason =>
      cases moved
      exact h.fails running reason
    | none =>
      dsimp only at moved
      split at moved
      · cases moved
        exact h.fails running _
      · rename_i going
        cases moved
        have pulled : jobs = [] := by
          rcases finished with none_ | failed | cancelled
          · exact none_
          · cases failed
          · exact absurd cancelled going
        refine h.turn running nofun ⟨standing, prepared, fun f counted => ?_, fun e named => ?_, nofun⟩
        · rcases files rfl f counted with job | running | synced
          · rw [pulled] at job
            cases job
          · rw [returned] at running
            cases running
          · exact synced
        · rcases namespaces_or named w.committed.isNone with listed | ⟨later, before⟩
          · exact .inl listed
          · refine .inr ?_
            unfold World.previous at before
            cases committed : w.committed with
            | none =>
              rw [committed] at later
              cases later
            | some previous =>
              rw [committed] at before
              exact (h.held previous committed).2.1.entries e before
  · cases moved

variable {begun : Option Nat}

theorem kept_naming (h : Kept c w) {directories : List Directory}
    (stage : w.stage = .naming m directories begun) (moved : w.coordinate c io = some w') : Kept c w' := by
  obtain ⟨standing, prepared, files, named, among⟩ := h.at_stage stage
  have running := ne_exited stage nofun
  unfold World.coordinate at moved
  rw [stage] at moved
  cases directories with
  | nil =>
    cases moved
    refine h.enter running nofun ⟨standing, prepared, files, fun e name => ?_⟩
    rcases named e name with listed | synced
    · cases listed
    · exact synced
  | cons d rest =>
    cases begun with
    | none =>
      cases moved
      refine h.enter running nofun ⟨standing, prepared, files, named, fun d' rest' n split some_ e name parent => ?_⟩
      cases split
      cases some_
      have created := (h.backed.of_le (prepared.captured.trans h.latest)).named e name
      rw [parent] at created
      exact among_of_mem created
    | some n =>
      cases moved
      have plain (f : File) (k : Nat) : Op.syncDirectory (φ := File) (ε := Entry) (μ := Manifest) d n ≠ .write f k := nofun
      refine h.complete prepared plain nofun running nofun
        ⟨standing.plain (.syncDirectory d n) rfl, prepared, (spares_plain plain c _).files files,
          fun e name => ?_, nofun⟩
      by_cases here : e.parent = d
      · refine .inr ⟨n, ?_, ?_⟩
        · rw [here]
          exact List.mem_cons_self ..
        · rw [here]
          exact (among d rest n rfl rfl e name here).append [_]
      · rcases named e name with listed | synced
        · rcases List.mem_cons.mp listed with same | later
          · exact absurd same here
          · exact .inl later
        · exact .inr (synced.append [_])

theorem kept_writing (h : Kept c w) (stage : w.stage = .writing m)
    (moved : w.coordinate c io = some w') : Kept c w' := by
  obtain ⟨standing, prepared, files, named⟩ := h.at_stage stage
  have running := ne_exited stage nofun
  have own (n : Nat) (f : File) (k : Nat) (mem : .write f k ∈ ([.write (.manifest m.generation) n] : Log)) :
      f = .manifest m.generation := by
    injection List.mem_singleton.mp mem
  unfold World.coordinate at moved
  rw [stage] at moved
  cases io with
  | done =>
    cases moved
    refine h.onward _ prepared (own _) ⟨nofun, h.replaced⟩ running nofun
      ⟨standing.plain (.write (.manifest m.generation) (jsonBytes (c.text m))) rfl, prepared, ?_, ?_, ?_, nofun⟩
    · exact (spares_manifest (own _) c _).files files
    · exact fun e name => (named e name).append [_]
    · show 0 < size (.manifest m.generation) (.write (.manifest m.generation) (jsonBytes (c.text m)) :: w.log)
      rw [size_write]
      unfold jsonBytes
      omega
  | failed arrived reason =>
    cases moved
    refine h.onward _ prepared (own _) ⟨nofun, h.replaced⟩ running nofun ⟨[], ?_, fun m mem => by cases mem⟩
    exact standing.plain (.write (.manifest m.generation) (min arrived (jsonBytes (c.text m)))) rfl

theorem kept_syncing (h : Kept c w) (stage : w.stage = .syncing m begun)
    (moved : w.coordinate c io = some w') : Kept c w' := by
  obtain ⟨standing, prepared, files, named, written, covers⟩ := h.at_stage stage
  have running := ne_exited stage nofun
  unfold World.coordinate at moved
  rw [stage] at moved
  cases begun with
  | none =>
    cases io with
    | done =>
      cases moved
      refine h.turn running nofun ⟨standing, prepared, files, named, written, fun n some_ => ?_⟩
      cases some_
      exact Nat.le_refl _
    | failed arrived reason =>
      cases moved
      exact h.fails running reason
  | some n =>
    cases moved
    have plain (f : File) (k : Nat) :
        Op.syncFile (ε := Entry) (δ := Directory) (μ := Manifest) (.manifest m.generation) n ≠ .write f k := nofun
    have spares := spares_plain plain c m.snapshot
    refine h.complete prepared plain nofun running nofun
      ⟨standing.plain (.syncFile (.manifest m.generation) n) rfl, prepared, ?_⟩
    refine ⟨(h.backed.of_le (prepared.captured.trans h.latest)).append spares, spares.files files,
      fun e name => (named e name).append [_], written, n, covers n rfl, List.mem_cons_self ..⟩

theorem kept_replacing (h : Kept c w) {checked : Bool} (stage : w.stage = .replacing m checked)
    (moved : w.coordinate c io = some w') : Kept c w' := by
  obtain ⟨standing, prepared, certified⟩ := h.at_stage stage
  have running := ne_exited stage nofun
  unfold World.coordinate at moved
  rw [stage] at moved
  cases checked with
  | false =>
    cases moved
    exact h.enter running nofun ⟨standing, prepared, certified⟩
  | true =>
    cases moved
    have plain (f : File) (k : Nat) : Op.replace (φ := File) (ε := Entry) m Directory.output ≠ .write f k := nofun
    refine h.complete prepared plain (fun m' d same => ?_) running nofun ⟨?_, prepared, ?_, newest_replace m .output w.log⟩
    · cases same
      exact certified
    · cases committed : w.committed with
      | none =>
        rw [committed] at standing
        exact congrArg (m :: ·) standing
      | some previous =>
        rw [committed] at standing
        exact Settled.append standing [.replace m .output]
    · exact certified.append (spares_plain plain c _) fun n mem => plain _ _ (List.mem_singleton.mp mem).symm

theorem kept_entering (h : Kept c w) (stage : w.stage = .entering m begun)
    (moved : w.coordinate c io = some w') : Kept c w' := by
  obtain ⟨standing, prepared, certified, newest⟩ := h.at_stage stage
  have running := ne_exited stage nofun
  unfold World.coordinate at moved
  rw [stage] at moved
  cases begun with
  | none =>
    cases moved
    exact h.enter running nofun ⟨standing, prepared, certified, newest⟩
  | some n =>
    cases moved
    have plain (f : File) (k : Nat) :
        Op.syncDirectory (φ := File) (ε := Entry) (μ := Manifest) Directory.output n ≠ .write f k := nofun
    refine h.complete prepared plain nofun running nofun
      ⟨standing.plain (.syncDirectory .output n) rfl, prepared, ?_, newest.settled⟩
    exact certified.append (spares_plain plain c _) fun k mem => plain _ _ (List.mem_singleton.mp mem).symm

theorem kept_committing (h : Kept c w) (stage : w.stage = .committing m)
    (moved : w.coordinate c io = some w') : Kept c w' := by
  obtain ⟨-, prepared, certified, settled⟩ := h.at_stage stage
  have running := ne_exited stage nofun
  unfold World.coordinate at moved
  rw [stage] at moved
  dsimp only at moved
  split at moved
  · cases moved
    exact h.fails running _
  · rename_i going
    cases moved
    refine ⟨h.backed, h.working, h.latest, fun m' same => ?_, h.replaced, ?_, fun error => ?_, h.closer, fun exited => ?_⟩
    · cases same
      exact ⟨prepared.captured, certified, prepared.generation⟩
    · show Staged c (some m) _ _ _ (if m.final then .exited else .waiting)
      split
      · exact ⟨[], settled, fun m mem => by cases mem⟩
      · exact settled
    · rcases h.raised error with cancelled | exited
      · exact absurd cancelled going
      · exact absurd exited running
    · by_cases final : m.final = true
      · exact .inr ⟨m, rfl, final⟩
      · have waiting : (if m.final then Stage.exited else .waiting) = .exited := exited
        rw [if_neg final] at waiting
        cases waiting

theorem kept_failing (h : Kept c w) {reason : String} (stage : w.stage = .failing reason)
    (moved : w.coordinate c io = some w') : Kept c w' := by
  have staged := h.staged
  rw [stage] at staged
  unfold World.coordinate at moved
  rw [stage] at moved
  cases moved
  exact ⟨h.backed, h.working, h.latest, h.held, h.replaced, staged, fun _ => .inr rfl, h.closer, fun _ => .inl rfl⟩

theorem kept_coordinate (h : Kept c w) (moved : w.coordinate c io = some w') : Kept c w' := by
  cases stage : w.stage with
  | waiting =>
    unfold World.coordinate at moved
    rw [stage] at moved
    exact kept_wake h stage moved
  | checking m =>
    unfold World.coordinate at moved
    rw [stage] at moved
    cases moved
    exact kept_check h stage
  | data m jobs active failure => exact kept_joined h stage moved
  | naming m directories begun => exact kept_naming h stage moved
  | writing m => exact kept_writing h stage moved
  | syncing m begun => exact kept_syncing h stage moved
  | replacing m checked => exact kept_replacing h stage moved
  | entering m begun => exact kept_entering h stage moved
  | committing m => exact kept_committing h stage moved
  | failing reason => exact kept_failing h stage moved
  | exited =>
    unfold World.coordinate at moved
    rw [stage] at moved
    cases moved

/-! The threads of `_sync_data_files`, and `close`. -/

theorem kept_dispatch (h : Kept c w) (moved : w.dispatch = some w') : Kept c w' := by
  have staged := h.staged
  unfold World.dispatch at moved
  split at moved
  · rename_i m f jobs active stage
    rw [stage] at staged
    obtain ⟨standing, prepared, pulled, begun, files⟩ := staged
    split at moved
    · cases moved
      have running := ne_exited stage nofun
      refine h.turn running nofun ⟨standing, prepared, fun f' mem => pulled f' (List.mem_cons_of_mem _ mem), fun x mem => ?_,
        fun _ f' counted => ?_⟩
      · rcases List.mem_append.mp mem with before | new
        · exact begun x before
        · cases List.mem_singleton.mp new
          exact ⟨pulled f (List.mem_cons_self ..), nofun⟩
      · rw [List.map_append, List.mem_append]
        rcases files rfl f' counted with job | running | synced
        · rcases List.mem_cons.mp job with same | later
          · exact .inr (.inl (.inr (List.mem_singleton.mpr same)))
          · exact .inl later
        · exact .inr (.inl (.inl running))
        · exact .inr (.inr synced)
    · cases moved
  · cases moved

theorem kept_thread (h : Kept c w) {jobs : List File} {active active' : List (File × Option Nat)}
    {failure : Option String} (stage : w.stage = .data m jobs active failure) (fewer : ∀ x ∈ active', x ∈ active)
    (reason : String) : Kept c (w.go (.data m jobs active' (some reason))) := by
  obtain ⟨standing, prepared, pulled, begun, -⟩ := h.at_stage stage
  have running := ne_exited stage nofun
  exact h.turn running nofun ⟨standing, prepared, pulled, fun x mem => begun x (fewer x mem), nofun⟩

theorem kept_sync (h : Kept c w) {i : Nat} (moved : w.sync i io = some w') : Kept c w' := by
  have staged := h.staged
  unfold World.sync at moved
  split at moved
  · rename_i m jobs active failure stage
    have running := ne_exited stage nofun
    have fail (reason : String) : Kept c (w.go (.data m jobs (active.eraseIdx i) (some (failure.getD reason)))) :=
      kept_thread h stage (fun x mem => List.mem_of_mem_eraseIdx mem) _
    rw [stage] at staged
    obtain ⟨standing, prepared, pulled, begun, files⟩ := staged
    dsimp only at moved
    split at moved
    · cases moved
    · rename_i f here
      split at moved
      · cases moved
        exact fail _
      · cases io with
        | failed arrived reason =>
          cases moved
          exact fail reason
        | done =>
          cases moved
          have mem : (f, none) ∈ active := List.mem_of_getElem? here
          have backed := h.backed.of_le (prepared.captured.trans h.latest)
          refine h.turn running nofun ⟨standing, prepared, pulled, fun x later => ?_, fun intact f' counted => ?_⟩
          · rcases List.mem_or_eq_of_mem_set later with before | same
            · exact begun x before
            · refine ⟨by rw [same]; exact (begun _ mem).1, fun n some_ => ?_⟩
              rw [same] at some_ ⊢
              cases some_
              exact backed.written f (begun _ mem).1
          · have unchanged : (active.set i (f, some (size f w.log))).map Prod.fst = active.map Prod.fst := by
              obtain ⟨bound, at_⟩ := List.getElem?_eq_some_iff.mp here
              rw [List.map_set]
              apply List.ext_getElem?
              intro k
              rw [List.getElem?_set]
              split
              · rename_i same
                rw [← same, List.getElem?_map, here, List.length_map, if_pos bound]
                rfl
              · rfl
            rw [unchanged]
            exact files intact f' counted
    · rename_i f n here
      cases io with
      | failed arrived reason =>
        cases moved
        exact fail reason
      | done =>
        cases moved
        have mem : (f, some n) ∈ active := List.mem_of_getElem? here
        have plain (f' : File) (k : Nat) : Op.syncFile (ε := Entry) (δ := Directory) (μ := Manifest) f n ≠ .write f' k :=
          nofun
        have spares := spares_plain plain c m.snapshot
        have certified : Always (fun op earlier => ∀ m d, op = .replace m d → Certified c m earlier)
            (.syncFile f n :: w.log) := ⟨nofun, h.replaced⟩
        refine h.onward [.syncFile f n] prepared (fun f' k mem => ?_) certified running nofun
          ⟨standing.plain (.syncFile f n) rfl, prepared, pulled, fun x later => ?_, fun intact f' counted => ?_⟩
        · exact absurd (List.mem_singleton.mp mem).symm (plain f' k)
        · obtain ⟨counted, covers⟩ := begun x (List.mem_of_mem_eraseIdx later)
          refine ⟨counted, fun k some_ => ?_⟩
          rw [spares.due counted]
          exact covers k some_
        · rw [spares.due counted]
          by_cases same : f' = f
          · subst same
            exact .inr (.inr ⟨n, (begun _ mem).2 n rfl, List.mem_cons_self ..⟩)
          · rcases files intact f' counted with job | active' | synced
            · exact .inl job
            · refine .inr (.inl ?_)
              obtain ⟨x, old, first⟩ := List.mem_map.mp active'
              obtain ⟨bound, at_⟩ := List.getElem?_eq_some_iff.mp here
              have perm := List.getElem_cons_eraseIdx_perm bound
              rw [at_] at perm
              rcases List.mem_cons.mp (perm.mem_iff.mpr old) with new | kept
              · rw [new] at first
                exact absurd first.symm same
              · exact List.mem_map.mpr ⟨x, kept, first⟩
            · exact .inr (.inr (synced.append [_]))
  · cases moved

theorem kept_startFailed (h : Kept c w) {reason : String} (moved : w.startFailed reason = some w') : Kept c w' := by
  unfold World.startFailed at moved
  split at moved
  · rename_i m jobs active failure stage
    cases moved
    exact kept_thread h stage (fun x mem => mem) _
  · cases moved

theorem kept_close (h : Kept c w) (moved : w.close = some w') : Kept c w' := by
  unfold World.close at moved
  cases closer : w.closer with
  | away =>
    rw [closer] at moved
    cases moved
    exact ⟨h.backed, h.working, h.latest, h.held, h.replaced, h.staged, h.raised, nofun, h.exited⟩
  | joining =>
    rw [closer] at moved
    dsimp only at moved
    split at moved <;> cases moved <;>
      exact ⟨h.backed, h.working, h.latest, h.held, h.replaced, h.staged, h.raised, nofun, h.exited⟩
  | expired =>
    rw [closer] at moved
    cases moved
    exact ⟨h.backed, h.working, h.latest, h.held, h.replaced, h.staged, fun _ => .inl rfl, fun _ => rfl, h.exited⟩
  | cancelled =>
    rw [closer] at moved
    cases moved
    exact ⟨h.backed, h.working, h.latest, h.held, h.replaced, h.staged, fun _ => .inl (h.closer closer), nofun,
      fun _ => .inl rfl⟩

end Smartwheel.Checkpoint

import Smartwheel.Checkpoint.Journal

/-! What is written, synced and certified stays so while the worker goes on beside the coordinator. -/
namespace Smartwheel.Checkpoint
open Disk Mapping Effect

variable {c : Config} {p q : Snapshot} {m : Manifest} {log ops : Log}

theorem source_setSource (p : Snapshot) (side : Side) (source : Source) : (p.setSource side source).source side = source := by
  cases side <;> rfl

theorem source_setSource_other (p : Snapshot) {side other : Side} (source : Source) (ne : other ≠ side) :
    (p.setSource side source).source other = p.source other := by
  cases side <;> cases other <;> first | rfl | exact absurd rfl ne

theorem artifacts_setSource (p : Snapshot) (side : Side) (source : Source) :
    (p.setSource side source).artifacts = p.artifacts := by
  cases side <;> rfl

theorem Snapshot.Le.refl (p : Snapshot) : p.Le p :=
  ⟨Nat.le_refl _, Nat.le_refl _, Nat.le_refl _, fun _ => ⟨Nat.le_refl _, Nat.le_refl _⟩, fun _ mem => mem⟩

theorem Snapshot.Le.trans {r : Snapshot} (h : p.Le q) (k : q.Le r) : p.Le r := by
  refine ⟨h.archivedOutputs.trans k.archivedOutputs, h.filteredEmptyOutputs.trans k.filteredEmptyOutputs,
    h.pairsIndexBytes.trans k.pairsIndexBytes, fun side => ?_, fun a mem => k.artifacts (h.artifacts mem)⟩
  exact ⟨(h.sources side).1.trans (k.sources side).1, (h.sources side).2.trans (k.sources side).2⟩

theorem Snapshot.Le.setSource {side : Side} {source : Source} (frames : (p.source side).frames ≤ source.frames)
    (bytes : (p.source side).indexBytes ≤ source.indexBytes) : p.Le (p.setSource side source) := by
  cases side with
  | left =>
    refine ⟨Nat.le_refl _, Nat.le_refl _, Nat.le_refl _, fun side => ?_, fun _ mem => mem⟩
    cases side with
    | left => exact ⟨frames, bytes⟩
    | right => exact ⟨Nat.le_refl _, Nat.le_refl _⟩
  | right =>
    refine ⟨Nat.le_refl _, Nat.le_refl _, Nat.le_refl _, fun side => ?_, fun _ mem => mem⟩
    cases side with
    | left => exact ⟨Nat.le_refl _, Nat.le_refl _⟩
    | right => exact ⟨frames, bytes⟩

variable {f : File}

theorem Counted.mono (le : p.Le q) (h : Counted c p f) : Counted c q f := by
  cases f with
  | cdr side number => exact ⟨h.1, h.2.1, h.2.2.trans (le.sources side).1⟩
  | artifact a => exact le.artifacts h
  | _ => exact h

theorem Named.mono (le : p.Le q) {e : Entry} (h : Named c p e) : Named c q e := by
  cases e with
  | file f => exact Counted.mono le h
  | _ => exact h

theorem due_mono (le : p.Le q) (log : Log) (f : File) : due p log f ≤ due q log f := by
  cases f with
  | sourceIndex side => exact (le.sources side).2
  | pairsIndex => exact le.pairsIndexBytes
  | _ => exact Nat.le_refl _

theorem due_immutable (immutable : f.immutable = true) (p : Snapshot) (log : Log) : due p log f = size f log := by
  cases f with
  | sourceIndex side | pairsIndex => cases immutable
  | _ => rfl

theorem Backed.of_le (h : Backed c q log) (le : p.Le q) : Backed c p log :=
  ⟨fun f counted => (due_mono le log f).trans (h.written f (counted.mono le)),
    fun f counted => h.whole f (counted.mono le), fun e named => h.named e (named.mono le)⟩

def Spares (c : Config) (p : Snapshot) (ops : Log) : Prop :=
  ∀ f n, .write f n ∈ ops → f.immutable = true → ¬Counted c p f

theorem Spares.of_le (h : Spares c q ops) (le : p.Le q) : Spares c p ops :=
  fun f n mem immutable counted => h f n mem immutable (counted.mono le)

theorem Spares.due (h : Spares c p ops) (counted : Counted c p f) (q : Snapshot) (log : Log) :
    due q (ops ++ log) f = due q log f := by
  by_cases immutable : f.immutable = true
  · rw [due_immutable immutable, due_immutable immutable]
    exact size_eq_append (fun n mem => h f n mem immutable counted) log
  · cases f with
    | sourceIndex side => rfl
    | pairsIndex => rfl
    | _ => exact absurd rfl immutable

theorem Spares.files (h : Spares c p ops) (files : ∀ f, Counted c p f → Synced f (Checkpoint.due p log f) log) :
    ∀ f, Counted c p f → Synced f (Checkpoint.due p (ops ++ log) f) (ops ++ log) := by
  intro f counted
  rw [h.due counted]
  exact (files f counted).append ops

theorem Backed.append (h : Backed c p log) (spares : Spares c p ops) : Backed c p (ops ++ log) := by
  refine ⟨fun f counted => ?_, fun f counted immutable => ?_, fun e named => ?_⟩
  · rw [spares.due counted]
    exact (h.written f counted).trans (size_le_append f ops log)
  · exact Nat.lt_of_lt_of_le (h.whole f counted immutable) (size_le_append f ops log)
  · exact List.mem_append_right _ (h.named e named)

theorem Certified.append (h : Certified c m log) (spares : Spares c m.snapshot ops)
    (other : ∀ n, .write (.manifest m.generation) n ∉ ops) : Certified c m (ops ++ log) := by
  refine ⟨h.backed.append spares, spares.files h.files, fun e named => (h.entries e named).append ops, ?_⟩
  rw [size_eq_append other]
  exact ⟨h.itself.1, h.itself.2.append ops⟩

structure Beside (c : Config) (p : Snapshot) (ops : Log) : Prop where
  spared : Spares c p ops
  manifests : ∀ generation n, .write (.manifest generation) n ∉ ops
  replaced : replaced ops = []

theorem Beside.nil (c : Config) (p : Snapshot) : Beside c p [] :=
  ⟨fun _ _ mem => (by cases mem), fun _ _ mem => (by cases mem), rfl⟩

theorem Beside.of_le (h : Beside c q ops) (le : p.Le q) : Beside c p ops :=
  ⟨h.spared.of_le le, h.manifests, h.replaced⟩

theorem beside_create (c : Config) (p : Snapshot) (e : Entry) (d : Directory) : Beside c p [.create e d] :=
  ⟨fun _ _ mem => (by cases List.mem_singleton.mp mem), fun _ _ mem => (by cases List.mem_singleton.mp mem), rfl⟩

theorem beside_write {n : Nat} (spared : f.immutable = true → ¬Counted c p f)
    (other : ∀ generation, f ≠ .manifest generation) : Beside c p [.write f n] := by
  refine ⟨fun f' n' mem immutable => ?_, fun generation n' mem => ?_, rfl⟩
  · cases List.mem_singleton.mp mem
    exact spared immutable
  · cases List.mem_singleton.mp mem
    exact other generation rfl

theorem Beside.size_manifest (h : Beside c p ops) (generation : Nat) (log : Log) :
    size (.manifest generation) (ops ++ log) = size (.manifest generation) log :=
  size_eq_append (h.manifests generation) log

theorem Certified.beside (h : Certified c m log) (beside : Beside c m.snapshot ops) : Certified c m (ops ++ log) :=
  h.append beside.spared (beside.manifests _)

theorem Certified.recovered (h : Certified c m log) {keep : Nat → Bool} (crash : Crash keep log) :
    Recovered c m keep log :=
  ⟨fun f counted => (h.files f counted).intact (h.backed.written f counted) crash, h.backed.whole,
    fun e named => (h.entries e named).present crash, h.itself.2.intact (Nat.le_refl _) crash⟩

/-! What every reachable state satisfies. -/

def Working (c : Config) (counts : Snapshot) (log : Log) : Worker → Prop
  | .drafting _ bytes rest => 0 < bytes ∧ ∀ x ∈ rest, 0 < x.2
  | .linking a rest => (a ∉ counts.artifacts → 0 < size (.artifact a) log) ∧ ∀ x ∈ rest, 0 < x.2
  | .noting a rest => (0 < size (.artifact a) log ∧ .create (.file (.artifact a)) a.parent ∈ log) ∧ ∀ x ∈ rest, 0 < x.2
  | .writing frame _ _ =>
    (frame.side ∈ c.sides ∧ 0 < frame.cdr) ∧
      let file := File.cdr frame.side ((counts.source frame.side).frames + 1)
      .create (.file file) file.parent ∈ log
  | .indexing frame _ _ | .counting frame _ _ =>
    frame.side ∈ c.sides ∧
      let file := File.cdr frame.side ((counts.source frame.side).frames + 1)
      0 < size file log ∧ .create (.file file) file.parent ∈ log
  | _ => True

structure Prepared (committed : Option Manifest) (generation : Nat) (latest : Snapshot) (m : Manifest) : Prop where
  captured : m.snapshot.Le latest
  after : ∀ previous, committed = some previous → previous.snapshot.Le m.snapshot
  generation : m.generation = generation + 1

/-- The committed manifest is on the disk for good, and `pending` was put in place after it. -/
def Standing (log : Log) (pending : List Manifest) : Option Manifest → Prop
  | none => replaced log = pending
  | some m => Settled m pending log

def Staged (c : Config) (committed : Option Manifest) (generation : Nat) (latest : Snapshot) (log : Log) : Stage → Prop
  | .waiting => Standing log [] committed
  | .checking m => Standing log [] committed ∧ Prepared committed generation latest m
  | .data m jobs active failure =>
    Standing log [] committed ∧ Prepared committed generation latest m ∧ (∀ f ∈ jobs, Counted c m.snapshot f) ∧
      (∀ x ∈ active, Counted c m.snapshot x.1 ∧ ∀ n, x.2 = some n → due m.snapshot log x.1 ≤ n) ∧
      (failure = none → ∀ f, Counted c m.snapshot f →
        f ∈ jobs ∨ f ∈ active.map Prod.fst ∨ Synced f (due m.snapshot log f) log)
  | .naming m directories begun =>
    Standing log [] committed ∧ Prepared committed generation latest m ∧
      (∀ f, Counted c m.snapshot f → Synced f (due m.snapshot log f) log) ∧
      (∀ e, Named c m.snapshot e → e.parent ∈ directories ∨ EntrySynced e e.parent log) ∧
      ∀ d rest n, directories = d :: rest → begun = some n → ∀ e, Named c m.snapshot e → e.parent = d →
        Among e d n log
  | .writing m =>
    Standing log [] committed ∧ Prepared committed generation latest m ∧
      (∀ f, Counted c m.snapshot f → Synced f (due m.snapshot log f) log) ∧
      ∀ e, Named c m.snapshot e → EntrySynced e e.parent log
  | .syncing m begun =>
    Standing log [] committed ∧ Prepared committed generation latest m ∧
      (∀ f, Counted c m.snapshot f → Synced f (due m.snapshot log f) log) ∧
      (∀ e, Named c m.snapshot e → EntrySynced e e.parent log) ∧ 0 < size (.manifest m.generation) log ∧
      ∀ n, begun = some n → size (.manifest m.generation) log ≤ n
  | .replacing m _ => Standing log [] committed ∧ Prepared committed generation latest m ∧ Certified c m log
  | .entering m begun =>
    Standing log [m] committed ∧ Prepared committed generation latest m ∧ Certified c m log ∧
      Newest m .output (begun.getD (changes .output log)) log
  | .committing m =>
    Standing log [m] committed ∧ Prepared committed generation latest m ∧ Certified c m log ∧ Settled m [] log
  | .failing _ | .exited => ∃ pending, Standing log pending committed ∧
    ∀ m ∈ pending, Prepared committed generation latest m ∧ Certified c m log

structure Kept (c : Config) (w : World) : Prop where
  backed : Backed c w.counts w.log
  working : Working c w.counts w.log w.worker
  latest : w.latest.Le w.counts
  held : ∀ m, w.committed = some m → m.snapshot.Le w.latest ∧ Certified c m w.log ∧ m.generation = w.generation
  replaced : Always (fun op earlier => ∀ m d, op = .replace m d → Certified c m earlier) w.log
  staged : Staged c w.committed w.generation w.latest w.log w.stage
  raised : w.error.isSome = true → w.cancelled = true ∨ w.stage = .exited
  closer : w.closer = .cancelled → w.cancelled = true
  exited : w.stage = .exited → w.error.isSome = true ∨ ∃ m, w.committed = some m ∧ m.final = true

variable {committed : Option Manifest}

theorem Standing.append {pending : List Manifest} (h : Standing log pending committed)
    (none_ : Disk.replaced ops = []) : Standing (ops ++ log) pending committed := by
  cases committed with
  | none =>
    show Disk.replaced (ops ++ log) = pending
    rw [replaced_append, none_, List.nil_append]
    exact h
  | some m =>
    have more : Settled m (Disk.replaced ops ++ pending) (ops ++ log) := Settled.append h ops
    rw [none_, List.nil_append] at more
    exact more

theorem Standing.plain {pending : List Manifest} (h : Standing log pending committed)
    (op : Op File Entry Directory Manifest) (none_ : Disk.replaced [op] = []) :
    Standing (op :: log) pending committed :=
  Standing.append h none_

theorem Prepared.mono {generation : Nat} (h : Prepared committed generation p m)
    (le : p.Le q) : Prepared committed generation q m :=
  ⟨h.captured.trans le, h.after, h.generation⟩

theorem Staged.beside {generation : Nat} {stage : Stage}
    (h : Staged c committed generation p log stage) (le : p.Le q) (beside : Beside c p ops) :
    Staged c committed generation q (ops ++ log) stage := by
  cases stage with
  | waiting => exact Standing.append h beside.replaced
  | checking m => exact ⟨h.1.append beside.replaced, h.2.mono le⟩
  | data m jobs active failure =>
    obtain ⟨standing, prepared, pulled, begun, rest⟩ := h
    have spares := beside.spared.of_le prepared.captured
    refine ⟨standing.append beside.replaced, prepared.mono le, pulled, fun x mem => ?_, fun intact f counted => ?_⟩
    · refine ⟨(begun x mem).1, fun n some_ => ?_⟩
      rw [spares.due (begun x mem).1]
      exact (begun x mem).2 n some_
    · rcases rest intact f counted with waiting | running | synced
      · exact .inl waiting
      · exact .inr (.inl running)
      · rw [spares.due counted]
        exact .inr (.inr (synced.append ops))
  | naming m directories begun =>
    obtain ⟨standing, prepared, synced, named, running⟩ := h
    refine ⟨standing.append beside.replaced, prepared.mono le, (beside.spared.of_le prepared.captured).files synced, fun e name => ?_, ?_⟩
    · rcases named e name with waiting | done
      · exact .inl waiting
      · exact .inr (done.append ops)
    · intro d rest n split some_ e name parent
      exact (running d rest n split some_ e name parent).append ops
  | writing m =>
    obtain ⟨standing, prepared, synced, named⟩ := h
    exact ⟨standing.append beside.replaced, prepared.mono le, (beside.spared.of_le prepared.captured).files synced,
      fun e name => (named e name).append ops⟩
  | syncing m begun =>
    obtain ⟨standing, prepared, synced, named, written, running⟩ := h
    refine ⟨standing.append beside.replaced, prepared.mono le, (beside.spared.of_le prepared.captured).files synced,
      fun e name => (named e name).append ops, ?_, fun n some_ => ?_⟩
    · rw [beside.size_manifest]
      exact written
    · rw [beside.size_manifest]
      exact running n some_
  | replacing m checked =>
    exact ⟨h.1.append beside.replaced, h.2.1.mono le, h.2.2.beside (beside.of_le h.2.1.captured)⟩
  | entering m begun =>
    obtain ⟨standing, prepared, certified, newest⟩ := h
    refine ⟨standing.append beside.replaced, prepared.mono le, certified.beside (beside.of_le prepared.captured), ?_⟩
    refine (newest.append beside.replaced).mono ?_
    cases begun with
    | none =>
      show changes .output log ≤ changes .output (ops ++ log)
      rw [changes_append]
      exact Nat.le_add_left _ _
    | some n => exact Nat.le_refl _
  | committing m =>
    obtain ⟨standing, prepared, certified, settled⟩ := h
    have more := Settled.append settled ops
    rw [beside.replaced, List.nil_append] at more
    exact ⟨standing.append beside.replaced, prepared.mono le, certified.beside (beside.of_le prepared.captured), more⟩
  | failing reason =>
    obtain ⟨pending, standing, prepared⟩ := h
    refine ⟨pending, standing.append beside.replaced, fun m mem => ?_⟩
    obtain ⟨ready, certified⟩ := prepared m mem
    exact ⟨ready.mono le, certified.beside (beside.of_le ready.captured)⟩
  | exited =>
    obtain ⟨pending, standing, prepared⟩ := h
    refine ⟨pending, standing.append beside.replaced, fun m mem => ?_⟩
    obtain ⟨ready, certified⟩ := prepared m mem
    exact ⟨ready.mono le, certified.beside (beside.of_le ready.captured)⟩

end Smartwheel.Checkpoint

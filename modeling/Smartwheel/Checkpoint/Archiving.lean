import Smartwheel.Checkpoint.Certificate

/-! The steps of the archive worker keep what every reachable state satisfies. -/
namespace Smartwheel.Checkpoint
open Disk Mapping

variable {c : Config} {w w' : World} {p q : Snapshot} {log ops : Log}

theorem Backed.extend (h : Backed c p log)
    (more : ∀ f, Counted c q f → f.immutable = true →
      Counted c p f ∨ 0 < size f log ∧ .create (.file f) f.parent ∈ log)
    (indexes : ∀ side ∈ c.sides, (q.source side).indexBytes ≤ size (.sourceIndex side) log)
    (pairs : q.pairsIndexBytes ≤ size .pairsIndex log) : Backed c q log := by
  refine ⟨fun f counted => ?_, fun f counted immutable => ?_, fun e named => ?_⟩
  · cases f with
    | sourceIndex side => exact indexes side counted
    | pairsIndex => exact pairs
    | _ => exact Nat.le_refl _
  · rcases more f counted immutable with before | ⟨whole, -⟩
    · exact h.whole f before immutable
    · exact whole
  · cases e with
    | file f =>
      by_cases immutable : f.immutable = true
      · rcases more f named immutable with before | ⟨-, created⟩
        · exact h.named (.file f) before
        · exact created
      · cases f with
        | sourceIndex side => exact h.named (.file (.sourceIndex side)) named
        | pairsIndex => exact h.named (.file .pairsIndex) named
        | _ => exact absurd rfl immutable
    | frames side => exact h.named (.frames side) named
    | source side => exact h.named (.source side) named
    | output => exact h.named .output named

theorem Working.append {worker : Worker} (h : Working c p log worker) (ops : Log) : Working c p (ops ++ log) worker := by
  have grows (f : File) (written : 0 < size f log) : 0 < size f (ops ++ log) :=
    Nat.lt_of_lt_of_le written (size_le_append f ops log)
  cases worker with
  | linking a rest => exact ⟨fun new => grows _ (h.1 new), h.2⟩
  | noting a rest => exact ⟨⟨grows _ h.1.1, List.mem_append_right _ h.1.2⟩, h.2⟩
  | writing frame rest pair => exact ⟨h.1, List.mem_append_right _ h.2⟩
  | indexing frame rest pair | counting frame rest pair => exact ⟨h.1, grows _ h.2.1, List.mem_append_right _ h.2.2⟩
  | drafting a bytes rest => exact h
  | _ => trivial

theorem Kept.aside (h : Kept c w) {worker : Worker} {counts latest : Snapshot} {archiveError : Option String}
    (beside : Beside c w.counts ops) (backed : Backed c counts (ops ++ w.log))
    (working : Working c counts (ops ++ w.log) worker) (grown : w.latest.Le latest) (captured : latest.Le counts) :
    Kept c { w with worker, counts, archiveError, latest, log := ops ++ w.log } := by
  have spares := beside.of_le h.latest
  refine ⟨backed, working, captured, fun m some_ => ?_, ?_, h.staged.beside grown spares, h.raised, h.closer, h.exited⟩
  · obtain ⟨le, certified, generation⟩ := h.held m some_
    exact ⟨le.trans grown, certified.beside (spares.of_le le), generation⟩
  · refine h.replaced.append fun op mem earlier m d eq => ?_
    rw [eq] at mem
    have last := mem_replaced mem
    rw [beside.replaced] at last
    cases last

theorem Kept.archiveFailed (h : Kept c w) (reason : String) (beside : Beside c w.counts ops) :
    Kept c ({ w with log := ops ++ w.log }.archiveFailed reason) :=
  h.aside beside (h.backed.append beside.spared) trivial (.refl _) h.latest

variable {bytes : Nat}

theorem Kept.written (h : Kept c w) {f : File} {io : Io} {next : World → World}
    (spared : f.immutable = true → ¬Counted c w.counts f) (other : ∀ generation, f ≠ .manifest generation)
    (then_ : Kept c (next (w.record (.write f bytes)))) : Kept c (w.append f bytes io next) := by
  cases io with
  | done => exact then_
  | failed arrived reason => exact h.archiveFailed reason (beside_write spared other)

theorem Kept.attempt (h : Kept c w) {io : Io} {next : World} (then_ : Kept c next) : Kept c (w.attempt io next) := by
  cases io with
  | done => exact then_
  | failed arrived reason => exact h.archiveFailed reason (.nil c _)

theorem destination_new (w : World) (side : Side) : ¬Counted c w.counts (w.destination side) :=
  fun counted => absurd counted.2.2 (Nat.not_succ_le_self _)

theorem size_write (f : File) (n : Nat) (log : Log) : size f (.write f n :: log) = n + size f log := by
  show (if f = f then n else 0) + _ = _
  rw [if_pos rfl]

variable {rest : List (Artifact × Nat)}

theorem nextArtifact_working (whole : ∀ x ∈ rest, 0 < x.2) : Working c p log (World.nextArtifact rest) := by
  cases rest with
  | nil => trivial
  | cons x rest => exact ⟨whole x (List.mem_cons_self ..), fun y mem => whole y (List.mem_cons_of_mem _ mem)⟩

theorem nextFrame_working (pair : Pair) (frames : List Frame) : Working c p log (World.nextFrame pair frames) := by
  cases frames <;> trivial

variable {frame : Frame}

theorem refusal_none (h : w.refusal c frame = none) : frame.side ∈ c.sides ∧ 0 < frame.cdr := by
  unfold World.refusal at h
  by_cases known : frame.side ∈ c.sides
  · rw [if_neg (not_not_intro known)] at h
    by_cases envelope : 0 < frame.cdr ∧ frame.cdr ≤ maxCdrBytes
    · exact ⟨known, envelope.1⟩
    · rw [if_pos envelope] at h
      cases h
  · rw [if_pos known] at h
    cases h

theorem backed_index (h : Backed c p log) (side : Side) (n : Nat) :
    Backed c (p.setSource side ⟨(p.source side).frames, (p.source side).indexBytes + n⟩)
      (.write (.sourceIndex side) n :: log) := by
  have spares : Spares c p [.write (.sourceIndex side) n] := (beside_write (by nofun) (by nofun)).spared
  have grown := h.append spares
  refine grown.extend (fun f counted immutable => .inl ?_) (fun other known => ?_) ?_
  · cases f with
    | cdr other number =>
      obtain ⟨known, first, last⟩ := counted
      refine ⟨known, first, ?_⟩
      by_cases same : other = side
      · subst same
        rw [source_setSource] at last
        exact last
      · rw [source_setSource_other _ _ same] at last
        exact last
    | artifact a =>
      have mem : a ∈ (p.setSource side _).artifacts := counted
      rw [artifacts_setSource] at mem
      exact mem
    | sourceIndex other => exact counted
    | pairsIndex => trivial
    | _ => exact counted
  · by_cases same : other = side
    · subst same
      have written := h.written (.sourceIndex other) known
      have due : (p.source other).indexBytes ≤ size (.sourceIndex other) log := written
      rw [source_setSource]
      show (p.source other).indexBytes + n ≤ size (.sourceIndex other) (.write (.sourceIndex other) n :: log)
      rw [size_write]
      omega
    · rw [source_setSource_other _ _ same]
      exact grown.written (.sourceIndex other) known
  · cases side <;> exact grown.written .pairsIndex trivial

theorem backed_frame (h : Backed c p log) {side : Side}
    (written : 0 < size (.cdr side ((p.source side).frames + 1)) log)
    (created : .create (.file (.cdr side ((p.source side).frames + 1))) (.frames side) ∈ log) :
    Backed c (p.setSource side ⟨(p.source side).frames + 1, (p.source side).indexBytes⟩) log := by
  refine h.extend (fun f counted immutable => ?_) (fun other known => ?_) ?_
  · cases f with
    | cdr other number =>
      obtain ⟨known, first, last⟩ := counted
      by_cases same : other = side
      · subst same
        rw [source_setSource] at last
        by_cases new : number = (p.source other).frames + 1
        · subst new
          exact .inr ⟨written, created⟩
        · exact .inl ⟨known, first, Nat.le_of_lt_succ (Nat.lt_of_le_of_ne last new)⟩
      · rw [source_setSource_other _ _ same] at last
        exact .inl ⟨known, first, last⟩
    | artifact a =>
      have mem : a ∈ (p.setSource side _).artifacts := counted
      rw [artifacts_setSource] at mem
      exact .inl mem
    | sourceIndex other => exact .inl counted
    | pairsIndex => exact .inl trivial
    | _ => exact .inl counted
  · by_cases same : other = side
    · subst same
      rw [source_setSource]
      exact h.written (.sourceIndex other) known
    · rw [source_setSource_other _ _ same]
      exact h.written (.sourceIndex other) known
  · cases side <;> exact h.written .pairsIndex trivial

theorem le_counts {p : Snapshot} {outputs empties : Nat} {artifacts : List Artifact}
    (outputs' : p.archivedOutputs ≤ outputs) (empties' : p.filteredEmptyOutputs ≤ empties)
    (bytes' : p.pairsIndexBytes ≤ bytes) (artifacts' : p.artifacts ⊆ artifacts) :
    p.Le ⟨outputs, empties, bytes, p.left, p.right, artifacts⟩ :=
  ⟨outputs', empties', bytes', fun side => by cases side <;> exact ⟨Nat.le_refl _, Nat.le_refl _⟩, artifacts'⟩

theorem backed_counts (h : Backed c p log) {outputs empties : Nat} {artifacts : List Artifact}
    (more : ∀ a ∈ artifacts, a ∈ p.artifacts ∨
      0 < size (.artifact a) log ∧ .create (.file (.artifact a)) a.parent ∈ log)
    (pairs : bytes ≤ size .pairsIndex log) : Backed c ⟨outputs, empties, bytes, p.left, p.right, artifacts⟩ log := by
  refine h.extend (fun f counted immutable => ?_) (fun side known => ?_) pairs
  · cases f with
    | artifact a => exact more a counted
    | cdr side number => cases side <;> exact .inl counted
    | sourceIndex side => exact .inl counted
    | pairsIndex => exact .inl trivial
    | _ => exact .inl counted
  · cases side <;> exact h.written (.sourceIndex _) known

theorem kept_draft (h : Kept c w) {a : Artifact}
    (working : Working c w.counts w.log (.drafting a bytes rest)) (io : Io) : Kept c (w.draft a bytes rest io) := by
  obtain ⟨whole, more⟩ := working
  have spared : (if a ∈ w.counts.artifacts then File.leftover a else .artifact a).immutable = true →
      ¬Counted c w.counts (if a ∈ w.counts.artifacts then .leftover a else .artifact a) := by
    intro _ counted
    by_cases known : a ∈ w.counts.artifacts
    · rw [if_pos known] at counted
      exact counted
    · rw [if_neg known] at counted
      exact known counted
  have other (generation : Nat) :
      (if a ∈ w.counts.artifacts then File.leftover a else .artifact a) ≠ .manifest generation := by
    split <;> nofun
  unfold World.draft
  refine h.written spared other ?_
  have beside := beside_write (n := bytes) spared other
  refine h.aside beside (h.backed.append beside.spared) ⟨fun new => ?_, more⟩ (.refl _) h.latest
  have unknown : a ∉ w.counts.artifacts := new
  show 0 < size (.artifact a) (.write (if a ∈ w.counts.artifacts then .leftover a else .artifact a) bytes :: w.log)
  rw [if_neg unknown, size_write]
  omega

theorem kept_link (h : Kept c w) {a : Artifact}
    (working : Working c w.counts w.log (.linking a rest)) (io : Io) : Kept c (w.link a rest io) := by
  obtain ⟨written, more⟩ := working
  unfold World.link
  by_cases known : a ∈ w.counts.artifacts
  · rw [if_pos known]
    exact h.archiveFailed _ (.nil c _)
  · rw [if_neg known]
    have beside := beside_create c w.counts (.file (.artifact a)) a.parent
    refine h.attempt (h.aside beside (h.backed.append beside.spared) ⟨⟨?_, List.mem_cons_self ..⟩, more⟩ (.refl _) h.latest)
    exact written known

theorem kept_note (h : Kept c w) {a : Artifact}
    (working : Working c w.counts w.log (.noting a rest)) : Kept c (w.note a rest) := by
  obtain ⟨⟨written, created⟩, more⟩ := working
  have le := le_counts (Nat.le_refl _) (Nat.le_refl _) (Nat.le_refl _) (List.subset_append_left w.counts.artifacts [a])
  refine h.aside (.nil c _) ?_ (nextArtifact_working more) (h.latest.trans le) (.refl _)
  refine backed_counts h.backed (fun b mem => ?_) (h.backed.written .pairsIndex trivial)
  rcases List.mem_append.mp mem with before | new
  · exact .inl before
  · cases List.mem_singleton.mp new
    exact .inr ⟨written, created⟩

theorem kept_openFrame (h : Kept c w) (frame : Frame) (rest : List Frame) (pair : Pair) (io : Io) :
    Kept c (w.openFrame c frame rest pair io) := by
  unfold World.openFrame
  split
  · exact h.archiveFailed _ (.nil c _)
  · rename_i accepted
    have beside := beside_create c w.counts (.file (w.destination frame.side)) (w.destination frame.side).parent
    refine h.attempt (h.aside beside (h.backed.append beside.spared) ?_ (.refl _) h.latest)
    exact ⟨refusal_none accepted, List.mem_cons_self ..⟩

variable {rest : List Frame}

theorem kept_writeFrame (h : Kept c w) {pair : Pair}
    (working : Working c w.counts w.log (.writing frame rest pair)) (io : Io) :
    Kept c (w.writeFrame frame rest pair io) := by
  obtain ⟨⟨known, whole⟩, created⟩ := working
  have spared : (w.destination frame.side).immutable = true → ¬Counted c w.counts (w.destination frame.side) :=
    fun _ => destination_new w frame.side
  have beside : Beside c w.counts [.write (w.destination frame.side) frame.cdr] := beside_write spared (by nofun)
  refine h.written spared (by nofun) ?_
  refine h.aside beside (h.backed.append beside.spared) ⟨known, ?_, List.mem_cons_of_mem _ created⟩ (.refl _) h.latest
  show 0 < size (w.destination frame.side) (.write (w.destination frame.side) frame.cdr :: w.log)
  rw [size_write]
  omega

theorem kept_indexFrame (h : Kept c w) {pair : Pair}
    (working : Working c w.counts w.log (.indexing frame rest pair)) (io : Io) :
    Kept c (w.indexFrame frame rest pair io) := by
  have beside : Beside c w.counts [.write (.sourceIndex frame.side) (jsonBytes frame.row)] :=
    beside_write (by nofun) (by nofun)
  have le : w.counts.Le (w.counts.setSource frame.side
      ⟨(w.counts.source frame.side).frames, (w.counts.source frame.side).indexBytes + jsonBytes frame.row⟩) :=
    .setSource (Nat.le_refl _) (Nat.le_add_right _ _)
  obtain ⟨known, written, created⟩ := working.append [.write (.sourceIndex frame.side) (jsonBytes frame.row)]
  dsimp only [World.indexFrame]
  refine h.written (by nofun) (by nofun) ?_
  refine h.aside beside (backed_index h.backed frame.side (jsonBytes frame.row)) ⟨known, ?_⟩ (.refl _) (h.latest.trans le)
  rw [source_setSource]
  exact ⟨written, created⟩

theorem kept_countFrame (h : Kept c w) {pair : Pair}
    (working : Working c w.counts w.log (.counting frame rest pair)) : Kept c (w.countFrame frame rest pair) := by
  obtain ⟨known, written, created⟩ := working
  have le : w.counts.Le (w.counts.setSource frame.side
      ⟨(w.counts.source frame.side).frames + 1, (w.counts.source frame.side).indexBytes⟩) :=
    .setSource (Nat.le_succ _) (Nat.le_refl _)
  exact h.aside (.nil c _) (backed_frame h.backed written created) (nextFrame_working pair rest) (h.latest.trans le)
    (.refl _)

theorem kept_appendPair (h : Kept c w) (pair : Pair) (io : Io) : Kept c (w.appendPair pair io) := by
  have beside : Beside c w.counts [.write .pairsIndex (jsonBytes pair.row)] := beside_write (by nofun) (by nofun)
  have le := le_counts (Nat.le_refl _) (Nat.le_refl _) (Nat.le_add_right w.counts.pairsIndexBytes (jsonBytes pair.row))
    fun _ mem => mem
  dsimp only [World.appendPair]
  refine h.written (by nofun) (by nofun) ?_
  refine h.aside beside ?_ trivial (.refl _) (h.latest.trans le)
  refine backed_counts (h.backed.append beside.spared) (fun a mem => .inl mem) ?_
  have written : w.counts.pairsIndexBytes ≤ size .pairsIndex w.log := h.backed.written .pairsIndex trivial
  show w.counts.pairsIndexBytes + jsonBytes pair.row ≤ size .pairsIndex (.write .pairsIndex (jsonBytes pair.row) :: w.log)
  rw [size_write]
  omega

theorem kept_recordPair (h : Kept c w) (pair : Pair) : Kept c (w.recordPair pair) := by
  have le := le_counts (Nat.le_succ w.counts.archivedOutputs)
    (Nat.le_add_right w.counts.filteredEmptyOutputs (!pair.publishable).toNat) (Nat.le_refl _) fun _ mem => mem
  refine h.aside (.nil c _) ?_ trivial (h.latest.trans le) (.refl _)
  exact backed_counts h.backed (fun a mem => .inl mem) (h.backed.written .pairsIndex trivial)

theorem kept_archive (h : Kept c w) {io : Io} (moved : w.archive c io = some w') : Kept c w' := by
  have working := h.working
  unfold World.archive at moved
  cases worker : w.worker <;> rw [worker] at moved working <;> cases moved
  case drafting => exact kept_draft h working io
  case linking => exact kept_link h working io
  case noting => exact kept_note h working
  case opening => exact kept_openFrame h _ _ _ io
  case writing => exact kept_writeFrame h working io
  case indexing => exact kept_indexFrame h working io
  case counting => exact kept_countFrame h working
  case pairing => exact kept_appendPair h _ io
  case recording => exact kept_recordPair h _
  case putting => exact h.attempt (h.aside (.nil c _) h.backed trivial (.refl _) h.latest)

end Smartwheel.Checkpoint

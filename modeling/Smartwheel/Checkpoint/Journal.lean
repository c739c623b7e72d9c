import Smartwheel.Disk.Log
import Smartwheel.Mapping.Input

/-! `CheckpointJournal` and the `ArchiveWorker` whose captures it commits. The worker, the coordinator, its threads
for file syncs and the caller of `close` take turns; an operation on the disk is one step, a sync one when it begins
and one when it returns. -/
namespace Smartwheel.Checkpoint
open Disk Mapping

def checkpointDataWorkers : Nat := 4

/-- The immutable files of `_bootstrap`. -/
inductive Artifact where
  | bootstrap | priorConfig
deriving DecidableEq, Repr

/-- A manifest is written to a temporary file that then replaces the one before; `leftover` is a temporary file
that could not be linked. -/
inductive File where
  | cdr (side : Side) (number : Nat)
  | sourceIndex (side : Side)
  | pairsIndex
  | artifact (a : Artifact)
  | leftover (a : Artifact)
  | manifest (generation : Nat)
deriving DecidableEq, Repr

inductive Directory where
  | frames (side : Side)
  | source (side : Side)
  | output
  | outputParent
deriving DecidableEq, Repr

inductive Entry where
  | file (f : File)
  | frames (side : Side)
  | source (side : Side)
  | output
deriving DecidableEq, Repr

structure Source where
  frames : Nat
  indexBytes : Nat
deriving DecidableEq, Repr

/-- What `capture` passes on. -/
structure Snapshot where
  archivedOutputs : Nat
  filteredEmptyOutputs : Nat
  pairsIndexBytes : Nat
  left : Source
  right : Source
  artifacts : List Artifact
deriving DecidableEq, Repr

structure Manifest where
  snapshot : Snapshot
  generation : Nat
  final : Bool
deriving DecidableEq, Repr

abbrev Log := List (Op File Entry Directory Manifest)

def Artifact.parent : Artifact → Directory
  | .bootstrap => .output
  | .priorConfig => .outputParent

def File.parent : File → Directory
  | .cdr side _ => .frames side
  | .sourceIndex side => .source side
  | .pairsIndex => .output
  | .artifact a => a.parent
  | .leftover a => a.parent
  | .manifest _ => .output

def Entry.parent : Entry → Directory
  | .file f => f.parent
  | .frames side => .source side
  | .source _ => .output
  | .output => .outputParent

def Snapshot.source (p : Snapshot) : Side → Source
  | .left => p.left
  | .right => p.right

def Snapshot.setSource (p : Snapshot) (side : Side) (source : Source) : Snapshot :=
  match side with
  | .left => { p with left := source }
  | .right => { p with right := source }

def Snapshot.empty : Snapshot := ⟨0, 0, 0, ⟨0, 0⟩, ⟨0, 0⟩, []⟩

structure Frame where
  side : Side
  cdr : Nat
  row : Nat
deriving DecidableEq, Repr

structure Pair where
  row : Nat
  publishable : Bool
deriving DecidableEq, Repr

inductive Job where
  | bootstrap (completed prior : Nat)
  | output (frames : List Frame) (pair : Pair)
deriving DecidableEq, Repr

inductive Worker where
  | waiting
  | drafting (a : Artifact) (bytes : Nat) (rest : List (Artifact × Nat))
  | linking (a : Artifact) (rest : List (Artifact × Nat))
  | noting (a : Artifact) (rest : List (Artifact × Nat))
  | opening (frame : Frame) (rest : List Frame) (pair : Pair)
  | writing (frame : Frame) (rest : List Frame) (pair : Pair)
  | indexing (frame : Frame) (rest : List Frame) (pair : Pair)
  | counting (frame : Frame) (rest : List Frame) (pair : Pair)
  | pairing (pair : Pair)
  | recording (pair : Pair)
  | putting
  | exited
deriving DecidableEq, Repr

/-- Where the coordinator is in `_run` and `_commit`, with the manifest that is prepared. A sync that has begun
carries what there was to sync; `checked` says that the check before the operation has passed. -/
inductive Stage where
  | waiting
  | checking (m : Manifest)
  | data (m : Manifest) (jobs : List File) (active : List (File × Option Nat)) (failure : Option String)
  | naming (m : Manifest) (directories : List Directory) (begun : Option Nat)
  | writing (m : Manifest)
  | syncing (m : Manifest) (begun : Option Nat)
  | replacing (m : Manifest) (checked : Bool)
  | entering (m : Manifest) (begun : Option Nat)
  | committing (m : Manifest)
  | failing (reason : String)
  | exited
deriving DecidableEq, Repr

/-- Where `close` is. -/
inductive Closer where
  | away | joining | expired | cancelled
deriving DecidableEq, Repr

inductive Policy where
  | periodic | onClose
deriving DecidableEq, Repr

/-- `text` is the length of a manifest as JSON. -/
structure Config where
  sides : List Side
  policy : Policy
  continuousMapping : Bool
  text : Manifest → Nat

/-- The worker with its counters and `error`, the journal, where their threads are, and the disk. -/
structure World where
  worker : Worker
  counts : Snapshot
  archiveError : Option String
  latest : Snapshot
  committed : Option Manifest
  error : Option String
  closing : Bool
  generation : Nat
  skippedUnchanged : Nat
  cancelled : Bool
  stage : Stage
  closer : Closer
  log : Log
deriving DecidableEq

inductive Io where
  | done
  | failed (arrived : Nat) (reason : String)
deriving DecidableEq, Repr

/-- `_json_bytes` ends with a newline. -/
def jsonBytes (text : Nat) : Nat := text + 1

namespace World
variable (c : Config) (w : World)

def record (op : Op File Entry Directory Manifest) : World := { w with log := op :: w.log }

/-! The worker. -/

def archiveFailed (reason : String) : World :=
  { w with worker := .exited, archiveError := some ("ARCHIVE_WRITE_FAILED: " ++ reason) }

/-- `capture` after counting. -/
def capture (counts : Snapshot) (worker : Worker) : World :=
  { w with counts := counts, latest := counts, worker := worker }

/-- A write of the worker, to be followed by `next`. -/
def append (file : File) (bytes : Nat) (io : Io) (next : World → World) : World :=
  match io with
  | .done => next (w.record (.write file bytes))
  | .failed arrived reason => (w.record (.write file (min arrived bytes))).archiveFailed reason

def attempt (io : Io) (next : World) : World :=
  match io with
  | .done => next
  | .failed _ reason => w.archiveFailed reason

def nextArtifact : List (Artifact × Nat) → Worker
  | [] => .putting
  | (a, bytes) :: rest => .drafting a bytes rest

def nextFrame (pair : Pair) : List Frame → Worker
  | [] => .pairing pair
  | frame :: rest => .opening frame rest pair

def take : Job → World
  | .bootstrap completed prior =>
    { w with worker := nextArtifact [(.bootstrap, jsonBytes completed), (.priorConfig, jsonBytes prior)] }
  | .output frames pair => { w with worker := nextFrame pair frames }

/-- What `FlushedFrameArchive.append` and the lookup of its archive refuse. -/
def refusal (frame : Frame) : Option String :=
  if frame.side ∉ c.sides then some (if frame.side = .left then "'left'" else "'right'")
  else if ¬(0 < frame.cdr ∧ frame.cdr ≤ maxCdrBytes) then some "INVALID_CDR_ENVELOPE"
  else if ¬(c.continuousMapping ∨ (w.counts.source frame.side).frames < maxFrames) then
    some "FRAME_ARCHIVE_LIMIT_REACHED"
  else none

def destination (side : Side) : File := .cdr side ((w.counts.source side).frames + 1)

/-! `write_exclusive_json`, and what `_bootstrap` does after it. -/

def draft (a : Artifact) (bytes : Nat) (rest : List (Artifact × Nat)) (io : Io) : World :=
  let file := if a ∈ w.counts.artifacts then .leftover a else .artifact a
  w.append file bytes io fun w => { w with worker := .linking a rest }

def link (a : Artifact) (rest : List (Artifact × Nat)) (io : Io) : World :=
  if a ∈ w.counts.artifacts then w.archiveFailed "[Errno 17] File exists"
  else w.attempt io { w.record (.create (.file (.artifact a)) a.parent) with worker := .noting a rest }

def note (a : Artifact) (rest : List (Artifact × Nat)) : World :=
  w.capture { w.counts with artifacts := w.counts.artifacts ++ [a] } (nextArtifact rest)

/-! `FlushedFrameArchive.append`, and the capture after it. -/

def openFrame (frame : Frame) (rest : List Frame) (pair : Pair) (io : Io) : World :=
  match w.refusal c frame with
  | some reason => w.archiveFailed reason
  | none =>
    let file := w.destination frame.side
    w.attempt io { w.record (.create (.file file) file.parent) with worker := .writing frame rest pair }

def writeFrame (frame : Frame) (rest : List Frame) (pair : Pair) (io : Io) : World :=
  w.append (w.destination frame.side) frame.cdr io fun w => { w with worker := .indexing frame rest pair }

def indexFrame (frame : Frame) (rest : List Frame) (pair : Pair) (io : Io) : World :=
  let source := w.counts.source frame.side
  let counts := w.counts.setSource frame.side ⟨source.frames, source.indexBytes + jsonBytes frame.row⟩
  w.append (.sourceIndex frame.side) (jsonBytes frame.row) io fun w =>
    { w with counts := counts, worker := .counting frame rest pair }

def countFrame (frame : Frame) (rest : List Frame) (pair : Pair) : World :=
  let source := w.counts.source frame.side
  w.capture (w.counts.setSource frame.side ⟨source.frames + 1, source.indexBytes⟩) (nextFrame pair rest)

/-! The end of `_archive`. -/

def appendPair (pair : Pair) (io : Io) : World :=
  let counts := { w.counts with pairsIndexBytes := w.counts.pairsIndexBytes + jsonBytes pair.row }
  w.append .pairsIndex (jsonBytes pair.row) io fun w => { w with counts := counts, worker := .recording pair }

def recordPair (pair : Pair) : World :=
  let counts :=
    { w.counts with
      archivedOutputs := w.counts.archivedOutputs + 1
      filteredEmptyOutputs := w.counts.filteredEmptyOutputs + (!pair.publishable).toNat }
  w.capture counts .putting

/-- One step of `ArchiveWorker._run` with a job. -/
def archive (io : Io) : Option World :=
  match w.worker with
  | .waiting | .exited => none
  | .drafting a bytes rest => some (w.draft a bytes rest io)
  | .linking a rest => some (w.link a rest io)
  | .noting a rest => some (w.note a rest)
  | .opening frame rest pair => some (w.openFrame c frame rest pair io)
  | .writing frame rest pair => some (w.writeFrame frame rest pair io)
  | .indexing frame rest pair => some (w.indexFrame frame rest pair io)
  | .counting frame rest pair => some (w.countFrame frame rest pair)
  | .pairing pair => some (w.appendPair pair io)
  | .recording pair => some (w.recordPair pair)
  | .putting => some (w.attempt io { w with worker := .waiting })

/-! The coordinator. -/

def closeTimeout : String := "STORAGE_CHECKPOINT_CLOSE_TIMEOUT"

def go (stage : Stage) : World := { w with stage := stage }

/-- What `_commit` compares with before the first manifest. -/
def previous : Snapshot := (w.committed.map (·.snapshot)).getD .empty

/-- `CHECKPOINT_PREFIX_REGRESSION` is raised where this is false. -/
def advances (p previous : Snapshot) : Bool :=
  decide (previous.archivedOutputs ≤ p.archivedOutputs ∧ previous.pairsIndexBytes ≤ p.pairsIndexBytes) &&
    previous.artifacts.all (· ∈ p.artifacts) &&
    c.sides.all fun side =>
      decide ((previous.source side).frames ≤ (p.source side).frames ∧
        (previous.source side).indexBytes ≤ (p.source side).indexBytes)

def unchanged (p previous : Snapshot) : Bool :=
  decide (p.archivedOutputs = previous.archivedOutputs ∧ p.pairsIndexBytes = previous.pairsIndexBytes ∧
      p.artifacts = previous.artifacts) &&
    c.sides.all fun side => decide (p.source side = previous.source side)

def newArtifacts (p previous : Snapshot) : List Artifact := p.artifacts.filter (· ∉ previous.artifacts)

/-- `data_jobs`. -/
def dataJobs (first : Bool) (p previous : Snapshot) : List File :=
  (c.sides.filter fun side => first || (p.source side).indexBytes != (previous.source side).indexBytes).map
      .sourceIndex ++
    (if first || p.pairsIndexBytes != previous.pairsIndexBytes then [.pairsIndex] else []) ++
    (newArtifacts p previous).map .artifact ++
    c.sides.flatMap fun side =>
      let old := (previous.source side).frames
      (List.range' (old + 1) ((p.source side).frames - old)).map (.cdr side)

def namespaces (first : Bool) (p previous : Snapshot) : List Directory :=
  (c.sides.flatMap fun side =>
      (if first || (p.source side).frames != (previous.source side).frames then [.frames side] else []) ++
        if first then [.source side] else []) ++
    [.output, .outputParent].filter fun d => first || (newArtifacts p previous).any (·.parent = d)

/-- `_run` wakes up and captures. -/
def wake : Option World :=
  if w.closing ∨ c.policy = .periodic then some (w.go (.checking ⟨w.latest, w.generation + 1, w.closing⟩)) else none

/-- The beginning of `_commit`. -/
def check (m : Manifest) : World :=
  let first := w.committed.isNone
  if !first && !advances c m.snapshot w.previous then w.go (.failing "CHECKPOINT_PREFIX_REGRESSION")
  else if !first && !m.final && unchanged c m.snapshot w.previous then
    { w with skippedUnchanged := w.skippedUnchanged + 1, stage := .waiting }
  else w.go (.data m (dataJobs c first m.snapshot w.previous) [] none)

/-- The check of `_sync_operation` and the beginning of its operation. -/
def enter (io : Io) (next : Stage) : World :=
  if w.cancelled then w.go (.failing closeTimeout)
  else
    match io with
    | .done => w.go next
    | .failed _ reason => w.go (.failing reason)

def complete (io : Io) (op : Op File Entry Directory Manifest) (next : Stage) : World :=
  match io with
  | .done => (w.record op).go next
  | .failed _ reason => w.go (.failing reason)

def coordinate (io : Io) : Option World :=
  match w.stage with
  | .exited => none
  | .waiting => w.wake c
  | .checking m => some (w.check c m)
  | .data m jobs active failure =>
    -- Every thread has returned.
    if active = [] ∧ (jobs = [] ∨ failure.isSome ∨ w.cancelled) then
      match failure with
      | some reason => some (w.go (.failing reason))
      | none =>
        if w.cancelled then some (w.go (.failing closeTimeout))
        else some (w.go (.naming m (namespaces c w.committed.isNone m.snapshot w.previous) none))
    else none
  | .naming m [] _ => some (w.enter io (.writing m))
  | .naming m (d :: rest) none => some (w.enter io (.naming m (d :: rest) (some (changes d w.log))))
  | .naming m (d :: rest) (some n) => some (w.complete io (.syncDirectory d n) (.naming m rest none))
  | .writing m =>
    let bytes := jsonBytes (c.text m)
    match io with
    | .done => some ((w.record (.write (.manifest m.generation) bytes)).go (.syncing m none))
    | .failed arrived reason =>
      some ((w.record (.write (.manifest m.generation) (min arrived bytes))).go (.failing reason))
  | .syncing m none =>
    match io with
    | .done => some (w.go (.syncing m (some (size (.manifest m.generation) w.log))))
    | .failed _ reason => some (w.go (.failing reason))
  | .syncing m (some n) => some (w.complete io (.syncFile (.manifest m.generation) n) (.replacing m false))
  | .replacing m false => some (w.enter io (.replacing m true))
  | .replacing m true => some (w.complete io (.replace m .output) (.entering m none))
  | .entering m none => some (w.enter io (.entering m (some (changes .output w.log))))
  | .entering m (some n) => some (w.complete io (.syncDirectory .output n) (.committing m))
  | .committing m =>
    if w.cancelled then some (w.go (.failing closeTimeout))
    else
      some { w with
        committed := some m
        generation := w.generation + 1
        stage := if m.final then .exited else .waiting }
  | .failing reason =>
    some { w with error := some (w.error.getD ("STORAGE_CHECKPOINT_FAILED: " ++ reason)), stage := .exited }

/-! The threads of `_sync_data_files`. -/

def dispatch : Option World :=
  match w.stage with
  | .data m (f :: jobs) active none =>
    if active.length < checkpointDataWorkers ∧ ¬w.cancelled then
      some (w.go (.data m jobs (active ++ [(f, none)]) none))
    else none
  | _ => none

/-- `_sync_operation` on the job of one thread begins, returns or raises. The first failure is kept. -/
def sync (i : Nat) (io : Io) : Option World :=
  match w.stage with
  | .data m jobs active failure =>
    let fail (reason : String) := w.go (.data m jobs (active.eraseIdx i) (some (failure.getD reason)))
    match active[i]? with
    | none => none
    | some (f, none) =>
      if w.cancelled then some (fail closeTimeout)
      else
        match io with
        | .done => some (w.go (.data m jobs (active.set i (f, some (size f w.log))) failure))
        | .failed _ reason => some (fail reason)
    | some (f, some n) =>
      match io with
      | .done => some ((w.record (.syncFile f n)).go (.data m jobs (active.eraseIdx i) failure))
      | .failed _ reason => some (fail reason)
  | _ => none

def startFailed (reason : String) : Option World :=
  match w.stage with
  | .data m jobs active failure => some (w.go (.data m jobs active (some (failure.getD reason))))
  | _ => none

/-! `close`. -/

/-- The next step of `close`; one that finds the coordinator gone raises what is in `error`. -/
def close : Option World :=
  match w.closer with
  | .away => some { w with closing := true, closer := .joining }
  | .joining => if w.stage = .exited then some { w with closer := .away } else some { w with closer := .expired }
  | .expired => some { w with cancelled := true, closer := .cancelled }
  | .cancelled => some { w with error := some (w.error.getD closeTimeout), closer := .away }

end World

inductive Event where
  | take (job : Job)
  | leave
  | archive (io : Io)
  | coordinate (io : Io)
  | dispatch
  | sync (i : Nat) (io : Io)
  | startFailed (reason : String)
  | close
deriving DecidableEq, Repr

def World.next (c : Config) (w : World) : Event → Option World
  | .take job => if w.worker = .waiting then some (w.take job) else none
  | .leave => if w.worker = .waiting then some { w with worker := .exited } else none
  | .archive io => w.archive c io
  | .coordinate io => w.coordinate c io
  | .dispatch => w.dispatch
  | .sync i io => w.sync i io
  | .startFailed reason => w.startFailed reason
  | .close => w.close

def Step (c : Config) (w w' : World) : Prop := ∃ event, w.next c event = some w'

/-- The directories and indexes of `MappingInput` and its archives. -/
def constructed (c : Config) : Log :=
  .create (.file .pairsIndex) .output ::
    c.sides.reverse.flatMap (fun side =>
      [.syncDirectory (.source side) 2, .create (.file (.sourceIndex side)) (.source side),
        .create (.frames side) (.source side), .create (.source side) .output]) ++
    [.create .output .outputParent]

def initial (c : Config) : World where
  worker := .waiting
  counts := .empty
  archiveError := none
  latest := .empty
  committed := none
  error := none
  closing := false
  generation := 0
  skippedUnchanged := 0
  cancelled := false
  stage := .waiting
  closer := .away
  log := constructed c

/-! What a manifest certifies. -/

def Counted (c : Config) (p : Snapshot) : File → Prop
  | .cdr side number => side ∈ c.sides ∧ 1 ≤ number ∧ number ≤ (p.source side).frames
  | .sourceIndex side => side ∈ c.sides
  | .pairsIndex => True
  | .artifact a => a ∈ p.artifacts
  | .leftover _ => False
  | .manifest _ => False

def Named (c : Config) (p : Snapshot) : Entry → Prop
  | .file f => Counted c p f
  | .frames side => side ∈ c.sides
  | .source side => side ∈ c.sides
  | .output => True

/-- How much of a file is counted: the captured bytes of an index, all that was ever written to an immutable
file. -/
def due (p : Snapshot) (log : Log) : File → Nat
  | .sourceIndex side => (p.source side).indexBytes
  | .pairsIndex => p.pairsIndexBytes
  | f => size f log

def File.immutable : File → Bool
  | .sourceIndex _ => false
  | .pairsIndex => false
  | _ => true

structure Backed (c : Config) (p : Snapshot) (log : Log) : Prop where
  written : ∀ f, Counted c p f → due p log f ≤ size f log
  whole : ∀ f, Counted c p f → f.immutable = true → 0 < size f log
  named : ∀ e, Named c p e → .create e e.parent ∈ log

structure Certified (c : Config) (m : Manifest) (log : Log) : Prop where
  backed : Backed c m.snapshot log
  files : ∀ f, Counted c m.snapshot f → Synced f (due m.snapshot log f) log
  entries : ∀ e, Named c m.snapshot e → EntrySynced e e.parent log
  itself : 0 < size (.manifest m.generation) log ∧
    Synced (.manifest m.generation) (size (.manifest m.generation) log) log

structure Recovered (c : Config) (m : Manifest) (keep : Nat → Bool) (log : Log) : Prop where
  files : ∀ f, Counted c m.snapshot f → Intact keep f (due m.snapshot log f) log
  whole : ∀ f, Counted c m.snapshot f → f.immutable = true → 0 < size f log
  entries : ∀ e, Named c m.snapshot e → Present keep e e.parent log
  itself : Intact keep (.manifest m.generation) (size (.manifest m.generation) log) log

/-- The counts of `p` are at most those of `q`. -/
structure Snapshot.Le (p q : Snapshot) : Prop where
  archivedOutputs : p.archivedOutputs ≤ q.archivedOutputs
  filteredEmptyOutputs : p.filteredEmptyOutputs ≤ q.filteredEmptyOutputs
  pairsIndexBytes : p.pairsIndexBytes ≤ q.pairsIndexBytes
  sources : ∀ side, (p.source side).frames ≤ (q.source side).frames ∧
    (p.source side).indexBytes ≤ (q.source side).indexBytes
  artifacts : p.artifacts ⊆ q.artifacts

end Smartwheel.Checkpoint

import Mathlib.Data.Rat.Defs
import Smartwheel.Effect.Faulty
import Smartwheel.Disk.Tree

/-! `mapping_refine`: the stages of a refinement, their markers, the resumed stages, and the documents at the end. What
the stages themselves compute is given with the request; a call that only may raise is an operation that may fail. -/
namespace Smartwheel.Refinement
open Effect Disk
open Effect.Program hiding pure bind

def unlisted : List String := ["refinement_artifacts.json", "refinement_failure.json", "refinement_complete.json"]

def artifactsPath : Path := ["refinement_artifacts.json"]
def completePath : Path := ["refinement_complete.json"]
def failurePath : Path := ["refinement_failure.json"]
def resultPath : Path := ["refinement_result.json"]
def receiptPath : Path := ["compaction_receipt.json"]
def candidatePath : Path := ["motion_candidate.json"]
def verificationPath : Path := ["candidate_verification.json"]
def frozenPath : Path := ["frozen_runtime_config.json"]
def startPath : Path := ["motion_stage_start.json"]

inductive Stage where
  | motion
  | geometry
  | native
deriving DecidableEq, Repr

def Stage.folder : Stage → String
  | .motion => "calibrated_motion"
  | .geometry => "geometric_motion"
  | .native => "native"

def Stage.done : Stage → Path
  | .motion => ["motion_stage_complete.json"]
  | .geometry => ["geometry_stage_complete.json"]
  | .native => ["native_stage_complete.json"]

/-- `artifacts[...]`. -/
structure Artifact (η : Type) where
  bytes : ℕ
  sha256 : η
deriving DecidableEq, Repr

structure MotionDone (δ η : Type) where
  status : String
  inputHashes : Table η
  candidateSha256 : η
  cellSummary : δ
  artifactHashes : Table η
deriving DecidableEq, Repr

structure GeometryDone (δ η : Type) where
  status : String
  inputIndexSha256 : η
  summary : δ
  artifactHashes : Table η
deriving DecidableEq, Repr

/-- A cell of `compact_native_report`; `rest` is what the report keeps of the cell. -/
structure NativeCell (δ η : Type) where
  rest : δ
  detailedResultFile : Path
  detailedResultSha256 : η
deriving DecidableEq, Repr

structure NativeDone (δ η : Type) where
  cells : List (String × NativeCell δ η)
  artifactHashes : Table η
deriving DecidableEq, Repr

/-- `report`. -/
structure Report (δ η : Type) where
  status : String
  inputHashes : Table η
  softwareSha256 : List (String × η)
  candidateSha256 : η
  candidateId : δ
  cells : List (String × δ)
  nativeMap : Option (NativeDone δ η)
  originalInputsUnchanged : Bool
deriving DecidableEq, Repr

structure Artifacts (η : Type) where
  status : String
  inputHashes : Table η
  files : Table (Artifact η)
deriving DecidableEq, Repr

structure Complete (η : Type) where
  status : String
  resultSha256 : η
  artifactManifestSha256 : η
deriving DecidableEq, Repr

inductive Document (δ η : Type) where
  | verification (proof : δ)
  | frozen (runtime : δ)
  | motionStart (inputHashes : Table η) (candidateSha256 : η)
  | motion (done : MotionDone δ η)
  | geometry (done : GeometryDone δ η)
  | native (done : NativeDone δ η)
  | result (report : Report δ η)
  | artifacts (value : Artifacts η)
  | complete (value : Complete η)
  | failure (reason : String)
deriving DecidableEq, Repr

inductive Content (β δ η : Type) where
  | bytes (value : β)
  | document (value : Document δ η)
  | part (whole : Content β δ η) (arrived : ℕ)
deriving DecidableEq, Repr

/-- The output directory. -/
abbrev Output (β δ η : Type) := Disk.Tree (Content β δ η)

structure Cell (δ : Type) where
  frames : List ℤ
  summary : δ

/-- What the modules around know of contents: `digest` and `st_size`; what `read` gives of the candidate; `load_cell` of
the files of a stage; `cell['summary']['input_rate_hz']` and `candidate['candidate_id']`. -/
structure Tools (β δ η : Type) where
  digest : Content β δ η → η
  size : Content β δ η → ℕ
  candidate : Content β δ η → Option δ
  loadCell : (Path → Option (Content β δ η)) → Except String (Cell δ)
  inputRate : δ → ℚ
  candidateId : δ → δ

structure Inner where
  folders : List String
  name : String
  own : name ∉ unlisted
deriving DecidableEq

def Inner.path (i : Inner) : Path := i.folders ++ [i.name]

inductive Write (β : Type) where
  | put (file : Inner) (value : β)
  | remove (file : Inner)

structure Making (β τ : Type) where
  writes : List (Write β)
  outcome : Except String τ

structure Request (β δ η : Type) where
  resume : Bool
  inputHashes : Table η
  modules : List (String × β)
  motionCandidate : Option β
  calibration : Making β Inner
  verify : δ → Content β δ η → Except String δ
  runtime : η → δ → δ
  inputRate : ℚ
  motion : Making β (Cell δ)
  geometry : Option (Making β (Cell δ))
  native : Option (List String × Making β (List (String × δ)))

section
variable {β δ η : Type}

def check (reason : String) : Program (Host (Output β δ η)) String Unit := atomic reason id

/-- A file that is opened with `'w'` and written in one go. -/
def writeBytes (p : Path) (c : Content β δ η) : Program (Host (Output β δ η)) String Unit :=
  attempt "OSError" (Tree.put p c) fun
    | 0 => id
    | way + 1 => Tree.put p (.part c way)

/-- `save`. -/
def save (p : Path) (d : Document δ η) : Program (Host (Output β δ η)) String Unit := do
  writeBytes (temporary p) (.document d)
  check "OSError"
  atomic "OSError" (Tree.rename (temporary p) p)

def makeDirectory (d : Path) (existOk : Bool) : Program (Host (Output β δ η)) String Unit := do
  let there ← view "OSError" fun o => o.dirs.contains d
  raiseIf (there = true ∧ existOk = false) "FileExistsError"
  when (there = false) (atomic "OSError" (Tree.mkdir d))

/-- `stage_hashes`. -/
def stageHashes (tools : Tools β δ η) (folder : String) (o : Output β δ η) : Table η := o.files.below [folder] tools.digest

/-- `verify_stage`. -/
def verifyStage [DecidableEq η] (tools : Tools β δ η) (folder : String) (expected : Table η) :
    Program (Host (Output β δ η)) String Unit := do
  let hashes ← view "OSError" (stageHashes tools folder)
  raiseIf (expected = [] ∨ ¬Table.Agree hashes expected) "completed stage artifact hashes changed or absent"

def loadCell (tools : Tools β δ η) (folder : String) : Program (Host (Output β δ η)) String (Cell δ) := do
  let loaded ← view "OSError" fun o => tools.loadCell fun q => o.file (folder :: q)
  match loaded with
  | .ok cell => return cell
  | .error reason => raise reason

def write (folder : String) : Write β → Program (Host (Output β δ η)) String Unit
  | .put file value => writeBytes (folder :: file.path) (.bytes value)
  | .remove file => atomic "OSError" (Tree.remove (folder :: file.path))

def make {τ : Type} (folder : String) (making : Making β τ) : Program (Host (Output β δ η)) String τ := do
  makeDirectory [folder] false
  each (write folder) making.writes
  match making.outcome with
  | .ok value => return value
  | .error reason => raise reason

/-- The part of `run` before the output directory is its own. -/
def opening (r : Request β δ η) : Program (Host (Output β δ η)) String Unit := do
  check "ValueError"
  let there ← view "OSError" fun o => o.dirs.contains []
  raiseIf (there = true ∧ r.resume = false) "output exists; use new name or explicit --resume"
  raiseIf (r.resume = true ∧ there = false) "resume output does not exist"
  let receipt ← view "OSError" fun o => o.file receiptPath
  raiseIf (r.resume = true ∧ receipt.isSome = true) "此结果已进入存储精简；请从原录包创建新融合任务重建缓存，精简中断请使用继续压缩与精简"
  check "ValueError"
  makeDirectory [] r.resume

/-- One of `refinement_software`. -/
def software [DecidableEq η] (tools : Tools β δ η) : String × β → Program (Host (Output β δ η)) String Unit
  | (name, original) => do
    let target ← view "OSError" fun o => o.file ["refinement_software", name ++ ".py"]
    match target with
    | some content => raiseIf (tools.digest content ≠ tools.digest (.bytes original)) "resume implementation changed"
    | none => writeBytes ["refinement_software", name ++ ".py"] (.bytes original)

/-- `motion_candidate.json`: the one that is there, the one of the arguments, or a new one. -/
def candidate [DecidableEq η] (tools : Tools β δ η) (r : Request β δ η) : Program (Host (Output β δ η)) String Unit :=
  if r.resume then do
    let content ← view "OSError" fun o => o.file candidatePath
    let content ← need content "FileNotFoundError"
    match r.motionCandidate with
    | some other => raiseIf (tools.digest (.bytes other) ≠ tools.digest content) "resume candidate mismatch"
    | none => pure ()
  else
    match r.motionCandidate with
    | some other => writeBytes candidatePath (.bytes other)
    | none => do
      let file ← make "calibration" r.calibration
      let content ← view "OSError" fun o => o.file ("calibration" :: file.path)
      let content ← need content "FileNotFoundError"
      writeBytes candidatePath content

/-- What `read` gives of a marker. -/
def Content.motion : Content β δ η → Option (MotionDone δ η)
  | .document (.motion done) => some done
  | _ => none

def Content.geometry : Content β δ η → Option (GeometryDone δ η)
  | .document (.geometry done) => some done
  | _ => none

def Content.native : Content β δ η → Option (NativeDone δ η)
  | .document (.native done) => some done
  | _ => none

def Content.frozen : Content β δ η → Option δ
  | .document (.frozen runtime) => some runtime
  | _ => none

/-- `frozen_runtime_config.json`. -/
def freeze [DecidableEq δ] (runtime : δ) : Program (Host (Output β δ η)) String Unit := do
  let frozen ← view "OSError" fun o => o.file frozenPath
  match frozen with
  | some content => do
    let old ← need content.frozen "JSONDecodeError"
    raiseIf (old ≠ runtime) "resume effective runtime configuration changed"
  | none => save frozenPath (.frozen runtime)

def motionStage [DecidableEq η] (tools : Tools β δ η) (r : Request β δ η) (sha : η) :
    Program (Host (Output β δ η)) String (Cell δ) := do
  let done ← view "OSError" fun o => o.file Stage.motion.done
  match done with
  | some content => do
    let old ← need content.motion "JSONDecodeError"
    raiseIf (old.status ≠ "COMPLETE" ∨ ¬Table.Agree old.inputHashes r.inputHashes ∨ old.candidateSha256 ≠ sha)
      "completed motion stage belongs to different input/candidate"
    verifyStage tools Stage.motion.folder old.artifactHashes
    let cell ← loadCell tools Stage.motion.folder
    raiseIf (tools.inputRate cell.summary ≠ r.inputRate) "resume input rate changed"
    return cell
  | none => do
    save startPath (.motionStart r.inputHashes sha)
    let cell ← make Stage.motion.folder r.motion
    let hashes ← view "OSError" (stageHashes tools Stage.motion.folder)
    save Stage.motion.done (.motion ⟨"COMPLETE", r.inputHashes, sha, cell.summary, hashes⟩)
    return cell

/-- `digest(output/'calibrated_motion/frontend/index.jsonl')`. -/
def indexDigest (tools : Tools β δ η) : Program (Host (Output β δ η)) String η := do
  let content ← view "OSError" fun o => o.file [Stage.motion.folder, "frontend", "index.jsonl"]
  let content ← need content "FileNotFoundError"
  return tools.digest content

def geometryStage [DecidableEq η] (tools : Tools β δ η) (making : Making β (Cell δ)) :
    Program (Host (Output β δ η)) String (Cell δ) := do
  let done ← view "OSError" fun o => o.file Stage.geometry.done
  match done with
  | some content => do
    let old ← need content.geometry "JSONDecodeError"
    let index ← indexDigest tools
    raiseIf (old.inputIndexSha256 ≠ index) "geometry source index changed"
    verifyStage tools Stage.geometry.folder old.artifactHashes
    loadCell tools Stage.geometry.folder
  | none => do
    let cell ← make Stage.geometry.folder making
    let index ← indexDigest tools
    let hashes ← view "OSError" (stageHashes tools Stage.geometry.folder)
    save Stage.geometry.done (.geometry ⟨"COMPLETE", index, cell.summary, hashes⟩)
    return cell

/-- One cell of `compact_native_report`. -/
def compactCell (tools : Tools β δ η) : String × δ → Program (Host (Output β δ η)) String (String × NativeCell δ η)
  | (name, rest) => do
    let content ← view "OSError" fun o => o.file [Stage.native.folder, name, "result.json"]
    let content ← need content "FileNotFoundError"
    return (name, ⟨rest, [Stage.native.folder, name, "result.json"], tools.digest content⟩)

def nativeStage [DecidableEq η] (tools : Tools β δ η) (selected : List String) (making : Making β (List (String × δ))) :
    Program (Host (Output β δ η)) String (NativeDone δ η) := do
  raiseIf (selected = []) "requested native cell was not produced"
  let done ← view "OSError" fun o => o.file Stage.native.done
  match done with
  | some content => do
    let old ← need content.native "JSONDecodeError"
    raiseIf (¬((∀ c ∈ old.cells, c.1 ∈ selected) ∧ ∀ name ∈ selected, name ∈ old.cells.map Prod.fst))
      "native selection changed; use new output"
    verifyStage tools Stage.native.folder old.artifactHashes
    return old
  | none => do
    let report ← make Stage.native.folder making
    let cells ← collect (compactCell tools) report
    let hashes ← view "OSError" (stageHashes tools Stage.native.folder)
    save Stage.native.done (.native ⟨cells, hashes⟩)
    return ⟨cells, hashes⟩

/-- `report['cells']`, where geometry is on with its cell. -/
def geometryCells [DecidableEq η] (tools : Tools β δ η) (cells : List (String × δ)) :
    Option (Making β (Cell δ)) → Program (Host (Output β δ η)) String (List (String × δ))
  | none => pure cells
  | some making => do
    let geometry ← geometryStage tools making
    return cells ++ [(Stage.geometry.folder, geometry.summary)]

/-- `report['native_map']`, where native maps are asked for. -/
def nativeMap [DecidableEq η] (tools : Tools β δ η) (cells : List String) :
    Option (List String × Making β (List (String × δ))) → Program (Host (Output β δ η)) String (Option (NativeDone δ η))
  | none => pure none
  | some (names, making) => do
    let native ← nativeStage tools (cells.filter fun name => names.contains name) making
    return some native

def Listed (p : Path) : Prop := ∀ name, p.getLast? = some name → name ∉ unlisted

instance (p : Path) : Decidable (Listed p) :=
  match here : p.getLast? with
  | none => isTrue fun name there => by simp [here] at there
  | some last => decidable_of_iff (last ∉ unlisted) (by simp [Listed, here])

def artifact (tools : Tools β δ η) (c : Content β δ η) : Artifact η := ⟨tools.size c, tools.digest c⟩

/-- The artifact list, the result and the completion at the end of `run`. -/
def finish (tools : Tools β δ η) (report : Report δ η) : Program (Host (Output β δ η)) String ℕ := do
  save resultPath (.result { report with status := "FINALIZING_ARTIFACT_HASHES", originalInputsUnchanged := true })
  let artifacts ← view "OSError" fun o => o.files.among Listed (artifact tools)
  save artifactsPath (.artifacts ⟨"FINALIZING_ARTIFACT_HASHES", report.inputHashes, artifacts⟩)
  save resultPath (.result { report with
    status := "OFFLINE_REFINEMENT_COMPLETE_REQUIRES_MAP_REVIEW", originalInputsUnchanged := true })
  let result ← view "OSError" fun o => o.file resultPath
  let result ← need result "FileNotFoundError"
  save artifactsPath (.artifacts ⟨"OFFLINE_REFINEMENT_COMPLETE_REQUIRES_MAP_REVIEW", report.inputHashes,
    (resultPath, artifact tools result) :: artifacts.filter fun e => e.1 ≠ resultPath⟩)
  let result ← view "OSError" fun o => o.file resultPath
  let result ← need result "FileNotFoundError"
  let manifest ← view "OSError" fun o => o.file artifactsPath
  let manifest ← need manifest "FileNotFoundError"
  save completePath (.complete ⟨"OFFLINE_REFINEMENT_COMPLETE_REQUIRES_MAP_REVIEW", tools.digest result, tools.digest manifest⟩)
  check "OSError"
  return 0

variable [DecidableEq δ] [DecidableEq η]

/-- The part of `run` in its output directory. -/
def work (tools : Tools β δ η) (r : Request β δ η) : Program (Host (Output β δ η)) String ℕ := do
  makeDirectory ["refinement_software"] r.resume
  each (software tools) r.modules
  check "ValueError"
  candidate tools r
  let content ← view "OSError" fun o => o.file candidatePath
  let content ← need content "FileNotFoundError"
  let candidate ← need (tools.candidate content) "JSONDecodeError"
  match r.verify candidate content with
  | .error reason => raise reason
  | .ok proof => do
    save verificationPath (.verification proof)
    let sha := tools.digest content
    freeze (r.runtime sha candidate)
    let cell ← motionStage tools r sha
    check "ValueError"
    let report : Report δ η := ⟨"RUNNING", r.inputHashes, r.modules.map fun m => (m.1, tools.digest (.bytes m.2)), sha,
      tools.candidateId candidate, [(Stage.motion.folder, cell.summary)], none, false⟩
    save resultPath (.result report)
    let cells ← geometryCells tools report.cells r.geometry
    save resultPath (.result { report with cells })
    let native ← nativeMap tools (cells.map Prod.fst) r.native
    check "ValueError"
    finish tools { report with cells, nativeMap := native }

/-- `main`. -/
def main (tools : Tools β δ η) (r : Request β δ η) : Program (Host (Output β δ η)) String ℕ :=
  Program.handle (do
    opening r
    Program.handle (work tools r) fun reason => do
      Program.handle (save failurePath (.failure reason)) fun _ => pure ()
      return 2) fun _ => pure 2

end
end Smartwheel.Refinement
